import CrumbleCracker.Virtio.MountTables

/-!
# Where a path leads

A path belongs to its longest mount, and leads to the inode that the mount's backend has at the rest of it. The backends
are described by their directories' children.
-/

namespace CrumbleCracker.Virtio

variable {S : Type}

/-! ## Names -/

variable {name : Name}

theorem baseName_plain (h : Plain name) : baseName name = some name := by
  rw [baseName, cleanPath, components, List.splitOn_eq_singleton h.2.1, List.foldl_cons, cleanComponent_plain h]
  rfl

/-! ## Backends as trees -/

/-- The inode a path leads to from `id`, in a backend with the children `child`. -/
def walk (child : Nat → Name → Option Nat) : Path → Nat → Option Nat
  | [], id => some id
  | name :: path, id => (child id name).bind (walk child path)

namespace MountedFS

section

variable (child : BackendID → Nat → Name → Option Nat) (m : MountedFS)

def inodeAt (path : Path) : Option Nat :=
  walk (child (m.mountBackend path)) (path.drop (m.backendRoute path).length) 1

end

variable {m m' : MountedFS}

section

variable (h : m'.mounts = m.mounts)

include h

theorem isMountPath_congr : m'.isMountPath = m.isMountPath := by
  funext path
  rw [isMountPath, isMountPath, h]

theorem isSyntheticPath_congr : m'.isSyntheticPath = m.isSyntheticPath := by
  funext path
  rw [isSyntheticPath, isSyntheticPath, isMountPath_congr h, h]

theorem mountForPath_congr : m'.mountForPath = m.mountForPath := by
  funext path
  rw [mountForPath, mountForPath, h]

theorem backendRoute_congr : m'.backendRoute = m.backendRoute := by
  funext path
  rw [backendRoute, backendRoute, mountForPath_congr h]

theorem mountBackend_congr (hroot : m'.root = m.root) : m'.mountBackend = m.mountBackend := by
  funext path
  rw [mountBackend, mountBackend, mountForPath_congr h, hroot]

end

theorem inodeAt_congr (child : BackendID → Nat → Name → Option Nat) (h : m'.mounts = m.mounts)
    (hroot : m'.root = m.root) :
    m'.inodeAt child = m.inodeAt child := by
  funext path
  rw [inodeAt, inodeAt, mountBackend_congr h hroot, backendRoute_congr h]

end MountedFS

/-- The backend inode of a node as the tables name it. -/
def MountedNode.key (node : MountedNode) : Option BackendKey :=
  node.backend.map fun backend => ⟨backend, node.backendRoute, node.backendNodeID⟩

/-! ## Requests leave the mounts alone -/

def SameMounts (m m' : MountedFS) : Prop := m'.mounts = m.mounts ∧ m'.root = m.root

section Mounts

variable {m m' : MountedFS}

theorem sameMounts_deleteNodeIfDetached (m : MountedFS) (id : Nat) : SameMounts m (m.deleteNodeIfDetached id) := by
  unfold MountedFS.deleteNodeIfDetached
  split <;> exact ⟨rfl, rfl⟩

theorem sameMounts_bindPath (m : MountedFS) (path : Path) (id : Nat) : SameMounts m (m.bindPath path id) := by
  unfold MountedFS.bindPath
  split
  · exact ⟨rfl, rfl⟩
  · split
    · exact ⟨rfl, rfl⟩
    · split
      · exact ⟨rfl, rfl⟩
      · exact sameMounts_deleteNodeIfDetached _ _

theorem sameMounts_unbindPath (m : MountedFS) (order : Iteration) (path : Path) :
    SameMounts m (m.unbindPath order path) := by
  obtain ⟨heq, -⟩ | ⟨id, -, heq | ⟨p, heq⟩⟩ := MountedFS.unbindPath_eq m order path <;> rw [heq] <;> exact ⟨rfl, rfl⟩

theorem SameMounts.trans {m'' : MountedFS} (h : SameMounts m m') (h' : SameMounts m' m'') : SameMounts m m'' :=
  ⟨h'.1.trans h.1, h'.2.trans h.2⟩

theorem sameMounts_foldl {α : Type} {f : MountedFS → α → MountedFS} (hf : ∀ m a, SameMounts m (f m a)) (l : List α)
    (m : MountedFS) : SameMounts m (l.foldl f m) := by
  induction l generalizing m with
  | nil => exact ⟨rfl, rfl⟩
  | cons a l ih => exact (hf m a).trans (ih (f m a))

theorem Grow.sameMounts (h : Grow m m') : SameMounts m m' := by
  cases h with
  | ensureNode path =>
    unfold MountedFS.ensureNode
    split
    · exact ⟨rfl, rfl⟩
    · exact sameMounts_bindPath (m.addNode path none 0) _ _
  | ensureResolvedNode path backend nodeID =>
    unfold MountedFS.ensureResolvedNode
    dsimp only
    split
    · exact sameMounts_bindPath _ _ _
    · split
      · dsimp only
        split <;> exact ⟨rfl, rfl⟩
      · exact sameMounts_bindPath (m.addNode path (some backend) nodeID) _ _
  | shownInode backend ino =>
    unfold MountedFS.shownInode
    split <;> exact ⟨rfl, rfl⟩
  | storeHandle handle | rewind fh entries started hhandle => exact ⟨rfl, rfl⟩

theorem sameMounts_of_grows (h : Grows m m') : SameMounts m m' := by
  induction h with
  | refl => exact ⟨rfl, rfl⟩
  | tail _ hstep ih => exact ih.trans hstep.sameMounts

theorem sameMounts_collectDetachedNode (m : MountedFS) (id : Nat) : SameMounts m (m.collectDetachedNode id) := by
  unfold MountedFS.collectDetachedNode
  split <;> exact ⟨rfl, rfl⟩

theorem sameMounts_takeHandle (m : MountedFS) (fh : Nat) (dir : Bool) : SameMounts m (m.takeHandle fh dir).2 := by
  unfold MountedFS.takeHandle
  split <;> exact ⟨rfl, rfl⟩

theorem sameMounts_removeNode (m : MountedFS) (order : Iteration) (path : Path) :
    SameMounts m (m.removeNode order path) :=
  (sameMounts_foldl (fun m p => sameMounts_unbindPath m order p) _ m).trans
    (sameMounts_foldl sameMounts_deleteNodeIfDetached _ _)

theorem sameMounts_renameNode (m : MountedFS) (order : Iteration) (oldPath newPath : Path) :
    SameMounts m (m.renameNode order oldPath newPath) := by
  refine (sameMounts_foldl (fun m p => sameMounts_unbindPath m order p) _ m).trans
    (sameMounts_foldl (fun m p => ?_) _ _)
  split
  · exact (sameMounts_bindPath m p _).trans ⟨rfl, rfl⟩
  · exact ⟨rfl, rfl⟩

theorem Shrink.sameMounts {order : Iteration} {r : MountRequest} (h : Shrink order m r m') : SameMounts m m' := by
  cases h with
  | release id fh => exact (sameMounts_takeHandle m fh false).trans (sameMounts_collectDetachedNode _ _)
  | releaseDir id fh => exact (sameMounts_takeHandle m fh true).trans (sameMounts_collectDetachedNode _ _)
  | forget _ fh dir => exact sameMounts_takeHandle m fh dir
  | rmDir parent name caller hparent | unlink parent name caller hparent => exact sameMounts_removeNode m order _
  | rename parent name newParent newName flags caller hold hnew => exact sameMounts_renameNode m order _ _

theorem sameMounts_run (B : Backends S) (rs : List (Iteration × MountRequest)) (w : MountWorld S) :
    SameMounts w.fs (B.run rs w).2.fs := by
  induction rs generalizing w with
  | nil => exact ⟨rfl, rfl⟩
  | cons head rest ih =>
    refine SameMounts.trans ?_ (ih (B.serve head.1 head.2 w).2)
    rcases serve_tables B head.1 head.2 w with hgrows | hshrink
    · exact sameMounts_of_grows hgrows
    · exact hshrink.sameMounts

end Mounts

end CrumbleCracker.Virtio

import CrumbleCracker.Virtio.MountTree

/-!
# Saving and restoring the router's inodes

A snapshot is the list of the nodes' paths, in the order of their ids. `RestoreNodePaths` looks the paths up again in a
new router, each one's directories before it, and the router hands out ids from 2 on. So the guest finds its inodes
again if the nodes come up in the order of their ids (`MountedFS.visit`, `restore_same`); otherwise the ids are shifted
(`restore_shifts`).
-/

namespace CrumbleCracker.Virtio

open Prog List Std.ExtTreeMap Option MountedFS

variable {path : Path} {backend : BackendID} {node : MountedNode}

/-! ## Snapshots -/

def pathString (path : Path) : Bytes := slash :: joinPath path

namespace MountedFS

/-- The other paths of an inode, in the order of the strings. -/
def aliases (m : MountedFS) (id : Nat) (path : Path) : List Path :=
  (m.pathToNode.keys.filter fun p => m.pathToNode[p]? = some id ∧ p ≠ path).mergeSort
    fun a b => (compare (pathString a) (pathString b)).isLE

def nodePaths (m : MountedFS) : List Path :=
  m.nodes.toList.flatMap fun (id, node) => node.path :: m.aliases id node.path

/-- What restoring a path looks up: its directories below the root, and itself. -/
def lookedUp (path : Path) : List Path := path.inits.tail

def snapshotNodePaths (m : MountedFS) : List Bytes := m.nodePaths.map pathString

end MountedFS

inductive NodePathError
  | parentNotCreated (path parent : Path)
  | lookup (path : Path) (errno : Errno)
  | lookupAfterMkdir (path : Path) (errno : Errno)
  | mapped (path : Path) (mapped want : Nat)
  deriving DecidableEq

abbrev NodePathM (S α : Type) := Prog (MountWorld S) NodePathError α

variable {S : Type}

def nodeIDForPath (path : Path) : NodePathM S (Option Nat) := .read fun w => w.fs.pathToNode[path]?

namespace Backends

variable (B : Backends S)

/-- The inode of a path's last component, which is made a directory if it is not there. -/
def restoredID (path : Path) (parentID : Nat) (name : Name) : NodePathM S Nat := do
  let found ← (B.lookup parentID name).attempt
  match found with
  | .ok (id, _) => return id
  | .error _ =>
    let made ← (B.mkdir parentID name 0x1ed {}).attempt
    match made with
    | .ok (id, _) => return id
    | .error .EEXIST =>
      let again ← (B.lookup parentID name).attempt
      match again with
      | .ok (id, _) => return id
      | .error errno => .fail (.lookupAfterMkdir path errno)
    | .error errno => .fail (.lookup path errno)

def restoreChild (path : Path) (parentID : Nat) : NodePathM S Unit := do
  let childID ← B.restoredID path parentID (path.getLast?.getD [])
  let mapped ← nodeIDForPath path
  Prog.require (mapped = some childID) (.mapped path (mapped.getD 0) childID)

/-- `restoreNodePath`; the recursion goes up to `/`, which a new router knows. -/
def restoreNodePath : (fuel : Nat) → Path → NodePathM S Unit
  | 0, path => .fail (.parentNotCreated path path.dropLast)
  | fuel + 1, path => do
    let parentID ← nodeIDForPath path.dropLast
    match parentID with
    | some id => B.restoreChild path id
    | none =>
      restoreNodePath fuel path.dropLast
      let parentID ← nodeIDForPath path.dropLast
      match parentID with
      | some id => B.restoreChild path id
      | none => .fail (.parentNotCreated path path.dropLast)

def restoreNodePaths (paths : List Bytes) : NodePathM S Unit :=
  paths.forM fun nodePath =>
    if cleanPath nodePath = [] then return () else B.restoreNodePath (cleanPath nodePath).length (cleanPath nodePath)

end Backends

/-! ## Paths as strings -/

theorem cleanPath_pathString (h : ∀ name ∈ path, Plain name) : cleanPath (pathString path) = path := by
  have hskip : components (pathString path) = [] :: components (joinPath path) := by
    rw [components, pathString, splitOn_cons_eq_if_modifyHead, if_pos (beq_self_eq_true slash), components]
  rw [cleanPath, hskip, foldl_cons]
  exact cleanPath_joinPath h

/-! ## What the backends show -/

/-- In the states of `J` the backends have the children `child`, and lookups stay in `J`. -/
structure ShowsTree (B : Backends S) (child : BackendID → Nat → Name → Option Nat) (J : S → Prop) : Prop where
  lookup : ∀ {s backend id name n}, J s → child backend id name = some n →
    (∃ attr, (B.answer backend (.lookup id name) s).1 = .ok (n, attr)) ∧ J (B.answer backend (.lookup id name) s).2
  getAttr : ∀ {s backend path n}, J s → walk (child backend) path 1 = some n →
    (∃ attr, (B.answer backend (.getAttr n) s).1 = .ok attr) ∧ J (B.answer backend (.getAttr n) s).2

namespace MountedFS

variable (child : BackendID → Nat → Name → Option Nat) (m : MountedFS)

/-- The backend inode at a path as the tables name it; directories above mounts have none. -/
def keyAt (path : Path) : Option BackendKey :=
  if m.isSyntheticPath path then none else (m.inodeAt child path).map (m.backendKey path (m.mountBackend path))

/-- The backend inode a node stands for: what is cached, or else what its path leads to. -/
def refersTo (node : MountedNode) : Option (BackendID × Nat) :=
  if node.path = [] then some (m.root, 1)
  else if m.isSyntheticPath node.path then none
  else match node.backend with
    | some backend => some (backend, node.backendNodeID)
    | none => (m.inodeAt child node.path).map fun id => (m.mountBackend node.path, id)

/-- The next id after the path is looked up in a router that has handed out those below `k`: its inode has one of these,
or is the next one and shows this path. -/
def visit (k : Nat) (path : Path) : Option Nat :=
  m.pathToNode[path]?.bind fun id =>
    if id < k then some k
    else if id = k ∧ (m.nodes[id]?.any fun node => node.path = path) then some (k + 1)
    else none

/-- Every bound path has its directory's path shown by an inode, and leads to the backend inode that its own inode
stands for, and no other inode does; looked up in the order of the snapshot, the inodes come up in the order of their
ids. -/
structure Restorable : Prop where
  root : ∃ node, m.nodes[1]? = some node ∧ node.path = [] ∧ ∀ path : Path, m.pathToNode[path]? = some 1 → path = []
  positive : ∀ id, m.Live id → 1 ≤ id
  bound : ∀ {id : Nat} {node : MountedNode}, m.nodes[id]? = some node → m.pathToNode[node.path]? = some id
  live : ∀ {path : Path} {id : Nat}, m.pathToNode[path]? = some id → m.Live id
  plain : ∀ {path : Path} {id : Nat}, m.pathToNode[path]? = some id → ∀ name ∈ path, Plain name
  parents : ∀ {path : Path} {id : Nat}, m.pathToNode[path]? = some id →
    ∃ (parent : Nat) (node : MountedNode), m.nodes[parent]? = some node ∧ node.path = path.dropLast
  ordered : ∃ n, (m.nodePaths.flatMap lookedUp).foldlM m.visit 2 = some n
  synthetic : ∀ {path : Path} {id : Nat}, m.pathToNode[path]? = some id → m.isSyntheticPath path = true →
    ∀ path', m.pathToNode[path']? = some id → path' = path
  resolves : ∀ {path : Path} {id : Nat} {node : MountedNode}, m.pathToNode[path]? = some id → path ≠ [] →
    m.isSyntheticPath path = false → m.nodes[id]? = some node → ∃ n, m.inodeAt child path = some n ∧
      m.keyAt child path = m.keyAt child node.path ∧
      (node.backend = none ∨ node.backend = some (m.mountBackend path) ∧ node.backendNodeID = n)
  distinct : ∀ {id id' : Nat} {node node' : MountedNode}, m.nodes[id]? = some node → m.nodes[id']? = some node' →
    id ≠ 1 → id' ≠ 1 → m.keyAt child node.path = m.keyAt child node'.path → m.keyAt child node.path ≠ none → id = id'

end MountedFS

/-- A router that has looked up the paths in `done`: the nodes of `m` with ids below `k` are there, and nothing else. -/
structure Restored (child : BackendID → Nat → Name → Option Nat) (m : MountedFS) (k : Nat) (done : List Path)
    (m' : MountedFS) : Prop where
  mounts : m'.mounts = m.mounts
  root : m'.root = m.root
  next : m'.nextNodeID = k
  paths : ∀ p : Path, m'.pathToNode[p]? = if p ∈ done then m.pathToNode[p]? else none
  below : ∀ p ∈ done, ∃ id < k, m.pathToNode[p]? = some id
  nodes : ∀ {id : Nat} {node : MountedNode}, m.nodes[id]? = some node → id < k → node.path ∈ done ∧
    ∃ node', m'.nodes[id]? = some node' ∧ node'.path = node.path ∧ (id ≠ 1 → node'.key = m.keyAt child node.path)
  keys : ∀ {key : BackendKey} {id : Nat}, m'.backendNodes key = some id ↔
    ∃ node, m.nodes[id]? = some node ∧ id ≠ 1 ∧ id < k ∧ m.keyAt child node.path = some key

/-- The inodes the guest may know have the paths and the backend inodes they had. -/
structure SameIdentities (child : BackendID → Nat → Name → Option Nat) (m m' : MountedFS) : Prop where
  paths : ∀ p : Path, m'.pathToNode[p]? = m.pathToNode[p]?
  nodes : ∀ {id : Nat} {node : MountedNode}, m.nodes[id]? = some node → ∃ node', m'.nodes[id]? = some node' ∧
    node'.path = node.path ∧ m'.refersTo child node' = m.refersTo child node

/-! ## One path -/

namespace MountedFS

variable {m m' : MountedFS}

theorem bindPath_unbound (h : m.pathToNode[path]? = none) (id : Nat) : m.bindPath path id = m.addPath path id := by
  rw [bindPath, h]

theorem ensureNode_unbound (h : m.pathToNode[path]? = none) :
    m.ensureNode path = (m.nextNodeID, (m.addNode path none 0).addPath path m.nextNodeID) := by
  rw [ensureNode, h]
  exact congrArg _ (bindPath_unbound (m := m.addNode path none 0) h _)

theorem bindPath_same {id : Nat} (h : m.pathToNode[path]? = some id) : m.bindPath path id = m := by
  rw [bindPath, h]
  exact if_pos rfl

theorem ensureResolvedNode_known {nodeID id : Nat}
    (hkey : m.backendNodes (m.backendKey path backend nodeID) = some id) :
    m.ensureResolvedNode path backend nodeID = (id, m.bindPath path id) := by
  rw [ensureResolvedNode, hkey]

theorem ensureResolvedNode_new {nodeID : Nat} (h : m.pathToNode[path]? = none)
    (hkey : m.backendNodes (m.backendKey path backend nodeID) = none) :
    m.ensureResolvedNode path backend nodeID = (m.nextNodeID,
      ((m.addNode path (some backend) nodeID).addPath path m.nextNodeID).setBackendNode
        (m.backendKey path backend nodeID) m.nextNodeID) := by
  rw [ensureResolvedNode, hkey, h]
  exact congrArg (fun m' => (m.nextNodeID, setBackendNode m' _ _))
    (bindPath_unbound (m := m.addNode path (some backend) nodeID) h _)

end MountedFS

variable {n : Nat}

namespace Restored

variable {child : BackendID → Nat → Name → Option Nat} {m m' m'' : MountedFS} {k : Nat} {done : List Path}

section

variable (h : Restored child m k done m')

include h

theorem shownInode (backend : BackendID) (ino : Nat) : Restored child m k done (m'.shownInode backend ino).2 := by
  unfold MountedFS.shownInode
  split
  · exact h
  · exact ⟨h.mounts, h.root, h.next, h.paths, h.below, h.nodes, h.keys⟩

theorem addAlias {id : Nat} (hpath : m.pathToNode[path]? = some id) (hid : id < k) :
    Restored child m k (path :: done) (m'.addPath path id) where
  mounts := h.mounts
  root := h.root
  next := h.next
  paths p := by
    simp only [addPath, Std.ExtTreeMap.getElem?_insert, Std.LawfulEqCmp.compare_eq_iff_eq, mem_cons, h.paths]
    grind
  below := forall_mem_cons.2 ⟨⟨id, hid, hpath⟩, h.below⟩
  nodes hnode hlt := ⟨mem_cons_of_mem _ (h.nodes hnode hlt).1, (h.nodes hnode hlt).2⟩
  keys := h.keys

theorem addNode (node' : MountedNode) (hnode : m.nodes[k]? = some node)
    (hpath : m.pathToNode[node.path]? = some k) (hk : k ≠ 1) (hnode' : node'.path = node.path)
    (hkey : node'.key = m.keyAt child node.path) (hmounts : m''.mounts = m'.mounts) (hroot : m''.root = m'.root)
    (hnext : m''.nextNodeID = k + 1) (hnodes : m''.nodes = m'.nodes.insert k node')
    (hpaths : m''.pathToNode = m'.pathToNode.insert node.path k) (hkeys : ∀ key id, m''.backendNodes key = some id ↔
      m'.backendNodes key = some id ∨ id = k ∧ m.keyAt child node.path = some key) :
    Restored child m (k + 1) (node.path :: done) m'' where
  mounts := hmounts.trans h.mounts
  root := hroot.trans h.root
  next := hnext
  paths p := by
    simp only [hpaths, Std.ExtTreeMap.getElem?_insert, Std.LawfulEqCmp.compare_eq_iff_eq, mem_cons, h.paths]
    grind
  below := by
    refine forall_mem_cons.2 ⟨⟨k, Nat.lt_succ_self k, hpath⟩, fun p hp => ?_⟩
    obtain ⟨id, hid, hp⟩ := h.below p hp
    exact ⟨id, Nat.lt_succ_of_lt hid, hp⟩
  nodes {id node₁} hid hlt := by
    rw [hnodes, Std.ExtTreeMap.getElem?_insert]
    by_cases heq : id = k
    · subst heq
      obtain rfl := some.inj (hnode.symm.trans hid)
      exact ⟨mem_cons_self, node', by simp, hnode', fun _ => hkey⟩
    · obtain ⟨hdone, found⟩ := h.nodes hid (by omega)
      rw [if_neg (by simpa [Std.LawfulEqCmp.compare_eq_iff_eq] using Ne.symm heq)]
      exact ⟨mem_cons_of_mem _ hdone, found⟩
  keys {key id} := by
    rw [hkeys, h.keys]
    constructor
    · rintro (⟨node₁, hid, hne, hlt, hkey'⟩ | ⟨rfl, hkey'⟩)
      · exact ⟨node₁, hid, hne, Nat.lt_succ_of_lt hlt, hkey'⟩
      · exact ⟨node, hnode, hk, Nat.lt_succ_self _, hkey'⟩
    · rintro ⟨node₁, hid, hne, hlt, hkey'⟩
      rcases Nat.lt_succ_iff_lt_or_eq.mp hlt with hlt | rfl
      · exact .inl ⟨node₁, hid, hne, hlt, hkey'⟩
      · exact .inr ⟨rfl, some.inj (hnode.symm.trans hid) ▸ hkey'⟩

theorem ensureNode (hnode : m.nodes[k]? = some node)
    (hpath : m.pathToNode[node.path]? = some k) (hk : k ≠ 1) (hfree : m'.pathToNode[node.path]? = none)
    (hsynthetic : m.isSyntheticPath node.path = true) :
    (m'.ensureNode node.path).1 = k ∧ Restored child m (k + 1) (node.path :: done) (m'.ensureNode node.path).2 := by
  have hkey : m.keyAt child node.path = none := by rw [keyAt, if_pos hsynthetic]
  rw [ensureNode_unbound hfree]
  refine ⟨h.next, ?_⟩
  rw [h.next]
  refine h.addNode { path := node.path, backendRoute := m'.backendRoute node.path } hnode hpath hk rfl hkey.symm
    rfl rfl ?_ ?_ rfl fun key id => ?_
  · show m'.nextNodeID + 1 = k + 1
    rw [h.next]
  · show m'.nodes.insert m'.nextNodeID _ = _
    rw [h.next]
  · rw [hkey]
    exact ⟨.inl, fun hor => hor.elim (fun hold => hold) fun hnew => nomatch hnew.2⟩

theorem backendKey_eq (path : Path) (backend : BackendID) (nodeID : Nat) :
    m'.backendKey path backend nodeID = m.backendKey path backend nodeID := by
  rw [backendKey, backendKey, backendRoute_congr h.mounts]

theorem ensureResolvedNode (hm : m.Restorable child) (hnode : m.nodes[k]? = some node) (hk : k ≠ 1)
    (hfree : m'.pathToNode[node.path]? = none)
    (hkey : m.keyAt child node.path = some (m.backendKey node.path (m.mountBackend node.path) n)) :
    (m'.ensureResolvedNode node.path (m.mountBackend node.path) n).1 = k ∧
      Restored child m (k + 1) (node.path :: done)
        (m'.ensureResolvedNode node.path (m.mountBackend node.path) n).2 := by
  have hnew : m'.backendNodes (m.backendKey node.path (m.mountBackend node.path) n) = none := by
    cases hid : m'.backendNodes (m.backendKey node.path (m.mountBackend node.path) n) with
    | none => rfl
    | some id =>
      obtain ⟨node', hnode', hne, hlt, hkey'⟩ := h.keys.mp hid
      exact absurd (hm.distinct hnode' hnode hne hk (hkey'.trans hkey.symm) (hkey' ▸ some_ne_none _)) hlt.ne
  rw [ensureResolvedNode_new hfree (h.backendKey_eq node.path _ n ▸ hnew), h.next]
  refine ⟨rfl, ?_⟩
  rw [h.backendKey_eq]
  refine h.addNode ⟨node.path, some (m.mountBackend node.path), n, m'.backendRoute node.path⟩ hnode
    (hm.bound hnode) hk rfl
    ?_ rfl rfl ?_ ?_ rfl fun key id => ?_
  · rw [hkey, ← h.backendKey_eq]
    rfl
  · show m'.nextNodeID + 1 = k + 1
    rw [h.next]
  · show m'.nodes.insert m'.nextNodeID _ = _
    rw [h.next]
  · show (if key = m.backendKey node.path (m.mountBackend node.path) n then some k else m'.backendNodes key) = some id ↔
      _
    rw [hkey]
    split
    · next heq =>
      subst heq
      rw [hnew]
      simp [eq_comm]
    · next hne => simp [Ne.symm hne]

theorem mono {done' : List Path} (hdone : ∀ p, p ∈ done' ↔ p ∈ done) : Restored child m k done' m' where
  mounts := h.mounts
  root := h.root
  next := h.next
  paths p := by rw [h.paths, if_congr (hdone p) rfl rfl]
  below p hp := h.below p ((hdone p).mp hp)
  nodes hnode hlt := ⟨(hdone _).mpr (h.nodes hnode hlt).1, (h.nodes hnode hlt).2⟩
  keys := h.keys

theorem ensureResolvedNode_alias {id : Nat} (hnode : m.nodes[id]? = some node) (hpath : m.pathToNode[path]? = some id)
    (hid : id ≠ 1) (hlt : id < k) (hkey : m.keyAt child node.path = some (m.backendKey path (m.mountBackend path) n)) :
    (m'.ensureResolvedNode path (m.mountBackend path) n).1 = id ∧
      Restored child m k (path :: done) (m'.ensureResolvedNode path (m.mountBackend path) n).2 := by
  have hknown : m'.backendNodes (m'.backendKey path (m.mountBackend path) n) = some id := by
    rw [h.backendKey_eq]
    exact h.keys.mpr ⟨node, hnode, hid, hlt, hkey⟩
  rw [ensureResolvedNode_known hknown]
  refine ⟨rfl, ?_⟩
  by_cases hdone : path ∈ done
  · rw [bindPath_same (by rw [h.paths, if_pos hdone, hpath])]
    refine h.mono fun p => ?_
    rw [mem_cons, or_iff_right_of_imp (· ▸ hdone)]
  · rw [bindPath_unbound (by rw [h.paths, if_neg hdone])]
    exact h.addAlias hpath hlt

end

end Restored

section Lookup

variable {B : Backends S} {child : BackendID → Nat → Name → Option Nat} {J : S → Prop} {m m' : MountedFS} {k : Nat}
  {done : List Path}

abbrev Succeeds {α ε : Type} (P : MountWorld S → Prop) (x : Prog (MountWorld S) ε α)
    (Q : α → MountWorld S → Prop) : Prop :=
  Triple P x Q fun _ _ => False

abbrev Shown (J : S → Prop) (m : MountedFS) : MountWorld S → Prop := At m fun w => J w.backends

variable (hB : ShowsTree B child J)

include hB

theorem succeeds_lookupPath {id : Nat} (h : walk (child backend) path id = some n) :
    Succeeds (Shown J m') (B.lookupPath backend path id)
      fun found w => found = n ∧ Shown J m' w := by
  induction path generalizing id with
  | nil => exact triple_pure fun w hw => ⟨some.inj h, hw⟩
  | cons name path ih =>
    obtain ⟨next, hnext, hrest⟩ := bind_eq_some_iff.mp h
    have hcall : Succeeds (Shown J m') (B.call backend (.lookup id name))
        fun found w => found.1 = next ∧ Shown J m' w := by
      intro w hw
      obtain ⟨⟨attr, hanswer⟩, hJ⟩ := hB.lookup hw.2 hnext
      rw [Backends.call, hanswer]
      exact ⟨rfl, hw.1, hJ⟩
    refine hcall.bind fun found w hw => ?_
    exact ih (hw.1 ▸ hrest) w hw.2

/-- The node at the path, if it has been resolved, stands for this inode. -/
def Knows (m : MountedFS) (path : Path) (n : Nat) : Prop :=
  ∀ node backend, m.nodeForPath path = some node → node.backend = some backend →
    backend = m.mountBackend path ∧ node.backendNodeID = n

theorem succeeds_resolveBackendNode (hpath : path ≠ []) (hknows : Knows m' path n)
    (hinode : m'.inodeAt child path = some n) : Succeeds (Shown J m') (B.resolveBackendNode path)
      fun found w => found = (m'.mountBackend path, n, m'.mountForPath path) ∧ Shown J m' w := by
  refine at_readTables ?_
  simp only [id, if_neg hpath]
  split
  · next backend nodeID _ hnode =>
    obtain ⟨rfl, rfl⟩ := hknows _ _ hnode rfl
    exact triple_pure fun w hw => ⟨rfl, hw⟩
  · refine (succeeds_lookupPath hB hinode).bind fun found => triple_pure fun w hw => ⟨?_, hw.2⟩
    rw [hw.1]

omit hB in
theorem succeeds_shownNode (path : Path) (backend : BackendID) (reply : Nat × FuseAttr) :
    Succeeds (Shown J m') (shownNode path backend reply) fun found w =>
      found.1 = (m'.ensureResolvedNode path backend reply.1).1 ∧
        (∃ ino, w.fs = ((m'.ensureResolvedNode path backend reply.1).2.shownInode backend ino).2) ∧ J w.backends := by
  refine Triple.bind (Q := fun id w => id = (m'.ensureResolvedNode path backend reply.1).1 ∧
    w.fs = (m'.ensureResolvedNode path backend reply.1).2 ∧ J w.backends) (triple_update fun w hw => ?_) fun id => ?_
  · rw [hw.1]
    exact ⟨rfl, rfl, hw.2⟩
  · refine Triple.bind (Q := fun _ w => id = (m'.ensureResolvedNode path backend reply.1).1 ∧
      (∃ ino, w.fs = ((m'.ensureResolvedNode path backend reply.1).2.shownInode backend ino).2) ∧ J w.backends) ?_
      fun _ => triple_pure fun w hw => hw
    refine Triple.bind (triple_update fun w hw => ?_) fun shown => triple_pure fun w hw => hw
    exact ⟨hw.1, ⟨_, by rw [hw.2.1]⟩, hw.2.2⟩

variable {parent : Nat} {parentNode : MountedNode}

theorem succeeds_lookup {name : Name} (hparent : m'.nodes[parent]? = some parentNode) (hname : Plain name)
    (hknows : Knows m' (parentNode.path ++ [name]) n)
    (hsynthetic : m'.isSyntheticPath (parentNode.path ++ [name]) = false)
    (hinode : m'.inodeAt child (parentNode.path ++ [name]) = some n) :
    Succeeds (Shown J m') (B.lookup parent name) fun found w =>
      let ensured := m'.ensureResolvedNode (parentNode.path ++ [name]) (m'.mountBackend (parentNode.path ++ [name])) n
      found.1 = ensured.1 ∧ (∃ ino, w.fs = (ensured.2.shownInode (m'.mountBackend (parentNode.path ++ [name])) ino).2) ∧
        J w.backends := by
  generalize hpath : parentNode.path ++ [name] = path at *
  refine at_node_some hparent ?_
  simp only [baseName_plain hname, hpath]
  refine at_readTables ?_
  simp only [hsynthetic, Bool.false_eq_true, if_false]
  have hne : path ≠ [] := by
    rw [← hpath]
    exact append_ne_nil_of_right_ne_nil _ (cons_ne_nil _ _)
  have hattr : Succeeds (Shown J m') (B.call (m'.mountBackend path) (.getAttr n))
      fun _ => Shown J m' := by
    intro w hw
    obtain ⟨⟨attr, hanswer⟩, hJ⟩ := hB.getAttr hw.2 hinode
    rw [Backends.call, hanswer]
    exact ⟨hw.1, hJ⟩
  have hfound : Succeeds (Shown J m')
      (B.call (m'.mountBackend path) (.getAttr n) >>= fun attr => shownNode path (m'.mountBackend path) (n, attr))
      fun found w => found.1 = (m'.ensureResolvedNode path (m'.mountBackend path) n).1 ∧
        (∃ ino,
          w.fs = ((m'.ensureResolvedNode path (m'.mountBackend path) n).2.shownInode (m'.mountBackend path) ino).2) ∧
          J w.backends :=
    hattr.bind fun attr => succeeds_shownNode path (m'.mountBackend path) (n, attr)
  refine (succeeds_resolveBackendNode hB hne hknows hinode).bind fun found w hw => ?_
  obtain ⟨rfl, hw⟩ := hw
  exact hfound w hw

omit hB in
theorem succeeds_lookup_synthetic {name : Name} (hparent : m'.nodes[parent]? = some parentNode) (hname : Plain name)
    (hsynthetic : m'.isSyntheticPath (parentNode.path ++ [name]) = true) :
    Succeeds (Shown J m') (B.lookup parent name) fun found w =>
      found.1 = (m'.ensureNode (parentNode.path ++ [name])).1 ∧
        w.fs = (m'.ensureNode (parentNode.path ++ [name])).2 ∧ J w.backends := by
  refine at_node_some hparent ?_
  simp only [baseName_plain hname]
  refine at_readTables ?_
  simp only [hsynthetic, if_true]
  refine Triple.bind (Q := fun id w => id = (m'.ensureNode (parentNode.path ++ [name])).1 ∧
    w.fs = (m'.ensureNode (parentNode.path ++ [name])).2 ∧ J w.backends) (triple_update fun w hw => ?_) fun id => ?_
  · rw [hw.1]
    exact ⟨rfl, rfl, hw.2⟩
  · exact triple_pure fun w hw => hw

omit hB in
/-- A lookup that succeeds and binds the path is all that restoring a path in its directory does. -/
theorem succeeds_restoreChild (id : Nat) {Q : MountWorld S → Prop}
    (hlookup : Succeeds (Shown J m') (B.lookup parent (path.getLast?.getD []))
      fun found w => found.1 = id ∧ w.fs.pathToNode[path]? = some id ∧ Q w) :
    Succeeds (Shown J m') (B.restoreChild path parent) fun _ => Q := by
  have hfound : Succeeds (Shown J m') (B.restoredID path parent (path.getLast?.getD []))
      fun found w => found = id ∧ w.fs.pathToNode[path]? = some id ∧ Q w := by
    refine hlookup.attempt.bind fun found => ?_
    cases found with
    | ok found => exact triple_pure fun w hw => hw
    | error e => exact fun w hw => False.elim hw
  have hmapped : Succeeds (fun w => w.fs.pathToNode[path]? = some id ∧ Q w) (nodeIDForPath path)
      fun found w => found = some id ∧ Q w := triple_read fun w hw => hw
  refine hfound.bind fun childID w hw => ?_
  obtain ⟨rfl, hw⟩ := hw
  refine (hmapped.bind fun mapped => ?_) w hw
  exact triple_require (fun _ hw _ => hw.2) fun _ hw hne => hne hw.1

end Lookup

section Step

variable {B : Backends S} {child : BackendID → Nat → Name → Option Nat} {J : S → Prop} {m m' : MountedFS} {k k' : Nat}
  {done : List Path}

theorem MountedFS.visit_some (h : m.visit k path = some k') : ∃ id, m.pathToNode[path]? = some id ∧
    (id < k ∧ k' = k ∨ id = k ∧ k' = k + 1 ∧ ∃ node, m.nodes[k]? = some node ∧ node.path = path) := by
  obtain ⟨id, hid, h⟩ := bind_eq_some_iff.mp h
  refine ⟨id, hid, ?_⟩
  split at h
  · next hlt => exact .inl ⟨hlt, (some.inj h).symm⟩
  · split at h
    · next hown =>
      obtain ⟨rfl, hshows⟩ := hown
      obtain ⟨node, hnode, hpath⟩ := (any_eq_true _ _).mp hshows
      exact .inr ⟨rfl, (some.inj h).symm, node, hnode, by simpa using hpath⟩
    · cases h

theorem MountedFS.Restorable.ne_one (hm : m.Restorable child) {id : Nat} (hpath : m.pathToNode[path]? = some id)
    (hne : path ≠ []) : id ≠ 1 := by
  rintro rfl
  obtain ⟨-, -, -, honly⟩ := hm.root
  exact hne (honly path hpath)

theorem Restored.parent (h : Restored child m k done m') (hm : m.Restorable child) {id : Nat}
    (hpath : m.pathToNode[path]? = some id) (hne : path ≠ []) (hdir : path.dropLast ∈ done) :
    ∃ parent node', m'.pathToNode[path.dropLast]? = some parent ∧ m'.nodes[parent]? = some node' ∧
      node'.path ++ [path.getLast?.getD []] = path ∧ Plain (path.getLast?.getD []) := by
  obtain ⟨parent, node, hnode, hshows⟩ := hm.parents hpath
  have hbound := hshows ▸ hm.bound hnode
  obtain ⟨id', hlt, hid'⟩ := h.below _ hdir
  obtain rfl := some.inj (hid'.symm.trans hbound)
  obtain ⟨-, node', hnode', hpath', -⟩ := h.nodes hnode hlt
  have hlast : path.getLast?.getD [] = path.getLast hne := by rw [getLast?_eq_some_getLast hne, getD_some]
  refine ⟨id', node', ?_, hnode', ?_, ?_⟩
  · rw [h.paths, if_pos hdir, hbound]
  · rw [hpath', hshows, hlast, dropLast_append_getLast hne]
  · rw [hlast]
    exact hm.plain hpath _ (getLast_mem hne)

/-- A path that was looked up before leads to an inode that is resolved as it was. -/
theorem Restored.knows (h : Restored child m k done m') (hm : m.Restorable child) {id : Nat} (hne : path ≠ [])
    (hbound : m.pathToNode[path]? = some id) (hsynthetic : m.isSyntheticPath path = false)
    (hinode : m.inodeAt child path = some n) : Knows m' path n := by
  intro node' backend hnode' hbackend
  obtain ⟨id', hid', hnode'⟩ := bind_eq_some_iff.mp hnode'
  rw [h.paths] at hid'
  split at hid'
  · next hdone =>
    obtain rfl := some.inj (hbound.symm.trans hid')
    obtain ⟨id', hlt, hid'⟩ := h.below path hdone
    obtain rfl := some.inj (hbound.symm.trans hid')
    obtain ⟨node, hnode⟩ := hm.live hbound
    obtain ⟨n', hinode', hkey, -⟩ := hm.resolves hbound hne hsynthetic hnode
    obtain ⟨-, node'', hnode'', -, hkey'⟩ := h.nodes hnode hlt
    obtain rfl := some.inj (hnode'.symm.trans hnode'')
    have heq := (hkey' (hm.ne_one hbound hne)).trans hkey.symm
    rw [MountedNode.key, hbackend, keyAt, hsynthetic, hinode] at heq
    obtain ⟨rfl, -, hid⟩ := BackendKey.mk.inj (some.inj heq)
    exact ⟨congrFun (mountBackend_congr h.mounts h.root).symm path, hid⟩
  · cases hid'

/-- What a lookup does to the tables: the inode is found, or is the next one. -/
theorem Restored.ensured (h : Restored child m k done m') (hm : m.Restorable child) {id : Nat} (hne : path ≠ [])
    (hbound : m.pathToNode[path]? = some id) (hvisit : m.visit k path = some k') :
    if m.isSyntheticPath path then (m'.ensureNode path).1 = id ∧ Restored child m k' (path :: done)
      (m'.ensureNode path).2
    else ∃ n, m.inodeAt child path = some n ∧ (m'.ensureResolvedNode path (m.mountBackend path) n).1 = id ∧
      Restored child m k' (path :: done) (m'.ensureResolvedNode path (m.mountBackend path) n).2 := by
  obtain ⟨id', hid', hcases⟩ := visit_some hvisit
  obtain rfl := some.inj (hbound.symm.trans hid')
  have hone := hm.ne_one hbound hne
  obtain ⟨node, hnode⟩ := hm.live hbound
  have hfree (hk : id = k) : m'.pathToNode[path]? = none := by
    rw [h.paths, if_neg fun hdone => ?_]
    obtain ⟨id', hlt, hid'⟩ := h.below _ hdone
    obtain rfl := some.inj (hbound.symm.trans hid')
    omega
  split
  · next hsynthetic =>
    rcases hcases with ⟨hlt, rfl⟩ | ⟨rfl, rfl, node', hnode', rfl⟩
    · have hdone : path ∈ done := by
        rw [← hm.synthetic hbound hsynthetic _ (hm.bound hnode)]
        exact (h.nodes hnode hlt).1
      have hknown : m'.pathToNode[path]? = some id := by rw [h.paths, if_pos hdone, hbound]
      rw [MountedFS.ensureNode, hknown]
      refine ⟨rfl, h.mono fun p => ?_⟩
      rw [mem_cons, or_iff_right_of_imp (· ▸ hdone)]
    · exact h.ensureNode hnode' hbound hone (hfree rfl) hsynthetic
  · next hsynthetic =>
    obtain ⟨n, hinode, hkey, -⟩ := hm.resolves hbound hne (by simpa using hsynthetic) hnode
    refine ⟨n, hinode, ?_⟩
    have hkeyAt : m.keyAt child path = some (m.backendKey path (m.mountBackend path) n) := by
      rw [keyAt, if_neg hsynthetic, hinode]
      rfl
    rcases hcases with ⟨hlt, rfl⟩ | ⟨rfl, rfl, node', hnode', rfl⟩
    · exact h.ensureResolvedNode_alias hnode hbound hone hlt (hkey.symm.trans hkeyAt)
    · exact h.ensureResolvedNode hm hnode' hone (hfree rfl) hkeyAt

theorem succeeds_visit (hB : ShowsTree B child J) (h : Restored child m k done m') (hm : m.Restorable child)
    (hne : path ≠ []) (hdir : path.dropLast ∈ done) (hvisit : m.visit k path = some k') :
    ∃ parent, m'.pathToNode[path.dropLast]? = some parent ∧ Succeeds (Shown J m') (B.restoreChild path parent)
      fun _ w => Restored child m k' (path :: done) w.fs ∧ J w.backends := by
  obtain ⟨id, hbound, -⟩ := visit_some hvisit
  obtain ⟨parent, node', hparent, hnode', hpath, hplain⟩ := h.parent hm hbound hne hdir
  refine ⟨parent, hparent, succeeds_restoreChild id ?_⟩
  have hensured := h.ensured hm hne hbound hvisit
  have hpaths : ∀ {m'' : MountedFS}, Restored child m k' (path :: done) m'' → m''.pathToNode[path]? = some id :=
    fun h'' => by rw [h''.paths, if_pos mem_cons_self, hbound]
  split at hensured
  · next hsynthetic =>
    have hsynthetic' : m'.isSyntheticPath (node'.path ++ [path.getLast?.getD []]) = true := by
      rw [hpath, isSyntheticPath_congr h.mounts, hsynthetic]
    refine (succeeds_lookup_synthetic hnode' hplain hsynthetic').conseq (fun _ hw => hw) (fun found w hw => ?_)
      fun _ _ h => h
    rw [hpath] at hw
    rw [hw.1, hw.2.1, hensured.1]
    exact ⟨rfl, hpaths hensured.2, hensured.2, hw.2.2⟩
  · next hsynthetic =>
    obtain ⟨n, hinode, hid, hrestored⟩ := hensured
    have hknows := h.knows hm hne hbound (by simpa using hsynthetic) hinode
    refine (succeeds_lookup hB hnode' hplain (n := n) (hpath.symm ▸ hknows) ?_ ?_).conseq (fun _ hw => hw)
      (fun found w hw => ?_) fun _ _ h => h
    · rw [hpath, isSyntheticPath_congr h.mounts]
      simpa using hsynthetic
    · rw [hpath, inodeAt_congr child h.mounts h.root, hinode]
    · simp only [hpath, mountBackend_congr h.mounts h.root] at hw
      obtain ⟨hfound, ⟨ino, hfs⟩, hJ⟩ := hw
      have hshown := hrestored.shownInode (m.mountBackend path) ino
      rw [hfound, hfs]
      exact ⟨hid, hpaths hshown, hshown, hJ⟩

end Step

/-! ## All paths -/

section Run

variable {B : Backends S} {child : BackendID → Nat → Name → Option Nat} {J : S → Prop} {m : MountedFS} {k k' : Nat}
  {paths : List Path}

/-- The router after these paths, and their directories, have been restored. -/
def RestoredWorld (child : BackendID → Nat → Name → Option Nat) (J : S → Prop) (m : MountedFS) (k : Nat)
    (paths : List Path) (w : MountWorld S) : Prop :=
  ∃ done, paths ⊆ done ∧ [] ∈ done ∧ (∀ p ∈ done, p.dropLast ∈ done) ∧ Restored child m k done w.fs ∧ J w.backends

theorem lookedUp_concat (dir : Path) (name : Name) : lookedUp (dir ++ [name]) = lookedUp dir ++ [dir ++ [name]] := by
  have hne : dir.inits ≠ [] := by cases dir <;> simp
  rw [lookedUp, inits_append, tail_append_of_ne_nil hne]
  rfl

/-- Directories that were looked up before need no new ids. -/
theorem Restored.revisit {m' : MountedFS} {done : List Path} (h : Restored child m k done m')
    (hclosed : ∀ p ∈ done, p.dropLast ∈ done) {path : Path} (hpath : path ∈ done) :
    (lookedUp path).foldlM m.visit k = some k := by
  induction path using reverseRecOn with
  | nil => rfl
  | append_singleton dir name ih =>
    obtain ⟨id, hlt, hid⟩ := h.below _ hpath
    have hvisit : m.visit k (dir ++ [name]) = some k := by
      rw [visit, hid]
      exact if_pos hlt
    have hdir := hclosed _ hpath
    rw [dropLast_concat] at hdir
    rw [lookedUp_concat, foldlM_append, ih hdir]
    simp [hvisit]

theorem mem_aliases {id : Nat} {p : Path} : p ∈ m.aliases id path ↔ m.pathToNode[p]? = some id ∧ p ≠ path := by
  simp only [aliases, mem_mergeSort, mem_filter, Std.ExtTreeMap.mem_keys, decide_eq_true_eq,
    and_iff_right_iff_imp]
  exact fun h => Std.ExtTreeMap.isSome_getElem?_iff_mem.mp (h.1 ▸ rfl)

theorem restoreNodePaths_cons (hplain : ∀ name ∈ path, Plain name) (paths : List Path) :
    B.restoreNodePaths ((path :: paths).map pathString) = (if path = [] then pure ()
      else B.restoreNodePath path.length path) >>= fun _ => B.restoreNodePaths (paths.map pathString) := by
  show (if cleanPath (pathString path) = [] then pure () else B.restoreNodePath (cleanPath (pathString path)).length
    (cleanPath (pathString path))) >>= (fun _ => B.restoreNodePaths (paths.map pathString)) = _
  rw [cleanPath_pathString hplain]

variable (hB : ShowsTree B child J) (hm : m.Restorable child)

include hB hm

/-- With its directory there, restoring a path is one visit. -/
theorem succeeds_restoreIn {dir : Path} {name : Name} (hvisit : m.visit k (dir ++ [name]) = some k')
    {f : Option Nat → NodePathM S Unit} (hf : ∀ id, f (some id) = B.restoreChild (dir ++ [name]) id) :
    Succeeds (RestoredWorld child J m k (dir :: paths)) (nodeIDForPath dir >>= f)
      fun _ => RestoredWorld child J m k' ((dir ++ [name]) :: paths) := by
  rintro w ⟨done, hsub, hnil, hclosed, h, hJ⟩
  have hdir : (dir ++ [name]).dropLast = dir := dropLast_concat
  obtain ⟨parent, hparent, hchild⟩ := succeeds_visit hB h hm (by simp) (hdir.symm ▸ hsub mem_cons_self) hvisit
  rw [hdir] at hparent
  have hread : (nodeIDForPath dir >>= f) w = B.restoreChild (dir ++ [name]) parent w := by
    rw [← hf, ← hparent]
    rfl
  rw [hread]
  refine (hchild.conseq (fun _ hw => hw) (fun _ w' hw => ?_) fun _ _ h => h) w ⟨rfl, hJ⟩
  refine ⟨(dir ++ [name]) :: done, ?_, mem_cons_of_mem _ hnil, ?_, hw⟩
  · exact cons_subset_cons _ (cons_subset.mp hsub).2
  · refine forall_mem_cons.mpr ⟨?_, fun p hp => mem_cons_of_mem _ (hclosed p hp)⟩
    rw [hdir]
    exact mem_cons_of_mem _ (hsub mem_cons_self)

theorem succeeds_restoreNodePath {path : Path} (hne : path ≠ [])
    (hvisits : (lookedUp path).foldlM m.visit k = some k') :
    Succeeds (RestoredWorld child J m k paths) (B.restoreNodePath path.length path)
      fun _ => RestoredWorld child J m k' (path :: paths) := by
  induction path using reverseRecOn generalizing k' with
  | nil => exact absurd rfl hne
  | append_singleton dir name ih =>
    rw [lookedUp_concat, foldlM_append] at hvisits
    obtain ⟨k₁, hdirs, hvisit⟩ := bind_eq_some_iff.mp hvisits
    replace hvisit : m.visit k₁ (dir ++ [name]) = some k' := by simpa using hvisit
    rw [length_append, length_singleton, Backends.restoreNodePath, dropLast_concat]
    rintro w ⟨done, hsub, hnil, hclosed, h, hJ⟩
    by_cases hdir : dir ∈ done
    · obtain rfl : k₁ = k := some.inj (hdirs.symm.trans (h.revisit hclosed hdir))
      exact succeeds_restoreIn hB hm hvisit (fun _ => rfl) w ⟨done, cons_subset.mpr ⟨hdir, hsub⟩, hnil, hclosed, h, hJ⟩
    · -- the directory has not been looked up: it is restored first
      have hunbound : w.fs.pathToNode[dir]? = none := by rw [h.paths, if_neg hdir]
      have hread : Succeeds (fun w' => w' = w) (nodeIDForPath dir) fun found w' => found = none ∧ w' = w :=
        triple_read fun w' hw => ⟨hw ▸ hunbound, hw⟩
      refine (hread.bind fun found => triple_fact fun hfound => ?_) w rfl
      subst hfound
      refine Triple.bind (P := fun w' => w' = w) (Q := fun _ => RestoredWorld child J m k₁ (dir :: paths)) ?_ fun _ =>
        ?_
      · exact (ih (fun heq => hdir (heq ▸ hnil)) hdirs).of_state ⟨done, hsub, hnil, hclosed, h, hJ⟩
      · exact succeeds_restoreIn hB hm hvisit fun _ => rfl

theorem succeeds_restoreNodePaths (known : List Path) (hplain : ∀ p ∈ paths, ∀ name ∈ p, Plain name)
    (hvisits : (paths.flatMap lookedUp).foldlM m.visit k = some k') :
    Succeeds (RestoredWorld child J m k known) (B.restoreNodePaths (paths.map pathString))
      fun _ => RestoredWorld child J m k' (paths.reverse ++ known) := by
  induction paths generalizing k known with
  | nil =>
    obtain rfl := some.inj hvisits
    exact triple_pure fun w hw => hw
  | cons path paths ih =>
    rw [flatMap_cons, foldlM_append] at hvisits
    obtain ⟨k₁, hpath, hvisits⟩ := bind_eq_some_iff.mp hvisits
    rw [restoreNodePaths_cons (hplain path mem_cons_self), reverse_cons, append_assoc]
    refine Triple.bind (Q := fun _ => RestoredWorld child J m k₁ (path :: known)) ?_ fun _ =>
      ih _ (fun p hp => hplain p (mem_cons_of_mem _ hp)) hvisits
    split
    · next hnil =>
      subst hnil
      obtain rfl := some.inj hpath
      refine triple_pure ?_
      rintro w ⟨done, hsub, hnil, hrest⟩
      exact ⟨done, cons_subset.mpr ⟨hnil, hsub⟩, hnil, hrest⟩
    · next hne => exact succeeds_restoreNodePath hB hm hne hpath

omit hB in
theorem restored_new {fresh : MountedFS} (hmounts : fresh.mounts = m.mounts) (hroot : fresh.root = m.root)
    (hfresh : fresh = { root := fresh.root, mounts := fresh.mounts }) : Restored child m 2 [[]] fresh := by
  obtain ⟨root, hone, hpath, -⟩ := hm.root
  have hbound : m.pathToNode[([] : Path)]? = some 1 := hpath ▸ hm.bound hone
  have hid : ∀ {id : Nat} {node : MountedNode}, m.nodes[id]? = some node → id < 2 → id = 1 := by
    intro id node hnode hlt
    have := hm.positive id ⟨node, hnode⟩
    omega
  have hpaths : fresh.pathToNode = (∅ : PathMap Nat).insert [] 1 := by
    rw [hfresh]
    exact ofList_singleton
  have hnodes : fresh.nodes = (∅ : IdMap MountedNode).insert 1 { path := [] } := by
    rw [hfresh]
    exact ofList_singleton
  refine ⟨hmounts, hroot, by rw [hfresh], fun p => ?_, fun p hp => ?_, fun {id node} hnode hlt => ?_,
    fun {key id} => ?_⟩
  · rw [hpaths, Std.ExtTreeMap.getElem?_insert]
    simp only [Std.LawfulEqCmp.compare_eq_iff_eq, mem_singleton, getElem?_empty, eq_comm (a := p)]
    split
    · next heq => rw [← heq, hbound]
    · rfl
  · rw [mem_singleton.mp hp]
    exact ⟨1, by omega, hbound⟩
  · obtain rfl := hid hnode hlt
    obtain rfl := some.inj (hone.symm.trans hnode)
    rw [hpath, hnodes]
    exact ⟨mem_singleton_self _, _, getElem?_insert_self, rfl, fun h => absurd rfl h⟩
  · rw [hfresh]
    exact ⟨fun h => (nomatch h), fun ⟨node, hnode, hne, hlt, _⟩ => absurd (hid hnode hlt) hne⟩

omit hB in
theorem refersTo_eq {m' : MountedFS} {done : List Path} (h : Restored child m k done m') {id : Nat}
    {node' : MountedNode}
    (hnode : m.nodes[id]? = some node) (hpath : node'.path = node.path)
    (hkey : id ≠ 1 → node'.key = m.keyAt child node.path) :
    m'.refersTo child node' = m.refersTo child node := by
  unfold refersTo
  rw [hpath, isSyntheticPath_congr h.mounts, inodeAt_congr child h.mounts h.root, h.root,
    mountBackend_congr h.mounts h.root]
  split
  · rfl
  · next hne =>
    split
    · rfl
    · next hsynthetic =>
      have hbound := hm.bound hnode
      obtain ⟨n, hinode, -, hbackend⟩ := hm.resolves hbound hne (by simpa using hsynthetic) hnode
      have hkey' := hkey (hm.ne_one hbound hne)
      rw [keyAt, if_neg hsynthetic, hinode] at hkey'
      obtain ⟨backend, hsome, hfields⟩ := map_eq_some_iff.mp hkey'
      obtain ⟨rfl, -, hid⟩ := BackendKey.mk.inj hfields
      rw [hsome, hid]
      rcases hbackend with hnone | ⟨hsame, hid'⟩
      · rw [hnone, hinode]
        rfl
      · rw [hsame, hid']

omit hB in
theorem Restored.same {m' : MountedFS} {done : List Path} (h : Restored child m k done m')
    (hpaths : ∀ (p : Path) id, m.pathToNode[p]? = some id → p ∈ done) (hlive : ∀ id, m.Live id → id < k) :
    SameIdentities child m m' where
  paths p := by
    rw [h.paths]
    split
    · rfl
    · next hnew =>
      cases hid : m.pathToNode[p]? with
      | none => rfl
      | some id => exact absurd (hpaths p id hid) hnew
  nodes {id node} hnode := by
    obtain ⟨-, node', hnode', hpath, hkey⟩ := h.nodes hnode (hlive id ⟨node, hnode⟩)
    exact ⟨node', hnode', hpath, refersTo_eq hm h hnode hpath hkey⟩

theorem succeeds_restore {fresh : MountedFS} (hmounts : fresh.mounts = m.mounts) (hroot : fresh.root = m.root)
    (hfresh : fresh = { root := fresh.root, mounts := fresh.mounts }) :
    Succeeds (At fresh fun w => J w.backends) (B.restoreNodePaths m.snapshotNodePaths)
      fun _ w => SameIdentities child m w.fs := by
  obtain ⟨n, hvisits⟩ := hm.ordered
  have hall : ∀ {p : Path}, p ∈ m.nodePaths ↔ ∃ id, m.pathToNode[p]? = some id := by
    intro p
    simp only [nodePaths, mem_flatMap, Prod.exists, mem_toList_iff_getElem?_eq_some, mem_cons, mem_aliases]
    constructor
    · rintro ⟨id, node, hnode, rfl | ⟨hid, -⟩⟩
      · exact ⟨id, hm.bound hnode⟩
      · exact ⟨id, hid⟩
    · rintro ⟨id, hid⟩
      obtain ⟨node, hnode⟩ := hm.live hid
      exact ⟨id, node, hnode, (eq_or_ne p node.path).imp_right fun hne => ⟨hid, hne⟩⟩
  have hplain : ∀ p ∈ m.nodePaths, ∀ name ∈ p, Plain name := by
    intro p hp
    obtain ⟨id, hid⟩ := hall.mp hp
    exact hm.plain hid
  refine (succeeds_restoreNodePaths hB hm [] hplain hvisits).conseq (fun w hw => ?_) (fun _ w hw => ?_)
    fun _ _ h => h
  · refine ⟨[[]], nil_subset _, mem_singleton_self _, fun p hp => ?_, hw.1 ▸ restored_new hm hmounts hroot hfresh, hw.2⟩
    rw [mem_singleton.mp hp]
    exact mem_singleton_self _
  · obtain ⟨done, hsub, -, -, h, -⟩ := hw
    have hdone : ∀ (p : Path) id, m.pathToNode[p]? = some id → p ∈ done :=
      fun p id hid => hsub (mem_append_left _ (mem_reverse.mpr (hall.mpr ⟨id, hid⟩)))
    refine h.same hm hdone fun id hlive => ?_
    obtain ⟨node, hnode⟩ := hlive
    have hbound := hm.bound hnode
    obtain ⟨id', hlt, hid'⟩ := h.below _ (hdone _ _ hbound)
    exact some.inj (hid'.symm.trans hbound) ▸ hlt

end Run

/-- After every run that leaves such tables, a new router over the same backends that is given the snapshot's paths
finds every inode again under its id. -/
theorem restore_same (B : Backends S) (root : BackendID) (shares : List ShareMount) (backends : S)
    (rs : List (Iteration × MountRequest)) (child : BackendID → Nat → Name → Option Nat) (J : S → Prop)
    (hB : ShowsTree B child J) :
    let w := (B.run rs { fs := newMountedFS root shares, backends := backends }).2
    J w.backends → w.fs.Restorable child →
      ∃ w', B.restoreNodePaths w.fs.snapshotNodePaths { fs := newMountedFS root shares, backends := w.backends } =
        (.ok (), w') ∧ SameIdentities child w.fs w'.fs := by
  intro w hJ hm
  have hmounts : SameMounts (newMountedFS root shares) w.fs := sameMounts_run B rs _
  have hrestore := succeeds_restore hB hm hmounts.1.symm hmounts.2.symm rfl
    { fs := newMountedFS root shares, backends := w.backends } ⟨rfl, hJ⟩
  split at hrestore
  · next w' hrun => exact ⟨w', hrun, hrestore⟩
  · exact False.elim hrestore

def twoFiles : List (Name × Nat) := [([97], 2), ([98], 3)]

def flatChild (entries : List (Name × Nat)) (_ : BackendID) (id : Nat) (name : Name) : Option Nat :=
  if id = 1 then entries.lookup name else none

theorem showsTree_flatDir (entries : List (Name × Nat)) : ShowsTree flatDir (flatChild entries) (· = entries) where
  lookup {s backend id name n} hs hn := by
    subst hs
    have hanswer : flatDir.answer backend (.lookup id name) s = (.ok (n, { ino := n }), s) := by
      simp only [flatDir]
      rw [show (if id = 1 then s.lookup name else none) = some n from hn]
    rw [hanswer]
    exact ⟨⟨_, rfl⟩, rfl⟩
  getAttr hs _ := ⟨⟨_, rfl⟩, hs⟩

def bothFound : List (Iteration × MountRequest) := [(id, .lookup 1 [97]), (id, .lookup 1 [98])]

def twoFilesWorld : MountWorld (List (Name × Nat)) := { fs := newMountedFS 0 [], backends := twoFiles }

set_option maxRecDepth 100000 in
theorem bothFound_tables : let m := (flatDir.run bothFound twoFilesWorld).2.fs
    m.nodes.toList = [(1, { path := [] }), (2, { path := [[97]], backend := some 0, backendNodeID := 2 }),
      (3, { path := [[98]], backend := some 0, backendNodeID := 3 })] ∧
    m.pathToNode.toList = [([], 1), ([[97]], 2), ([[98]], 3)] ∧ m.mounts = [] ∧ m.root = 0 := by
  decide +kernel

set_option maxRecDepth 100000 in
theorem bothFound_ordered : let m := (flatDir.run bothFound twoFilesWorld).2.fs
    ∃ n, (m.nodePaths.flatMap lookedUp).foldlM m.visit 2 = some n :=
  ⟨4, by decide +kernel⟩

theorem bothFound_restorable : (flatDir.run bothFound twoFilesWorld).2.fs.Restorable (flatChild twoFiles) := by
  obtain ⟨hnodes, hpaths, hmounts, hroot⟩ := bothFound_tables
  have hordered := bothFound_ordered
  generalize (flatDir.run bothFound twoFilesWorld).2.fs = m at *
  have hnode : ∀ {id : Nat} {node : MountedNode}, m.nodes[id]? = some node ↔ (id, node) ∈ m.nodes.toList :=
    mem_toList_iff_getElem?_eq_some.symm
  have hpath : ∀ {path : Path} {id : Nat}, m.pathToNode[path]? = some id ↔ (path, id) ∈ m.pathToNode.toList :=
    mem_toList_iff_getElem?_eq_some.symm
  have hsynthetic : ∀ path, m.isSyntheticPath path = false := by simp [isSyntheticPath, hmounts]
  have hmount : ∀ path, m.mountForPath path = none := by simp [mountForPath, hmounts]
  have hinode : ∀ path, m.inodeAt (flatChild twoFiles) path = walk (flatChild twoFiles 0) path 1 := by
    simp [inodeAt, mountBackend, backendRoute, hmount, hroot]
  have hback : ∀ path, m.backendKey path 0 = fun n => ⟨0, [], n⟩ := by
    intro path
    funext n
    simp [backendKey, backendRoute, hmount]
  have hkey : ∀ path, m.keyAt (flatChild twoFiles) path = (walk (flatChild twoFiles 0) path 1).map fun n =>
      ⟨0, [], n⟩ := by
    intro path
    simp [keyAt, hsynthetic, hinode, mountBackend, hmount, hroot, hback]
  have ha : walk (flatChild twoFiles 0) [[97]] 1 = some 2 := by decide
  have hb : walk (flatChild twoFiles 0) [[98]] 1 = some 3 := by decide
  simp only [hnodes, mem_cons, Prod.mk.injEq, not_mem_nil, or_false] at hnode
  simp only [hpaths, mem_cons, Prod.mk.injEq, not_mem_nil, or_false] at hpath
  refine ⟨⟨_, hnode.mpr (.inl ⟨rfl, rfl⟩), rfl, fun path h => ?_⟩, ?_, ?_, ?_, ?_, ?_, ?_, ?_, ?_, ?_⟩
  · obtain ⟨rfl, -⟩ | ⟨-, h⟩ | ⟨-, h⟩ := hpath.mp h
    · rfl
    · cases h
    · cases h
  · rintro id ⟨node, h⟩
    obtain ⟨rfl, -⟩ | ⟨rfl, -⟩ | ⟨rfl, -⟩ := hnode.mp h <;> omega
  · intro id node h
    obtain ⟨rfl, rfl⟩ | ⟨rfl, rfl⟩ | ⟨rfl, rfl⟩ := hnode.mp h <;> simp [hpath]
  · intro path id h
    obtain ⟨-, rfl⟩ | ⟨-, rfl⟩ | ⟨-, rfl⟩ := hpath.mp h <;> simp [MountedFS.Live, hnode]
  · intro path id h
    obtain ⟨rfl, -⟩ | ⟨rfl, -⟩ | ⟨rfl, -⟩ := hpath.mp h <;> decide
  · intro path id h
    refine ⟨1, { path := [] }, hnode.mpr (.inl ⟨rfl, rfl⟩), ?_⟩
    obtain ⟨rfl, -⟩ | ⟨rfl, -⟩ | ⟨rfl, -⟩ := hpath.mp h <;> rfl
  · exact hordered
  · intro path id _ h
    exact absurd (hsynthetic path) (h ▸ Bool.noConfusion)
  · intro path id node h hne _ hid
    obtain ⟨rfl, rfl⟩ | ⟨rfl, rfl⟩ | ⟨rfl, rfl⟩ := hpath.mp h
    · exact absurd rfl hne
    · obtain rfl : node = _ := by simpa using hnode.mp hid
      exact ⟨2, (hinode _).trans ha, rfl, .inr ⟨by simp [mountBackend, hmount, hroot], rfl⟩⟩
    · obtain rfl : node = _ := by simpa using hnode.mp hid
      exact ⟨3, (hinode _).trans hb, rfl, .inr ⟨by simp [mountBackend, hmount, hroot], rfl⟩⟩
  · intro id id' node node' h h' hne hne' heq _
    rw [hkey, hkey] at heq
    obtain ⟨rfl, rfl⟩ | ⟨rfl, rfl⟩ | ⟨rfl, rfl⟩ := hnode.mp h <;>
      obtain ⟨rfl, rfl⟩ | ⟨rfl, rfl⟩ | ⟨rfl, rfl⟩ := hnode.mp h' <;> simp_all

theorem restore_same_twoFiles : let w := (flatDir.run bothFound twoFilesWorld).2
    ∃ w', flatDir.restoreNodePaths w.fs.snapshotNodePaths { fs := newMountedFS 0 [], backends := w.backends } =
      (.ok (), w') ∧ SameIdentities (flatChild twoFiles) w.fs w'.fs := by
  have hstate : (flatDir.run bothFound twoFilesWorld).2.backends = twoFiles := by decide +kernel
  exact restore_same flatDir 0 [] twoFiles bothFound (flatChild twoFiles) (· = twoFiles)
    (showsTree_flatDir twoFiles) hstate
    bothFound_restorable

set_option maxRecDepth 100000 in
/-- `/a` and `/b` are inodes 2 and 3; once `/a` is unlinked, `/b` is restored as inode 2. -/
theorem restore_shifts : let w := (flatDir.run (bothFound ++ [(id, .unlink 1 [97] {})]) twoFilesWorld).2
    let restored :=
      (flatDir.restoreNodePaths w.fs.snapshotNodePaths { fs := newMountedFS 0 [], backends := w.backends }).2
    w.fs.nodes[3]?.map MountedNode.path = some [[98]] ∧ restored.fs.nodes[3]? = none ∧
      restored.fs.nodes[2]?.map MountedNode.path = some [[98]] := by
  decide +kernel

end CrumbleCracker.Virtio

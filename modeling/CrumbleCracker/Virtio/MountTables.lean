import CrumbleCracker.Lib.Fibre
import CrumbleCracker.Virtio.MountedRules

/-!
# The router's tables agree

`Agree` says that the ids in `pathToNode` and in `backendNodes` have nodes and that `pathRefs` counts the bound paths.
Every operation on the tables keeps it but two: `collectDetachedNode` deletes a node and leaves its backend inode mapped
to it (`lookup_dead_node`), and `renameNode` may delete a node that it goes on to bind. `tables_agree` is about the runs
in which neither happens.
-/

namespace CrumbleCracker.Virtio

open Std ExtTreeMap

variable {m' : MountedFS} {order : Iteration} {i : Nat}

namespace MountedFS

variable {path : Path} {paths : List Path}

/-! ## Agreement -/

def Live (m : MountedFS) (id : Nat) : Prop := ∃ node, m.nodes[id]? = some node

structure Agree (m : MountedFS) : Prop where
  paths : ∀ {path : Path} {id : Nat}, m.pathToNode[path]? = some id → m.Live id
  backends : ∀ {key : BackendKey} {id : Nat}, m.backendNodes key = some id → m.Live id
  refs : ∀ id, m.refs id = (fibre m.pathToNode id).card
  fresh : ∀ {id : Nat}, m.Live id → id < m.nextNodeID

theorem refs_insert (m : MountedFS) (id n i : Nat) :
    ({ m with pathRefs := m.pathRefs.insert id n } : MountedFS).refs i = if id = i then n else m.refs i := by
  simp only [MountedFS.refs, getElem?_insert, LawfulEqCmp.compare_eq_iff_eq]
  split <;> rfl

theorem refs_erase (m : MountedFS) (id i : Nat) :
    ({ m with pathRefs := m.pathRefs.erase id } : MountedFS).refs i = if id = i then 0 else m.refs i := by
  simp only [MountedFS.refs, getElem?_erase, LawfulEqCmp.compare_eq_iff_eq]
  split <;> rfl

theorem refs_dropRef (m : MountedFS) (id i : Nat) : (m.dropRef id).refs i = m.refs i - if id = i then 1 else 0 := by
  by_cases hmany : m.refs id > 1
  · simp only [dropRef, if_pos hmany, refs_insert]
    split <;> simp_all
  · simp only [dropRef, if_neg hmany, refs_erase]
    split
    · next h =>
      subst h
      omega
    · rfl

variable {m : MountedFS}

theorem Agree.of_eq (h : m.Agree) (hpaths : m'.pathToNode = m.pathToNode) (hkeys : m'.backendNodes = m.backendNodes)
    (hrefs : m'.pathRefs = m.pathRefs) (hnext : m'.nextNodeID = m.nextNodeID) (hlive : ∀ id, m'.Live id ↔ m.Live id) :
    m'.Agree where
  paths hpath := (hlive _).mpr (h.paths (hpaths ▸ hpath))
  backends hkey := (hlive _).mpr (h.backends (hkeys ▸ hkey))
  refs id := by
    rw [hpaths, MountedFS.refs, hrefs]
    exact h.refs id
  fresh hid := hnext ▸ h.fresh ((hlive _).mp hid)

theorem live_modify {id : Nat} {f : MountedNode → MountedNode} :
    ({ m with nodes := m.nodes.modify id f } : MountedFS).Live i ↔ m.Live i := by
  simp only [Live, getElem?_modify, LawfulEqCmp.compare_eq_iff_eq]
  split
  · next h =>
    subst h
    simp
  · rfl

theorem Agree.modify (h : m.Agree) (id : Nat) (f : MountedNode → MountedNode) :
    ({ m with nodes := m.nodes.modify id f } : MountedFS).Agree := h.of_eq rfl rfl rfl rfl fun _ => live_modify

theorem Agree.setBackendNode (h : m.Agree) (key : BackendKey) {id : Nat} (hid : m.Live id) :
    (m.setBackendNode key id).Agree where
  paths hpath := h.paths hpath
  backends {k i} hk := by
    simp only [MountedFS.setBackendNode] at hk
    split at hk
    · exact Option.some.inj hk ▸ hid
    · exact h.backends hk
  refs := h.refs
  fresh hi := h.fresh hi

/-- A node that no path leads to can go, with the backend inodes mapped to it. -/
theorem Agree.deleteNodeIfDetached (h : m.Agree) (id : Nat) : (m.deleteNodeIfDetached id).Agree := by
  unfold MountedFS.deleteNodeIfDetached
  split
  · exact h
  · next hfree =>
    have hnone : m.refs id = 0 := by
      by_contra hne
      exact hfree (.inl hne)
    have hlive : ∀ {i}, i ≠ id → m.Live i → ({ m with nodes := m.nodes.erase id } : MountedFS).Live i := by
      rintro i hne ⟨node, hnode⟩
      refine ⟨node, ?_⟩
      show (m.nodes.erase id)[i]? = some node
      rw [getElem?_erase, if_neg (by simpa [LawfulEqCmp.compare_eq_iff_eq] using hne.symm), hnode]
    refine ⟨fun {path i} hpath => hlive ?_ (h.paths hpath), fun {key i} hkey => ?_, h.refs, ?_⟩
    · rintro rfl
      rw [h.refs, Finset.card_eq_zero] at hnone
      exact Finset.notMem_empty path (hnone ▸ mem_fibre.mpr hpath)
    · simp only at hkey
      split at hkey
      · exact nomatch hkey
      · next hne => exact hlive (fun heq => hne (heq ▸ hkey)) (h.backends hkey)
    · rintro i ⟨node, hnode⟩
      suffices hi : m.Live i from h.fresh hi
      simp only [getElem?_erase] at hnode
      split at hnode
      · exact nomatch hnode
      · exact ⟨node, hnode⟩

theorem Agree.dropPath (h : m.Agree) {id : Nat} (hpath : m.pathToNode[path]? = some id) :
    (m.dropPath path id).Agree where
  paths {p i} hp := by
    suffices hp' : m.pathToNode[p]? = some i from h.paths hp'
    simp only [MountedFS.dropPath, dropRef, getElem?_erase] at hp
    split at hp
    · exact nomatch hp
    · exact hp
  backends := h.backends
  refs i := by
    rw [MountedFS.dropPath, refs_dropRef]
    show m.refs i - _ = (fibre (m.pathToNode.erase path) i).card
    rw [fibre_erase, h.refs]
    split
    · next heq => rw [Finset.card_erase_of_mem (mem_fibre.mpr (heq ▸ hpath))]
    · next hne =>
      rw [Finset.erase_eq_of_notMem fun hmem => hne (Option.some.inj (hpath.symm.trans (mem_fibre.mp hmem)))]
      rfl
  fresh := h.fresh

theorem Agree.addPath (h : m.Agree) {id : Nat} (hpath : m.pathToNode[path]? = none) (hid : m.Live id) :
    (m.addPath path id).Agree where
  paths {p i} hp := by
    simp only [MountedFS.addPath, getElem?_insert] at hp
    split at hp
    · exact Option.some.inj hp ▸ hid
    · exact h.paths hp
  backends := h.backends
  refs i := by
    have hnew : path ∉ fibre m.pathToNode i := fun hmem => nomatch hpath.symm.trans (mem_fibre.mp hmem)
    show ({ m with pathRefs := m.pathRefs.insert id (m.refs id + 1) } : MountedFS).refs i =
      (fibre (m.pathToNode.insert path id) i).card
    rw [refs_insert]
    split
    · next heq =>
      subst heq
      rw [fibre_insert_self, Finset.card_insert_of_notMem hnew, h.refs]
    · next hne => rw [fibre_insert_of_ne _ _ hne, Finset.erase_eq_of_notMem hnew, h.refs]
  fresh := h.fresh

/-- Rebinding a path is dropping it and adding it again. -/
theorem dropRef_addPath (m : MountedFS) (path : Path) (old id : Nat) :
    (m.dropRef old).addPath path id = (m.dropPath path old).addPath path id := by
  have hinsert : (m.pathToNode.erase path).insert path id = m.pathToNode.insert path id := by
    apply ext_getElem?
    intro p
    simp only [getElem?_insert, getElem?_erase]
    split <;> simp_all
  simp only [addPath, dropPath, dropRef, MountedFS.refs, hinsert]
  rfl

/-- The path's old inode loses a reference, and its node goes with the last one. -/
theorem Agree.bindPath (h : m.Agree) (path : Path) {id : Nat} (hid : m.Live id) : (m.bindPath path id).Agree := by
  unfold MountedFS.bindPath
  split
  · next hnone => exact h.addPath hnone hid
  · next old hold =>
    have hadd : ((m.dropRef old).addPath path id).Agree := by
      rw [dropRef_addPath]
      exact (h.dropPath hold).addPath getElem?_erase_self hid
    split
    · exact h
    · split
      · exact hadd
      · exact hadd.deleteNodeIfDetached old

/-! ## Adding nodes -/

theorem live_addNode (m : MountedFS) (path : Path) (backend : Option BackendID) (nodeID : Nat) :
    (m.addNode path backend nodeID).Live m.nextNodeID := ⟨_, getElem?_insert_self⟩

theorem Agree.addNode (h : m.Agree) (path : Path) (backend : Option BackendID) (nodeID : Nat) :
    (m.addNode path backend nodeID).Agree := by
  have hlive : ∀ {i}, m.Live i → (m.addNode path backend nodeID).Live i := by
    rintro i ⟨node, hnode⟩
    by_cases heq : m.nextNodeID = i
    · exact heq ▸ live_addNode m path backend nodeID
    · refine ⟨node, ?_⟩
      simp only [MountedFS.addNode, getElem?_insert, LawfulEqCmp.compare_eq_iff_eq, if_neg heq, hnode]
  refine ⟨fun hp => hlive (h.paths hp), fun hk => hlive (h.backends hk), h.refs, ?_⟩
  rintro i ⟨node, hnode⟩
  simp only [MountedFS.addNode, getElem?_insert, LawfulEqCmp.compare_eq_iff_eq] at hnode
  split at hnode
  · next heq => exact heq ▸ Nat.lt_succ_self _
  · exact Nat.lt_succ_of_lt (h.fresh ⟨node, hnode⟩)

theorem live_deleteNodeIfDetached {id : Nat} (hid : m.Live i) (hne : i ≠ id) : (m.deleteNodeIfDetached id).Live i := by
  obtain ⟨node, hnode⟩ := hid
  unfold MountedFS.deleteNodeIfDetached
  split
  · exact ⟨node, hnode⟩
  · refine ⟨node, ?_⟩
    simp only [getElem?_erase, LawfulEqCmp.compare_eq_iff_eq, if_neg hne.symm, hnode]

theorem live_bindPath {id : Nat} (hid : m.Live i) (hne : m.pathToNode[path]? = some i → i = id) :
    (m.bindPath path id).Live i := by
  unfold MountedFS.bindPath
  split
  · exact hid
  · next old hold =>
    split
    · exact hid
    · next hold' =>
      split
      · exact hid
      · exact live_deleteNodeIfDetached hid fun heq => hold' (heq ▸ hne (heq ▸ hold))

theorem Agree.ensureNode (h : m.Agree) (path : Path) : (m.ensureNode path).2.Agree := by
  unfold MountedFS.ensureNode
  split
  · exact h
  · exact (h.addNode path none 0).bindPath path (live_addNode _ _ _ _)

theorem live_ensureNode (h : m.Agree) (path : Path) : (m.ensureNode path).2.Live (m.ensureNode path).1 := by
  unfold MountedFS.ensureNode
  split
  · next id hid => exact h.paths hid
  · next hnone => exact live_bindPath (live_addNode _ _ _ _) fun _ => rfl

/-- The three ways to find a node for a backend inode. -/
theorem Agree.ensureResolvedNode (h : m.Agree) (path : Path) (backend : BackendID) (nodeID : Nat) :
    (m.ensureResolvedNode path backend nodeID).2.Agree ∧
      (m.ensureResolvedNode path backend nodeID).2.Live (m.ensureResolvedNode path backend nodeID).1 := by
  unfold MountedFS.ensureResolvedNode
  dsimp only
  split
  · next id hid => exact ⟨h.bindPath path (h.backends hid), live_bindPath (h.backends hid) fun _ => rfl⟩
  · split
    · next id hid =>
      have hlive := h.paths hid
      obtain ⟨node, hnode⟩ := hlive
      simp only [hnode, Option.isNone_some, Bool.false_eq_true, if_false]
      have hmod : m.Live id := ⟨node, hnode⟩
      exact ⟨(h.modify id _).setBackendNode _ (live_modify.mpr hmod), live_modify.mpr hmod⟩
    · have hnew : ((m.addNode path (some backend) nodeID).bindPath path m.nextNodeID).Live m.nextNodeID :=
        live_bindPath (live_addNode m path (some backend) nodeID) fun _ => rfl
      exact ⟨((h.addNode path (some backend) nodeID).bindPath path (live_addNode _ _ _ _)).setBackendNode _ hnew, hnew⟩

theorem Agree.grow (h : m.Agree) (hgrow : Grow m m') : m'.Agree := by
  cases hgrow with
  | ensureNode path => exact h.ensureNode path
  | ensureResolvedNode path backend nodeID => exact (h.ensureResolvedNode path backend nodeID).1
  | shownInode backend ino =>
    unfold MountedFS.shownInode
    split
    · exact h
    · exact h.of_eq rfl rfl rfl rfl fun _ => Iff.rfl
  | storeHandle handle | rewind fh entries started hhandle => exact h.of_eq rfl rfl rfl rfl fun _ => Iff.rfl

theorem Agree.grows (h : m.Agree) (hgrows : Grows m m') : m'.Agree := by
  induction hgrows with
  | refl => exact h
  | tail _ hstep ih => exact ih.grow hstep

/-! ## Removing and moving paths -/

theorem unbindPath_eq (m : MountedFS) (order : Iteration) (path : Path) :
    m.unbindPath order path = m ∧ m.pathToNode[path]? = none ∨ ∃ id, m.pathToNode[path]? = some id ∧
      (m.unbindPath order path = m.dropPath path id ∨
        ∃ p, m.unbindPath order path = (m.dropPath path id).setNodePath id p) := by
  unfold unbindPath
  split
  · next hnone => exact .inl ⟨rfl, hnone⟩
  · next id hid =>
    refine .inr ⟨id, hid, ?_⟩
    dsimp only
    split
    · split
      · next p _ => exact .inr ⟨p, rfl⟩
      · exact .inl rfl
    · exact .inl rfl

theorem Agree.unbindPath (h : m.Agree) (order : Iteration) (path : Path) : (m.unbindPath order path).Agree := by
  obtain ⟨heq, -⟩ | ⟨id, hid, heq | ⟨p, heq⟩⟩ := unbindPath_eq m order path
  · rw [heq]
    exact h
  · rw [heq]
    exact h.dropPath hid
  · rw [heq]
    exact (h.dropPath hid).modify id _

theorem live_unbindPath : (m.unbindPath order path).Live i ↔ m.Live i := by
  obtain ⟨heq, -⟩ | ⟨id, -, heq | ⟨p, heq⟩⟩ := unbindPath_eq m order path
  · rw [heq]
  · rw [heq]
    rfl
  · rw [heq]
    exact live_modify

theorem getElem?_unbindPath (order : Iteration) (path p : Path) :
    (m.unbindPath order path).pathToNode[p]? = if path = p then none else m.pathToNode[p]? := by
  have hdrop : ∀ id, (m.dropPath path id).pathToNode[p]? = if path = p then none else m.pathToNode[p]? := by
    intro id
    simp only [MountedFS.dropPath, dropRef, getElem?_erase, LawfulEqCmp.compare_eq_iff_eq]
  obtain ⟨heq, hnone⟩ | ⟨id, -, heq | ⟨q, heq⟩⟩ := unbindPath_eq m order path
  · rw [heq]
    split
    · next h => exact h ▸ hnone
    · rfl
  · rw [heq, hdrop]
  · rw [heq]
    exact hdrop id

theorem Agree.unbindPaths (h : m.Agree) (order : Iteration) (paths : List Path) :
    (m.unbindPaths order paths).Agree := by
  induction paths generalizing m with
  | nil => exact h
  | cons path paths ih => exact ih (h.unbindPath order path)

theorem live_unbindPaths : (m.unbindPaths order paths).Live i ↔ m.Live i := by
  induction paths generalizing m with
  | nil => exact Iff.rfl
  | cons path paths ih => exact ih.trans live_unbindPath

theorem getElem?_unbindPaths (order : Iteration) (paths : List Path) (p : Path) :
    (m.unbindPaths order paths).pathToNode[p]? = if p ∈ paths then none else m.pathToNode[p]? := by
  induction paths generalizing m with
  | nil => rfl
  | cons path paths ih =>
    show ((m.unbindPath order path).unbindPaths order paths).pathToNode[p]? = _
    rw [ih, getElem?_unbindPath]
    simp only [List.mem_cons]
    grind

theorem Agree.removeNode (h : m.Agree) (order : Iteration) (path : Path) : (m.removeNode order path).Agree := by
  have hfold : ∀ (ids : List Nat) {m : MountedFS}, m.Agree → (ids.foldl MountedFS.deleteNodeIfDetached m).Agree := by
    intro ids
    induction ids with
    | nil => exact fun h => h
    | cons id ids ih => exact fun h => ih (h.deleteNodeIfDetached id)
  exact hfold _ (h.unbindPaths order _)

theorem Iteration.mem_range {p : Path} : p ∈ order.range paths ↔ p ∈ paths := by
  unfold Iteration.range
  split
  · next h => exact (List.isPerm_iff.mp h).mem_iff
  · rfl

theorem Iteration.nodup_range (h : paths.Nodup) : (order.range paths).Nodup := by
  unfold Iteration.range
  split
  · next hperm => exact (List.isPerm_iff.mp hperm).nodup_iff.mpr h
  · exact h

theorem mem_pathsBelow {p : Path} : p ∈ m.pathsBelow order path ↔ path <+: p ∧ ∃ id, m.pathToNode[p]? = some id := by
  simp only [pathsBelow, List.mem_filter, Iteration.mem_range, mem_keys, decide_eq_true_eq]
  rw [← isSome_getElem?_iff_mem, Option.isSome_iff_exists, and_comm]

theorem getElem?_pathUpdates {oldPath newPath q : Path} {id : Nat}
    (h : (m.pathUpdates order oldPath newPath)[q]? = some id) :
    ∃ p, oldPath <+: p ∧ m.pathToNode[p]? = some id ∧ movedPath oldPath newPath p = q := by
  revert q id
  rw [pathUpdates]
  refine List.foldlRecOn (motive := fun updates : PathMap Nat => ∀ {q : Path} {id}, updates[q]? = some id →
    ∃ p, oldPath <+: p ∧ m.pathToNode[p]? = some id ∧ movedPath oldPath newPath p = q) _ _ (fun hq => by simp at hq) ?_
  intro updates hupdates p hp q id hq
  split at hq
  · next i hi =>
    rw [getElem?_insert] at hq
    split at hq
    · next heq =>
      exact ⟨p, (mem_pathsBelow.mp hp).1, Option.some.inj hq ▸ hi, LawfulEqCmp.eq_of_compare heq⟩
    · exact hupdates hq
  · exact hupdates hq

theorem getElem?_bindPath_of_ne {p : Path} {id : Nat} (hne : path ≠ p) :
    (m.bindPath path id).pathToNode[p]? = m.pathToNode[p]? := by
  have hadd : ∀ m : MountedFS, (m.addPath path id).pathToNode[p]? = m.pathToNode[p]? := by
    intro m
    simp only [MountedFS.addPath, getElem?_insert, LawfulEqCmp.compare_eq_iff_eq, if_neg hne]
  have hdelete : ∀ (m : MountedFS) (old : Nat), (m.deleteNodeIfDetached old).pathToNode = m.pathToNode := by
    intro m old
    unfold MountedFS.deleteNodeIfDetached
    split <;> rfl
  unfold MountedFS.bindPath
  split
  · exact hadd m
  · split
    · rfl
    · split
      · exact hadd _
      · rw [hdelete]
        exact hadd _

/-- A path that a move replaces does not lead to an inode that the move takes along under another name. -/
def MoveSafe (m : MountedFS) (oldPath newPath : Path) : Prop :=
  ∀ p p' i j, oldPath <+: p → oldPath <+: p' → m.pathToNode[p]? = some i → m.pathToNode[p']? = some j →
    ¬oldPath <+: movedPath oldPath newPath p → m.pathToNode[movedPath oldPath newPath p]? = some j → i = j

/-- Binding the moved paths one by one: no inode that is still to be bound is deleted. -/
theorem Agree.bindPaths {updates : PathMap Nat} (hnodup : paths.Nodup) (h : m.Agree)
    (hlive : ∀ (q : Path) id, updates[q]? = some id → m.Live id)
    (hsafe : ∀ q ∈ paths, ∀ i j (q' : Path), updates[q]? = some i → updates[q']? = some j →
      m.pathToNode[q]? = some j → j = i) :
    (m.bindPaths updates paths).Agree := by
  induction paths generalizing m with
  | nil => exact h
  | cons q paths ih =>
    obtain ⟨hq, hrest⟩ := List.nodup_cons.mp hnodup
    rw [MountedFS.bindPaths, List.foldl_cons]
    cases hid : updates[q]? with
    | none => exact ih hrest h hlive fun q' hq' => hsafe q' (List.mem_cons_of_mem _ hq')
    | some id =>
      refine ih hrest ((h.bindPath q (hlive q id hid)).modify id _) (fun q' i hi => ?_) fun q' hq' i j q'' hi hj hold =>
        ?_
      · exact live_modify.mpr (live_bindPath (hlive q' i hi) fun hold => hsafe q List.mem_cons_self id i q' hid hi hold)
      · have hne : q ≠ q' := fun heq => hq (heq ▸ hq')
        refine hsafe q' (List.mem_cons_of_mem _ hq') i j q'' hi hj ?_
        rw [← getElem?_bindPath_of_ne hne]
        exact hold

theorem Agree.renameNode (h : m.Agree) (order : Iteration) {oldPath newPath : Path}
    (hsafe : m.MoveSafe oldPath newPath) :
    (m.renameNode order oldPath newPath).Agree := by
  refine Agree.bindPaths (Iteration.nodup_range nodup_keys) (h.unbindPaths order _) ?_ ?_
  · intro q id hq
    obtain ⟨p, -, hp, -⟩ := getElem?_pathUpdates hq
    exact live_unbindPaths.mpr (h.paths hp)
  · intro q _ i j q' hi hj hold
    obtain ⟨p, hbelow, hp, rfl⟩ := getElem?_pathUpdates hi
    obtain ⟨p', hbelow', hp', -⟩ := getElem?_pathUpdates hj
    rw [getElem?_unbindPaths] at hold
    split at hold
    · exact nomatch hold
    · next hout =>
      refine (hsafe p p' i j hbelow hbelow' hp hp' (fun hpre => hout ?_) hold).symm
      exact mem_pathsBelow.mpr ⟨hpre, j, hold⟩

/-- The node that is collected, if one is, has no backend inode mapped to it. -/
def CollectSafe (m : MountedFS) (id : Nat) : Prop :=
  m.Live id → m.nodeHasHandle m.nodes[id]? = false → m.refs id = 0 → ∀ key, m.backendNodes key ≠ some id

theorem Agree.collectDetachedNode (h : m.Agree) {id : Nat} (hsafe : m.CollectSafe id) :
    (m.collectDetachedNode id).Agree := by
  unfold MountedFS.collectDetachedNode
  split
  · exact h
  · next hfree =>
    push Not at hfree
    obtain ⟨hlive, hhandle, hrefs⟩ := hfree
    have hkeys := hsafe (Option.isSome_iff_exists.mp (by simpa using hlive)) (by simpa using hhandle) hrefs
    -- with no key mapped to the node, this is what `deleteNodeIfDetached` does
    have hdelete : m.deleteNodeIfDetached id = { m with nodes := m.nodes.erase id } := by
      unfold MountedFS.deleteNodeIfDetached
      rw [if_neg (by simpa [hrefs] using hhandle)]
      congr 1
      funext key
      exact if_neg (hkeys key)
    exact hdelete ▸ h.deleteNodeIfDetached id

theorem Agree.takeHandle (h : m.Agree) (fh : Nat) (dir : Bool) : (m.takeHandle fh dir).2.Agree := by
  unfold MountedFS.takeHandle
  split
  · exact h
  · exact h.of_eq rfl rfl rfl rfl fun _ => Iff.rfl

end MountedFS

/-! ## Runs -/

open MountedFS

/-- The request neither collects a node with a backend inode mapped to it nor moves an inode onto another of its
names. -/
def TablesSafe (m : MountedFS) : MountRequest → Prop
  | .release id fh => (m.takeHandle fh false).2.CollectSafe id
  | .releaseDir id fh => (m.takeHandle fh true).2.CollectSafe id
  | .rename parent name newParent newName _ _ => ∀ oldNode newNode, m.nodes[parent]? = some oldNode →
      m.nodes[newParent]? = some newNode → m.MoveSafe (childPath oldNode.path name) (childPath newNode.path newName)
  | _ => True

variable {m : MountedFS}

theorem MountedFS.Agree.shrink {r : MountRequest} (h : m.Agree) (hsafe : TablesSafe m r)
    (hshrink : Shrink order m r m') :
    m'.Agree := by
  cases hshrink with
  | release id fh => exact (h.takeHandle fh false).collectDetachedNode hsafe
  | releaseDir id fh => exact (h.takeHandle fh true).collectDetachedNode hsafe
  | forget _ fh dir => exact h.takeHandle fh dir
  | rmDir parent name caller hparent | unlink parent name caller hparent => exact h.removeNode order _
  | rename parent name newParent newName flags caller hold hnew => exact h.renameNode order (hsafe _ _ hold hnew)

section Lookup

open Prog

variable {S : Type} {B : Backends S}

theorem live_shownInode (backend : BackendID) (ino : Nat) (h : m.Live i) : (m.shownInode backend ino).2.Live i := by
  unfold shownInode
  split <;> exact h

theorem keptCalls_fs (B : Backends S) (P : MountedFS → Prop) : KeptCalls B (fun _ => True) fun w => P w.fs where
  quiet _ _ := trivial
  call _ _ _ hw := hw

theorem lookup_live (h : m.Agree) (parent : Nat) (name : Name) : Triple (At m fun _ => True)
    (B.lookup parent name) (fun found w => w.fs.Live found.1) fun _ _ => True := by
  have hE : ∀ (e : Errno) (w : MountWorld S), At m (fun _ => True) w → True := fun _ _ _ => trivial
  have hcalls := (keptCalls_true B).at m
  refine at_node hE fun parentNode hparent => ?_
  split
  · refine Triple.bind (Q := fun _ w => w.fs.Live parent) ?_ fun attr => triple_pure fun _ hw => hw
    exact ((keptCalls_fs B fun m => m.Live parent).keeps_getAttr (fun backend ino => live_shownInode backend ino)
      parent).conseq
      (fun _ hw => ⟨parentNode, hw.1 ▸ hparent⟩) (fun _ _ hw => hw) fun _ _ _ => trivial
  · refine at_readTables (triple_ite (fun _ => ?_) fun _ => ?_)
    · refine Triple.bind (Q := fun id w => w.fs.Live id) (triple_update fun w hw => ?_) fun id =>
        triple_pure fun _ hw => hw
      rw [hw.1]
      exact live_ensureNode h _
    · refine at_bind hE (hcalls.keeps_resolveBackendNode _) fun found => at_bind hE (hcalls.keeps_quiet rfl _)
        fun attr => ?_
      refine Triple.bind (Q := fun id w => w.fs.Live id) (triple_update fun w hw => ?_) fun id => ?_
      · rw [hw.1]
        exact (h.ensureResolvedNode _ _ _).2
      · refine Triple.bind (Q := fun _ w => w.fs.Live id) ?_ fun _ => triple_pure fun _ hw => hw
        exact (KeptCalls.keeps_backendAttr (fun _ _ => live_shownInode _ _) _ _ _).conseq
          (fun _ hw => hw) (fun _ _ hw => hw) fun _ _ _ => trivial

theorem serve_lookup_live {w w' : MountWorld S} (h : w.fs.Agree) {parent : Nat} {name : Name} {id : Nat}
    {attr : FuseAttr}
    (hserve : B.serve order (.lookup parent name) w = (.ok (.entry id attr), w')) : w'.fs.Live id := by
  have hreply : Triple (At w.fs fun _ => True) (B.serve order (.lookup parent name))
      (fun reply w' => ∀ id attr, reply = .entry id attr → w'.fs.Live id) fun _ _ => True := by
    refine Triple.bind (lookup_live h parent name) fun found => triple_pure fun w' hw' id attr heq => ?_
    exact (MountReply.entry.inj heq).1 ▸ hw'
  have hlive := hreply w ⟨rfl, trivial⟩
  rw [hserve] at hlive
  exact hlive id attr rfl

end Lookup

theorem agree_newMountedFS (root : BackendID) (shares : List ShareMount) : (newMountedFS root shares).Agree := by
  have hpaths : (newMountedFS root shares).pathToNode = (∅ : PathMap Nat).insert [] 1 := ofList_singleton
  have hnodes : (newMountedFS root shares).nodes = (∅ : IdMap MountedNode).insert 1 { path := [] } :=
    ofList_singleton
  have hrefs : (newMountedFS root shares).pathRefs = (∅ : IdMap Nat).insert 1 1 := ofList_singleton
  have hlive : ∀ id, (newMountedFS root shares).Live id ↔ id = 1 := by
    intro id
    simp only [Live, hnodes, getElem?_insert, LawfulEqCmp.compare_eq_iff_eq]
    split
    · next h => simp [h.symm]
    · next h => simp [Ne.symm h]
  refine ⟨fun {path id} hpath => ?_, fun hkey => (nomatch hkey), fun id => ?_, fun {id} hid => ?_⟩
  · rw [hpaths, getElem?_insert] at hpath
    split at hpath
    · exact (hlive id).mpr (Option.some.inj hpath).symm
    · simp at hpath
  · rw [hpaths, refs, hrefs]
    by_cases h : 1 = id
    · subst h
      rw [fibre_insert_self, Finset.card_insert_of_notMem (by simp)]
      simp
    · rw [fibre_insert_of_ne _ _ h, getElem?_insert, if_neg (by simpa using h)]
      simp
  · rw [(hlive id).mp hid]
    exact Nat.lt_succ_self 1

/-- In every run whose requests are safe for the tables they agree at the end, and so a lookup that succeeds gives an
inode that the next request finds. -/
theorem tables_agree {S : Type} (B : Backends S) (root : BackendID) (shares : List ShareMount) (backends : S)
    (rs : List (Iteration × MountRequest))
    (hrun : RunMeets B (fun w r => TablesSafe w.fs r) rs { fs := newMountedFS root shares, backends := backends }) :
    let w := (B.run rs { fs := newMountedFS root shares, backends := backends }).2
    w.fs.Agree ∧ ∀ order parent name id attr w', B.serve order (.lookup parent name) w = (.ok (.entry id attr), w') →
      w'.fs.Live id := by
  intro w
  have hagree : w.fs.Agree := by
    refine run_keeps (I := fun w => w.fs.Agree) (fun order r w hsafe hw => ?_) rs hrun (agree_newMountedFS root shares)
    exact (serve_tables B order r w).elim hw.grows (hw.shrink hsafe)
  exact ⟨hagree, fun order parent name id attr w' hserve => serve_lookup_live hagree hserve⟩

/-- A backend with one directory, whose names and inodes are its state. -/
def flatDir : Backends (List (Name × Nat)) where
  has _ _ := true
  answer _ call entries := match call with
    | .getAttr id => (.ok { ino := id }, entries)
    | .lookup id name => match if id = 1 then entries.lookup name else none with
      | some found => (.ok (found, { ino := found }), entries)
      | none => (.error .ENOENT, entries)
    | .open _ _ _ => (.ok (1 : Nat), entries)
    | .release _ _ => (.ok (), entries)
    | .unlink _ name _ => (.ok (), entries.filter (·.1 ≠ name))
    | _ => (.error .ENOSYS, entries)

/-- `/a` and `/b` are names of one file. -/
def linkedWorld : MountWorld (List (Name × Nat)) where
  fs := newMountedFS 0 []
  backends := [([97], 2), ([98], 2)]

theorem linkedWorld_eq : linkedWorld = { fs := { root := 0, mounts := [] }, backends := [([97], 2), ([98], 2)] } := by
  simp [linkedWorld, newMountedFS]

set_option maxRecDepth 100000 in
/-- `tables_agree` where `/b` is looked up before `/a` is unlinked and released. -/
theorem tables_agree_linked : let w := (flatDir.run [(id, .lookup 1 [97]), (id, .open 2 0 {}), (id, .lookup 1 [98]),
      (id, .unlink 1 [97] {}), (id, .release 2 1)] linkedWorld).2
    w.fs.Agree ∧ ∀ order parent name id attr w', flatDir.serve order (.lookup parent name) w =
    (.ok (.entry id attr), w') →
      w'.fs.Live id := by
  have hbound : (((flatDir.run [(id, .lookup 1 [97]), (id, .open 2 0 {}), (id, .lookup 1 [98]),
      (id, .unlink 1 [97] {})] linkedWorld).2).fs.takeHandle 1 false).2.refs 2 = 1 := by
    rw [linkedWorld_eq]
    decide +kernel
  refine tables_agree flatDir 0 [] [([97], 2), ([98], 2)] _ ⟨trivial, trivial, trivial, trivial, fun _ _ hrefs =>
    ?_, trivial⟩
  exact absurd (hbound.symm.trans hrefs) Nat.one_ne_zero

set_option maxRecDepth 100000 in
/-- `/a` is unlinked while it is open and then released; the lookup of `/b` gives the inode of the node that is gone. -/
theorem lookup_dead_node : let w := (flatDir.run [(id, .lookup 1 [97]), (id, .open 2 0 {}), (id, .unlink 1 [97] {}),
      (id, .release 2 1)] linkedWorld).2
    let served := flatDir.serve id (.lookup 1 [98]) w
    w.fs.backendNodes ⟨0, [], 2⟩ = some 2 ∧ w.fs.nodes[2]? = none ∧
      served.1 = .ok (.entry 2 { ino := 2 ^ 32 }) ∧ (flatDir.serve id (.getAttr 2) served.2).1 = .error .ENOENT := by
  rw [linkedWorld_eq]
  decide +kernel

end CrumbleCracker.Virtio

import CrumbleCracker.Virtio.MountedNamespace

/-!
# What the router's requests keep

One rule for each request: what the backend calls and the tables' own operations keep, the request keeps.
-/

namespace CrumbleCracker.Virtio

open Prog

variable {S : Type} {B : Backends S} {C : BackendCall → Prop} {I : MountWorld S → Prop}

/-! ## Requests that change a backend -/

/-- Calls that change contents, attributes, extended attributes or names. -/
def BackendCall.modifies : BackendCall → Bool
  | .open _ flags _ => hasBits flags linuxOTRUNC
  | .setXattr .. | .removeXattr .. | .mkdir .. | .mknod .. | .symlink .. | .link .. | .rmDir .. | .create .. | .write ..
  | .setAttr .. | .unlink .. | .rename .. => true
  | _ => false

def BackendCall.changesNames : BackendCall → Bool
  | .mkdir .. | .mknod .. | .symlink .. | .link .. | .rmDir .. | .create .. | .unlink .. | .rename .. => true
  | _ => false

def MountRequest.modifies : MountRequest → Bool
  | .open _ flags _ => hasBits flags linuxOTRUNC
  | .setXattr .. | .removeXattr .. | .mkdir .. | .mknod .. | .symlink .. | .link .. | .rmDir .. | .create .. | .write ..
  | .setAttr .. | .unlink .. | .rename .. => true
  | _ => false

/-! ## Rules -/

/-- `I` is kept by the calls in `C`, and these are enough to find things. -/
structure KeptCalls (B : Backends S) (C : BackendCall → Prop) (I : MountWorld S → Prop) : Prop where
  quiet : ∀ c : BackendCall, c.modifies = false → C c
  call : ∀ {w} backend c, C c → I w → I (B.call backend c w).2

/-- `I` is also kept by what adds to the tables. -/
structure Kept (B : Backends S) (C : BackendCall → Prop) (I : MountWorld S → Prop) : Prop extends KeptCalls B C I where
  ensureNode : ∀ {w : MountWorld S} path, I w → I { w with fs := (w.fs.ensureNode path).2 }
  ensureResolvedNode : ∀ {w : MountWorld S} path backend nodeID, I w →
    I { w with fs := (w.fs.ensureResolvedNode path backend nodeID).2 }
  shownInode : ∀ {w : MountWorld S} backend ino, I w → I { w with fs := (w.fs.shownInode backend ino).2 }

theorem keeps_readTables {α : Type} (f : MountedFS → α) : Keeps I (readTables f) := keeps_read _

theorem keeps_onTables {α : Type} {f : MountedFS → α × MountedFS}
    (h : ∀ w : MountWorld S, I w → I { w with fs := (f w.fs).2 }) :
    Keeps I (onTables f) := keeps_update h

theorem keeps_changeTables {f : MountedFS → MountedFS} (h : ∀ w : MountWorld S, I w → I { w with fs := f w.fs }) :
    Keeps I (changeTables f) := keeps_onTables h

variable (id : Nat)

theorem keeps_node : Keeps I (node id) := (keeps_readTables _).bind fun _ => keeps_ofOption _ _

theorem keeps_fileHandle (fh : Nat) : Keeps I (fileHandle fh) := (keeps_readTables _).bind fun _ => keeps_ofOption _ _

theorem keeps_newChild (parent : Path) (name : Name) : Keeps I (newChild parent name) :=
  (keeps_ofOption _ _).bind fun _ => (keeps_readTables _).bind fun _ => (keeps_require _ _).bind fun _ => keeps_pure _

theorem keeps_ordinaryChild (parent : Path) (name : Name) : Keeps I (Backends.ordinaryChild parent name) :=
  (keeps_readTables _).bind fun _ => (keeps_require _ _).bind fun _ => keeps_pure _

namespace KeptCalls

variable (h : KeptCalls B C I)

include h

variable {c : BackendCall}

theorem keeps_call (hc : C c) (backend : BackendID) : Keeps I (B.call backend c) :=
  keeps_iff.mpr fun _ => h.call backend c hc

theorem keeps_quiet (hc : c.modifies = false) (backend : BackendID) : Keeps I (B.call backend c) :=
  h.keeps_call (h.quiet c hc) backend

theorem keeps_notify (hc : c.modifies = false) (backend : BackendID) : Keeps I (B.notify backend c) :=
  keeps_iff.mpr fun _ => h.call backend c (h.quiet c hc)

theorem keeps_lookupPath (backend : BackendID) (path : Path) (id : Nat) : Keeps I (B.lookupPath backend path id) := by
  induction path generalizing id with
  | nil => exact keeps_pure id
  | cons name path ih => exact (h.keeps_quiet rfl _).bind fun found => ih found.1

theorem keeps_resolveBackendNode (path : Path) : Keeps I (B.resolveBackendNode path) := by
  refine (keeps_readTables _).bind fun m => keeps_ite (keeps_pure _) ?_
  split
  · exact keeps_pure _
  · exact (h.keeps_lookupPath _ _ _).bind fun _ => keeps_pure _

theorem keeps_target : Keeps I (B.target id) :=
  (keeps_node id).bind fun _ => h.keeps_resolveBackendNode _

theorem keeps_attrTarget (node : MountedNode) : Keeps I (B.attrTarget node) := by
  unfold Backends.attrTarget
  split
  · exact keeps_pure _
  · exact (h.keeps_resolveBackendNode _).bind fun _ => keeps_pure _

theorem keeps_readBackendDir (backend : BackendID) (nodeID fh fuel offset : Nat) :
    Keeps I (B.readBackendDir backend nodeID fh fuel offset) := by
  induction fuel generalizing offset with
  | zero => exact keeps_fail _
  | succ fuel ih =>
    refine (h.keeps_quiet rfl _).bind fun page => keeps_ite (keeps_pure _) ?_
    exact (keeps_require _ _).bind fun _ => (ih _).bind fun _ => keeps_pure _

theorem keeps_writableParent (path : Path) (feature : Feature) : Keeps I (B.writableParent path feature) :=
  (h.keeps_resolveBackendNode path).bind fun _ => (keeps_require _ _).bind fun _ => (keeps_require _ _).bind fun _ =>
    keeps_pure _

omit h in
theorem keeps_backendAttr
    (hshown : ∀ {w : MountWorld S} backend ino, I w → I { w with fs := (w.fs.shownInode backend ino).2 })
    (backend : BackendID) (nodeID : Nat) (attr : FuseAttr) : Keeps I (backendAttr backend nodeID attr) :=
  (keeps_onTables fun _ => hshown _ _).bind fun _ => keeps_pure _

theorem keeps_getAttr
    (hshown : ∀ {w : MountWorld S} backend ino, I w → I { w with fs := (w.fs.shownInode backend ino).2 })
    (id : Nat) : Keeps I (B.getAttr id) := by
  refine (keeps_node id).bind fun node => (keeps_readTables _).bind fun m => keeps_ite ?_ (keeps_ite (keeps_pure _) ?_)
  · exact (h.keeps_quiet rfl _).bind fun _ => keeps_pure _
  · exact (h.keeps_attrTarget node).bind fun _ => (h.keeps_quiet rfl _).bind fun _ => keeps_backendAttr hshown _ _ _

theorem keeps_statFS : Keeps I (B.statFS id) := by
  refine (keeps_node id).bind fun _ => (keeps_readTables _).bind fun _ =>
    (h.keeps_resolveBackendNode _).attempt.bind fun found => ?_
  split
  · exact h.keeps_quiet rfl _
  · exact h.keeps_quiet rfl _

theorem keeps_fsyncDir (fh : Nat) (flags : UInt32) : Keeps I (B.fsyncDir fh flags) := by
  refine (keeps_readTables _).bind fun _ => (keeps_ofOption _ _).bind fun handle => ?_
  split
  · exact keeps_ite (h.keeps_quiet rfl _) (keeps_pure _)
  · exact keeps_pure _

theorem and {J : MountWorld S → Prop} {D : BackendCall → Prop} (h' : KeptCalls B D J) :
    KeptCalls B (fun c => C c ∧ D c) fun w => I w ∧ J w where
  quiet c hc := ⟨h.quiet c hc, h'.quiet c hc⟩
  call backend c hc hw := ⟨h.call backend c hc.1 hw.1, h'.call backend c hc.2 hw.2⟩

end KeptCalls

namespace Kept

variable (h : Kept B C I)

include h

theorem keeps_backendAttr (backend : BackendID) (nodeID : Nat) (attr : FuseAttr) :
    Keeps I (backendAttr backend nodeID attr) := KeptCalls.keeps_backendAttr h.shownInode backend nodeID attr

theorem keeps_shownNode (path : Path) (backend : BackendID) (reply : Nat × FuseAttr) :
    Keeps I (shownNode path backend reply) :=
  (keeps_onTables fun _ => h.ensureResolvedNode _ _ _).bind fun _ =>
    (h.keeps_backendAttr _ _ _).bind fun _ => keeps_pure _

theorem keeps_getAttr : Keeps I (B.getAttr id) := h.toKeptCalls.keeps_getAttr h.shownInode id

theorem keeps_lookup (parent : Nat) (name : Name) : Keeps I (B.lookup parent name) := by
  refine (keeps_node parent).bind fun parentNode => ?_
  split
  · exact (h.keeps_getAttr _).bind fun _ => keeps_pure _
  · refine (keeps_readTables _).bind fun synthetic => keeps_ite ?_ ?_
    · exact (keeps_onTables fun _ => h.ensureNode _).bind fun _ => keeps_pure _
    · exact (h.keeps_resolveBackendNode _).bind fun _ => (h.keeps_quiet rfl _).bind fun _ => h.keeps_shownNode _ _ _

theorem keeps_addChild (path : Path) (backend : BackendID) (names : Listing) (child : DirEntry) :
    Keeps I (Backends.addChild path backend names child) :=
  keeps_ite (keeps_pure _) ((keeps_onTables fun _ => h.ensureResolvedNode _ _ _).bind fun _ => keeps_pure _)

theorem keeps_backendChildren (path : Path) (backend : Option BackendID) (nodeID fh : Nat) :
    Keeps I (B.backendChildren path backend nodeID fh) := by
  unfold Backends.backendChildren
  split
  · exact keeps_pure _
  · exact (h.keeps_readBackendDir _ _ _ _ _).bind fun _ =>
      Keeps.foldlM (fun names child _ => h.keeps_addChild _ _ names child) _

theorem keeps_snapshotDirEntries (path : Path) (backend : Option BackendID) (nodeID fh : Nat) :
    Keeps I (B.snapshotDirEntries id path backend nodeID fh) :=
  (keeps_onTables fun _ => h.ensureNode _).bind fun _ => (h.keeps_backendChildren _ _ _ _).bind fun _ =>
    (keeps_readTables _).bind fun _ =>
      (Keeps.foldlM (fun _ _ _ => (keeps_onTables fun _ => h.ensureNode _).bind fun _ =>
      keeps_pure _) _).bind fun _ => keeps_pure _

theorem and {J : MountWorld S → Prop} {D : BackendCall → Prop} (h' : Kept B D J) :
    Kept B (fun c => C c ∧ D c) fun w => I w ∧ J w where
  toKeptCalls := h.toKeptCalls.and h'.toKeptCalls
  ensureNode path hw := ⟨h.ensureNode path hw.1, h'.ensureNode path hw.2⟩
  ensureResolvedNode path backend nodeID hw :=
    ⟨h.ensureResolvedNode path backend nodeID hw.1, h'.ensureResolvedNode path backend nodeID hw.2⟩
  shownInode backend ino hw := ⟨h.shownInode backend ino hw.1, h'.shownInode backend ino hw.2⟩

end Kept

/-! ## Handles -/

namespace MountedFS

variable (m : MountedFS)

@[simp] theorem deleteNodeIfDetached_handles : (m.deleteNodeIfDetached id).handles = m.handles := by
  unfold deleteNodeIfDetached
  split <;> rfl

@[simp] theorem bindPath_handles (path : Path) (id : Nat) : (m.bindPath path id).handles = m.handles := by
  unfold bindPath
  split
  · rfl
  · split
    · rfl
    · split
      · rfl
      · rw [deleteNodeIfDetached_handles]
        rfl

@[simp] theorem ensureNode_handles (path : Path) : (m.ensureNode path).2.handles = m.handles := by
  unfold ensureNode
  split
  · rfl
  · exact bindPath_handles _ _ _

@[simp] theorem ensureResolvedNode_handles (path : Path) (backend : BackendID) (nodeID : Nat) :
    (m.ensureResolvedNode path backend nodeID).2.handles = m.handles := by
  unfold ensureResolvedNode
  dsimp only
  split
  · exact bindPath_handles _ _ _
  · split
    · dsimp only
      split <;> rfl
    · exact bindPath_handles _ _ _

@[simp] theorem shownInode_handles (backend : BackendID) (ino : Nat) :
    (m.shownInode backend ino).2.handles = m.handles := by
  unfold shownInode
  split <;> rfl

end MountedFS

theorem kept_handles (B : Backends S) (handles : IdMap MountedHandle) :
    Kept B (fun _ => True) fun w => w.fs.handles = handles where
  quiet _ _ := trivial
  call _ _ _ hw := hw
  ensureNode path hw := (MountedFS.ensureNode_handles _ path).trans hw
  ensureResolvedNode path backend nodeID hw := (MountedFS.ensureResolvedNode_handles _ path backend nodeID).trans hw
  shownInode backend ino hw := (MountedFS.shownInode_handles _ backend ino).trans hw

/-- `I` is kept by the calls, new inode numbers and new handles. -/
structure KeptPlain (B : Backends S) (C : BackendCall → Prop) (I : MountWorld S → Prop) : Prop
    extends KeptCalls B C I where
  shownInode : ∀ {w : MountWorld S} backend ino, I w → I { w with fs := (w.fs.shownInode backend ino).2 }
  stored : ∀ {w : MountWorld S} handle, I w → I { w with fs := (w.fs.storeHandle handle).2 }

namespace KeptPlain

variable (h : KeptPlain B C I)

include h

theorem keeps_storeHandle (path : Path) (backend : Option BackendID) (nodeID fh : Nat) (dir : Bool)
    (entries : List DirEntry) : Keeps I (storeHandle path backend nodeID fh dir entries) :=
  keeps_onTables fun _ => h.stored _

theorem keeps_openForCaller {flags : UInt32} {caller : Caller} (hC : ∀ n, C (.open n flags caller)) :
    Keeps I (B.openForCaller id flags caller) :=
  (keeps_node id).bind fun _ => (h.keeps_resolveBackendNode _).bind fun _ => (h.keeps_call (hC _) _).bind fun _ =>
    h.keeps_storeHandle _ _ _ _ _ _

theorem keeps_setAttrForCaller (fh : Nat) (change : AttrChange) (caller : Caller)
    (hC : ∀ n fh, C (.setAttr n fh change caller)) : Keeps I (B.setAttrForCaller id fh change caller) := by
  have hfile : Keeps I (backendFile change.valid fh) :=
    keeps_ite ((keeps_fileHandle fh).bind fun _ => keeps_pure _) (keeps_pure _)
  exact (h.keeps_target id).bind fun _ => (keeps_require _ _).bind fun _ => (keeps_require _ _).bind fun _ =>
    hfile.bind fun _ => (h.keeps_call (hC _ _) _).bind fun _ => KeptCalls.keeps_backendAttr h.shownInode _ _ _

end KeptPlain

/-- What also keeps `I`: a new handle, and a directory that is read again. -/
structure KeptHandles (B : Backends S) (C : BackendCall → Prop) (I : MountWorld S → Prop) :
    Prop extends Kept B C I where
  stored : ∀ {w : MountWorld S} handle, I w → I { w with fs := (w.fs.storeHandle handle).2 }
  rewind : ∀ {w : MountWorld S} fh handle entries started, w.fs.handles[fh]? = some handle → I w →
    I { w with fs := { w.fs with
      handles := w.fs.handles.insert fh { handle with entries := entries, started := started } } }

namespace KeptHandles

variable (h : KeptHandles B C I)

include h

theorem plain : KeptPlain B C I where
  toKeptCalls := h.toKeptCalls
  shownInode := h.shownInode
  stored := h.stored

theorem keeps_createForCaller (parent : Nat) (name : Name) (flags mode : UInt32) (caller : Caller) (hC : ∀ c, C c) :
    Keeps I (B.createForCaller parent name flags mode caller) :=
  (keeps_node parent).bind fun _ => (keeps_newChild _ _).bind fun _ => (h.keeps_writableParent _ _).bind fun _ =>
    (h.keeps_call (hC _) _).bind fun _ => (h.keeps_shownNode _ _ _).bind fun _ =>
      (h.plain.keeps_storeHandle _ _ _ _ _ _).bind fun _ => keeps_pure _

theorem keeps_openDir (flags : UInt32) : Keeps I (B.openDir id flags) := by
  refine (keeps_node id).bind fun node => (h.keeps_resolveBackendNode _).attempt.bind fun found => ?_
  split
  · refine (h.keeps_quiet rfl _).bind fun fh => (h.keeps_snapshotDirEntries _ _ _ _ _).attempt.bind fun listed => ?_
    split
    · exact h.plain.keeps_storeHandle _ _ _ _ _ _
    · exact (h.keeps_notify rfl _).bind fun _ => keeps_fail _
  · refine (keeps_readTables _).bind fun synthetic => keeps_ite ?_ (keeps_fail _)
    exact (h.keeps_snapshotDirEntries _ _ _ _ _).bind fun _ => h.plain.keeps_storeHandle _ _ _ _ _ _

theorem snapshotDirEntries_handle (path : Path) (backend : Option BackendID) (nodeID fh key : Nat)
    (handle : MountedHandle) :
    Triple (fun w => I w ∧ w.fs.handles[key]? = some handle)
      (B.snapshotDirEntries id path backend nodeID fh) (fun _ w => I w ∧ w.fs.handles[key]? = some handle)
      fun _ => I := by
  intro w hw
  have hkept := ((h.toKept.and (kept_handles B w.fs.handles)).keeps_snapshotDirEntries id path backend nodeID fh) w
    ⟨hw.1, rfl⟩
  split at hkept
  · exact ⟨hkept.1, hkept.2 ▸ hw.2⟩
  · exact hkept.1

/-- The handle that is read is still the same when the listing has been taken again. -/
theorem keeps_readDir (fh off : Nat) (maxBytes : UInt32) : Keeps I (B.readDir id fh off maxBytes) := by
  refine (keeps_node id).bind fun node => ?_
  have hread : Triple I (readTables fun m => m.handle fh true) (fun found w => I w ∧ found = w.fs.handle fh true)
      (fun _ => I) := triple_read fun w hw => ⟨hw, rfl⟩
  refine hread.bind fun found => ?_
  have hfound : Triple (fun w => I w ∧ found = w.fs.handle fh true) (ofOption found Errno.EBADF)
      (fun handle w => I w ∧ w.fs.handles[fh]? = some handle) (fun _ => I) := by
    refine triple_ofOption (fun handle w hsome hw => ⟨hw.1, ?_⟩) fun w _ hw => hw.1
    exact (Option.filter_eq_some_iff.mp (hw.2.symm.trans hsome)).1
  refine hfound.bind fun handle => ?_
  by_cases hrefresh : off = 0 ∧ handle.started = true
  · obtain ⟨hoff, hstarted⟩ := hrefresh
    subst hoff
    have hsame : ({ handle with started := true } : MountedHandle) = handle := by
      rw [← hstarted]
    simp only [hsame, hstarted, and_true, if_true]
    have hstart : Triple (fun w : MountWorld S => I w ∧ w.fs.handles[fh]? = some handle)
        (changeTables fun m => { m with handles := m.handles.insert fh handle })
        (fun _ w => I w ∧ w.fs.handles[fh]? = some handle) (fun _ => I) := by
      refine triple_update fun w hw => ⟨?_, ?_⟩
      · exact h.rewind fh handle handle.entries handle.started hw.2 hw.1
      · exact Std.ExtTreeMap.getElem?_insert_self
    refine hstart.bind fun _ => ?_
    refine (h.snapshotDirEntries_handle id node.path handle.backend handle.nodeID handle.fh fh handle).bind
      fun entries => ?_
    have hset : Triple (fun w : MountWorld S => I w ∧ w.fs.handles[fh]? = some handle)
        (changeTables fun m =>
          { m with handles := m.handles.insert fh { handle with entries := entries, started := true } })
        (fun _ => I) (fun _ => I) := triple_update fun w hw => h.rewind fh handle entries true hw.2 hw.1
    exact hset.bind fun _ => keeps_pure _
  · simp only [hrefresh, if_false]
    refine Triple.bind (triple_update fun w hw => ?_) fun _ => keeps_pure _
    show I { w with fs := _ }
    split
    · exact h.rewind fh handle handle.entries true hw.2 hw.1
    · exact hw.1

end KeptHandles

/-! ## Requests -/

namespace Kept

variable (h : Kept B C I)

include h

theorem keeps_linkForCaller (newParent : Nat) (newName : Name) (caller : Caller) (hC : ∀ c, C c) :
    Keeps I (B.linkForCaller id newParent newName caller) :=
  (keeps_node id).bind fun _ => (keeps_node newParent).bind fun _ => (keeps_newChild _ _).bind fun _ =>
    (h.keeps_resolveBackendNode _).bind fun _ => (h.keeps_resolveBackendNode _).bind fun _ =>
      (keeps_require _ _).bind fun _ => (keeps_require _ _).bind fun _ => (h.keeps_call (hC _) _).bind fun _ =>
        h.keeps_shownNode _ _ _

end Kept

/-- Requests that take names or handles out of the tables. -/
def MountRequest.shrinks : MountRequest → Bool
  | .release .. | .releaseDir .. | .rmDir .. | .unlink .. | .rename .. => true
  | _ => false

/-- Requests that leave the nodes and their paths alone. -/
def MountRequest.plain : MountRequest → Bool
  | .getAttr .. | .open .. | .read .. | .getXattr .. | .listXattr .. | .setXattr .. | .removeXattr .. | .readlink ..
  | .statFS .. | .write .. | .setAttr .. | .flush .. | .fsync .. | .fsyncDir .. | .lseek .. | .syncFS => true
  | _ => false

theorem KeptPlain.keeps_serve (h : KeptPlain B C I) (order : Iteration) (r : MountRequest)
    (hC : r.modifies = true → ∀ c : BackendCall, c.changesNames = false → C c) (hr : r.plain = true) :
    Keeps I (B.serve order r) := by
  cases r with
  | getAttr node => exact (h.toKeptCalls.keeps_getAttr h.shownInode node).map _
  | «open» node flags caller =>
    refine (h.keeps_openForCaller node fun n => ?_).map _
    cases hflags : hasBits flags linuxOTRUNC with
    | true => exact hC hflags _ rfl
    | false => exact h.quiet _ hflags
  | read node fh off size =>
    apply Keeps.map
    exact (keeps_fileHandle fh).bind fun _ => h.keeps_quiet rfl _
  | getXattr node name =>
    apply Keeps.map
    exact (h.keeps_target node).bind fun _ => (keeps_require _ _).bind fun _ => h.keeps_quiet rfl _
  | listXattr node =>
    apply Keeps.map
    exact (h.keeps_target node).bind fun _ => keeps_ite (h.keeps_quiet rfl _) (keeps_pure _)
  | setXattr node name value flags | removeXattr node name =>
    apply Keeps.map
    exact (h.keeps_target node).bind fun _ => (keeps_require _ _).bind fun _ => h.keeps_call (hC rfl _ rfl) _
  | readlink node =>
    apply Keeps.map
    exact (h.keeps_target node).bind fun _ => h.keeps_quiet rfl _
  | statFS node => exact (h.keeps_statFS node).map _
  | write node fh off data flags caller =>
    apply Keeps.map
    exact (keeps_fileHandle fh).bind fun _ => (keeps_require _ _).bind fun _ => h.keeps_call (hC rfl _ rfl) _
  | setAttr node fh change caller =>
    exact (h.keeps_setAttrForCaller node fh change caller fun _ _ => hC rfl _ rfl).map _
  | flush node fh lockOwner | fsync node fh flags =>
    apply Keeps.map
    exact (keeps_fileHandle fh).bind fun _ => keeps_ite (h.keeps_quiet rfl _) (keeps_pure _)
  | fsyncDir node fh flags => exact (h.keeps_fsyncDir fh flags).map _
  | lseek node fh off whence =>
    apply Keeps.map
    exact (keeps_fileHandle fh).bind fun _ => (keeps_require _ _).bind fun _ => h.keeps_quiet rfl _
  | syncFS =>
    apply Keeps.map
    exact (keeps_readTables _).bind fun _ => Keeps.forM (fun _ => keeps_ite (h.keeps_quiet rfl _) (keeps_pure _)) _
  | _ => nomatch hr

theorem KeptHandles.keeps_serve (h : KeptHandles B C I) (order : Iteration) (r : MountRequest)
    (hC : r.modifies = true → ∀ c, C c) (hr : r.shrinks = false) : Keeps I (B.serve order r) := by
  cases hplain : r.plain with
  | true => exact h.plain.keeps_serve order r (fun hmod c _ => hC hmod c) hplain
  | false =>
    cases r with
    | lookup parent name => exact (h.keeps_lookup parent name).map _
    | openDir node flags => exact (h.keeps_openDir node flags).map _
    | readDir node fh off maxBytes => exact (h.keeps_readDir node fh off maxBytes).map _
    | mkdir parent name mode caller =>
      apply Keeps.map
      exact (keeps_node parent).bind fun _ => (h.keeps_writableParent _ _).bind fun _ =>
        (h.keeps_call (hC rfl _) _).bind fun _ => h.keeps_shownNode _ _ _
    | mknod parent name mode rdev caller | symlink parent name target caller =>
      apply Keeps.map
      exact (keeps_node parent).bind fun _ => (keeps_newChild _ _).bind fun _ =>
        (h.keeps_writableParent _ _).bind fun _ =>
        (h.keeps_call (hC rfl _) _).bind fun _ => h.keeps_shownNode _ _ _
    | link node newParent newName caller => exact (h.keeps_linkForCaller node newParent newName caller (hC rfl)).map _
    | create parent name flags mode caller =>
      exact (h.keeps_createForCaller parent name flags mode caller (hC rfl)).map _
    | release node fh | releaseDir node fh | rmDir parent name caller | unlink parent name caller
    | rename parent name newParent newName flags caller => nomatch hr
    | _ => nomatch hplain

/-! ## Requests that take names or handles away -/

/-- What such a request does to the tables when it does something. -/
inductive Shrink (order : Iteration) (m : MountedFS) : MountRequest → MountedFS → Prop
  | release (id fh : Nat) : Shrink order m (.release id fh) ((m.takeHandle fh false).2.collectDetachedNode id)
  | releaseDir (id fh : Nat) : Shrink order m (.releaseDir id fh) ((m.takeHandle fh true).2.collectDetachedNode id)
  /-- The handle had no backend. -/
  | forget (r : MountRequest) (fh : Nat) (dir : Bool) : Shrink order m r (m.takeHandle fh dir).2
  | rmDir {parentNode : MountedNode} (parent : Nat) (name : Name) (caller : Caller) :
    m.nodes[parent]? = some parentNode →
    Shrink order m (.rmDir parent name caller) (m.removeNode order (childPath parentNode.path name))
  | unlink {parentNode : MountedNode} (parent : Nat) (name : Name) (caller : Caller) :
    m.nodes[parent]? = some parentNode →
    Shrink order m (.unlink parent name caller) (m.removeNode order (childPath parentNode.path name))
  | rename {oldParentNode newParentNode : MountedNode} (parent : Nat) (name : Name) (newParent : Nat) (newName : Name)
      (flags : UInt32) (caller : Caller) :
    m.nodes[parent]? = some oldParentNode → m.nodes[newParent]? = some newParentNode →
    Shrink order m (.rename parent name newParent newName flags caller)
      (m.renameNode order (childPath oldParentNode.path name) (childPath newParentNode.path newName))

variable {name : Name}

section Tables

variable {α β : Type} {m : MountedFS} {Q : α → MountWorld S → Prop} {E : Errno → MountWorld S → Prop}

def MountedFS.routedBackend (m : MountedFS) (path : Path) : BackendID :=
  if path = [] then m.root else ((m.nodeForPath path).bind MountedNode.backend).getD (m.mountBackend path)

def MountedFS.routedMount (m : MountedFS) (path : Path) : Option ShareMount :=
  if path = [] then none else m.mountForPath path

/-- The tables are `m`, and `I` holds. -/
def At (m : MountedFS) (I : MountWorld S → Prop) (w : MountWorld S) : Prop := w.fs = m ∧ I w

theorem KeptCalls.at (h : KeptCalls B C I) (m : MountedFS) : KeptCalls B C (At m I) where
  quiet := h.quiet
  call backend c hc hw := ⟨hw.1, h.call backend c hc hw.2⟩

theorem at_bind {x : MountM S β} {f : β → MountM S α} (hE : ∀ e w, At m I w → E e w) (hx : Keeps (At m I) x)
    (hf : ∀ b, Triple (At m I) (f b) Q E) : Triple (At m I) (x >>= f) Q E :=
  Triple.bind (hx.conseq (fun _ h => h) (fun _ _ h => h) hE) hf

theorem at_readTables {g : MountedFS → β} {f : β → MountM S α} (hf : Triple (At m I) (f (g m)) Q E) :
    Triple (At m I) (readTables g >>= f) Q E := by
  intro w hw
  have := hf w hw
  rw [← hw.1] at this
  exact this

theorem at_node {id : Nat} {f : MountedNode → MountM S α} (hE : ∀ e w, At m I w → E e w)
    (hf : ∀ node, m.nodes[id]? = some node → Triple (At m I) (f node) Q E) : Triple (At m I) (node id >>= f) Q E := by
  have hnode : Triple (At m I) (node id) (fun node w => m.nodes[id]? = some node ∧ At m I w) E :=
    at_readTables (triple_ofOption (fun _ _ hsome hw => ⟨hsome, hw⟩) fun w _ hw => hE _ w hw)
  exact hnode.bind fun node w hw => hf node hw.1 w hw.2

theorem at_node_some {id : Nat} {found : MountedNode} {f : MountedNode → MountM S α} (hnode : m.nodes[id]? = some found)
    (hf : Triple (At m I) (f found) Q E) : Triple (At m I) (node id >>= f) Q E := by
  unfold node
  rw [Prog.bind_assoc]
  refine at_readTables ?_
  rw [hnode]
  exact hf

theorem at_fileHandle {fh : Nat} {f : BackendID × MountedHandle → MountM S α} (hE : ∀ e w, At m I w → E e w)
    (hf : ∀ backend handle, m.handle fh false = some handle → handle.backend = some backend →
      Triple (At m I) (f (backend, handle)) Q E) : Triple (At m I) (fileHandle fh >>= f) Q E := by
  have hfile : Triple (At m I) (fileHandle fh)
      (fun found w => (m.handle fh false = some found.2 ∧ found.2.backend = some found.1) ∧ At m I w) E := by
    refine at_readTables (triple_ofOption (fun found w hsome hw => ⟨?_, hw⟩) fun w _ hw => hE _ w hw)
    obtain ⟨handle, hhandle, hmap⟩ := Option.bind_eq_some_iff.mp hsome
    obtain ⟨backend, hbackend, rfl⟩ := Option.map_eq_some_iff.mp hmap
    exact ⟨hhandle, hbackend⟩
  exact hfile.bind fun found w hw => hf found.1 found.2 hw.1.1 hw.1.2 w hw.2

theorem at_ordinaryChild {parent : Path} {f : Path → MountM S α} (hE : ∀ e w, At m I w → E e w)
    (hf : m.isMountOrSynthetic (childPath parent name) = false → Triple (At m I) (f (childPath parent name)) Q E) :
    Triple (At m I) (Backends.ordinaryChild parent name >>= f) Q E := by
  have hchild : Triple (At m I) (Backends.ordinaryChild parent name) (fun path w =>
      (path = childPath parent name ∧ m.isMountOrSynthetic path = false) ∧ At m I w) E := by
    refine at_readTables (Triple.bind (Q := fun _ w => m.isMountOrSynthetic (childPath parent name) = false ∧ At m I w)
      (triple_require (fun _ hw hfree => ⟨hfree, hw⟩) fun w hw _ => hE _ w hw) fun _ => ?_)
    exact triple_pure fun w hw => ⟨⟨rfl, hw.1⟩, hw.2⟩
  refine hchild.bind fun path w hw => ?_
  obtain ⟨⟨rfl, hfree⟩, hw⟩ := hw
  exact hf hfree w hw

theorem at_resolveBackendNode (h : KeptCalls B C I) {path : Path} {f : BackendID × Nat × Option ShareMount → MountM S α}
    (hE : ∀ e w, At m I w → E e w) (hf : ∀ id, Triple (At m I) (f (m.routedBackend path, id, m.routedMount path)) Q E) :
    Triple (At m I) (B.resolveBackendNode path >>= f) Q E := by
  have hresolve : Triple (At m I) (B.resolveBackendNode path)
      (fun found w => (found.1 = m.routedBackend path ∧ found.2.2 = m.routedMount path) ∧ At m I w) E := by
    unfold Backends.resolveBackendNode MountedFS.routedBackend MountedFS.routedMount
    refine at_readTables (triple_ite (fun hroot => ?_) fun hroot => ?_)
    · simp only [hroot, if_true]
      exact triple_pure fun w hw => ⟨⟨rfl, rfl⟩, hw⟩
    · simp only [hroot, if_false, id]
      split
      · next hnode =>
        rw [hnode]
        exact triple_pure fun w hw => ⟨⟨rfl, rfl⟩, hw⟩
      · next hnode =>
        have hbackend : (m.nodeForPath path).bind MountedNode.backend = none := by
          rcases hfound : m.nodeForPath path with _ | ⟨path', backend, nodeID, route⟩
          · rfl
          · cases backend with
            | none => rfl
            | some backend => exact (hnode _ _ _ _ hfound).elim
        rw [hbackend]
        refine at_bind hE ((h.at m).keeps_lookupPath _ _ _) fun _ => triple_pure fun w hw => ⟨⟨rfl, rfl⟩, hw⟩
  refine hresolve.bind fun found w hw => ?_
  obtain ⟨backend, id, mount⟩ := found
  obtain ⟨⟨rfl, rfl⟩, hw⟩ := hw
  exact hf id w hw

end Tables

section Shrink

variable {α : Type} {m : MountedFS} {Q : MountedFS → Prop} {order : Iteration}

/-- A program that starts from the tables `m` and ends with `Q`. -/
def EndsWith (m : MountedFS) (x : MountM S α) (Q : MountedFS → Prop) : Prop :=
  Triple (At m fun _ => True) x (fun _ w => Q w.fs) fun _ w => Q w.fs

theorem EndsWith.tables {x : MountM S α} (h : EndsWith m x Q) {w : MountWorld S} (hw : w.fs = m) : Q (x w).2.fs := by
  have := h w ⟨hw, trivial⟩
  split at this <;> simp_all

theorem EndsWith.map {β : Type} {x : MountM S α} (h : EndsWith m x Q) (f : α → β) : EndsWith m (f <$> x) Q :=
  Triple.bind h fun _ => triple_pure fun _ h => h

theorem endsWith_changeTables {f : MountedFS → MountedFS} (hf : Q (f m)) : EndsWith (S := S) m (changeTables f) Q :=
  triple_update fun _ hw => by
    rw [← hw.1] at hf
    exact hf

theorem keptCalls_true (B : Backends S) : KeptCalls B (fun _ => True) fun _ => True where
  quiet _ _ := trivial
  call _ _ _ _ := trivial

theorem endsWith_releaseHandle {dir : Bool} {call : Nat → Nat → BackendCall} {id fh : Nat}
    (htake : Q (m.takeHandle fh dir).2) (hcollect : Q ((m.takeHandle fh dir).2.collectDetachedNode id)) :
    EndsWith m (B.releaseHandle dir call id fh) Q := by
  have hfirst : Triple (At m fun _ => True) (onTables fun m => m.takeHandle fh dir)
      (fun _ : Option MountedHandle => At (S := S) (m.takeHandle fh dir).2 fun _ => True) fun _ w => Q w.fs :=
    triple_update fun w hw => ⟨congrArg (fun m => (m.takeHandle fh dir).2) hw.1, trivial⟩
  refine hfirst.bind fun found => ?_
  split
  · refine at_bind (fun _ w hw => hw.1 ▸ htake) (keeps_iff.mpr fun _ hw => hw) fun _ => ?_
    exact endsWith_changeTables hcollect
  · exact triple_pure fun w hw => hw.1 ▸ htake

theorem endsWith_removeChild {feature : Feature} {call : Nat → BackendCall} {parent : Nat} (hm : Q m)
    (hremove : ∀ parentNode, m.nodes[parent]? = some parentNode →
      Q (m.removeNode order (childPath parentNode.path name))) :
    EndsWith m (B.removeChild order feature call parent name) Q := by
  have hE : ∀ (e : Errno) (w : MountWorld S), At m (fun _ => True) w → Q w.fs := fun _ w hw => hw.1 ▸ hm
  have hcalls := (keptCalls_true B).at m
  refine at_node hE fun parentNode hparent => at_ordinaryChild hE fun _ => ?_
  refine at_bind hE (hcalls.keeps_writableParent _ _) fun _ => at_bind hE (hcalls.keeps_call trivial _) fun _ => ?_
  exact endsWith_changeTables (hremove parentNode hparent)

theorem endsWith_renameForCaller {parent newParent : Nat} {newName : Name} {flags : UInt32} {caller : Caller} (hm : Q m)
    (hrename : ∀ oldNode newNode, m.nodes[parent]? = some oldNode → m.nodes[newParent]? = some newNode →
      Q (m.renameNode order (childPath oldNode.path name) (childPath newNode.path newName))) :
    EndsWith m (B.renameForCaller order parent name newParent newName flags caller) Q := by
  have hE : ∀ (e : Errno) (w : MountWorld S), At m (fun _ => True) w → Q w.fs := fun _ w hw => hw.1 ▸ hm
  have hcalls := (keptCalls_true B).at m
  refine at_node hE fun oldNode hold => at_node hE fun newNode hnew => ?_
  refine at_ordinaryChild hE fun _ => at_ordinaryChild hE fun _ => ?_
  refine at_bind hE (hcalls.keeps_resolveBackendNode _) fun _ => at_bind hE (hcalls.keeps_resolveBackendNode _) fun _ =>
    ?_
  refine at_bind hE (keeps_require _ _) fun _ => at_bind hE (keeps_require _ _) fun _ => ?_
  refine at_bind hE (hcalls.keeps_call trivial _) fun _ => ?_
  exact endsWith_changeTables (hrename oldNode newNode hold hnew)

end Shrink

/-! ## What one request does to the tables -/

/-- What a request may add to the tables on its way. -/
inductive Grow (m : MountedFS) : MountedFS → Prop
  | ensureNode (path : Path) : Grow m (m.ensureNode path).2
  | ensureResolvedNode (path : Path) (backend : BackendID) (nodeID : Nat) :
    Grow m (m.ensureResolvedNode path backend nodeID).2
  | shownInode (backend : BackendID) (ino : Nat) : Grow m (m.shownInode backend ino).2
  | storeHandle (handle : MountedHandle) : Grow m (m.storeHandle handle).2
  | rewind {handle : MountedHandle} (fh : Nat) (entries : List DirEntry) (started : Bool) :
    m.handles[fh]? = some handle →
    Grow m { m with handles := m.handles.insert fh { handle with entries := entries, started := started } }

abbrev Grows : MountedFS → MountedFS → Prop := Relation.ReflTransGen Grow

theorem keptHandles_grows (B : Backends S) (m : MountedFS) : KeptHandles B (fun _ => True) fun w => Grows m w.fs where
  quiet _ _ := trivial
  call _ _ _ hw := hw
  ensureNode path hw := hw.tail (.ensureNode path)
  ensureResolvedNode path backend nodeID hw := hw.tail (.ensureResolvedNode path backend nodeID)
  shownInode backend ino hw := hw.tail (.shownInode backend ino)
  stored handle hw := hw.tail (.storeHandle handle)
  rewind fh _ entries started hhandle hw := hw.tail (.rewind fh entries started hhandle)

theorem serve_tables (B : Backends S) (order : Iteration) (r : MountRequest) (w : MountWorld S) :
    Grows w.fs (B.serve order r w).2.fs ∨ Shrink order w.fs r (B.serve order r w).2.fs := by
  have hsame : Grows w.fs w.fs ∨ Shrink order w.fs r w.fs := .inl .refl
  cases hr : r.shrinks with
  | false => exact .inl (keeps_iff.mp ((keptHandles_grows B w.fs).keeps_serve order r (fun _ _ => trivial) hr) w .refl)
  | true =>
    suffices h : EndsWith w.fs (B.serve order r) fun m => Grows w.fs m ∨ Shrink order w.fs r m from h.tables rfl
    cases r with
    | release id fh => exact EndsWith.map (endsWith_releaseHandle (.inr (.forget _ fh false)) (.inr (.release id fh))) _
    | releaseDir id fh =>
      exact EndsWith.map (endsWith_releaseHandle (.inr (.forget _ fh true)) (.inr (.releaseDir id fh))) _
    | rmDir parent name caller =>
      exact EndsWith.map (endsWith_removeChild hsame fun _ h => .inr (.rmDir parent name caller h)) _
    | unlink parent name caller =>
      exact EndsWith.map (endsWith_removeChild hsame fun _ h => .inr (.unlink parent name caller h)) _
    | rename parent name newParent newName flags caller =>
      exact EndsWith.map (endsWith_renameForCaller hsame fun _ _ h h' =>
        .inr (.rename parent name newParent newName flags caller h h')) _
    | _ => nomatch hr

/-! ## Runs -/

def Backends.run (B : Backends S) : List (Iteration × MountRequest) → MountWorld S →
    List (Except Errno MountReply) × MountWorld S
  | [], w => ([], w)
  | (order, r) :: rest, w =>
    let served := B.serve order r w
    let later := run B rest served.2
    (served.1 :: later.1, later.2)

theorem newMountedFS_single (root : BackendID) (share : ShareMount) (h : share.path ≠ []) :
    newMountedFS root [share] = { root := root, mounts := [share] } := by
  simp [newMountedFS, h]

/-- Each request of the run meets `P` when it is served. -/
def RunMeets (B : Backends S) (P : MountWorld S → MountRequest → Prop) :
    List (Iteration × MountRequest) → MountWorld S → Prop
  | [], _ => True
  | (order, r) :: rest, w => P w r ∧ RunMeets B P rest (B.serve order r w).2

instance decidableRunMeets (B : Backends S) (P : MountWorld S → MountRequest → Prop) [∀ w r, Decidable (P w r)] :
    (rs : List (Iteration × MountRequest)) → (w : MountWorld S) → Decidable (RunMeets B P rs w)
  | [], _ => inferInstanceAs (Decidable True)
  | (order, r) :: rest, w =>
    have := decidableRunMeets B P rest (B.serve order r w).2
    inferInstanceAs (Decidable (_ ∧ _))

theorem run_keeps {P : MountWorld S → MountRequest → Prop}
    (hstep : ∀ order r w, P w r → I w → I (B.serve order r w).2) (rs : List (Iteration × MountRequest))
    {w : MountWorld S} (hrun : RunMeets B P rs w) (hw : I w) : I (B.run rs w).2 := by
  induction rs generalizing w with
  | nil => exact hw
  | cons head rest ih => exact ih hrun.2 (hstep head.1 head.2 w hrun.1 hw)

end CrumbleCracker.Virtio

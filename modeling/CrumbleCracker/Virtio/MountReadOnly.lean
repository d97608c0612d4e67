import CrumbleCracker.Virtio.MountedRules

/-!
# Read-only mounts

A share that is not writable is protected by the requests one by one: each of those that change something looks at the
mount of the path it was sent to. `Open` with `O_TRUNC`, `Write` and the changes of extended attributes do not
(`truncates_readOnly`). In a run without them nothing below the mount changes (`readOnly_run`).
-/

namespace CrumbleCracker.Virtio

open Prog List Option

variable {S : Type} {path : Path}

/-! ## Runs below a mount -/

def MountRequest.nodes : MountRequest → List Nat
  | .getAttr id | .lookup id _ | .open id _ _ | .release id _ | .read id _ _ _ | .getXattr id _ | .listXattr id
  | .setXattr id _ _ _ | .removeXattr id _ | .openDir id _ | .readDir id _ _ _ | .releaseDir id _ | .readlink id
  | .statFS id
  | .mkdir id _ _ _ | .mknod id _ _ _ _ | .symlink id _ _ _ | .rmDir id _ _ | .create id _ _ _ _ | .write id _ _ _ _ _
  | .setAttr id _ _ _ | .unlink id _ _ | .flush id _ _ | .fsync id _ _ | .fsyncDir id _ _ | .lseek id _ _ _ => [id]
  | .link id newParent _ _ => [id, newParent]
  | .rename parent _ newParent _ _ _ => [parent, newParent]
  | .syncFS => []

/-- One of the request's nodes is below the mount, and not in another one nested in it. -/
def AddressedTo (mount : ShareMount) (m : MountedFS) (r : MountRequest) : Prop :=
  ∃ id ∈ r.nodes, ∃ node, m.nodes[id]? = some node ∧ m.mountForPath node.path = some mount

instance (mount : ShareMount) (m : MountedFS) (r : MountRequest) : Decidable (AddressedTo mount m r) :=
  decidable_of_iff (∃ id ∈ r.nodes, ∃ node ∈ m.nodes[id]?, m.mountForPath node.path = some mount) Iff.rfl

/-- Not one of the requests that are passed on without a look at the mount; a backend may not know them. -/
def guarded (B : Backends S) (m : MountedFS) : MountRequest → Bool
  | .open _ flags _ => !hasBits flags linuxOTRUNC
  | .write _ fh _ _ _ _ => (m.handle fh false).all fun handle => handle.backend.all fun backend => !B.has backend .write
  | .setXattr id _ _ _ | .removeXattr id _ =>
    m.nodes[id]?.all fun node => !B.has (m.routedBackend node.path) .xattrMutation
  | _ => true

/-- Every request is addressed to the mount and guarded when it is served. -/
abbrev GuardedRun (B : Backends S) (mount : ShareMount) : List (Iteration × MountRequest) → MountWorld S → Prop :=
  RunMeets B fun w r => AddressedTo mount w.fs r ∧ guarded B w.fs r = true

/-! ## Without changes -/

/-- Since `w₀` no call has changed a backend. -/
structure NoChange (B : Backends S) (w₀ w : MountWorld S) : Prop where
  trace : ∃ calls, w.trace = w₀.trace ++ calls ∧ ∀ c ∈ calls, c.2.modifies = false
  shows : ∀ {V : Type} (shows : S → V), (∀ backend c s, c.modifies = false → shows (B.answer backend c s).2 = shows s) →
    shows w.backends = shows w₀.backends

variable {r : MountRequest}

namespace NoChange

variable {B : Backends S} {w₀ w w' : MountWorld S}

theorem refl (B : Backends S) (w : MountWorld S) : NoChange B w w where
  trace := ⟨[], (append_nil _).symm, nofun⟩
  shows _ _ := rfl

theorem trans (h : NoChange B w₀ w) (h' : NoChange B w w') : NoChange B w₀ w' := by
  obtain ⟨calls, htrace, hcalls⟩ := h.trace
  obtain ⟨calls', htrace', hcalls'⟩ := h'.trace
  refine ⟨⟨calls ++ calls', ?_, forall_mem_append.2 ⟨hcalls, hcalls'⟩⟩,
    fun shows hs => (h'.shows shows hs).trans (h.shows shows hs)⟩
  rw [htrace', htrace, append_assoc]

theorem call {backend : BackendID} {c : BackendCall} (hc : c.modifies = false) (h : NoChange B w₀ w) :
    NoChange B w₀ (B.call backend c w).2 :=
  h.trans ⟨⟨[(backend, c)], rfl, forall_mem_singleton.2 hc⟩, fun _ hs => hs backend c _ hc⟩

theorem keptHandles (B : Backends S) (w₀ : MountWorld S) :
    KeptHandles B (fun c => c.modifies = false) fun w => NoChange B w₀ w where
  quiet _ hc := hc
  call _ _ hc h := h.call hc
  ensureNode _ h := ⟨h.trace, h.shows⟩
  ensureResolvedNode _ _ _ h := ⟨h.trace, h.shows⟩
  shownInode _ _ h := ⟨h.trace, h.shows⟩
  stored _ h := ⟨h.trace, h.shows⟩
  rewind _ _ _ _ _ h := ⟨h.trace, h.shows⟩

theorem keeps_releaseHandle (dir : Bool) {call : Nat → Nat → BackendCall} (hcall : ∀ n fh, (call n fh).modifies = false)
    (id fh : Nat) : Keeps (NoChange B w₀) (B.releaseHandle dir call id fh) := by
  refine (keeps_onTables fun _ h => ⟨h.trace, h.shows⟩).bind fun found => ?_
  split
  · exact ((keptHandles B w₀).keeps_notify (hcall _ _) _).bind fun _ =>
      keeps_changeTables fun _ h => ⟨h.trace, h.shows⟩
  · exact keeps_pure _

theorem keeps_serve (order : Iteration) (hr : r.modifies = false) : Keeps (NoChange B w₀) (B.serve order r) := by
  cases hs : r.shrinks with
  | false => exact (keptHandles B w₀).keeps_serve order r (fun h => nomatch hr.symm.trans h) hs
  | true =>
    cases r with
    | release id fh => exact (keeps_releaseHandle false (fun _ _ => rfl) id fh).map _
    | releaseDir id fh => exact (keeps_releaseHandle true (fun _ _ => rfl) id fh).map _
    | rmDir parent name caller | unlink parent name caller | rename parent name newParent newName flags caller =>
      nomatch hr
    | _ => nomatch hs

end NoChange

/-! ## Refusals -/

theorem mountForPath_path {m : MountedFS} {mount : ShareMount} (h : m.mountForPath path = some mount) :
    mount.path <+: path := by
  suffices hfold : ∀ (mounts : List ShareMount) (best : Option ShareMount), (∀ b ∈ best, b.path <+: path) →
      ∀ b ∈ mounts.foldl (betterMount path) best, b.path <+: path from
    hfold m.mounts none (fun _ h => nomatch h) mount h
  intro mounts
  induction mounts with
  | nil => exact fun _ h => h
  | cons mount' mounts ih =>
    intro best hbest
    refine ih _ fun b hb => ?_
    unfold betterMount at hb
    split at hb
    · split at hb
      · exact some.inj hb ▸ ‹_›
      · split at hb
        · exact some.inj hb ▸ ‹_›
        · exact hbest b hb
    · exact hbest b hb

/-- From the tables `m` the program fails, and keeps `I`. -/
def Refused {α : Type} (m : MountedFS) (I : MountWorld S → Prop) (x : MountM S α) : Prop :=
  Triple (At m I) x (fun _ _ => False) fun _ => I

section Refused

variable {α β : Type} {B : Backends S} {C : BackendCall → Prop} {I : MountWorld S → Prop} {m : MountedFS}
  {mount : ShareMount}

theorem Refused.map {x : MountM S α} (h : Refused m I x) (f : α → β) : Refused m I (f <$> x) :=
  Triple.bind h fun _ _ hfalse => False.elim hfalse

theorem refused_require {p : Prop} [Decidable p] {e : Errno} {f : Unit → MountM S α} (hp : ¬p) :
    Refused m I (require p e >>= f) := by
  have hfail : Refused m I (require p e : MountM S Unit) := triple_require (fun _ _ h => hp h) fun _ hw _ => hw.2
  exact hfail.bind fun _ _ hfalse => False.elim hfalse

theorem refused_bind {x : MountM S α} {f : α → MountM S β} (hx : Keeps (At m I) x) (hf : ∀ a, Refused m I (f a)) :
    Refused m I (x >>= f) := at_bind (fun _ _ hw => hw.2) hx hf

theorem refused_node {id : Nat} {f : MountedNode → MountM S α}
    (hf : ∀ node, m.nodes[id]? = some node → Refused m I (f node)) : Refused m I (node id >>= f) :=
  at_node (fun _ _ hw => hw.2) hf

variable (h : KeptCalls B C I) (hpath : mount.path ≠ []) (hro : mount.writable = false)

include h

variable {f : BackendID × Nat × Option ShareMount → MountM S α}

theorem refused_resolve (hf : ∀ id, Refused m I (f (m.routedBackend path, id, m.routedMount path))) :
    Refused m I (B.resolveBackendNode path >>= f) := at_resolveBackendNode h (fun _ _ hw => hw.2) hf

theorem refused_target {id : Nat}
    (hf : ∀ node, m.nodes[id]? = some node →
      ∀ n, Refused m I (f (m.routedBackend node.path, n, m.routedMount node.path))) :
    Refused m I (B.target id >>= f) := by
  show Refused m I (node id >>= (fun node => B.resolveBackendNode node.path) >>= f)
  rw [Prog.bind_assoc]
  exact refused_node fun node hnode => refused_resolve h (hf node hnode)

include hpath

omit h in
theorem routedMount_eq (hmount : m.mountForPath path = some mount) : m.routedMount path = some mount := by
  have hne : path ≠ [] := by
    rintro rfl
    exact hpath (prefix_nil.mp (mountForPath_path hmount))
  rw [MountedFS.routedMount, if_neg hne, hmount]

include hro

theorem refused_writableParent (hmount : m.mountForPath path = some mount) {feature : Feature}
    {f : BackendID × Nat → MountM S α} : Refused m I (B.writableParent path feature >>= f) := by
  have hparent : Refused m I (B.writableParent path feature) := by
    refine refused_resolve h fun id => refused_require ?_
    rw [routedMount_eq hpath hmount]
    simp [isRootOrWritableMount, hro]
  exact hparent.bind fun _ _ hfalse => False.elim hfalse

omit h in
theorem not_sameWritableMount {path' : Path}
    (hmount : m.mountForPath path = some mount ∨ m.mountForPath path' = some mount) :
    ¬sameWritableMount (m.routedMount path) (m.routedMount path') = true := by
  rcases hmount with hmount | hmount
  · rw [routedMount_eq hpath hmount]
    cases m.routedMount path' <;> simp [sameWritableMount, hro]
  · rw [routedMount_eq hpath hmount]
    cases m.routedMount path <;> simp [sameWritableMount, hro]

theorem refused_removeChild {order : Iteration} {feature : Feature} {call : Nat → BackendCall} {parent : Nat}
    {name : Name}
    (hparent : ∀ node, m.nodes[parent]? = some node → m.mountForPath node.path = some mount) :
    Refused m I (B.removeChild order feature call parent name) :=
  refused_node fun node hnode => refused_bind (keeps_ordinaryChild _ _) fun _ =>
    refused_writableParent h hpath hro (hparent node hnode)

/-- A guarded request that would change something below the mount is refused. -/
theorem refused_serve (order : Iteration) (hmod : r.modifies = true) (hto : AddressedTo mount m r)
    (hguard : guarded B m r = true) : Refused m I (B.serve order r) := by
  -- the node of a request with one node is the one below the mount
  have hone : ∀ {id : Nat}, r.nodes = [id] → ∀ node, m.nodes[id]? = some node →
      m.mountForPath node.path = some mount := by
    intro id hid node hnode
    obtain ⟨id', hmem, node', hnode', hmount⟩ := hto
    obtain rfl := mem_singleton.mp (hid ▸ hmem)
    exact some.inj (hnode.symm.trans hnode') ▸ hmount
  have htwo : ∀ {id id' : Nat} {node node' : MountedNode}, r.nodes = [id, id'] → m.nodes[id]? = some node →
      m.nodes[id']? = some node' → m.mountForPath node.path = some mount ∨ m.mountForPath node'.path = some mount := by
    intro id id' node node' hids hnode hnode'
    obtain ⟨i, hmem, found, hfound, hmount⟩ := hto
    rw [hids, mem_pair] at hmem
    rcases hmem with rfl | rfl
    · exact .inl (some.inj (hnode.symm.trans hfound) ▸ hmount)
    · exact .inr (some.inj (hnode'.symm.trans hfound) ▸ hmount)
  cases r with
  | «open» id flags caller =>
    have hflags : hasBits flags linuxOTRUNC = true := hmod
    simp [guarded, hflags] at hguard
  | setXattr id name value flags | removeXattr id name =>
    apply Refused.map
    exact refused_target h fun node hnode _ => refused_require (by simpa [guarded, hnode] using hguard)
  | mkdir parent name mode caller =>
    apply Refused.map
    exact refused_node fun node hnode => refused_writableParent h hpath hro (hone rfl node hnode)
  | mknod parent name mode rdev caller | symlink parent name target caller | create parent name flags mode caller =>
    apply Refused.map
    exact refused_node fun node hnode => refused_bind (keeps_newChild _ _) fun _ =>
      refused_writableParent h hpath hro (hone rfl node hnode)
  | link id newParent newName caller =>
    apply Refused.map
    refine refused_node fun node hnode => refused_node fun parent hparent => ?_
    refine refused_bind (keeps_newChild _ _) fun _ => refused_resolve h fun _ => refused_resolve h fun _ => ?_
    exact refused_require (not_sameWritableMount hpath hro (htwo rfl hnode hparent))
  | rmDir parent name caller | unlink parent name caller =>
    exact Refused.map (refused_removeChild h hpath hro (hone rfl)) _
  | write id fh off data flags caller =>
    apply Refused.map
    refine at_fileHandle (fun _ _ hw => hw.2) fun backend handle hhandle hbackend => refused_require ?_
    simpa [guarded, hhandle, hbackend] using hguard
  | setAttr id fh change caller =>
    apply Refused.map
    refine refused_target h fun node hnode _ => refused_require ?_
    rw [routedMount_eq hpath (hone rfl node hnode)]
    simp [isRootOrWritableMount, hro]
  | rename parent name newParent newName flags caller =>
    apply Refused.map
    refine refused_node fun oldNode hold => refused_node fun newNode hnew => ?_
    refine refused_bind (keeps_ordinaryChild _ _) fun _ => refused_bind (keeps_ordinaryChild _ _) fun _ => ?_
    refine refused_resolve h fun _ => refused_resolve h fun _ => ?_
    exact refused_require (not_sameWritableMount hpath hro (htwo rfl hold hnew))
  | _ => nomatch hmod

end Refused

/-! ## Runs -/

theorem readOnly_step {B : Backends S} {mount : ShareMount} (hpath : mount.path ≠ []) (hro : mount.writable = false)
    (order : Iteration) {w : MountWorld S} (hto : AddressedTo mount w.fs r) (hguard : guarded B w.fs r = true) :
    NoChange B w (B.serve order r w).2 ∧ (r.modifies = true → ∃ e, (B.serve order r w).1 = .error e) := by
  cases hmod : r.modifies with
  | false => exact ⟨keeps_iff.mp (NoChange.keeps_serve order hmod) w (.refl B w), fun h => nomatch h⟩
  | true =>
    have hrefused :=
      refused_serve (NoChange.keptHandles B w).toKeptCalls hpath hro order hmod hto hguard w ⟨rfl, .refl B w⟩
    split at hrefused
    · exact hrefused.elim
    · next hrun => exact hrun ▸ ⟨hrefused, fun _ => ⟨_, rfl⟩⟩

theorem readOnly_run (B : Backends S) (mount : ShareMount) (hpath : mount.path ≠ []) (hro : mount.writable = false)
    (rs : List (Iteration × MountRequest)) (w : MountWorld S) (hrun : GuardedRun B mount rs w) :
    NoChange B w (B.run rs w).2 ∧ ∀ p ∈ rs.zip (B.run rs w).1, p.1.2.modifies = true → ∃ e, p.2 = .error e := by
  induction rs generalizing w with
  | nil => exact ⟨.refl B w, nofun⟩
  | cons head rest ih =>
    obtain ⟨order, r⟩ := head
    obtain ⟨⟨hto, hguard⟩, hrest⟩ := hrun
    obtain ⟨hquiet, herror⟩ := readOnly_step hpath hro order hto hguard
    obtain ⟨hquiet', herrors⟩ := ih _ hrest
    exact ⟨hquiet.trans hquiet', forall_mem_cons.2 ⟨herror, herrors⟩⟩

/-- A backend with one file, inode 2, under every name. -/
def oneFile : Backends Bytes where
  has _ _ := true
  answer _ call contents := match call with
    | .getAttr id => (.ok { ino := id, size := contents.length }, contents)
    | .lookup _ _ => (.ok (2, { ino := 2, size := contents.length }), contents)
    | .open _ flags _ => (.ok (1 : Nat), if hasBits flags linuxOTRUNC then [] else contents)
    | .read _ _ _ _ => (.ok contents, contents)
    | .write _ _ _ data _ _ => (.ok data.length, data)
    | _ => (.error .ENOSYS, contents)

def readOnlyShare : ShareMount := { path := [[109]], backend := 1, writable := false }

def readOnlyWorld : MountWorld Bytes where
  fs := newMountedFS 0 [readOnlyShare]
  backends := [7]

theorem readOnlyWorld_eq : readOnlyWorld = { fs := { root := 0, mounts := [readOnlyShare] }, backends := [7] } := by
  rw [readOnlyWorld, newMountedFS_single _ _ (by decide)]

def findFile : List (Iteration × MountRequest) := [(id, .lookup 1 [109]), (id, .lookup 2 [102])]

set_option maxRecDepth 100000 in
/-- `readOnly_run` for a file that is opened for reading and cannot be renamed or given another mode. -/
theorem readOnly_run_file : let w := (oneFile.run findFile readOnlyWorld).2
    let rs : List (Iteration × MountRequest) := [(id, .open 3 0 {}), (id, .rename 2 [102] 2 [103] 0 {}),
      (id, .setAttr 3 0
        { valid := 1, size := 0, mode := 0, uid := 0, gid := 0, atime := default, mtime := default } {})]
    NoChange oneFile w (oneFile.run rs w).2 ∧
      ∀ p ∈ rs.zip (oneFile.run rs w).1, p.1.2.modifies = true → ∃ e, p.2 = .error e := by
  rw [readOnlyWorld_eq]
  exact readOnly_run oneFile readOnlyShare (by decide) rfl _ _ (by decide +kernel)

set_option maxRecDepth 100000 in
/-- A file below a read-only mount is emptied by `Open` and then written. -/
theorem truncates_readOnly : let w := (oneFile.run findFile readOnlyWorld).2
    AddressedTo readOnlyShare w.fs (.open 3 linuxOTRUNC {}) ∧ w.backends = [7] ∧
      (oneFile.serve id (.open 3 linuxOTRUNC {}) w).1 = .ok (.number 1) ∧
      (oneFile.serve id (.open 3 linuxOTRUNC {}) w).2.backends = [] := by
  rw [readOnlyWorld_eq]
  decide +kernel

end CrumbleCracker.Virtio

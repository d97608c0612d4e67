import CrumbleCracker.Virtio.StoreCrash

/-!
# Runs of a store

A `World` is a store directory, with or without a process attached to it, together with things the program does not
keep: what durability calls have tried to make durable so far, what of it was acknowledged, and whether a failed call
has left bytes behind that the attached store does not know of. `step` is one event: opening, the first checkpoint of a
new store, a durability call with the host faults it meets, a crash inside such a call, or a stop between calls.

* `step_sound`: an event keeps every acknowledged entry recoverable, unless it is a durability call made over such
  left-over bytes.
* `acknowledged_recovered`: so after any run without such a call, opening the directory recovers all that was
  acknowledged.
-/

namespace CrumbleCracker.Virtio

open Framed List Option

variable {threshold : Nat}

/-! ## Durability calls -/

/-- The durability calls, with the record each one appends; `close` also has the snapshot it checkpoints. -/
inductive Call
  | fsync (delta : PersistentImageDelta)
  | fsyncDir (delta : Option PersistentImageDelta)
  | syncFS (delta : Option PersistentImageDelta)
  | close (delta : Option PersistentImageDelta) (state : PersistentImageState)

structure Faults where
  data : Bool := false
  append : Option AppendFault := none
  reclaim : Bool := false
  save : Option SaveFault := none
  reset : Option ResetFault := none
  clean : Bool := false

/-- The record a call appends; `fsyncDir` without changes appends none. -/
def Call.record : Call → Option (Option PersistentImageDelta)
  | .fsync delta => some (some delta)
  | .fsyncDir delta => delta.map some
  | .syncFS delta => some delta
  | .close delta _ => some delta

/-- Whether the call syncs file data before it appends. -/
def Call.syncsData : Call → Bool
  | .fsyncDir _ => false
  | _ => true

/-- How a call ended. `residue`: it failed with bytes of its own on disk that the store does not count. -/
structure Outcome where
  result : Except StoreError Unit
  store : PersistentImageStore
  residue : Bool := false

def Outcome.ok (o : Outcome) : Bool := match o.result with
  | .ok () => true
  | .error _ => false

def checkpoint (J : Json) (faults : Faults) (state : PersistentImageState) (s : PersistentImageStore) : Outcome :=
  match s.save J faults.save state with
  | (.error e, s) => { result := .error e, store := s, residue := e = .syncDirectory }
  | (.ok (), s) => match s.resetWAL faults.reset with
    | (.error e, s) => { result := .error e, store := s }
    | (.ok (), s) => { result := .ok (), store := s }

/-- `maybeCheckpointPersistentLocked`: compacts the durable state once the log has `threshold` bytes. -/
def maybeCheckpoint (J : Json) (threshold : Nat) (faults : Faults) (s : PersistentImageStore) : Outcome :=
  match s.disk.wal, s.durableState with
  | some wal, some state =>
    if threshold = 0 ∨ wal.length < threshold then { result := .ok (), store := s } else checkpoint J faults state s
  | _, _ => { result := .ok (), store := s }

/-- What a call does once its record is appended. -/
def Call.finish (J : Json) (threshold : Nat) (faults : Faults) (s : PersistentImageStore) : Call → Outcome
  | .close _ state =>
    let o := checkpoint J faults state s
    if o.ok ∧ faults.clean then { o with result := .error .markClean } else o
  | _ => maybeCheckpoint J threshold faults s

def Call.append (J : Json) (faults : Faults) (s : PersistentImageStore) (c : Call) :
    Except StoreError Unit × PersistentImageStore :=
  match c.record with
  | none => (.ok (), s)
  | some delta => s.appendDelta J faults.append delta true

/-- `Fsync`, `FsyncDir`, `SyncFS` and `Close` as far as the store is concerned. -/
def Call.run (J : Json) (threshold : Nat) (faults : Faults) (s : PersistentImageStore) (c : Call) : Outcome :=
  if faults.data ∧ c.syncsData then { result := .error .syncData, store := s }
  else
    match c.append J faults s with
    | (.error e, s') => { result := .error e, store := s', residue := s'.disk.walBytes ≠ s.disk.walBytes }
    | (.ok (), s') =>
      if faults.reclaim then { result := .error .reclaimData, store := s' } else c.finish J threshold faults s'

/-! ## Acknowledged entries -/

/-- The part of a state that records change. -/
structure Contents where
  nodes : IdMap PersistentImageNode := ∅
  nextNodeID : Nat := 0
  deriving DecidableEq

def PersistentImageState.contents (st : PersistentImageState) : Contents := ⟨st.nodes, st.nextNodeID⟩

/-- What a call makes durable: a record, or a whole snapshot. -/
inductive Entry
  | delta (d : PersistentImageDelta)
  | snapshot (st : PersistentImageState)
  deriving DecidableEq

def Entry.apply (c : Contents) : Entry → Except ApplyError Contents
  | .delta d => (applyDeltaNodes c.nodes d).map fun nodes => ⟨nodes, max c.nextNodeID d.nextNodeID⟩
  | .snapshot st => .ok st.contents

/-- The contents a list of entries builds up from `c`. -/
def replayEntries (c : Contents) (log : List Entry) : Except ApplyError Contents := log.foldlM Entry.apply c

/-- The snapshot a call makes durable besides its record. -/
def Call.snapshots : Call → List Entry
  | .close _ state => [.snapshot state]
  | _ => []

def Call.entries (c : Call) : List Entry := (c.record.bind id).toList.map .delta ++ c.snapshots

/-! ## Worlds and events -/

/-- The store directory, alone or with an attached process. -/
inductive Process
  | down (disk : Disk)
  | attached (s : PersistentImageStore)

def Process.disk : Process → Disk
  | .down disk => disk
  | .attached s => s.disk

structure World where
  process : Process := .down {}
  residue : Bool := false
  tried : List Entry := []
  acked : List Entry := []

/-- Opening the directory yields exactly what some of the tried entries build up to, all the acknowledged ones among
them, in order. -/
def World.Recovers (J : Json) (w : World) : Prop :=
  ∃ s X log, openPersistentImageStore J w.process.disk = .ok (s, some X) ∧ w.acked.Sublist log ∧
    log.Sublist w.tried ∧ replayEntries {} log = .ok X.contents

inductive Event
  /-- `NewPersistentImageFS`; on a new store it checkpoints `initial`. -/
  | opening (initial : PersistentImageState) (faults : Faults)
  | call (c : Call) (faults : Faults)
  | crash (c : Call) (faults : Faults)
  | stop

/-- A call ends with the process attached, except that `Close` detaches it. -/
def Call.after (c : Call) (s : PersistentImageStore) : Process :=
  match c with
  | .close _ _ => .down s.disk
  | _ => .attached s

/-- One event; `none` when it cannot happen. -/
def step (J : Json) (threshold : Nat) (w : World) : Event → Option World
  | .opening initial faults => match w.process with
    | .attached _ => none
    | .down disk => match openPersistentImageStore J disk with
      | .error _ => some w
      | .ok (s, some _) => some { w with process := .attached { s with disk.initialized := true }, residue := false }
      | .ok (s, none) =>
        let o := (Call.close none initial).run J threshold { faults with clean := false } s
        if o.ok then
          some { process := .attached { o.store with disk.initialized := true },
                 tried := w.tried ++ [.snapshot initial], acked := w.acked ++ [.snapshot initial] }
        else some { w with process := .down o.store.disk, tried := w.tried ++ [.snapshot initial] }
  | .call c faults => match w.process with
    | .down _ => none
    | .attached s =>
      let o := c.run J threshold faults s
      some { process := c.after o.store, residue := w.residue || o.residue, tried := w.tried ++ c.entries,
             acked := if o.ok then w.acked ++ c.entries else w.acked }
  | .crash c faults => match w.process with
    | .down _ => none
    | .attached s =>
      some { w with process := .down (c.run J threshold faults s).store.disk, tried := w.tried ++ c.entries }
  | .stop => match w.process with
    | .down _ => none
    | .attached s => some { w with process := .down s.disk }

/-- No durability call is made over the left-overs of a failed one. -/
def Event.Clean (w : World) : Event → Prop
  | .call _ _ | .crash _ _ => w.residue = false
  | _ => True

instance (w : World) (e : Event) : Decidable (e.Clean w) := by
  cases e <;> (unfold Event.Clean; infer_instance)

/-- The world a list of events leads to, if they can happen and are all clean. -/
def runClean (J : Json) (threshold : Nat) (w : World) (es : List Event) : Option World :=
  es.foldlM (fun w e => if e.Clean w then step J threshold w e else none) w

/-- The worlds that runs reach from an empty directory when no durability call is made over the left-overs of a failed
one. -/
inductive Reaches (J : Json) (threshold : Nat) : World → Prop
  | start : Reaches J threshold {}
  | step {w w' : World} (e : Event) : Reaches J threshold w → e.Clean w → step J threshold w e = some w' →
      Reaches J threshold w'

/-! ## One call -/

variable {J : Json} {s : PersistentImageStore} {D : PersistentImageState}

theorem stampState_contents (st : PersistentImageState) : (s.stampState st).contents = st.contents := rfl

theorem apply_contents {d : PersistentImageDelta} {next : PersistentImageState} {durable : Bool}
    (h : applyPersistentImageDelta D (s.stamp d durable) = .ok next) :
    (Entry.delta d).apply D.contents = .ok next.contents := by
  obtain ⟨nodes, hnodes, rfl⟩ := applyPersistentImageDelta_ok.mp h
  have hnodes' : applyDeltaNodes D.nodes d = .ok nodes := hnodes
  simp [Entry.apply, PersistentImageState.contents, hnodes', Except.map, PersistentImageStore.stamp]

/-- The disk a call leaves holds `D` with some of the entries of `tried` added, all of them if it succeeded; unless it
left residue, the store is in step. -/
def Ends (J : Json) (D : PersistentImageState) (tried : List Entry) (o : Outcome) : Prop :=
  ∃ D' es, Recoverable J o.store.disk D' ∧ (o.residue = false → InStep J o.store D') ∧
    replayEntries D.contents es = .ok D'.contents ∧ es.Sublist tried ∧ (o.ok = true → es = tried)

theorem InStep.ends (h : InStep J s D) {o : Outcome} {tried : List Entry} (hs : o.store = s)
    (hok : o.ok = true → tried = []) : Ends J D tried o :=
  ⟨D, [], by rw [hs]; exact h.recoverable, fun _ => by rw [hs]; exact h, rfl, nil_sublist _,
    fun h => (hok h).symm⟩

theorem checkpoint_cases (h : Quiet J s) (faults : Faults) (st : PersistentImageState) :
    ((checkpoint J faults st s).ok = false ∧ (checkpoint J faults st s).residue = false ∧
      (checkpoint J faults st s).store = s) ∨ (Recoverable J (checkpoint J faults st s).store.disk (s.stampState st) ∧
      ((checkpoint J faults st s).residue = false → InStep J (checkpoint J faults st s).store (s.stampState st)) ∧
      ((checkpoint J faults st s).ok = true → (checkpoint J faults st s).residue = false)) := by
  unfold checkpoint
  rcases save_cases (J := J) (s := s) faults.save st with ⟨e, he, hsave⟩ | ⟨hfits, hsave | hsave⟩
  · rw [hsave]
    exact .inl ⟨rfl, decide_eq_false he, rfl⟩
  · rw [hsave]
    exact .inr ⟨(h.published hfits).recoverable, fun hres => by simp at hres, nofun⟩
  · rw [hsave]
    rcases resetWAL_cases (s := ⟨s.sequence + 1, s.metadataSlot + 1, some (s.stampState st),
      s.disk.publish (s.metadataSlot + 1) (encodeState J (s.stampState st))⟩) faults.reset
      with ⟨e, hreset⟩ | ⟨e, hreset⟩ | hreset
    · simp only [hreset]
      exact .inr ⟨(h.published hfits).recoverable, fun _ => h.published hfits, fun _ => trivial⟩
    all_goals
      simp only [hreset]
      exact .inr ⟨(h.checkpointed hfits).recoverable, fun _ => h.checkpointed hfits, fun _ => trivial⟩

theorem checkpoint_ends (h : InStep J s D) (faults : Faults) (st : PersistentImageState) :
    Ends J D [.snapshot st] (checkpoint J faults st s) := by
  rcases checkpoint_cases h.quiet faults st with ⟨hok, -, hs⟩ | ⟨hrec, hstep, -⟩
  · exact h.ends hs fun hok' => by rw [hok] at hok'; cases hok'
  · exact ⟨s.stampState st, [.snapshot st], hrec, hstep, rfl, List.Sublist.refl _, fun _ => rfl⟩

theorem maybeCheckpoint_ends (h : InStep J s D) (threshold : Nat) (faults : Faults) :
    Ends J D [] (maybeCheckpoint J threshold faults s) := by
  unfold maybeCheckpoint
  split
  · rename_i wal state _ hstate
    obtain rfl : D = state := some.inj (h.1.symm.trans hstate)
    split
    · exact h.ends rfl fun _ => rfl
    · rcases checkpoint_cases h.quiet faults D with ⟨-, -, hs⟩ | ⟨hrec, hstep, -⟩
      · exact h.ends hs fun _ => rfl
      · exact ⟨s.stampState D, [], hrec, hstep, rfl, List.Sublist.refl _, fun _ => rfl⟩
  · exact h.ends rfl fun _ => rfl

theorem finish_ends (h : InStep J s D) (threshold : Nat) (faults : Faults) (c : Call) :
    Ends J D c.snapshots (c.finish J threshold faults s) := by
  cases c with
  | close delta st =>
    obtain ⟨D', es, hrec, hstep, hes, hsub, hall⟩ := checkpoint_ends h faults st
    unfold Call.finish
    simp only
    split
    · exact ⟨D', es, hrec, hstep, hes, hsub, nofun⟩
    · exact ⟨D', es, hrec, hstep, hes, hsub, hall⟩
  | fsync delta | fsyncDir delta | syncFS delta => exact maybeCheckpoint_ends h threshold faults

theorem replayEntries_record (c c' : Contents) (d : Option PersistentImageDelta)
    (h : (Entry.delta (d.getD {})).apply c = .ok c') : replayEntries c (d.toList.map .delta) = .ok c' := by
  cases d with
  | none =>
    have hbarrier : (Entry.delta {}).apply c = .ok c := by
      simp [Entry.apply, applyDeltaNodes, Except.map, bind, Except.bind, pure, Except.pure]
    rw [getD_none, hbarrier] at h
    exact h
  | some d => simpa [replayEntries] using h

/-- An append either leaves the log as it was, or leaves residue and fails, or adds its record. -/
theorem append_cases (h : InStep J s D) (fault : Option AppendFault) (d : Option PersistentImageDelta) :
    (∃ e s', s.appendDelta J fault d true = (.error e, s') ∧ InStep J s' D) ∨
    (∃ e s' D' es, s.appendDelta J fault d true = (.error e, s') ∧ s'.disk.walBytes ≠ s.disk.walBytes ∧
      Recoverable J s'.disk D' ∧ replayEntries D.contents es = .ok D'.contents ∧ es.Sublist (d.toList.map .delta)) ∨
    ∃ s' D', s.appendDelta J fault d true = (.ok (), s') ∧ InStep J s' D' ∧
      replayEntries D.contents (d.toList.map .delta) = .ok D'.contents := by
  rcases appendDelta_cases (J := J) (s := s) fault d with ⟨e, hres⟩ | ⟨next, hnext, hfits, hres⟩
  · exact .inl ⟨e, s, hres, h⟩
  have hreplay := replayEntries_record _ _ d (apply_contents (h.nextDurable hnext))
  rcases hres with ⟨e, k, hres⟩ | hres
  · by_cases hsame : (encodeDelta J (s.stamp (d.getD {}) true)).take k = []
    · refine .inl ⟨e, _, hres, ?_⟩
      obtain ⟨hdur, hseq, st, stale, fresh, hdisk, hwal⟩ := h
      refine ⟨hdur, hseq, st, stale, fresh, hdisk.congr rfl, ?_⟩
      rw [← hwal, hsame]
      exact append_nil _
    · refine .inr (.inl ?_)
      have hne : (s.disk.appendWal ((encodeDelta J (s.stamp (d.getD {}) true)).take k)).walBytes ≠ s.disk.walBytes := by
        intro heq
        exact hsame (append_right_eq_self.mp heq)
      rcases h.appendWal hnext hfits k with hrec | hrec
      · exact ⟨e, _, D, [], hres, hne, hrec, rfl, nil_sublist _⟩
      · exact ⟨e, _, next, _, hres, hne, hrec, hreplay, List.Sublist.refl _⟩
  · exact .inr (.inr ⟨_, next, hres, h.appended hnext hfits, hreplay⟩)

theorem replayEntries_append {c c' c'' : Contents} {es es' : List Entry} (h : replayEntries c es = .ok c')
    (h' : replayEntries c' es' = .ok c'') : replayEntries c (es ++ es') = .ok c'' := by
  unfold replayEntries at h h' ⊢
  rw [foldlM_append, h]
  exact h'

/-- **One call** from a store in step with its disk. -/
theorem run_ends (h : InStep J s D) (threshold : Nat) (faults : Faults) (c : Call) :
    Ends J D c.entries (c.run J threshold faults s) := by
  unfold Call.run
  split
  · exact h.ends rfl nofun
  have hdone : ∀ {s' D'} (_ : InStep J s' D') {es : List Entry} (_ : replayEntries D.contents es = .ok D'.contents),
      Ends J D (es ++ c.snapshots)
        (if faults.reclaim then { result := .error .reclaimData, store := s' }
          else c.finish J threshold faults s') := by
    intro s' D' hstep es hreplay
    split
    · exact ⟨D', es, hstep.recoverable, fun _ => hstep, hreplay, sublist_append_left _ _, nofun⟩
    · obtain ⟨D'', es', hrec, hstep', hes, hsub, hall⟩ := finish_ends hstep threshold faults c
      exact ⟨D'', _, hrec, hstep', replayEntries_append hreplay hes, hsub.append_left _, fun hok => by rw [hall hok]⟩
  unfold Call.entries Call.append
  cases c.record with
  | none => exact hdone h rfl
  | some d =>
    rcases append_cases h faults.append d with ⟨e, s', hres, hstep⟩ | ⟨e, s', D', es, hres, hne, hrec, hes, hsub⟩ |
      ⟨s', D', hres, hstep, hreplay⟩ <;> simp only [hres]
    · exact hstep.ends rfl nofun
    · exact ⟨D', es, hrec, fun hfalse => by simp [hne] at hfalse, hes, sublist_append_of_sublist_left hsub, nofun⟩
    · exact hdone hstep hreplay

/-! ## Whole runs -/

/-- Some of the tried entries, all the acknowledged ones among them, build up to `D`. -/
def Logged (tried acked : List Entry) (D : PersistentImageState) : Prop :=
  ∃ log, acked.Sublist log ∧ log.Sublist tried ∧ replayEntries {} log = .ok D.contents

theorem Logged.append {tried acked es es' : List Entry} {D' : PersistentImageState} (h : Logged tried acked D)
    (hes : replayEntries D.contents es = .ok D'.contents) (hsub : es.Sublist es') :
    Logged (tried ++ es') (acked ++ es) D' ∧ Logged (tried ++ es') acked D' := by
  obtain ⟨log, hacked, htried, hlog⟩ := h
  have hreplay := replayEntries_append hlog hes
  exact ⟨⟨log ++ es, hacked.append (List.Sublist.refl es), htried.append hsub, hreplay⟩,
    ⟨log ++ es, sublist_append_of_sublist_left hacked, htried.append hsub, hreplay⟩⟩

/-- What holds of every world a clean run reaches: before the first snapshot there is nothing acknowledged and no slot;
from then on the disk holds all that was acknowledged, and an attached store without residue is in step with it. -/
def Sound (J : Json) (w : World) : Prop :=
  (w.acked = [] ∧ (∃ disk, w.process = .down disk) ∧ ∀ i, w.process.disk.slot i = none) ∨
  ∃ D, Recoverable J w.process.disk D ∧ Logged w.tried w.acked D ∧
    ∀ s, w.process = .attached s → w.residue = false → InStep J s D

theorem Sound.attached (h : Sound J w) (hs : w.process = .attached s) :
    ∃ D, Recoverable J s.disk D ∧ Logged w.tried w.acked D ∧ (w.residue = false → InStep J s D) := by
  rcases h with ⟨-, ⟨disk, hdown⟩, -⟩ | ⟨D, hrec, hlog, hin⟩
  · rw [hs] at hdown
    cases hdown
  · rw [hs] at hrec
    exact ⟨D, hrec, hlog, hin s hs⟩

variable {disk : Disk}

theorem Recoverable.congr {disk' : Disk} (h : Recoverable J disk D) (hslot : disk'.slot = disk.slot)
    (hwal : disk'.walBytes = disk.walBytes) : Recoverable J disk' D := by
  obtain ⟨slot, st, stale, fresh, tail, hdisk, htail, hbytes⟩ := h
  exact ⟨slot, st, stale, fresh, tail, hdisk.congr hslot, htail, by rw [hwal, hbytes]⟩

theorem InStep.congr (h : InStep J s D) (hslot : disk.slot = s.disk.slot) (hwal : disk.walBytes = s.disk.walBytes) :
    InStep J { s with disk := disk } D := by
  obtain ⟨hdur, hseq, st, stale, fresh, hdisk, hbytes⟩ := h
  exact ⟨hdur, hseq, st, stale, fresh, hdisk.congr hslot, by rw [← hbytes, ← hwal]⟩

theorem loadSlot_none {slot : Fin 2} {acc : Option (PersistentImageState × Fin 2) × List (Fin 2 × MetadataError)}
    (h : loadSlot J disk acc slot = (none, [])) : acc = (none, []) ∧ disk.slot slot = none := by
  unfold loadSlot at h
  split at h
  · exact ⟨h, ‹_›⟩
  · split at h
    · simp at h
    · split at h
      · simp at h
      · split at h
        · simp at h
        · rename_i hbest _
          rw [h] at hbest
          cases hbest

theorem load_none (h : load J disk = .ok none) : ∀ i, disk.slot i = none := by
  have hfold : [0, 1].foldl (loadSlot J disk) (none, []) = (none, []) := by
    unfold load at h
    rcases hacc : [0, 1].foldl (loadSlot J disk) (none, []) with ⟨best, invalid⟩
    simp only [hacc] at h
    cases best with
    | some best => cases h
    | none => cases invalid with
      | nil => rfl
      | cons e es => cases h
  obtain ⟨hacc, h1⟩ := loadSlot_none hfold
  obtain ⟨-, h0⟩ := loadSlot_none hacc
  intro i
  fin_cases i
  · exact h0
  · exact h1

theorem open_new (h : openPersistentImageStore J disk = .ok (s, none)) :
    s = { disk := disk } ∧ (∀ i, disk.slot i = none) ∧ disk.walBytes = [] := by
  unfold openPersistentImageStore at h
  cases hload : load J disk with
  | error e => rw [hload] at h; cases h
  | ok best =>
    cases best with
    | some best => rw [hload] at h; cases h
    | none =>
      simp only [hload] at h
      unfold ensureEmptyUninitialized at h
      by_cases hwal : disk.walBytes = []
      · refine ⟨?_, load_none hload, hwal⟩
        revert h
        split
        · simp
        · intro h
          cases h
          rfl
      · by_cases hinit : disk.initialized = true
        · simp [hinit] at h
        · simp [hinit, hwal] at h

theorem open_without_slots {st : Option PersistentImageState} (hslots : ∀ i, disk.slot i = none)
    (h : openPersistentImageStore J disk = .ok (s, st)) : st = none := by
  have hload : load J disk = .ok none := by simp [load, loadSlot, hslots]
  unfold openPersistentImageStore at h
  simp only [hload] at h
  split at h
  · cases h
  · cases h
    rfl

theorem Quiet.appended (h : Quiet J s) {d : PersistentImageDelta} (hfits : DeltaFits J (s.stamp d true))
    (next : Option PersistentImageState) :
    Quiet J ⟨s.sequence + 1, s.metadataSlot, next, s.disk.appendWal (encodeDelta J (s.stamp d true))⟩ := by
  obtain ⟨ds, hwal, hds⟩ := h.log
  refine ⟨?_, ds ++ [s.stamp d true], ?_, ?_⟩
  · intro file hfile
    obtain ⟨old, hold, hfit, hle⟩ := h.current file hfile
    exact ⟨old, hold, hfit, Nat.le_succ_of_le hle⟩
  · rw [flatMap_append, ← hwal, flatMap_singleton]
    rfl
  · refine forall_mem_append.2 ⟨fun x hx => ?_, forall_mem_singleton.2 ⟨hfits, le_rfl⟩⟩
    exact ⟨(hds x hx).1, Nat.le_succ_of_le (hds x hx).2⟩

/-- The first checkpoint of a new store: if it does not get as far as the rename there is still no slot. -/
theorem create_cases (threshold : Nat) (faults : Faults) (initial : PersistentImageState)
    (hslots : ∀ i, disk.slot i = none) (hwal : disk.walBytes = []) :
    let o := (Call.close none initial).run J threshold { faults with clean := false } { disk := disk }
    (o.ok = false ∧ ∀ i, o.store.disk.slot i = none) ∨
      ∃ X, X.contents = initial.contents ∧ Recoverable J o.store.disk X ∧ (o.ok = true → InStep J o.store X) := by
  intro o
  have hquiet : Quiet J { disk := disk } :=
    ⟨fun file hfile => by simp [hslots] at hfile, [], by simp [hwal], by simp⟩
  have ho : o = (Call.close none initial).run J threshold { faults with clean := false } { disk := disk } := rfl
  unfold Call.run at ho
  split at ho
  · rw [ho]
    exact .inl ⟨rfl, hslots⟩
  simp only [Call.append, Call.record] at ho
  rcases appendDelta_cases (J := J) (s := { disk := disk }) faults.append none with ⟨e, hres⟩ |
    ⟨next, -, hfits, ⟨e, k, hres⟩ | hres⟩ <;> rw [hres] at ho
  · rw [ho]
    exact .inl ⟨rfl, hslots⟩
  · rw [ho]
    exact .inl ⟨rfl, hslots⟩
  · simp only [Call.finish] at ho
    split at ho
    · rw [ho]
      exact .inl ⟨rfl, hslots⟩
    simp only [Bool.false_eq_true, and_false, if_false] at ho
    rcases checkpoint_cases (hquiet.appended hfits (some next)) { faults with clean := false } initial with
      ⟨hok, -, hs⟩ | ⟨hrec, hstep, hres⟩
    · rw [ho]
      exact .inl ⟨hok, by rw [hs]; exact hslots⟩
    · rw [ho]
      refine .inr ⟨_, stampState_contents initial, hrec, fun hok => hstep (hres hok)⟩

variable {w w' : World} {faults : Faults}

theorem step_opening {initial : PersistentImageState} (h : Sound J w)
    (hstep : step J threshold w (.opening initial faults) = some w') : Sound J w' := by
  unfold step at hstep
  cases hproc : w.process with
  | attached s => simp [hproc] at hstep
  | down disk =>
    simp only [hproc] at hstep
    have hdisk : w.process.disk = disk := by rw [hproc]; rfl
    cases hopen : openPersistentImageStore J disk with
    | error e =>
      simp only [hopen] at hstep
      cases hstep
      exact h
    | ok r =>
      obtain ⟨s, st⟩ := r
      rcases h with ⟨hacked, -, hslots⟩ | ⟨D, hrec, hlog, -⟩
      · -- Nothing was ever published, so the store is created now.
        rw [hdisk] at hslots
        obtain rfl : st = none := open_without_slots hslots hopen
        obtain ⟨rfl, -, hwal⟩ := open_new hopen
        simp only [hopen] at hstep
        rcases create_cases (J := J) threshold faults initial hslots hwal with ⟨hok, hnone⟩ | ⟨X, hX, hrec, hin⟩
        · rw [if_neg (by simp [hok])] at hstep
          cases hstep
          exact .inl ⟨hacked, ⟨_, rfl⟩, hnone⟩
        · have hreplay : replayEntries {} [.snapshot initial] = .ok X.contents := by rw [hX]; rfl
          split at hstep
          · rename_i hok
            cases hstep
            refine .inr ⟨X, hrec.congr rfl rfl, ⟨_, by simp [hacked], sublist_append_right _ _, hreplay⟩, ?_⟩
            intro t ht _
            cases ht
            exact (hin hok).congr rfl rfl
          · cases hstep
            refine .inr ⟨X, hrec, ⟨_, ?_, sublist_append_right _ _, hreplay⟩, fun t ht _ => by cases ht⟩
            simp [hacked]
      · rw [hdisk] at hrec
        obtain ⟨s', hopen', hin⟩ := open_recoverable hrec
        obtain ⟨rfl, rfl⟩ : s = s' ∧ st = some D := by
          rw [hopen] at hopen'
          simpa using hopen'
        simp only [hopen] at hstep
        cases hstep
        refine .inr ⟨D, hin.recoverable.congr rfl rfl, hlog, ?_⟩
        intro t ht _
        cases ht
        exact hin.congr rfl rfl

theorem step_call {c : Call} (h : Sound J w) (hclean : w.residue = false)
    (hstep : step J threshold w (.call c faults) = some w') : Sound J w' := by
  unfold step at hstep
  cases hproc : w.process with
  | down disk => simp [hproc] at hstep
  | attached s =>
    simp only [hproc, hclean, Bool.false_or] at hstep
    cases hstep
    obtain ⟨D, -, hlog, hin⟩ := h.attached hproc
    obtain ⟨D', es, hrec, hin', hes, hsub, hall⟩ := run_ends (hin hclean) threshold faults c
    have hdisk : (c.after (c.run J threshold faults s).store).disk = (c.run J threshold faults s).store.disk := by
      cases c <;> rfl
    refine .inr ⟨D', by rw [hdisk]; exact hrec, ?_, ?_⟩
    · dsimp only
      split
      · rename_i hok
        rw [← hall hok] at hsub ⊢
        exact (hlog.append hes hsub).1
      · exact (hlog.append hes hsub).2
    · intro t ht hres
      have hstore : t = (c.run J threshold faults s).store := by
        cases c <;> cases ht <;> rfl
      rw [hstore]
      exact hin' hres

theorem step_crash {c : Call} (h : Sound J w) (hclean : w.residue = false)
    (hstep : step J threshold w (.crash c faults) = some w') : Sound J w' := by
  unfold step at hstep
  cases hproc : w.process with
  | down disk => simp [hproc] at hstep
  | attached s =>
    simp only [hproc] at hstep
    cases hstep
    obtain ⟨D, -, hlog, hin⟩ := h.attached hproc
    obtain ⟨D', es, hrec, -, hes, hsub, -⟩ := run_ends (hin hclean) threshold faults c
    exact .inr ⟨D', hrec, (hlog.append hes hsub).2, fun t ht => by cases ht⟩

theorem step_sound {e : Event} (h : Sound J w) (hclean : e.Clean w) (hstep : step J threshold w e = some w') :
    Sound J w' := by
  cases e with
  | opening initial faults => exact step_opening h hstep
  | call c faults => exact step_call h hclean hstep
  | crash c faults => exact step_crash h hclean hstep
  | stop =>
    unfold step at hstep
    cases hproc : w.process with
    | down disk => simp [hproc] at hstep
    | attached s =>
      simp only [hproc] at hstep
      cases hstep
      obtain ⟨D, hrec, hlog, -⟩ := h.attached hproc
      exact .inr ⟨D, hrec, hlog, fun t ht => by cases ht⟩

theorem reaches_sound (h : Reaches J threshold w) : Sound J w := by
  induction h with
  | start => exact .inl ⟨rfl, ⟨_, rfl⟩, fun _ => rfl⟩
  | step e _ hclean hstep ih => exact step_sound ih hclean hstep

theorem acknowledged_recovered (J : Json) (threshold : Nat) (w : World) (h : Reaches J threshold w)
    (hacked : w.acked ≠ []) : w.Recovers J := by
  rcases reaches_sound h with ⟨hnone, -⟩ | ⟨D, hrec, ⟨log, hsub, htried, hreplay⟩, -⟩
  · exact absurd hnone hacked
  · obtain ⟨s, hopen, -⟩ := open_recoverable hrec
    exact ⟨s, D, log, hopen, hsub, htried, hreplay⟩

theorem reaches_runClean {es : List Event} (h : Reaches J threshold w) (hrun : runClean J threshold w es = some w') :
    Reaches J threshold w' := by
  induction es generalizing w with
  | nil => cases hrun; exact h
  | cons e es ih =>
    simp only [runClean, foldlM_cons, bind_eq_bind, bind_eq_some_iff] at hrun
    obtain ⟨w₁, hstep, hrest⟩ := hrun
    split at hstep
    · exact ih (.step e h ‹_› hstep) hrest
    · cases hstep

/-- The disk after a start that opens the store and then stops. -/
def Disk.reopened (J : Json) (disk : Disk) : Disk :=
  match openPersistentImageStore J disk with
  | .ok (s, _) => s.disk
  | .error _ => disk

/-- However often a start is cut short after a run, the next one recovers the same state. -/
theorem reopened_same (J : Json) (threshold : Nat) (es : List Event) :
    match runClean J threshold {} es with
    | none => True
    | some w => w.acked = [] ∨ ∃ X, ∀ n, ∃ s,
      openPersistentImageStore J ((Disk.reopened J)^[n] w.process.disk) = .ok (s, some X) := by
  split
  · trivial
  · next w hrun =>
    rcases reaches_sound (reaches_runClean .start hrun) with ⟨hnone, -⟩ | ⟨X, hrec, -⟩
    · exact .inl hnone
    · refine .inr ⟨X, fun n => ?_⟩
      have hkeeps : ∀ disk, Recoverable J disk X → Recoverable J (disk.reopened J) X := by
        intro disk h
        obtain ⟨s, hopen, hin⟩ := open_recoverable h
        simpa only [Disk.reopened, hopen] using hin.recoverable
      obtain ⟨s, hopen, -⟩ := open_recoverable (Function.Iterate.rec (Recoverable J · X) hrec hkeeps n)
      exact ⟨s, hopen⟩

/-! ## A failed append and its retry -/

def persistentImageCheckpointWALBytes : Nat := 32 * 2 ^ 20

/-- A new filesystem: the root directory alone. -/
def newState : PersistentImageState where
  nextNodeID := 2
  nodes := Std.ExtTreeMap.ofList [(1, { parent := 1, name := JsonText.ascii "/", kind := .dir })] compare

/-- The record of an fsync of a new file `/a`. -/
def createRecord : PersistentImageDelta where
  nextNodeID := 3
  nodes := [(1, { parent := 1, name := JsonText.ascii "/", kind := .dir }),
    (2, { parent := 1, name := JsonText.ascii "a", kind := .file, nlink := 1, guestPath := [JsonText.ascii "a"] })]
  dirents := [⟨1, JsonText.ascii "a", 2, true⟩]

/-- The fsync of the new file fails with `fault`, and is tried again. -/
def fsyncTwice (fault : AppendFault) : List Event :=
  [.opening newState {}, .call (.fsync createRecord) { append := some fault }, .call (.fsync createRecord) {}]

set_option maxRecDepth 100000 in
/-- A fault before the append touches the log is harmless. -/
theorem retried_fsync_recovered : ∃ w, Reaches persistentJson persistentImageCheckpointWALBytes w ∧
    w.acked = [.snapshot newState, .delta createRecord] ∧ w.Recovers persistentJson := by
  obtain ⟨w, hrun, hacked⟩ : ∃ w, runClean persistentJson persistentImageCheckpointWALBytes {} (fsyncTwice .hook) =
      some w ∧ w.acked = [.snapshot newState, .delta createRecord] := by
    refine map_eq_some_iff.mp ?_
    decide +kernel
  have hreach := reaches_runClean .start hrun
  exact ⟨w, hreach, hacked, acknowledged_recovered persistentJson _ w hreach (by simp [hacked])⟩

def recoveredContents (J : Json) (disk : Disk) : Option Contents :=
  match openPersistentImageStore J disk with
  | .ok (_, some X) => some X.contents
  | _ => none

set_option maxRecDepth 100000 in
/-- A short write of one header byte makes the log unreadable from there on: the retry reports success, and its record
is not recovered. -/
theorem retried_fsync_lost : ∃ w,
    (fsyncTwice (.header ⟨1, by decide⟩)).foldlM (step persistentJson persistentImageCheckpointWALBytes) {} = some w ∧
    w.acked = [.snapshot newState, .delta createRecord] ∧ ¬w.Recovers persistentJson := by
  obtain ⟨w, hrun, hw⟩ : ∃ w,
      (fsyncTwice (.header ⟨1, by decide⟩)).foldlM (step persistentJson persistentImageCheckpointWALBytes) {} = some w ∧
      (w.acked, w.tried, recoveredContents persistentJson w.process.disk) =
        ([.snapshot newState, .delta createRecord],
          [.snapshot newState, .delta createRecord, .delta createRecord], some newState.contents) := by
    refine map_eq_some_iff.mp ?_
    decide +kernel
  obtain ⟨hacked, htried, hcontents⟩ : _ ∧ _ ∧ _ := by simpa only [Prod.mk.injEq] using hw
  refine ⟨w, hrun, hacked, ?_⟩
  rintro ⟨s, X, log, hopen, hsub, hlog, hreplay⟩
  have hX : X.contents = newState.contents := by
    rw [recoveredContents, hopen] at hcontents
    exact some.inj hcontents
  -- Every log with the retried record in it has the new file.
  have hall : ∀ l ∈ [Entry.snapshot newState, .delta createRecord, .delta createRecord].sublists,
      [Entry.snapshot newState, .delta createRecord].Sublist l →
        (replayEntries {} l).toOption ≠ some newState.contents := by
    decide +kernel
  rw [htried, ← mem_sublists] at hlog
  rw [hacked] at hsub
  exact hall log hlog hsub (by rw [hreplay, hX]; rfl)

end CrumbleCracker.Virtio

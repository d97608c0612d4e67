import CrumbleCracker.Virtio.StoreRun

/-!
# The durable state in memory

The store keeps the durable state twice: in memory, where each record is applied as it is appended, and on disk, as a
snapshot and the log behind it. Without host faults the two never differ (`durableState_eq_disk`), whatever the order of
durability calls, compactions, checkpoints, crashes and openings.
-/

namespace CrumbleCracker.Virtio

open List

variable {J : Json} {s : PersistentImageStore} {D : PersistentImageState}

/-- The state that `load` and then `replayWAL` make of a disk. -/
def loadAndReplay (J : Json) (disk : Disk) : Option PersistentImageState :=
  match load J disk with
  | .ok (some (state, _)) => some (replayWAL J disk.walBytes state state.sequence).state
  | _ => none

theorem Recoverable.loadAndReplay {disk : Disk} (h : Recoverable J disk D) : loadAndReplay J disk = some D := by
  obtain ⟨slot, st, stale, fresh, tail, hdisk, htail, hwal⟩ := h
  obtain ⟨discard, hreplay, -⟩ := replayWAL_torn hdisk.fits hdisk.old hdisk.replays htail
  unfold Virtio.loadAndReplay
  rw [load_slots hdisk.slots, hwal]
  simp only [hreplay]

/-! ## Calls that meet no fault -/

theorem appendDelta_refused {d : Option PersistentImageDelta} {e : StoreError} {s' : PersistentImageStore}
    (h : s.appendDelta J none d true = (.error e, s')) : s' = s := by
  unfold PersistentImageStore.appendDelta PersistentImageStore.writeDelta at h
  simp only [not_true_eq_false, and_false, if_false, if_true] at h
  split at h
  · cases h
    rfl
  · simp only [reduceCtorEq, if_false] at h
    split at h
    · cases h
      rfl
    · cases h

theorem save_noFault {st : PersistentImageState} {e : StoreError} {s' : PersistentImageStore}
    (h : s.save J none st = (.error e, s')) : e ≠ .syncDirectory := by
  rintro rfl
  rcases save_cases (J := J) (s := s) none st with ⟨e, he, hsave⟩ | ⟨hfits, -⟩
  · rw [hsave] at h
    exact he (Except.error.inj (congrArg Prod.fst h))
  · have hsize := Nat.not_lt.mpr hfits.size
    unfold PersistentImageStore.save at h
    simp only [if_neg hsize, readPersistentImageState_encode hfits, ne_eq, not_true_eq_false, or_self, if_false,
      reduceCtorEq] at h
    cases h

theorem checkpoint_noFault (st : PersistentImageState) : (checkpoint J {} st s).residue = false := by
  unfold checkpoint
  split
  · rename_i e s' hsave
    exact decide_eq_false (save_noFault hsave)
  · split <;> rfl

theorem finish_noFault (threshold : Nat) (c : Call) : (c.finish J threshold {} s).residue = false := by
  have hmaybe : (maybeCheckpoint J threshold {} s).residue = false := by
    unfold maybeCheckpoint
    split
    · split
      · rfl
      · exact checkpoint_noFault _
    · rfl
  cases c with
  | close delta st =>
    unfold Call.finish
    simp only [Bool.false_eq_true, and_false, if_false]
    exact checkpoint_noFault st
  | fsync delta | fsyncDir delta | syncFS delta => exact hmaybe

theorem run_noFault (threshold : Nat) (c : Call) : (c.run J threshold {} s).residue = false := by
  unfold Call.run
  simp only [Bool.false_eq_true, false_and, if_false]
  split
  · rename_i e s' happend
    unfold Call.append at happend
    split at happend
    · cases happend
    · rw [appendDelta_refused happend]
      simp
  · exact finish_noFault threshold c

/-! ## Runs -/

/-- The calls and openings meet no host fault; a crash may come anywhere. -/
def Event.NoFault : Event → Prop
  | .opening _ faults | .call _ faults => faults = {}
  | .crash _ _ | .stop => True

theorem step_noFault {threshold : Nat} {w w' : World} {e : Event} (he : e.NoFault) (hw : w.residue = false)
    (h : step J threshold w e = some w') : w'.residue = false := by
  unfold step at h
  cases e with
  | opening initial faults =>
    simp only at h
    split at h
    · cases h
    · split at h
      · cases h
        exact hw
      · cases h
        rfl
      · split at h
        · cases h
          rfl
        · cases h
          exact hw
  | call c faults =>
    obtain rfl : faults = {} := he
    simp only at h
    split at h
    · cases h
    · cases h
      show (w.residue || _) = false
      rw [hw, run_noFault]
      rfl
  | crash c faults | stop =>
    simp only at h
    split at h
    · cases h
    · cases h
      exact hw

theorem reaches_noFault {threshold : Nat} {w w' : World} {es : List Event} (hw : Reaches J threshold w)
    (hres : w.residue = false) (hes : ∀ e ∈ es, e.NoFault) (hrun : es.foldlM (step J threshold) w = some w') :
    Reaches J threshold w' ∧ w'.residue = false := by
  induction es generalizing w with
  | nil =>
    cases hrun
    exact ⟨hw, hres⟩
  | cons e es ih =>
    rw [forall_mem_cons] at hes
    rw [foldlM_cons, Option.bind_eq_bind, Option.bind_eq_some_iff] at hrun
    obtain ⟨mid, hstep, hrest⟩ := hrun
    have hclean : e.Clean w := by cases e <;> first | exact hres | exact trivial
    exact ih (.step e hw hclean hstep) (step_noFault hes.1 hres hstep) hes.2 hrest

/-- **The two copies of the durable state agree.** After any run in which no call meets a host fault, the durable state
of the attached store is what `load` and `replayWAL` make of its disk, with its sequence number; and a compaction,
wherever it stops, does not change the contents they recover. -/
theorem durableState_eq_disk (J : Json) (threshold : Nat) (es : List Event) (w : World) (s : PersistentImageStore)
    (hes : ∀ e ∈ es, e.NoFault) (hrun : es.foldlM (step J threshold) {} = some w) (hs : w.process = .attached s) :
    ∃ D, s.durableState = some D ∧ s.sequence = D.sequence ∧ loadAndReplay J s.disk = some D ∧
      ∀ limit faults,
      (loadAndReplay J (maybeCheckpoint J limit faults s).store.disk).map PersistentImageState.contents =
        some D.contents := by
  obtain ⟨hreach, hres⟩ := reaches_noFault .start rfl hes hrun
  obtain ⟨D, -, -, hin⟩ := (reaches_sound hreach).attached hs
  have hstep := hin hres
  refine ⟨D, hstep.1, hstep.2.1, hstep.recoverable.loadAndReplay, fun limit faults => ?_⟩
  obtain ⟨D', es', hrec, -, hreplay, hsub, -⟩ := maybeCheckpoint_ends hstep limit faults
  obtain rfl := sublist_nil.mp hsub
  rw [hrec.loadAndReplay, Option.map_some]
  exact congrArg some (Except.ok.inj hreplay).symm

/-- A new store with a barrier behind its first record. -/
def fsyncAndCompact : List Event :=
  [.opening newState {}, .call (.fsync createRecord) {}, .call (.syncFS none) {}]

set_option maxRecDepth 100000 in
theorem fsyncAndCompact_agrees : ∃ w s, fsyncAndCompact.foldlM (step persistentJson 1) {} = some w ∧
    w.process = .attached s ∧ ∃ D, s.durableState = some D ∧ s.sequence = D.sequence ∧
      loadAndReplay persistentJson s.disk = some D ∧ ∀ limit faults, (loadAndReplay persistentJson
        (maybeCheckpoint persistentJson limit faults s).store.disk).map PersistentImageState.contents =
        some D.contents := by
  obtain ⟨w, hrun, hw⟩ : ∃ w, fsyncAndCompact.foldlM (step persistentJson 1) {} = some w ∧
      w.process.rec (fun _ => 0) (fun s => s.sequence) = 6 := by
    refine Option.map_eq_some_iff.mp ?_
    decide +kernel
  cases hs : w.process with
  | down disk =>
    rw [hs] at hw
    cases hw
  | attached s =>
    refine ⟨w, s, hrun, hs, durableState_eq_disk persistentJson 1 fsyncAndCompact w s ?_ hrun hs⟩
    intro e he
    simp only [fsyncAndCompact, mem_cons, not_mem_nil, or_false] at he
    rcases he with rfl | rfl | rfl <;> rfl

end CrumbleCracker.Virtio

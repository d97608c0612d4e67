import CrumbleCracker.Virtio.StoreRun

/-!
# Crash points of one operation

`CrashPoint` lists what the directory may hold when the process stops inside an append, a save, or a save with the
emptying of the log behind it. `crash_point_recovered`: from there, opening yields the durable state before the
operation or the one after it. Only the first checkpoint of a new store is different (`torn_creation_refused`).
-/

namespace CrumbleCracker.Virtio

variable {J : Json} {s : PersistentImageStore}

inductive StoreOp
  | append (delta : Option PersistentImageDelta)
  | save (state : PersistentImageState)
  | checkpoint (state : PersistentImageState)

def StoreOp.run (J : Json) (s : PersistentImageStore) : StoreOp → Outcome
  | .append delta => let r := s.appendDelta J none delta true; { result := r.1, store := r.2 }
  | .save state => let r := s.save J none state; { result := r.1, store := r.2 }
  | .checkpoint state => Virtio.checkpoint J {} state s

/-- What the directory may hold when the process stops inside an operation that would have succeeded: the log with any
prefix of the new record behind it, the slots before or after the rename, the log before or after it is emptied. -/
inductive CrashPoint (J : Json) (s : PersistentImageStore) : StoreOp → Disk → Prop
  | before (op : StoreOp) : CrashPoint J s op s.disk
  | appending (delta : Option PersistentImageDelta) (written : Nat) :
      ((StoreOp.append delta).run J s).ok = true →
      CrashPoint J s (.append delta)
        (s.disk.appendWal ((encodeDelta J (s.stamp (delta.getD {}) true)).take written))
  | saved (state : PersistentImageState) : ((StoreOp.save state).run J s).ok = true →
      CrashPoint J s (.save state) (s.disk.publish (s.metadataSlot + 1) (encodeState J (s.stampState state)))
  | published (state : PersistentImageState) : ((StoreOp.checkpoint state).run J s).ok = true →
      CrashPoint J s (.checkpoint state) (s.disk.publish (s.metadataSlot + 1) (encodeState J (s.stampState state)))
  | emptied (state : PersistentImageState) : ((StoreOp.checkpoint state).run J s).ok = true →
      CrashPoint J s (.checkpoint state)
        { s.disk.publish (s.metadataSlot + 1) (encodeState J (s.stampState state)) with wal := some [] }

/-- A save or checkpoint that succeeds had a snapshot that fits, and makes it durable. -/
theorem checkpoint_ok {st : PersistentImageState} (h : ((StoreOp.checkpoint st).run J s).ok = true) :
    StateFits J (s.stampState st) ∧ ((StoreOp.checkpoint st).run J s).store.durableState = some (s.stampState st) := by
  unfold StoreOp.run Virtio.checkpoint at h ⊢
  rcases save_cases (J := J) (s := s) none st with ⟨e, -, hsave⟩ | ⟨hfits, hsave | hsave⟩
  · simp [hsave, Outcome.ok] at h
  · simp [hsave, Outcome.ok] at h
  · exact ⟨hfits, by simp [hsave, PersistentImageStore.resetWAL]⟩

theorem crash_point_recovered (J : Json) (threshold : Nat) (w : World) (s : PersistentImageStore)
    (hreach : Reaches J threshold w) (hs : w.process = .attached s) (hres : w.residue = false) (op : StoreOp)
    (disk : Disk) (h : CrashPoint J s op disk) : ∃ s' X, openPersistentImageStore J disk = .ok (s', some X) ∧
      (s.durableState = some X ∨ (op.run J s).store.durableState = some X) := by
  have hopen {disk : Disk} {X : PersistentImageState} (hrec : Recoverable J disk X)
      (hX : s.durableState = some X ∨ (op.run J s).store.durableState = some X) :
      ∃ s' X, openPersistentImageStore J disk = .ok (s', some X) ∧
        (s.durableState = some X ∨ (op.run J s).store.durableState = some X) := by
    obtain ⟨s', hok, -⟩ := open_recoverable hrec
    exact ⟨s', X, hok, hX⟩
  obtain ⟨D, -, -, hin⟩ := (reaches_sound hreach).attached hs
  replace hin := hin hres
  cases h with
  | before => exact hopen hin.recoverable (.inl hin.1)
  | appending delta written hok =>
    rcases appendDelta_cases (J := J) (s := s) none delta with ⟨e, hrun⟩ | ⟨next, hnext, hfits, ⟨e, k, hrun⟩ | hrun⟩
    · simp [StoreOp.run, hrun, Outcome.ok] at hok
    · simp [StoreOp.run, hrun, Outcome.ok] at hok
    · rcases hin.appendWal hnext hfits written with hrec | hrec
      · exact hopen hrec (.inl hin.1)
      · exact hopen hrec (.inr (by simp [StoreOp.run, hrun]))
  | saved state hok =>
    rcases save_cases (J := J) (s := s) none state with ⟨e, -, hrun⟩ | ⟨hfits, hrun | hrun⟩
    · simp [StoreOp.run, hrun, Outcome.ok] at hok
    · simp [StoreOp.run, hrun, Outcome.ok] at hok
    · exact hopen (hin.quiet.published hfits).recoverable (.inr (by simp [StoreOp.run, hrun]))
  | published state hok =>
    obtain ⟨hfits, hdur⟩ := checkpoint_ok hok
    exact hopen (hin.quiet.published hfits).recoverable (.inr hdur)
  | emptied state hok =>
    obtain ⟨hfits, hdur⟩ := checkpoint_ok hok
    exact hopen (hin.quiet.checkpointed hfits).recoverable (.inr hdur)

set_option maxRecDepth 100000 in
/-- The process stops after one byte of the record of a new file. -/
theorem torn_fsync_recovered : ∃ w s s' X,
    Reaches persistentJson persistentImageCheckpointWALBytes w ∧ w.process = .attached s ∧
    CrashPoint persistentJson s (.append (some createRecord))
      (s.disk.appendWal ((encodeDelta persistentJson (s.stamp createRecord true)).take 1)) ∧
    openPersistentImageStore persistentJson
      (s.disk.appendWal ((encodeDelta persistentJson (s.stamp createRecord true)).take 1)) = .ok (s', some X) ∧
    (s.durableState = some X ∨ ((StoreOp.append (some createRecord)).run persistentJson s).store.durableState =
      some X) := by
  obtain ⟨w, hrun, hw⟩ : ∃ w, runClean persistentJson persistentImageCheckpointWALBytes {} [.opening newState {}] =
      some w ∧ (w.residue, w.process.rec (fun _ => false) fun s =>
        ((StoreOp.append (some createRecord)).run persistentJson s).ok) = (false, true) := by
    refine Option.map_eq_some_iff.mp ?_
    decide +kernel
  obtain ⟨hres, hok⟩ : _ ∧ _ := by simpa only [Prod.mk.injEq] using hw
  cases hproc : w.process with
  | down disk => simp [hproc] at hok
  | attached s =>
    simp only [hproc] at hok
    have hreach := reaches_runClean .start hrun
    have hcrash := CrashPoint.appending (some createRecord) 1 hok
    obtain ⟨s', X, hopen, hX⟩ := crash_point_recovered persistentJson _ w s hreach hproc hres _ _ hcrash
    exact ⟨w, s, s', X, hreach, hproc, hcrash, hopen, hX⟩

set_option maxRecDepth 100000 in
theorem torn_creation_refused : ∃ s disk,
    openPersistentImageStore persistentJson {} = .ok (s, none) ∧ CrashPoint persistentJson s (.append none) disk ∧
    openPersistentImageStore persistentJson disk = .error (.walWithoutMetadata 1) := by
  have hok : ((StoreOp.append none).run persistentJson {}).ok = true := by decide +kernel
  refine ⟨{}, _, rfl, CrashPoint.appending none 1 hok, ?_⟩
  generalize hrecord : encodeDelta persistentJson (({} : PersistentImageStore).stamp ((none : Option _).getD {}) true) =
    bytes
  have hlen : (bytes.take 1).length = 1 := by
    rw [← hrecord, List.length_take, encodeDelta, Framed.Format.length_record, Framed.headerSize]
    omega
  simp only [openPersistentImageStore, load, List.foldl, loadSlot, ensureEmptyUninitialized, Disk.appendWal,
    Disk.walBytes, Option.getD_some, Option.getD_none, List.nil_append, hlen]
  rfl

end CrumbleCracker.Virtio

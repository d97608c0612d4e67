import CrumbleCracker.Virtio.Recovery

/-!
# Crashes and failures inside the store's operations

`appendDelta_cases`, `save_cases` and `resetWAL_cases` say everything the three operations can do to the disk.
From a store that is `InStep` with its disk, each of them leaves a disk that is `Recoverable` to the durable
state before it or after it, wherever it stops.
-/

namespace CrumbleCracker.Virtio

open Framed List

variable {J : Json} {s : PersistentImageStore} {D : PersistentImageState} {d : PersistentImageDelta}
  {next st : PersistentImageState}

/-! ## What the operations do -/

theorem writeDelta_cases (fault : Option AppendFault) (delta : PersistentImageDelta)
    (next : Option PersistentImageState)
    (hversion : delta.version = persistentImageFormatVersion) :
    (∃ e, s.writeDelta J fault delta true next = (.error e, s)) ∨
    (DeltaFits J delta ∧ ((∃ e k, s.writeDelta J fault delta true next =
          (.error e, { s with disk := s.disk.appendWal ((encodeDelta J delta).take k) })) ∨
        s.writeDelta J fault delta true next =
          (.ok (), ⟨delta.sequence, s.metadataSlot, next, s.disk.appendWal (encodeDelta J delta)⟩))) := by
  have hheader : (walFormat.header delta.sequence (J.delta.marshal delta)).length = headerSize :=
    Format.length_header _ _ _
  have hwhole : (encodeDelta J delta).take (encodeDelta J delta).length = encodeDelta J delta := take_length
  unfold PersistentImageStore.writeDelta
  by_cases hhook : fault = some .hook
  · exact .inl ⟨_, if_pos hhook⟩
  rw [if_neg hhook]
  by_cases hsize : persistentImageMaxMetadata < (J.delta.marshal delta).length
  · exact .inl ⟨_, if_pos hsize⟩
  rw [if_neg hsize]
  have hfits : DeltaFits J delta := ⟨hversion, Nat.not_lt.mp hsize⟩
  rcases fault with _ | fault
  · exact .inr ⟨hfits, .inr rfl⟩
  cases fault with
  | hook => exact absurd rfl hhook
  | openFile => exact .inl ⟨_, rfl⟩
  | header written =>
    refine .inr ⟨hfits, .inl ⟨.walHeader, written, ?_⟩⟩
    have htake : (encodeDelta J delta).take written =
        (walFormat.header delta.sequence (J.delta.marshal delta)).take written := by
      rw [encodeDelta, Format.record, take_append_of_le_length (by rw [hheader]; exact written.isLt.le)]
    rw [htake]
  | payload written =>
    refine .inr ⟨hfits, .inl ⟨.walPayload, headerSize + written, ?_⟩⟩
    have htake : (encodeDelta J delta).take (headerSize + written) =
        walFormat.header delta.sequence (J.delta.marshal delta) ++ (J.delta.marshal delta).take written := by
      rw [encodeDelta, Format.record, ← hheader, take_length_add_append]
    rw [htake]
  | sync =>
    refine .inr ⟨hfits, .inl ⟨.walSync, (encodeDelta J delta).length, ?_⟩⟩
    rw [hwhole]
    simp [encodeDelta, Format.record]
  | close =>
    refine .inr ⟨hfits, .inl ⟨.walClose, (encodeDelta J delta).length, ?_⟩⟩
    rw [hwhole]
    rfl

/-- A durable append is refused before it touches the disk, or leaves a prefix of its record there and fails, or writes
the whole record and makes the next state durable. -/
theorem appendDelta_cases (fault : Option AppendFault) (d : Option PersistentImageDelta) :
    (∃ e, s.appendDelta J fault d true = (.error e, s)) ∨
    ∃ next, s.nextDurable (s.stamp (d.getD {}) true) = .ok next ∧ DeltaFits J (s.stamp (d.getD {}) true) ∧
      ((∃ e k, s.appendDelta J fault d true =
          (.error e, { s with disk := s.disk.appendWal ((encodeDelta J (s.stamp (d.getD {}) true)).take k) })) ∨
        s.appendDelta J fault d true = (.ok (), ⟨s.sequence + 1, s.metadataSlot, some next,
          s.disk.appendWal (encodeDelta J (s.stamp (d.getD {}) true))⟩)) := by
  unfold PersistentImageStore.appendDelta
  simp only [not_true_eq_false, and_false, if_false, if_true]
  cases hnext : s.nextDurable (s.stamp (d.getD {}) true) with
  | error e => exact .inl ⟨_, rfl⟩
  | ok next =>
    rcases writeDelta_cases (J := J) (s := s) fault (s.stamp (d.getD {}) true) (some next) rfl with h | ⟨hfits, h⟩
    · exact .inl h
    · exact .inr ⟨next, rfl, hfits, h⟩

/-- A save is refused before the rename, or fails behind it, or makes its snapshot durable. -/
theorem save_cases (fault : Option SaveFault) (st : PersistentImageState) :
    (∃ e, e ≠ .syncDirectory ∧ s.save J fault st = (.error e, s)) ∨ (StateFits J (s.stampState st) ∧
      (s.save J fault st = (.error .syncDirectory,
          { s with disk := s.disk.publish (s.metadataSlot + 1) (encodeState J (s.stampState st)) }) ∨
        s.save J fault st = (.ok (), ⟨s.sequence + 1, s.metadataSlot + 1, some (s.stampState st),
          s.disk.publish (s.metadataSlot + 1) (encodeState J (s.stampState st))⟩))) := by
  unfold PersistentImageStore.save
  by_cases hsize : persistentImageMaxMetadata < (J.state.marshal (s.stampState st)).length
  · exact .inl ⟨_, by simp, if_pos hsize⟩
  have hfits : StateFits J (s.stampState st) := ⟨rfl, Nat.not_lt.mp hsize⟩
  simp only [if_neg hsize, readPersistentImageState_encode hfits, ne_eq, not_true_eq_false, or_self, if_false]
  rcases fault with _ | fault
  · exact .inr ⟨hfits, .inr rfl⟩
  cases fault with
  | stage => exact .inl ⟨.stageMetadata, by simp, rfl⟩
  | hook => exact .inl ⟨.faultHook, by simp, rfl⟩
  | rename => exact .inl ⟨.publishMetadata, by simp, rfl⟩
  | syncDirectory => exact .inr ⟨hfits, .inl rfl⟩

theorem resetWAL_cases (fault : Option ResetFault) :
    (∃ e, s.resetWAL fault = (.error e, s)) ∨ (∃ e, s.resetWAL fault = (.error e, { s with disk.wal := some [] })) ∨
      s.resetWAL fault = (.ok (), { s with disk.wal := some [] }) := by
  rcases fault with _ | fault
  · exact .inr (.inr rfl)
  cases fault with
  | openFile => exact .inl ⟨_, rfl⟩
  | sync => exact .inr (.inl ⟨_, rfl⟩)

/-! ## Where they may stop -/

theorem InStep.nextDurable (h : InStep J s D) (hnext : s.nextDurable d = .ok next) :
    applyPersistentImageDelta D d = .ok next := by
  rw [PersistentImageStore.nextDurable, h.1] at hnext
  exact hnext

theorem InStep.appended (h : InStep J s D) (hnext : s.nextDurable (s.stamp d true) = .ok next)
    (hfits : DeltaFits J (s.stamp d true)) :
    InStep J ⟨s.sequence + 1, s.metadataSlot, some next, s.disk.appendWal (encodeDelta J (s.stamp d true))⟩ next := by
  have happly := h.nextDurable hnext
  obtain ⟨-, hseq, st, stale, fresh, hdisk, hwal⟩ := h
  have hreplays : Replays st (fresh ++ [s.stamp d true]) next := hdisk.replays.snoc (by rw [← hseq]; rfl) rfl happly
  refine ⟨rfl, (applyPersistentImageDelta_sequence happly).symm, st, stale, fresh ++ [s.stamp d true],
    ⟨⟨hdisk.slots.current, hdisk.slots.fits, hdisk.slots.other⟩, ?_, hdisk.old, hreplays⟩, ?_⟩
  · rw [← append_assoc]
    exact forall_mem_append.2 ⟨hdisk.fits, forall_mem_singleton.2 hfits⟩
  · rw [← append_assoc, flatMap_append, ← hwal, flatMap_singleton]
    rfl

/-- Any prefix of the record behind an intact log recovers the state before it, or after it once the record is whole. -/
theorem InStep.appendWal (h : InStep J s D) (hnext : s.nextDurable (s.stamp d true) = .ok next)
    (hfits : DeltaFits J (s.stamp d true)) (k : Nat) :
    Recoverable J (s.disk.appendWal ((encodeDelta J (s.stamp d true)).take k)) D ∨
      Recoverable J (s.disk.appendWal ((encodeDelta J (s.stamp d true)).take k)) next := by
  by_cases hk : k < (encodeDelta J (s.stamp d true)).length
  · obtain ⟨-, -, st, stale, fresh, hdisk, hwal⟩ := h
    refine .inl ⟨s.metadataSlot, st, stale, fresh, _, hdisk.congr rfl, tornTail_take hfits hk, ?_⟩
    rw [← hwal]
    rfl
  · rw [take_of_length_le (Nat.not_lt.mp hk)]
    exact .inr (h.appended hnext hfits).recoverable

/-- Nothing on disk is newer than the store: a snapshot published now is newer than the current slot and than every
record of the log. -/
structure Quiet (J : Json) (s : PersistentImageStore) : Prop where
  current : ∀ file, s.disk.slot s.metadataSlot = some file →
    ∃ old, file = encodeState J old ∧ StateFits J old ∧ old.sequence ≤ s.sequence
  log : ∃ ds : List PersistentImageDelta, s.disk.walBytes = ds.flatMap (encodeDelta J) ∧
    ∀ d ∈ ds, DeltaFits J d ∧ d.sequence ≤ s.sequence

theorem InStep.quiet (h : InStep J s D) : Quiet J s := by
  obtain ⟨-, hseq, st, stale, fresh, hdisk, hwal⟩ := h
  have hD := hdisk.replays.sequence_eq
  refine ⟨?_, stale ++ fresh, hwal, ?_⟩
  · intro file hfile
    rw [hdisk.slots.current, Option.some.injEq] at hfile
    exact ⟨st, hfile.symm, hdisk.slots.fits, by omega⟩
  · intro d hd
    refine ⟨hdisk.fits d hd, ?_⟩
    rcases mem_append.mp hd with hd | hd
    · have := hdisk.old d hd
      omega
    · have := hdisk.replays.older d hd
      omega

theorem Quiet.slots (h : Quiet J s) (hfits : StateFits J (s.stampState st)) :
    Slots J (s.disk.publish (s.metadataSlot + 1) (encodeState J (s.stampState st))) (s.metadataSlot + 1)
      (s.stampState st) := by
  have hback : s.metadataSlot + 1 + 1 = s.metadataSlot := by
    generalize s.metadataSlot = i
    revert i
    decide
  have hne : s.metadataSlot ≠ s.metadataSlot + 1 := by
    generalize s.metadataSlot = i
    revert i
    decide
  refine ⟨by simp [Disk.publish], hfits, ?_⟩
  intro file hfile
  simp only [hback, Disk.publish, Function.update_of_ne hne] at hfile
  obtain ⟨old, rfl, hold, hle⟩ := h.current file hfile
  exact ⟨old, rfl, hold, Nat.lt_succ_of_le hle⟩

/-- A published snapshot puts the store in step: every record of the log is older than it. -/
theorem Quiet.published (h : Quiet J s) (hfits : StateFits J (s.stampState st)) :
    InStep J ⟨s.sequence + 1, s.metadataSlot + 1, some (s.stampState st),
      s.disk.publish (s.metadataSlot + 1) (encodeState J (s.stampState st))⟩ (s.stampState st) := by
  obtain ⟨ds, hwal, hds⟩ := h.log
  refine ⟨rfl, rfl, s.stampState st, ds, [], ⟨h.slots hfits, ?_, ?_, .nil _⟩, ?_⟩
  · intro d hd
    exact (hds d (by simpa using hd)).1
  · intro d hd
    exact Nat.le_succ_of_le (hds d hd).2
  · rw [append_nil, ← hwal]
    rfl

theorem Quiet.checkpointed (h : Quiet J s) (hfits : StateFits J (s.stampState st)) :
    InStep J ⟨s.sequence + 1, s.metadataSlot + 1, some (s.stampState st),
      { s.disk.publish (s.metadataSlot + 1) (encodeState J (s.stampState st)) with wal := some [] }⟩
      (s.stampState st) := by
  have hslots := h.slots hfits
  exact ⟨rfl, rfl, s.stampState st, [], [],
    ⟨⟨hslots.current, hslots.fits, hslots.other⟩, by simp, by simp, .nil _⟩, rfl⟩

end CrumbleCracker.Virtio

import CrumbleCracker.Virtio.PersistentStore
import CrumbleCracker.Virtio.ReplaySpec

/-!
# What opening a store recovers

* `Replays st ds D` : the committed records `ds`, numbered on from `st`, lead to `D`;
* `OnDisk J disk slot st stale fresh D` : the current slot holds `st`, the other one nothing or an older
  snapshot, and of the records `stale ++ fresh` the first are older than `st` and the rest lead from it to `D`;
* `Recoverable J disk D` : the log is such records and at most a torn one behind them;
* `open_recoverable` : opening then yields exactly `D`, and a store that is `InStep` with its disk again.
-/

namespace CrumbleCracker.Virtio

open Framed List

variable {J : Json} {d : PersistentImageDelta}

theorem tornTail_take (h : DeltaFits J d) {k : Nat} (hk : k < (encodeDelta J d).length) :
    TornTail J ((encodeDelta J d).take k) := by
  intro offset
  rw [encodeDelta, Format.length_record] at hk
  unfold scanWAL encodeDelta
  rw [scan_torn walFormat (decodeDelta J) offset d.sequence k (J.delta.marshal d) h.size hk]
  by_cases hzero : k = 0
  · subst hzero
    exact ⟨rfl, .inl ⟨rfl, rfl⟩⟩
  · rw [if_neg hzero]
    exact ⟨rfl, .inr ⟨_, rfl⟩⟩

/-! ## Replaying consecutive records -/

/-- The committed records `ds`, numbered on from `st`, lead to `D`. -/
inductive Replays : PersistentImageState → List PersistentImageDelta → PersistentImageState → Prop
  | nil (st) : Replays st [] st
  | cons {st next D d ds} : d.sequence = st.sequence + 1 → d.committed = true →
      applyPersistentImageDelta st d = .ok next → Replays next ds D → Replays st (d :: ds) D

variable {st D : PersistentImageState} {ds : List PersistentImageDelta}

namespace Replays

theorem sequence_eq (h : Replays st ds D) : D.sequence = st.sequence + ds.length := by
  induction h with
  | nil st => rfl
  | cons hseq _ happly _ ih =>
    rw [ih, applyPersistentImageDelta_sequence happly, hseq, length_cons]
    omega

theorem committed (h : Replays st ds D) : ∀ d ∈ ds, d.committed = true := by
  induction h with
  | nil st => simp
  | cons _ hcom _ _ ih => exact forall_mem_cons.2 ⟨hcom, ih⟩

theorem older (h : Replays st ds D) : ∀ d ∈ ds, d.sequence ≤ D.sequence := by
  induction h with
  | nil st => simp
  | cons hseq _ happly hrest ih =>
    refine forall_mem_cons.2 ⟨?_, ih⟩
    rw [hrest.sequence_eq, applyPersistentImageDelta_sequence happly]
    omega

theorem snoc {next : PersistentImageState} (h : Replays st ds D) (hseq : d.sequence = D.sequence + 1)
    (hcom : d.committed = true) (happly : applyPersistentImageDelta D d = .ok next) : Replays st (ds ++ [d]) next := by
  induction h with
  | nil st => exact .cons hseq hcom happly (.nil _)
  | cons hseq' hcom' happly' _ ih => exact .cons hseq' hcom' happly' (ih hseq happly)

theorem applies (h : Replays st ds D) : Applies st ds D := by
  induction h with
  | nil st => exact .nil st
  | cons hseq _ happly _ ih => exact .cons hseq happly ih

end Replays

/-- The log of an intact store, with a torn record behind it or not, replays to `D`, and what is kept of it is whole
records. -/
theorem replayWAL_torn {stale fresh : List PersistentImageDelta} {tail : Bytes}
    (hfits : ∀ d ∈ stale ++ fresh, DeltaFits J d)
    (hstale : ∀ d ∈ stale, d.sequence ≤ st.sequence) (hfresh : Replays st fresh D) (htail : TornTail J tail) :
    ∃ discard : Discard,
      replayWAL J ((stale ++ fresh).flatMap (encodeDelta J) ++ tail) st st.sequence = ⟨D, D.sequence, discard⟩ ∧
      ((stale ++ fresh).flatMap (encodeDelta J) ++ tail).take discard.offset =
        if fresh.isEmpty then [] else (stale ++ fresh).flatMap (encodeDelta J) := by
  have hends : EndsCommitted fresh := fun d hd => hfresh.committed d (mem_of_getLast? hd)
  have hrecovers : RecoversTo st (((stale ++ fresh).map fun d => (encodeDelta J d, d)).map Prod.snd) D := by
    rw [map_map]
    exact ⟨stale, fresh, map_id _, hstale, hfresh.applies, hends⟩
  have hlog : ∀ r ∈ (stale ++ fresh).map fun d => (encodeDelta J d, d), IsRecord walFormat (decodeDelta J) r.1 r.2 :=
    forall_mem_map.2 fun d hd => (hfits d hd).isRecord
  obtain ⟨discard, hreplay, hkept, hnone⟩ := replayWAL_recovers hlog htail hrecovers
  have hbytes : ((stale ++ fresh).map fun d => (encodeDelta J d, d)).flatMap Prod.fst =
      (stale ++ fresh).flatMap (encodeDelta J) := by rw [flatMap_map]
  rw [hbytes] at hreplay hkept
  refine ⟨discard, hreplay, ?_⟩
  cases fresh with
  | nil =>
    rw [hnone (forall_mem_map.2 fun d hd => hstale d (by simpa using hd)), take_zero, isEmpty_nil, if_pos rfl]
  | cons e es =>
    have hmem : e ∈ stale ++ e :: es := by simp
    rw [hkept ⟨_, mem_map_of_mem hmem, hfresh.applies.newer e mem_cons_self⟩, take_left, isEmpty_cons,
      if_neg Bool.false_ne_true]

/-! ## The metadata slots -/

/-- A snapshot that `save` may write. -/
structure StateFits (J : Json) (st : PersistentImageState) : Prop where
  version : st.version = persistentImageFormatVersion
  size : (J.state.marshal st).length ≤ persistentImageMaxMetadata

theorem readPersistentImageState_encode (h : StateFits J st) :
    readPersistentImageState J (encodeState J st) = .ok st := by
  have hsize := h.size
  have hin {off k : Nat} (hle : off + k ≤ 40) : field (encodeState J st) off k =
      field (metadataFormat.header st.sequence (J.state.marshal st)) off k :=
    field_append _ _ (by rw [Format.length_header]; exact hle)
  have hlen : natLE (bytesLE 8 (J.state.marshal st).length) = (J.state.marshal st).length := by
    rw [natLE_bytesLE, Nat.mod_eq_of_lt]
    unfold persistentImageMaxMetadata at hsize
    omega
  have hpay : field (encodeState J st) headerSize (J.state.marshal st).length = J.state.marshal st := by
    simp [field, encodeState, Format.record, metadataFormat.length_header]
  have hfile : (encodeState J st).length = headerSize + (J.state.marshal st).length := by
    rw [encodeState, Format.length_record]
  have hversion : natLE (bytesLE 4 metadataFormat.version) = persistentImageFormatVersion := by decide
  have hcrc : natLE (bytesLE 4 (checksumIEEE (J.state.marshal st))) = checksumIEEE (J.state.marshal st) := by
    rw [natLE_bytesLE, Nat.mod_eq_of_lt (checksumIEEE_lt _)]
  unfold readPersistentImageState
  rw [hin (by omega), hin (by omega), hin (by omega), hin (by omega), hin (by omega), Format.header_magic,
    Format.header_version, Format.header_length, Format.header_checksum, Format.header_sequence, hlen, hfile]
  simp [hpay, hversion, hcrc, J.state.unmarshal_marshal, h.version, natLE_bytesLE, Nat.not_lt.mpr hsize]

/-- The current slot holds `st`; the other one is empty or holds an older snapshot. -/
structure Slots (J : Json) (disk : Disk) (slot : Fin 2) (st : PersistentImageState) : Prop where
  current : disk.slot slot = some (encodeState J st)
  fits : StateFits J st
  other : ∀ file, disk.slot (slot + 1) = some file →
    ∃ old, file = encodeState J old ∧ StateFits J old ∧ old.sequence < st.sequence

theorem load_slots {disk : Disk} {slot : Fin 2} (h : Slots J disk slot st) : load J disk = .ok (some (st, slot)) := by
  have hread := readPersistentImageState_encode h.fits
  have hcur := h.current
  have hother := h.other
  fin_cases slot
  · simp only [Fin.zero_eta, Fin.isValue, zero_add] at hcur hother ⊢
    simp only [load, List.foldl, loadSlot, hcur, hread]
    cases h1 : disk.slot 1 with
    | none => rfl
    | some file =>
      obtain ⟨old, rfl, hfits, hlt⟩ := hother file h1
      simp [readPersistentImageState_encode hfits, Nat.not_lt.mpr (Nat.le_of_lt hlt)]
  · simp only [Fin.mk_one, Fin.isValue] at hcur hother ⊢
    simp only [load, List.foldl, loadSlot, hcur, hread]
    cases h0 : disk.slot 0 with
    | none => rfl
    | some file =>
      obtain ⟨old, rfl, hfits, hlt⟩ := hother file (by simpa using h0)
      simp [readPersistentImageState_encode hfits, hlt]

/-! ## Recoverable disks -/

/-- The current slot holds `st`, and of the log records `stale ++ fresh` the first are older than it and the rest lead
from it to `D`. -/
structure OnDisk (J : Json) (disk : Disk) (slot : Fin 2) (st : PersistentImageState)
    (stale fresh : List PersistentImageDelta) (D : PersistentImageState) : Prop where
  slots : Slots J disk slot st
  fits : ∀ d ∈ stale ++ fresh, DeltaFits J d
  old : ∀ d ∈ stale, d.sequence ≤ st.sequence
  replays : Replays st fresh D

/-- The disk holds `D`, with at most a torn record at the end of its log. -/
def Recoverable (J : Json) (disk : Disk) (D : PersistentImageState) : Prop :=
  ∃ slot st stale fresh tail, OnDisk J disk slot st stale fresh D ∧ TornTail J tail ∧
    disk.walBytes = (stale ++ fresh).flatMap (encodeDelta J) ++ tail

/-- An open store agrees with its disk: the disk holds exactly the durable state, and the log ends with its last
record. -/
def InStep (J : Json) (s : PersistentImageStore) (D : PersistentImageState) : Prop :=
  s.durableState = some D ∧ s.sequence = D.sequence ∧
    ∃ st stale fresh, OnDisk J s.disk s.metadataSlot st stale fresh D ∧
      s.disk.walBytes = (stale ++ fresh).flatMap (encodeDelta J)

theorem InStep.recoverable {s : PersistentImageStore} (h : InStep J s D) : Recoverable J s.disk D := by
  obtain ⟨-, -, st, stale, fresh, hdisk, hwal⟩ := h
  exact ⟨s.metadataSlot, st, stale, fresh, [], hdisk, fun _ => ⟨rfl, .inl ⟨rfl, rfl⟩⟩, by rw [hwal, append_nil]⟩

theorem OnDisk.congr {disk disk' : Disk} {slot : Fin 2} {stale fresh : List PersistentImageDelta}
    (h : OnDisk J disk slot st stale fresh D) (hslot : disk'.slot = disk.slot) : OnDisk J disk' slot st stale fresh D :=
  ⟨⟨by rw [hslot]; exact h.slots.current, h.slots.fits, by rw [hslot]; exact h.slots.other⟩, h.fits, h.old, h.replays⟩

/-- **Opening a recoverable disk yields exactly `D`**, and a store in step with its disk. -/
theorem open_recoverable {disk : Disk} (h : Recoverable J disk D) :
    ∃ s, openPersistentImageStore J disk = .ok (s, some D) ∧ InStep J s D := by
  obtain ⟨slot, st, stale, fresh, tail, hdisk, htail, hwal⟩ := h
  obtain ⟨discard, hreplay, hkept⟩ := replayWAL_torn hdisk.fits hdisk.old hdisk.replays htail
  rw [← hwal] at hreplay hkept
  unfold openPersistentImageStore
  simp only [load_slots hdisk.slots, openLoaded]
  cases hw : disk.wal with
  | none =>
    have hempty : disk.walBytes = [] := by rw [Disk.walBytes, hw]; rfl
    have hnil : stale ++ fresh = [] := by
      rw [hempty] at hwal
      have hlog := (append_eq_nil_iff.mp hwal.symm).1
      by_contra hne
      obtain ⟨d, hd⟩ := exists_mem_of_ne_nil _ hne
      have := congrArg List.length (flatMap_eq_nil_iff.mp hlog d hd)
      simp [encodeDelta, headerSize] at this
    obtain ⟨rfl, rfl⟩ := append_eq_nil_iff.mp hnil
    have hD := hdisk.replays
    cases hD
    exact ⟨_, rfl, rfl, rfl, _, [], [], hdisk.congr rfl, rfl⟩
  | some wal =>
    have hbytes : disk.walBytes = wal := by rw [Disk.walBytes, hw]; rfl
    rw [hbytes] at hreplay hkept
    refine ⟨_, by simp only [hreplay]; rfl, rfl, rfl, ?_⟩
    cases fresh with
    | nil =>
      have hD := hdisk.replays
      cases hD
      refine ⟨_, [], [], ⟨⟨hdisk.slots.current, hdisk.slots.fits, hdisk.slots.other⟩, by simp, by simp, .nil _⟩, ?_⟩
      simpa [Disk.walBytes] using hkept
    | cons e es => exact ⟨st, stale, e :: es, hdisk.congr rfl, by simpa [Disk.walBytes] using hkept⟩

end CrumbleCracker.Virtio

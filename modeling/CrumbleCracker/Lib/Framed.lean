import CrumbleCracker.Lib.Bytes

/-!
# Framed records

A framed record is a 40-byte header (magic, version, sequence number, payload length, payload CRC-32) followed
by its payload. A log is a concatenation of records; `scan` reads it from the front and stops at the first
record it cannot accept.

* `readFrame_record`: a whole record reads back, whatever follows it.
* `readFrame_torn`: a proper prefix of a record is refused for being short, without looking at its checksum.
* `scan_torn`: a log that is only a proper prefix of one record has no record.
* `exists_log`, `scan_log`: every log is records and a rest that does not start with one, and a scan finds these
  records.
-/

namespace CrumbleCracker.Framed

open List

/-- An encoder with a decoder that inverts it. -/
structure Codec (α : Type) where
  marshal : α → Bytes
  unmarshal : Bytes → Option α
  unmarshal_marshal : ∀ a, unmarshal (marshal a) = some a

structure Format where
  magic : Bytes
  version : Nat
  maxPayload : Nat
  magic_length : magic.length = 8
  maxPayload_lt : maxPayload < 256 ^ 8

def headerSize : Nat := 40

/-- A record as read: the sequence number of its header and its payload. -/
structure Frame where
  sequence : Nat
  payload : Bytes
  deriving DecidableEq

inductive FrameError
  | truncatedHeader
  | invalidMagic
  | invalidLength
  | truncatedPayload
  | checksum
  deriving DecidableEq

namespace Format

variable (f : Format)

/-- The header of `payload`; the fields at 12 and 36 are reserved and zero. -/
def header (sequence : Nat) (payload : Bytes) : Bytes :=
  f.magic ++ (bytesLE 4 f.version ++ (bytesLE 4 0 ++ (bytesLE 8 sequence ++ (bytesLE 8 payload.length ++
    (bytesLE 4 (checksumIEEE payload) ++ bytesLE 4 0)))))

def record (sequence : Nat) (payload : Bytes) : Bytes := f.header sequence payload ++ payload

def readFrame (rest : Bytes) : Except FrameError Frame :=
  if rest.length < headerSize then .error .truncatedHeader
  else if field rest 0 8 ≠ f.magic then .error .invalidMagic
  else
    let length := natLE (field rest 24 8)
    if f.maxPayload < length then .error .invalidLength
    else if rest.length < headerSize + length then .error .truncatedPayload
    else
      let payload := field rest headerSize length
      if checksumIEEE payload ≠ natLE (field rest 32 4) then .error .checksum
      else .ok ⟨natLE (field rest 16 8), payload⟩

variable (n : Nat)

@[simp] theorem length_header (p : Bytes) : (f.header n p).length = headerSize := by
  simp [header, f.magic_length, headerSize]

@[simp] theorem length_record (p : Bytes) : (f.record n p).length = headerSize + p.length := by
  simp [record]

/-! ## Header fields -/

theorem header_magic (p : Bytes) : field (f.header n p) 0 8 = f.magic :=
  field_at [] f.magic _ rfl f.magic_length

theorem header_version (p : Bytes) : field (f.header n p) 8 4 = bytesLE 4 f.version :=
  field_at f.magic (bytesLE 4 f.version) _ f.magic_length (length_bytesLE 4 _)

theorem header_sequence (p : Bytes) : field (f.header n p) 16 8 = bytesLE 8 n := by
  simpa [header, append_assoc] using
    field_at (f.magic ++ bytesLE 4 f.version ++ bytesLE 4 0) (bytesLE 8 n)
      (bytesLE 8 p.length ++ (bytesLE 4 (checksumIEEE p) ++ bytesLE 4 0))
      (show _ = 16 by simp [f.magic_length]) (length_bytesLE 8 n)

theorem header_length (p : Bytes) : field (f.header n p) 24 8 = bytesLE 8 p.length := by
  simpa [header, append_assoc] using
    field_at (f.magic ++ bytesLE 4 f.version ++ bytesLE 4 0 ++ bytesLE 8 n) (bytesLE 8 p.length)
      (bytesLE 4 (checksumIEEE p) ++ bytesLE 4 0) (show _ = 24 by simp [f.magic_length]) (length_bytesLE 8 _)

theorem header_checksum (p : Bytes) : field (f.header n p) 32 4 = bytesLE 4 (checksumIEEE p) := by
  simpa [header, append_assoc] using
    field_at (f.magic ++ bytesLE 4 f.version ++ bytesLE 4 0 ++ bytesLE 8 n ++ bytesLE 8 p.length)
      (bytesLE 4 (checksumIEEE p)) (bytesLE 4 0) (show _ = 32 by simp [f.magic_length]) (length_bytesLE 4 _)

/-! ## Reading one record -/

theorem readFrame_header (p rest : Bytes) (hp : p.length ≤ f.maxPayload) : f.readFrame (f.header n p ++ rest) =
      if rest.length < p.length then .error .truncatedPayload
      else if checksumIEEE (rest.take p.length) ≠ checksumIEEE p then .error .checksum
      else .ok ⟨n % 256 ^ 8, rest.take p.length⟩ := by
  have hbound := f.maxPayload_lt
  have hlen : natLE (bytesLE 8 p.length) = p.length := by
    rw [natLE_bytesLE, Nat.mod_eq_of_lt (by omega)]
  have hcrc : natLE (bytesLE 4 (checksumIEEE p)) = checksumIEEE p := by
    rw [natLE_bytesLE, Nat.mod_eq_of_lt (checksumIEEE_lt p)]
  have hpay : field (f.header n p ++ rest) headerSize p.length = rest.take p.length := by
    simp [field, f.length_header n p]
  have hin {off k : Nat} (h : off + k ≤ 40) : field (f.header n p ++ rest) off k = field (f.header n p) off k :=
    field_append _ _ (by rw [f.length_header]; exact h)
  unfold readFrame
  rw [hin (by omega), hin (by omega), hin (by omega), hin (by omega), f.header_magic, f.header_length,
    f.header_checksum, f.header_sequence, hlen, hcrc, natLE_bytesLE]
  simp only [hpay, length_append, f.length_header, ne_eq, not_true_eq_false, if_false,
    Nat.add_lt_add_iff_left, if_neg (Nat.not_lt.mpr hp), if_neg (show ¬headerSize + rest.length < headerSize by omega)]

theorem readFrame_record (p tail : Bytes) (hp : p.length ≤ f.maxPayload) :
    f.readFrame (f.record n p ++ tail) = .ok ⟨n % 256 ^ 8, p⟩ := by
  have hlen : ¬(p ++ tail).length < p.length := by simp
  have htake : (p ++ tail).take p.length = p := by simp
  rw [record, append_assoc, f.readFrame_header n p _ hp, if_neg hlen, htake]
  simp

/-- A proper prefix of a record is refused for being short. -/
theorem readFrame_torn (k : Nat) (p : Bytes) (hp : p.length ≤ f.maxPayload) (hk : k < headerSize + p.length) :
    f.readFrame ((f.record n p).take k) = .error (if k < headerSize then .truncatedHeader else .truncatedPayload) := by
  by_cases hshort : k < headerSize
  · have hlen : ((f.record n p).take k).length < headerSize := by simp; omega
    rw [readFrame, if_pos hlen, if_pos hshort]
  · have hsplit : (f.record n p).take k = f.header n p ++ p.take (k - headerSize) := by
      rw [record, take_append, f.length_header, take_of_length_le (by simp; omega)]
    have hlt : (p.take (k - headerSize)).length < p.length := by rw [length_take]; omega
    rw [hsplit, f.readFrame_header n p _ hp, if_pos hlt, if_neg hshort]

end Format

/-! ## Scanning a log -/

/-- Why a scan stopped: the frame is bad, or its contents were refused. -/
inductive ScanError (ε : Type)
  | frame (e : FrameError)
  | payload (e : ε)
  deriving DecidableEq

/-- What a scan accepted, each record with its offset, and where and why it stopped early. -/
structure Scan (α ε : Type) where
  records : List (Nat × α)
  stop : Option (Nat × ScanError ε)

section scan

variable {α ε : Type} (f : Format) (decode : Frame → Except ε α)

/-- The scan loop on the bytes `rest` from `offset` on, for at most `fuel` records. -/
def scanFrom : Nat → Nat → Bytes → Scan α ε
  | 0, _, _ => ⟨[], none⟩
  | fuel + 1, offset, rest =>
    if rest.isEmpty then ⟨[], none⟩
    else match f.readFrame rest with
      | .error e => ⟨[], some (offset, .frame e)⟩
      | .ok frame => match decode frame with
        | .error e => ⟨[], some (offset, .payload e)⟩
        | .ok a =>
          let length := headerSize + frame.payload.length
          let s := scanFrom fuel (offset + length) (rest.drop length)
          ⟨(offset, a) :: s.records, s.stop⟩

/-- Scans a whole log. Every record has at least one byte, so its length is fuel enough. -/
def scan (offset : Nat) (log : Bytes) : Scan α ε := scanFrom f decode log.length offset log

theorem scanFrom_fuel (fuel fuel' offset : Nat) (rest : Bytes) (h : rest.length ≤ fuel) (h' : rest.length ≤ fuel') :
    scanFrom f decode fuel offset rest = scanFrom f decode fuel' offset rest := by
  induction fuel generalizing fuel' offset rest with
  | zero =>
    rw [length_eq_zero_iff.mp (Nat.le_zero.mp h)]
    cases fuel' <;> rfl
  | succ fuel ih =>
    cases rest with
    | nil => cases fuel' <;> rfl
    | cons b rest =>
      rw [length_cons] at h h'
      obtain ⟨fuel', rfl⟩ : ∃ n, fuel' = n + 1 := ⟨fuel' - 1, by omega⟩
      have hnext (offset n : Nat) : scanFrom f decode fuel offset ((b :: rest).drop (headerSize + n)) =
          scanFrom f decode fuel' offset ((b :: rest).drop (headerSize + n)) := by
        apply ih <;> · rw [length_drop, length_cons, headerSize]; omega
      simp only [scanFrom, hnext]

variable (offset : Nat)

/-- The offsets at which consecutive records of the given encodings start. -/
def offsetsFrom (enc : α → Bytes) : Nat → List α → List (Nat × α)
  | _, [] => []
  | offset, a :: as => (offset, a) :: offsetsFrom enc (offset + (enc a).length) as

variable (enc : α → Bytes)

theorem offsetsFrom_snd (offset : Nat) (as : List α) : (offsetsFrom enc offset as).map Prod.snd = as := by
  induction as generalizing offset with
  | nil => rfl
  | cons a as ih => rw [offsetsFrom, map_cons, ih]

theorem offsetsFrom_append (offset : Nat) (as bs : List α) : offsetsFrom enc offset (as ++ bs) =
      offsetsFrom enc offset as ++ offsetsFrom enc (offset + (as.flatMap enc).length) bs := by
  induction as generalizing offset with
  | nil => simp [offsetsFrom]
  | cons a as ih =>
    rw [cons_append, offsetsFrom, ih]
    simp only [offsetsFrom, cons_append, flatMap_cons, length_append, Nat.add_assoc]

@[simp] theorem scan_nil : scan f decode offset [] = ⟨[], none⟩ := rfl

/-- A log that is only a proper prefix of a record has no record; unless it is empty, the scan stops at once. -/
theorem scan_torn (n k : Nat) (p : Bytes) (hp : p.length ≤ f.maxPayload) (hk : k < headerSize + p.length) :
    scan f decode offset ((f.record n p).take k) = if k = 0 then ⟨[], none⟩
      else ⟨[], some (offset, .frame (if k < headerSize then .truncatedHeader else .truncatedPayload))⟩ := by
  have hlen : ((f.record n p).take k).length = k := by rw [length_take, f.length_record]; omega
  cases k with
  | zero => simp
  | succ k =>
    have hne : ((f.record n p).take (k + 1)).isEmpty = false := by
      rw [isEmpty_eq_false_iff, ← length_pos_iff, hlen]; exact Nat.succ_pos k
    rw [scan, hlen, scanFrom, hne, f.readFrame_torn n (k + 1) p hp hk]
    simp

/-! ## Every log is records and a rest -/

/-- A frame that reads is in front of the bytes, and reads the same whatever follows it. -/
theorem Format.readFrame_take {rest : Bytes} {frame : Frame} (h : f.readFrame rest = .ok frame) :
    headerSize + frame.payload.length ≤ rest.length ∧
      ∀ tail, f.readFrame (rest.take (headerSize + frame.payload.length) ++ tail) = .ok frame := by
  unfold readFrame at h
  split at h
  · cases h
  split at h
  · cases h
  simp only at h
  split at h
  · cases h
  split at h
  · cases h
  split at h
  · cases h
  rename_i hheader hmagic hmax hlen hcrc
  rw [Except.ok.injEq] at h
  subst h
  simp only
  have hpayload : (field rest headerSize (natLE (field rest 24 8))).length = natLE (field rest 24 8) := by
    rw [field, length_take, length_drop]
    omega
  rw [hpayload]
  refine ⟨by omega, fun tail => ?_⟩
  generalize hn : natLE (field rest 24 8) = n at *
  have hin {off k : Nat} (hk : off + k ≤ headerSize + n) :
      field (rest.take (headerSize + n) ++ tail) off k = field rest off k := by
    rw [field_append _ _ (by rw [length_take]; omega)]
    unfold field
    rw [drop_take, take_take, Nat.min_eq_left (by omega)]
  have hheader' : headerSize = 40 := rfl
  unfold readFrame
  rw [hin (by omega), hin (by omega), hin (by omega), hin (by omega), hn]
  simp only [hin (Nat.le_refl _)]
  rw [if_neg (by rw [length_append, length_take]; omega), if_neg hmagic, if_neg hmax,
    if_neg (by rw [length_append, length_take]; omega), if_neg hcrc]

/-- The bytes are one record with these contents, whatever follows them. -/
def IsRecord (bytes : Bytes) (a : α) : Prop :=
  ∃ frame, (∀ tail, f.readFrame (bytes ++ tail) = .ok frame) ∧ bytes.length = headerSize + frame.payload.length ∧
    decode frame = .ok a

/-- The bytes do not start with a record. -/
def NoRecord (bytes : Bytes) : Prop := ∀ frame a, f.readFrame bytes = .ok frame → decode frame ≠ .ok a

theorem isRecord_record {n : Nat} {p : Bytes} {a : α} (hp : p.length ≤ f.maxPayload)
    (ha : decode ⟨n % 256 ^ 8, p⟩ = .ok a) : IsRecord f decode (f.record n p) a :=
  ⟨_, fun tail => f.readFrame_record n p tail hp, f.length_record n p, ha⟩

variable {f decode}

theorem IsRecord.length_pos {bytes : Bytes} {a : α} (h : IsRecord f decode bytes a) : 0 < bytes.length := by
  obtain ⟨frame, -, hlen, -⟩ := h
  unfold headerSize at hlen
  omega

theorem IsRecord.scan_append {bytes : Bytes} {a : α} (h : IsRecord f decode bytes a) (offset : Nat) (tail : Bytes) :
    scan f decode offset (bytes ++ tail) = ⟨(offset, a) :: (scan f decode (offset + bytes.length) tail).records,
        (scan f decode (offset + bytes.length) tail).stop⟩ := by
  have hpos := h.length_pos
  obtain ⟨frame, hread, hlen, hdecode⟩ := h
  have hne : (bytes ++ tail).isEmpty = false := by
    rw [isEmpty_eq_false_iff, ← length_pos_iff, length_append]
    omega
  obtain ⟨fuel, hfuel⟩ : ∃ m, (bytes ++ tail).length = m + 1 :=
    ⟨bytes.length + tail.length - 1, by rw [length_append]; omega⟩
  have hle : tail.length ≤ fuel := by
    rw [length_append] at hfuel
    omega
  rw [scan, hfuel, scanFrom, hne, hread tail]
  simp only [Bool.false_eq_true, if_false, hdecode, ← hlen, drop_left]
  rw [scanFrom_fuel f decode fuel tail.length _ tail hle le_rfl, scan]

/-- The records of a log, in order, each with its offset. -/
def recordsFrom (offset : Nat) (log : List (Bytes × α)) : List (Nat × α) :=
  (offsetsFrom Prod.fst offset log).map fun r => (r.1, r.2.2)

theorem scan_log {log : List (Bytes × α)} (h : ∀ r ∈ log, IsRecord f decode r.1 r.2) (offset : Nat) (tail : Bytes) :
    scan f decode offset (log.flatMap Prod.fst ++ tail) =
      ⟨recordsFrom offset log ++ (scan f decode (offset + (log.flatMap Prod.fst).length) tail).records,
        (scan f decode (offset + (log.flatMap Prod.fst).length) tail).stop⟩ := by
  induction log generalizing offset with
  | nil => simp [recordsFrom, offsetsFrom]
  | cons r log ih =>
    rw [forall_mem_cons] at h
    rw [flatMap_cons, append_assoc, h.1.scan_append, ih h.2]
    simp only [recordsFrom, offsetsFrom, map_cons, cons_append, length_append, Nat.add_assoc]

theorem recordsFrom_snd (log : List (Bytes × α)) : (recordsFrom offset log).map Prod.snd = log.map Prod.snd := by
  unfold recordsFrom
  rw [map_map, show Prod.snd ∘ (fun r : Nat × Bytes × α => (r.1, r.2.2)) = Prod.snd ∘ Prod.snd from rfl,
    ← map_map, offsetsFrom_snd]

theorem recordsFrom_append (log more : List (Bytes × α)) : recordsFrom offset (log ++ more) =
      recordsFrom offset log ++ recordsFrom (offset + (log.flatMap Prod.fst).length) more := by
  unfold recordsFrom
  rw [offsetsFrom_append, map_append]

theorem getElem?_recordsFrom (log : List (Bytes × α)) (i : Nat) :
    (recordsFrom offset log)[i]? = log[i]?.map fun r => (offset + ((log.take i).flatMap Prod.fst).length, r.2) := by
  induction log generalizing offset i with
  | nil => rfl
  | cons r log ih =>
    cases i with
    | zero => rfl
    | succ i =>
      show (recordsFrom (offset + r.1.length) log)[i]? = _
      rw [ih]
      simp [Nat.add_assoc]

theorem pairwise_recordsFrom {log : List (Bytes × α)} (h : ∀ r ∈ log, 0 < r.1.length) (offset : Nat) :
    (∀ r ∈ recordsFrom offset log, offset ≤ r.1) ∧ (recordsFrom offset log).Pairwise fun a b => a.1 < b.1 := by
  induction log generalizing offset with
  | nil => exact ⟨by simp [recordsFrom, offsetsFrom], List.Pairwise.nil⟩
  | cons r log ih =>
    rw [forall_mem_cons] at h
    obtain ⟨hlow, hpairs⟩ := ih h.2 (offset + r.1.length)
    have hpos := h.1
    refine ⟨?_, List.Pairwise.cons (fun q hq => ?_) hpairs⟩
    · rintro q (_ | ⟨_, hq⟩)
      · exact Nat.le_refl _
      · have := hlow q hq
        omega
    · have := hlow q hq
      show offset < q.1
      omega

theorem NoRecord.scan_eq {tail : Bytes} (h : NoRecord f decode tail) (offset : Nat) :
    (scan f decode offset tail).records = [] ∧ ((tail = [] ∧ (scan f decode offset tail).stop = none) ∨
        ∃ e, (scan f decode offset tail).stop = some (offset, e)) := by
  unfold scan
  cases tail with
  | nil => exact ⟨rfl, .inl ⟨rfl, rfl⟩⟩
  | cons b tail =>
    rw [length_cons, scanFrom]
    simp only [isEmpty_cons, Bool.false_eq_true, if_false]
    cases hread : f.readFrame (b :: tail) with
    | error e => exact ⟨rfl, .inr ⟨_, rfl⟩⟩
    | ok frame =>
      cases hdecode : decode frame with
      | error e =>
        refine ⟨?_, .inr ⟨.payload e, ?_⟩⟩
        all_goals simp only [hdecode]
      | ok a => exact absurd hdecode (h frame a hread)

/-- Every log is records and a rest that does not start with one. -/
theorem exists_log (f : Format) (decode : Frame → Except ε α) (bytes : Bytes) :
    ∃ (log : List (Bytes × α)) (tail : Bytes), bytes = log.flatMap Prod.fst ++ tail ∧
    (∀ r ∈ log, IsRecord f decode r.1 r.2) ∧ NoRecord f decode tail := by
  induction hn : bytes.length using Nat.strong_induction_on generalizing bytes with
  | h n ih =>
    by_cases hfront : NoRecord f decode bytes
    · exact ⟨[], bytes, rfl, by simp, hfront⟩
    · unfold NoRecord at hfront
      push Not at hfront
      obtain ⟨frame, a, hread, hdecode⟩ := hfront
      obtain ⟨hle, htake⟩ := f.readFrame_take hread
      have hrecord : IsRecord f decode (bytes.take (headerSize + frame.payload.length)) a :=
        ⟨frame, htake, by rw [length_take]; omega, hdecode⟩
      have hshort : (bytes.drop (headerSize + frame.payload.length)).length < n := by
        rw [length_drop, headerSize]
        rw [headerSize] at hle
        omega
      obtain ⟨log, tail, hsplit, hlog, htail⟩ := ih _ hshort _ rfl
      refine ⟨(_, a) :: log, tail, ?_, forall_mem_cons.mpr ⟨hrecord, hlog⟩, htail⟩
      rw [flatMap_cons, append_assoc, ← hsplit, take_append_drop]

end scan

end CrumbleCracker.Framed

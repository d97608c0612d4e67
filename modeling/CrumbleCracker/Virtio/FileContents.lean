import CrumbleCracker.Virtio.FileData

/-!
# What `Read` returns

`byte? f i` is the byte that a read of position `i` finds: from the data file where the page has an extent (`none`
when the data file ends before it), from the lower file or zero elsewhere. `Agrees f ref` says that these are the
bytes of the reference contents `ref`; for a `Valid` file this is what every `Read` returning a range of `ref` means
(`reads_iff`).
-/

namespace CrumbleCracker.Virtio.ImageFile

open List Option

open SparseImageData (HasPage Ordered location_isSome)

variable {file : Bytes} {data : SparseImageData} {f : ImageFile}

/-- The byte below the extents: the lower file's, and zero behind it. -/
def lowerByte (f : ImageFile) (i : Nat) : UInt8 :=
  match f.lowerFile with
  | none => 0
  | some lower => if i < f.lowerSize then byteAt lower i else 0

/-- The byte a read of position `i` finds. -/
def byte? (f : ImageFile) (i : Nat) : Option UInt8 :=
  match f.abstractFile with
  | some lower => some (byteAt lower i)
  | none =>
    if HasPage f.data (i / imageDataPageSize) then
      if i < f.dataBytes.length then some (byteAt f.dataBytes i) else none
    else some (f.lowerByte i)

def endOfFile (f : ImageFile) : Nat :=
  match f.abstractFile with
  | some lower => lower.length
  | none => f.size

/-- The file holds exactly the contents `ref`. -/
structure Agrees (f : ImageFile) (ref : Bytes) : Prop where
  endOfFile : f.endOfFile = ref.length
  byte : ∀ i < ref.length, f.byte? i = some (byteAt ref i)

/-- A file whose every `Read` returns the range of `ref` it asks for. -/
def ReadsAs (f : ImageFile) (ref : Bytes) : Prop := ∀ off n, f.read off n = .ok (field ref off n)

/-- What every operation keeps: extents are ordered and have a data file, and a file that still reads through a lower
file has neither extents nor a pending truncation. -/
structure Valid (f : ImageFile) : Prop where
  ordered : Ordered f.data
  present : f.data ≠ [] → f.dataFile.isSome
  untouched : ∀ lower, f.abstractFile = some lower →
    f.data = [] ∧ f.pendingTrim = none ∧ f.lowerFile = none ∧ lower.length ≤ maxInt64
  copiedUp : ∀ lower, f.lowerFile = some lower →
    f.data = [] ∧ f.pendingTrim = none ∧ f.lowerSize ≤ lower.length ∧ f.lowerSize ≤ f.size ∧ f.lowerSize ≤ maxInt64

theorem Valid.dataFile_eq (hv : f.Valid) {page : Nat} (h : HasPage f.data page) : ∃ file, f.dataFile = some file :=
  isSome_iff_exists.mp (hv.present fun hnil => SparseImageData.not_hasPage_nil page (hnil ▸ h))

/-! ## The page loop -/

/-- A read of `n` bytes, of which `found` says where each one is found: it returns them all, or one is missing. -/
def Reads (found : Nat → Option UInt8) (n : Nat) : Except Errno Bytes → Prop
  | .ok out => out.length = n ∧ ∀ i < n, found i = some (byteAt out i)
  | .error _ => ∃ i < n, found i = none

theorem Reads.append {found : Nat → Option UInt8} {chunk : Bytes} {m : Nat} {r : Except Errno Bytes}
    (hchunk : ∀ i < chunk.length, found i = some (byteAt chunk i))
    (h : Reads (fun i => found (chunk.length + i)) m r) : Reads found (chunk.length + m) ((chunk ++ ·) <$> r) := by
  cases r with
  | error e =>
    obtain ⟨i, hi, hnone⟩ := h
    exact ⟨chunk.length + i, by omega, hnone⟩
  | ok rest =>
    refine ⟨by rw [length_append, h.1], fun i hi => ?_⟩
    rw [byteAt_append]
    split
    · exact hchunk i ‹_›
    · refine .trans ?_ (h.2 (i - chunk.length) (by omega))
      simp only [Nat.add_sub_cancel' (show chunk.length ≤ i by omega)]

/-- The byte that `readData` finds for `dst` at `off`. -/
def pageByte (file : Bytes) (data : SparseImageData) (dst : Bytes) (off i : Nat) : Option UInt8 :=
  if HasPage data ((off + i) / imageDataPageSize) then
    if off + i < file.length then some (byteAt file (off + i)) else none
  else some (byteAt dst i)

theorem reads_readPages (hd : Ordered data) {fuel : Nat} {dst : Bytes} {off : Nat} (hfuel : dst.length ≤ fuel) :
    Reads (pageByte file data dst off) dst.length (readPages file data fuel dst off) := by
  induction fuel generalizing dst off with
  | zero => exact ⟨by simp; omega, by omega⟩
  | succ fuel ih =>
    by_cases hdst : dst = []
    · simp [readPages, hdst, Reads]
    have hpos : 0 < dst.length := length_pos_iff.mpr hdst
    simp only [readPages, if_neg hdst]
    -- The chunk ends with the page or with the buffer, so it lies within one page.
    obtain ⟨n, hn⟩ : ∃ n, min dst.length (imageDataPageSize - off % imageDataPageSize) = n := ⟨_, rfl⟩
    have hpage : ∀ i < n, (off + i) / imageDataPageSize = off / imageDataPageSize := by
      intro i hi
      simp only [imageDataPageSize] at hn ⊢
      omega
    have hnpos : 0 < n ∧ n ≤ dst.length := by
      simp only [imageDataPageSize] at hn
      omega
    rw [hn]
    have hrest : ∀ chunk : Bytes, chunk.length = n → (∀ i < n, pageByte file data dst off i = some (byteAt chunk i)) →
        Reads (pageByte file data dst off) dst.length
          ((chunk ++ ·) <$> readPages file data fuel (dst.drop n) (off + n)) := by
      rintro chunk rfl hchunk
      have hdrop : pageByte file data (dst.drop chunk.length) (off + chunk.length) =
          fun i => pageByte file data dst off (chunk.length + i) := by
        funext i
        simp only [pageByte, byteAt_drop, Nat.add_assoc]
      have := Reads.append hchunk (hdrop ▸ ih (by rw [length_drop]; omega))
      rwa [length_drop, Nat.add_sub_cancel' hnpos.2] at this
    by_cases hhas : HasPage data (off / imageDataPageSize)
    · rw [if_pos ((location_isSome hd _).mpr hhas)]
      split
      · rename_i hfull
        refine hrest _ hfull fun i hi => ?_
        rw [length_field] at hfull
        rw [byteAt_field, if_pos hi, pageByte, hpage i hi, if_pos hhas, if_pos (by omega)]
      · rename_i hshort
        rw [length_field] at hshort
        refine ⟨n - 1, by omega, ?_⟩
        rw [pageByte, hpage _ (by omega), if_pos hhas, if_neg (by omega)]
    · rw [if_neg (by rwa [location_isSome hd])]
      refine hrest _ (by rw [length_take]; omega) fun i hi => ?_
      rw [byteAt_take, if_pos hi, pageByte, hpage i hi, if_neg hhas]

/-! ## `Read` -/

theorem readBuffer_ok (hv : ∀ lower, f.lowerFile = some lower → f.lowerSize ≤ lower.length) (off stop : Nat) :
    ∃ buf, f.readBuffer off stop = .ok buf ∧ buf.length = stop - off ∧
      ∀ i < stop - off, byteAt buf i = f.lowerByte (off + i) := by
  unfold readBuffer lowerByte
  cases hl : f.lowerFile with
  | none => exact ⟨_, rfl, by simp, by simp⟩
  | some lower =>
    have hlower := hv lower hl
    simp only
    by_cases hoff : off < f.lowerSize
    · have hfull : (field lower off (min stop f.lowerSize - off)).length = min stop f.lowerSize - off := by
        rw [length_field]
        omega
      rw [if_pos hoff, if_pos hfull]
      refine ⟨_, rfl, by rw [length_writeAt, hfull, length_replicate]; omega, fun i hi => ?_⟩
      rw [byteAt_writeAt, hfull, byteAt_replicate_zero, byteAt_field, Nat.sub_zero]
      by_cases hlow : off + i < f.lowerSize
      · rw [if_pos (by omega), if_pos (by omega), if_pos hlow]
      · rw [if_neg (by omega), if_neg hlow]
    · rw [if_neg hoff]
      refine ⟨_, rfl, by simp, fun i _ => ?_⟩
      rw [byteAt_replicate_zero, if_neg (by omega)]

/-- `Read` returns the bytes it finds. It fails when one is missing, or when the data file itself is. -/
theorem reads_read (hd : Ordered f.data) (hv : ∀ lower, f.lowerFile = some lower → f.lowerSize ≤ lower.length)
    (ha : f.abstractFile = none) (off n : Nat) :
    Reads (fun i => f.byte? (off + i)) (min (off + n) f.size - off) (f.read off n) ∨
      f.data ≠ [] ∧ f.dataFile = none ∧ f.read off n = .error .EIOError := by
  simp only [read, ha]
  split
  · exact .inl ⟨by simp; omega, by omega⟩
  obtain ⟨buf, hbuf, hbuflen, hbyte⟩ := readBuffer_ok hv off (min (off + n) f.size)
  rw [hbuf]
  change Reads _ _ (f.readData buf off) ∨ _ ∧ _ ∧ f.readData buf off = _
  have hne : buf ≠ [] := by
    rintro rfl
    simp only [length_nil] at hbuflen
    omega
  unfold readData
  by_cases hdata : f.data = []
  · rw [if_pos (Or.inl hdata)]
    refine .inl ⟨hbuflen, fun i hi => ?_⟩
    simp only [byte?, ha, hdata, SparseImageData.not_hasPage_nil, if_false, hbyte i hi]
  rw [if_neg (show ¬(f.data = [] ∨ buf = []) by tauto)]
  cases hfile : f.dataFile with
  | none => exact .inr ⟨hdata, rfl, rfl⟩
  | some file =>
    have hfound : ∀ i < buf.length, f.byte? (off + i) = pageByte file f.data buf off i := fun i hi => by
      simp only [byte?, ha, pageByte, dataBytes, hfile, getD_some, hbyte i (hbuflen ▸ hi)]
    have := @reads_readPages file _ hd buf.length buf off le_rfl
    rw [← hbuflen]
    refine .inl ?_
    simp only
    revert this
    cases readPages file f.data buf.length buf off with
    | ok out => exact fun h => ⟨h.1, fun i hi => (hfound i hi).trans (h.2 i hi)⟩
    | error e => exact fun ⟨i, hi, h⟩ => ⟨i, hi, (hfound i hi).trans h⟩

theorem field_all (ref : Bytes) {n : Nat} (h : ref.length ≤ n) : field ref 0 n = ref := by
  simp [field, take_of_length_le h]

theorem agrees_of_readsAs (hd : Ordered f.data) (hv : ∀ lower, f.lowerFile = some lower → f.lowerSize ≤ lower.length)
    (ha : f.abstractFile = none) {ref : Bytes} (h : f.ReadsAs ref) : f.Agrees ref := by
  have hreads : ∀ off n, Reads (fun i => f.byte? (off + i)) (min (off + n) f.size - off) (.ok (field ref off n)) := by
    intro off n
    rw [← h off n]
    refine (reads_read hd hv ha off n).resolve_right fun herr => ?_
    have := herr.2.2.symm.trans (h off n)
    cases this
  have hsize : f.size = ref.length := by
    have hlen := (hreads 0 (f.size + ref.length)).1
    rw [field_all ref (by omega)] at hlen
    omega
  refine ⟨by simp only [endOfFile, ha, hsize], fun i hi => ?_⟩
  have := (hreads i 1).2 0 (by omega)
  rwa [byteAt_field, if_pos (by omega), Nat.add_zero] at this

/-- Every `Read` of a valid file returns the range of `ref` it asks for exactly when the file holds `ref`. -/
theorem reads_iff (hv : f.Valid) (ref : Bytes) : f.ReadsAs ref ↔ f.Agrees ref := by
  cases ha : f.abstractFile with
  | some lower =>
    have hread : ∀ off n, f.read off n = .ok (field lower off n) := fun off n => by simp only [read, ha]
    constructor
    · intro h
      have hall := (hread 0 (max lower.length ref.length)).symm.trans (h 0 (max lower.length ref.length))
      rw [field_all lower (by omega), field_all ref (by omega)] at hall
      cases hall
      exact ⟨by simp [endOfFile, ha], fun i _ => by simp [byte?, ha]⟩
    · rintro ⟨hend, hbyte⟩ off n
      have heq : lower = ref := by
        refine ext_byteAt (by simpa [endOfFile, ha] using hend) fun i hi => ?_
        simpa [byte?, ha] using hbyte i hi
      rw [hread, heq]
  | none =>
    have hlow : ∀ lower, f.lowerFile = some lower → f.lowerSize ≤ lower.length := fun lower hl =>
      (hv.copiedUp lower hl).2.2.1
    refine ⟨agrees_of_readsAs hv.ordered hlow ha, fun ⟨hsize, hbyte⟩ off n => ?_⟩
    simp only [endOfFile, ha] at hsize
    have hreads := (reads_read hv.ordered hlow ha off n).resolve_right fun herr => by
      simpa [herr.2.1] using hv.present herr.1
    revert hreads
    cases f.read off n with
    | error e =>
      rintro ⟨i, hi, hnone⟩
      cases (hbyte (off + i) (by omega)).symm.trans hnone
    | ok out =>
      rintro ⟨hlen, hout⟩
      congr 1
      refine ext_byteAt (by rw [hlen, length_field]; omega) fun i hi => ?_
      rw [length_field] at hi
      have := (hout i (by omega)).symm.trans (hbyte (off + i) (by omega))
      rw [byteAt_field, if_pos (by omega)]
      exact some.inj this

end CrumbleCracker.Virtio.ImageFile

import CrumbleCracker.Virtio.FileContents

/-!
# What a call shows of the data file

The data file may hold bytes that are no part of the file: the tail of a shrunk file, or what was written before a
crash. A call that gives a page an extent, or moves the end of file, brings such bytes into view unless they are
zeros. The predicates here say of the file before a call that this does not happen, and the `agrees_iff` lemmas that
the file after the call holds the reference contents exactly then:

* `materialize_ok` : copying the lower file, before the first write;
* `Prepared.grown_agrees_iff`, `Prepared.written_agrees_iff` : moving the end of file, and writing;
* `Prepared.sized_agrees_iff` : changing the size.
-/

namespace CrumbleCracker.Virtio.ImageFile

open List

open SparseImageData (HasPage Ordered location_isSome)

variable {f g : ImageFile} {ref : Bytes} {backed size : Nat}

/-! ## The condition -/

/-- The file once it has its lower contents in the data file. -/
def materialized (f : ImageFile) : ImageFile := f.materializePersistentLowerFile.toOption.getD f

/-- The bytes below this position are readable before a call copies the lower file. -/
def backedEnd (f : ImageFile) : Nat := if f.lowerFile.isSome then f.lowerSize else f.size

/-- The data file holds a zero at `i`. -/
def Blank (f : ImageFile) (i : Nat) : Prop := i < f.dataBytes.length ∧ byteAt f.dataBytes i = 0
deriving Decidable

/-- Every byte below `stop` whose page has an extent was backed before or is a zero of the data file. -/
def BlankBelow (f : ImageFile) (backed stop : Nat) : Prop :=
  ∀ i < stop, HasPage f.data (i / imageDataPageSize) → i < backed ∨ f.Blank i

instance (f : ImageFile) (backed stop : Nat) : Decidable (f.BlankBelow backed stop) :=
  inferInstanceAs (Decidable (∀ i < stop, _))

/-- Writing `n > 0` bytes at `off` shows no stale byte: a byte of a page of the write or of an extent, below the new
end and not written itself, was backed before or is a zero of the data file, or of the gap before the write. -/
def WriteMasked (f : ImageFile) (backed off n : Nat) : Prop :=
  ∀ i < max f.size (off + n), ¬(off ≤ i ∧ i < off + n) →
    (HasPage f.data (i / imageDataPageSize) ∨
      (off / imageDataPageSize ≤ i / imageDataPageSize ∧ i / imageDataPageSize ≤ (off + n - 1) / imageDataPageSize)) →
    (HasPage f.data (i / imageDataPageSize) ∧ i < backed) ∨
      (i < max f.dataBytes.length (off + n) ∧ byteAt f.dataBytes i = 0)

instance (f : ImageFile) (backed off n : Nat) : Decidable (f.WriteMasked backed off n) :=
  inferInstanceAs (Decidable (∀ i < max f.size (off + n), _))

/-- Growing to `size` writes zeros over position `i`: the rest of the page a pending shrink ended in. -/
def Cleared (f : ImageFile) (i : Nat) : Prop :=
  ∃ t ∈ f.pendingTrim, t ≤ i ∧ i / imageDataPageSize = t / imageDataPageSize
deriving Decidable

/-- Changing the size shows no stale byte. -/
def SizeMasked (f : ImageFile) (backed size : Nat) : Prop :=
  ∀ i < size, HasPage f.data (i / imageDataPageSize) → i < backed ∨ f.Cleared i ∨ f.Blank i

instance (f : ImageFile) (backed size : Nat) : Decidable (f.SizeMasked backed size) :=
  inferInstanceAs (Decidable (∀ i < size, _))

/-- The pending truncation cuts no byte that has an extent. -/
def TrimMasked (f : ImageFile) : Prop :=
  ∀ t ∈ f.pendingTrim, ∀ i < f.size, HasPage f.data (i / imageDataPageSize) → i < t

instance (f : ImageFile) : Decidable f.TrimMasked := by unfold TrimMasked; infer_instance

/-! ## Copy-up -/

theorem abstractFile_copyUpFile (f : ImageFile) : f.copyUpFile.abstractFile = none := by
  unfold copyUpFile
  split
  · assumption
  · rfl

theorem pendingTrim_copyUpFile (f : ImageFile) : f.copyUpFile.pendingTrim = f.pendingTrim := by
  unfold copyUpFile
  split <;> rfl

theorem Valid.copyUpFile (hv : f.Valid) : f.copyUpFile.Valid := by
  unfold ImageFile.copyUpFile
  split
  · exact hv
  · rename_i lower ha
    obtain ⟨hdata, htrim, -, hlen⟩ := hv.untouched lower ha
    refine ⟨hv.ordered, hv.present, by simp, ?_⟩
    rintro l ⟨⟩
    exact ⟨hdata, htrim, le_rfl, le_rfl, hlen⟩

theorem Agrees.copyUpFile (hv : f.Valid) (h : f.Agrees ref) : f.copyUpFile.Agrees ref := by
  unfold ImageFile.copyUpFile
  split
  · exact h
  · rename_i lower ha
    obtain ⟨hend, hbyte⟩ := h
    have hlen : lower.length = ref.length := by simpa [ImageFile.endOfFile, ha] using hend
    refine ⟨hlen, fun i hi => ?_⟩
    rw [← hbyte i hi]
    simp [byte?, ha, (hv.untouched lower ha).1, SparseImageData.not_hasPage_nil, lowerByte, hlen, hi]

/-! ## Files that are not untouched lower files -/

theorem agrees_iff (ha : f.abstractFile = none) : f.Agrees ref ↔ f.size = ref.length ∧ ∀ i < ref.length,
      if HasPage f.data (i / imageDataPageSize) then i < f.dataBytes.length ∧ byteAt f.dataBytes i = byteAt ref i
      else f.lowerByte i = byteAt ref i := by
  have hpoint : ∀ i, f.byte? i = some (byteAt ref i) ↔
      if HasPage f.data (i / imageDataPageSize) then i < f.dataBytes.length ∧ byteAt f.dataBytes i = byteAt ref i
      else f.lowerByte i = byteAt ref i := by
    intro i
    unfold byte?
    rw [ha]
    by_cases hhas : HasPage f.data (i / imageDataPageSize)
    · by_cases hlen : i < f.dataBytes.length <;> simp [hhas, hlen]
    · simp [hhas]
  constructor
  · rintro ⟨hend, hbyte⟩
    exact ⟨by simpa [ImageFile.endOfFile, ha] using hend, fun i hi => (hpoint i).mp (hbyte i hi)⟩
  · rintro ⟨hsize, hbyte⟩
    exact ⟨by simpa [ImageFile.endOfFile, ha] using hsize, fun i hi => (hpoint i).mpr (hbyte i hi)⟩

/-- What a call works on once the lower contents are where it needs them: the bytes below `backed` are the
reference's, and the reference is zero wherever else an extent reaches. -/
structure Prepared (g : ImageFile) (backed : Nat) (ref : Bytes) : Prop where
  valid : g.Valid
  touched : g.abstractFile = none
  size : g.size = ref.length
  backed_le : backed ≤ ref.length
  held : ∀ i < backed, HasPage g.data (i / imageDataPageSize) →
    i < g.dataBytes.length ∧ byteAt g.dataBytes i = byteAt ref i
  behind : ∀ i, HasPage g.data (i / imageDataPageSize) → backed ≤ i → byteAt ref i = 0
  sparse : ∀ i, ¬ HasPage g.data (i / imageDataPageSize) → g.lowerByte i = byteAt ref i

theorem Valid.lowerByte_eq_zero (hv : f.Valid) {i : Nat} (h : f.size ≤ i) : f.lowerByte i = 0 := by
  unfold lowerByte
  split
  · rfl
  · rename_i lower hl
    obtain ⟨-, -, -, hle, -⟩ := hv.copiedUp lower hl
    rw [if_neg (by omega)]

theorem prepared_self (hv : f.Valid) (ha : f.abstractFile = none) (h : f.Agrees ref) : f.Prepared f.backedEnd ref := by
  obtain ⟨hsize, hbyte⟩ := (agrees_iff ha).mp h
  have hbacked : f.backedEnd ≤ ref.length ∧ (f.data ≠ [] → f.backedEnd = ref.length) := by
    unfold backedEnd
    cases hl : f.lowerFile with
    | none => exact ⟨by simp [hsize], by simp [hsize]⟩
    | some lower =>
      obtain ⟨hdata, -, -, hle, -⟩ := hv.copiedUp lower hl
      exact ⟨by simp only [Option.isSome_some, if_true]; omega, fun hne => absurd hdata hne⟩
  refine ⟨hv, ha, hsize, hbacked.1, fun i hi hhas => ?_, fun i hhas hi => ?_, fun i hnot => ?_⟩
  · have := hbyte i (by omega)
    rwa [if_pos hhas] at this
  · exact byteAt_of_le (hbacked.2 (fun hnil => SparseImageData.not_hasPage_nil _ (hnil ▸ hhas)) ▸ hi)
  · by_cases hi : i < ref.length
    · have := hbyte i hi
      rwa [if_neg hnot] at this
    · rw [hv.lowerByte_eq_zero (by omega), byteAt_of_le (by omega)]

/-! ## Copying the lower contents -/

theorem lt_pagesOf {page : Nat} : page < pagesOf size ↔ page * imageDataPageSize < size := by
  unfold pagesOf imageDataPageSize
  split <;> omega

/-- Progress of `materializeLowerFile` after the first `k` pages of a lower file, over the data file `old`. -/
structure Copied (lower : Bytes) (size : Nat) (old : Bytes) (k : Nat) (g : ImageFile) : Prop where
  ordered : Ordered g.data
  present : g.dataFile.isSome
  pages : ∀ p, HasPage g.data p → p < k
  copied : ∀ i < size, i / imageDataPageSize < k →
    if HasPage g.data (i / imageDataPageSize) then i < g.dataBytes.length ∧ byteAt g.dataBytes i = byteAt lower i
    else byteAt lower i = 0
  beyond : ∀ i, size ≤ i → byteAt g.dataBytes i = byteAt old i

theorem byteAt_eq_zero_of_all {b : Bytes} (h : b.all (· == 0) = true) (i : Nat) : byteAt b i = 0 := by
  by_cases hi : i < b.length
  · have := all_eq_true.mp h b[i] (getElem_mem hi)
    simpa [byteAt, hi] using this
  · exact byteAt_of_le (by omega)

theorem Copied.materializePage {lower old : Bytes} {k : Nat} (hlen : size ≤ lower.length) (hk : k < pagesOf size)
    (h : Copied lower size old k g) : Copied lower size old (k + 1) (g.materializePage lower size k) := by
  have hnot : ¬ HasPage g.data k := fun hhas => Nat.lt_irrefl k (h.pages k hhas)
  unfold ImageFile.materializePage
  rw [if_neg (by rwa [location_isSome h.ordered])]
  simp only
  obtain ⟨n, hn⟩ : ∃ n, min imageDataPageSize (size - k * imageDataPageSize) = n := ⟨_, rfl⟩
  rw [hn]
  have hbound : k * imageDataPageSize < size := lt_pagesOf.mp hk
  -- The positions of page `k` below `size` are the range that is read from the lower file.
  have hrange : ∀ i < size, i / imageDataPageSize = k ↔ k * imageDataPageSize ≤ i ∧ i < k * imageDataPageSize + n := by
    intro i hi
    simp only [imageDataPageSize] at hn ⊢
    omega
  have hfull : (field lower (k * imageDataPageSize) n).length = n := by
    rw [length_field]
    omega
  have hbyte : ∀ i, k * imageDataPageSize ≤ i ∧ i < k * imageDataPageSize + n →
      byteAt (field lower (k * imageDataPageSize) n) (i - k * imageDataPageSize) = byteAt lower i := by
    intro i hi
    rw [byteAt_field, if_pos (by omega)]
    congr 1
    omega
  split
  · rename_i hzero
    refine ⟨h.ordered, h.present, fun p hp => Nat.lt_succ_of_lt (h.pages p hp), fun i hi hik => ?_, h.beyond⟩
    by_cases hpage : i / imageDataPageSize = k
    · rw [hpage, if_neg hnot, ← hbyte i ((hrange i hi).mp hpage)]
      exact byteAt_eq_zero_of_all hzero _
    · exact h.copied i hi (by omega)
  · obtain ⟨hord, hpages⟩ := SparseImageData.insert_spec h.ordered hnot
    refine ⟨hord, rfl, fun p hp => ?_, fun i hi hik => ?_, fun i hi => ?_⟩
    · rcases (hpages p).mp hp with hp | rfl
      · exact Nat.lt_succ_of_lt (h.pages p hp)
      · exact Nat.lt_succ_self p
    · simp only [hpages, dataBytes, Option.getD_some, length_writeAt, byteAt_writeAt, hfull]
      by_cases hpage : i / imageDataPageSize = k
      · have hin := (hrange i hi).mp hpage
        rw [if_pos (Or.inr hpage), if_pos hin, hbyte i hin]
        exact ⟨by omega, rfl⟩
      · have hout : ¬(k * imageDataPageSize ≤ i ∧ i < k * imageDataPageSize + n) :=
          fun hin => hpage ((hrange i hi).mpr hin)
        have hold := h.copied i hi (by omega)
        simp only [hpage, or_false, if_neg hout]
        split
        · rename_i hhas
          rw [if_pos hhas] at hold
          exact ⟨Nat.lt_of_lt_of_le hold.1 (Nat.le_max_left ..), hold.2⟩
        · rename_i hhas
          rwa [if_neg hhas] at hold
    · simp only [dataBytes, Option.getD_some, byteAt_writeAt, hfull]
      rw [if_neg (by omega)]
      exact h.beyond i hi

theorem Copied.foldl {lower old : Bytes} (hlen : size ≤ lower.length) (h : Copied lower size old 0 g) (k : Nat)
    (hk : k ≤ pagesOf size) :
    Copied lower size old k ((List.range k).foldl (ImageFile.materializePage lower size) g) := by
  induction k with
  | zero => exact h
  | succ k ih =>
    rw [range_succ, foldl_append]
    exact (ih (by omega)).materializePage hlen hk

theorem foldl_materializePage_frame (lower : Bytes) (size : Nat) (pages : List Nat) (f : ImageFile) :
    ∃ data dataFile dirty, pages.foldl (ImageFile.materializePage lower size) f =
      { f with data := data, dataFile := dataFile, dirty := dirty } := by
  induction pages generalizing f with
  | nil => exact ⟨_, _, _, rfl⟩
  | cons k pages ih =>
    obtain ⟨data, dataFile, dirty, heq⟩ := ih (f.materializePage lower size k)
    rw [foldl_cons, heq]
    unfold materializePage
    exact ⟨data, dataFile, dirty, by dsimp only; split <;> [rfl; split <;> rfl]⟩

/-- Under `Valid`, copying the lower file cannot fail; it changes nothing that `Read` returns below the lower size. -/
theorem materialize_ok (hv : f.Valid) (ha : f.abstractFile = none) (h : f.Agrees ref) :
    f.materializePersistentLowerFile = .ok f.materialized ∧ f.materialized.lowerFile = none ∧
      f.materialized.pendingTrim = f.pendingTrim ∧ f.materialized.Prepared f.backedEnd ref := by
  have hself := prepared_self hv ha h
  cases hl : f.lowerFile with
  | none =>
    have hmat : f.materializePersistentLowerFile = .ok f := by simp only [materializePersistentLowerFile, hl]
    have hsame : f.materialized = f := by simp [materialized, hmat, Except.toOption]
    rw [hsame, hmat]
    exact ⟨rfl, hl, rfl, hself⟩
  | some lower =>
    obtain ⟨hdata, htrim, hlen, hle, hmax⟩ := hv.copiedUp lower hl
    have hbacked : f.backedEnd = f.lowerSize := by simp [backedEnd, hl]
    have hlower : ∀ i, byteAt ref i = f.lowerByte i := fun i =>
      (hself.sparse i (by rw [hdata]; exact SparseImageData.not_hasPage_nil _)).symm
    obtain ⟨g, hg, hframe, hcopied⟩ : ∃ g, f.materializeLowerFile lower f.lowerSize = .ok g ∧
        g = { f with data := g.data, dataFile := g.dataFile, dirty := g.dirty } ∧
        (g.data ≠ [] → g.dataFile.isSome) ∧ Ordered g.data ∧ ∀ i < f.lowerSize,
          if HasPage g.data (i / imageDataPageSize) then i < g.dataBytes.length ∧ byteAt g.dataBytes i = byteAt lower i
          else byteAt lower i = 0 := by
      unfold materializeLowerFile
      by_cases hzero : f.lowerSize = 0
      · rw [if_pos hzero]
        exact ⟨f, rfl, rfl, hv.present, hv.ordered, by omega⟩
      · rw [if_neg hzero, if_neg (by omega), if_neg (by omega)]
        refine ⟨_, rfl, ?_, ?_⟩
        · obtain ⟨data, dataFile, dirty, heq⟩ := foldl_materializePage_frame lower f.lowerSize
            (List.range (pagesOf f.lowerSize)) { f with dataFile := some f.dataBytes }
          rw [heq]
        · have hstart : Copied lower f.lowerSize f.dataBytes 0 { f with dataFile := some f.dataBytes } :=
            ⟨hv.ordered, rfl, fun p hp => absurd hp (by simp [hdata, SparseImageData.not_hasPage_nil]),
              fun i _ hi => absurd hi (Nat.not_lt_zero _), fun i _ => rfl⟩
          have hend := hstart.foldl hlen _ le_rfl
          refine ⟨fun _ => hend.present, hend.ordered, fun i hi => hend.copied i hi ?_⟩
          rw [lt_pagesOf]
          simp only [imageDataPageSize]
          omega
    have hmat : f.materializePersistentLowerFile =
        .ok { g with lowerFile := none, lowerSize := 0, independent := true } := by
      simp only [materializePersistentLowerFile, hl, hg]
      rfl
    have hsame : f.materialized = { g with lowerFile := none, lowerSize := 0, independent := true } := by
      simp [materialized, hmat, Except.toOption]
    rw [hsame, hmat]
    obtain ⟨hpresent, hord, hbyte⟩ := hcopied
    have hgsize : g.size = f.size := by rw [hframe]
    have hgtrim : g.pendingTrim = f.pendingTrim := by rw [hframe]
    have hgabs : g.abstractFile = none := by rw [hframe]; exact ha
    refine ⟨rfl, rfl, hgtrim, ?_⟩
    refine ⟨⟨hord, hpresent, by simp [hgabs], by simp⟩, hgabs, hgsize.trans hself.size, hself.backed_le,
      fun i hi hhas => ?_, fun i _ hi => ?_, fun i hnot => ?_⟩
    · have hcopy := hbyte i (hbacked ▸ hi)
      rw [if_pos hhas] at hcopy
      refine ⟨hcopy.1, hcopy.2.trans ?_⟩
      simp only [hlower, lowerByte, hl, if_pos (hbacked ▸ hi)]
    · rw [hbacked] at hi
      simp only [hlower, lowerByte, hl, if_neg (Nat.not_lt.mpr hi)]
    · simp only [hlower, lowerByte, hl]
      split
      · next hi =>
        have hcopy := hbyte i hi
        rw [if_neg hnot] at hcopy
        exact hcopy.symm
      · rfl

/-! ## Writes -/

theorem insertPages_spec {data : SparseImageData} (hd : Ordered data) (pages : List Nat) :
    Ordered (insertPages data pages) ∧ ∀ p, HasPage (insertPages data pages) p ↔ HasPage data p ∨ p ∈ pages := by
  induction pages generalizing data with
  | nil => simpa [insertPages] using hd
  | cons page pages ih =>
    simp only [insertPages, foldl_cons]
    by_cases hhas : HasPage data page
    · rw [if_pos ((location_isSome hd page).mpr hhas)]
      refine ⟨(ih hd).1, fun p => ((ih hd).2 p).trans ?_⟩
      rw [mem_cons]
      constructor
      · tauto
      · rintro (h | rfl | h)
        · exact Or.inl h
        · exact Or.inl hhas
        · exact Or.inr h
    · obtain ⟨hord, hpages⟩ := SparseImageData.insert_spec hd hhas
      rw [if_neg (by rwa [location_isSome hd])]
      refine ⟨(ih hord).1, fun p => ((ih hord).2 p).trans ?_⟩
      rw [hpages, mem_cons, or_assoc]

variable {h : ImageFile}

/-- A file that only grew, to `size`, agrees with the extended reference when its extents show only zeros there. -/
theorem Prepared.grown_agrees_iff {ref' : Bytes} (hp : g.Prepared backed ref)
    (hh : h.abstractFile = none ∧ h.size = size ∧ h.data = g.data ∧ h.dataBytes = g.dataBytes ∧
      h.lowerByte = g.lowerByte)
    (hlen : ref'.length = size) (hbyte : ∀ i, byteAt ref' i = byteAt ref i) :
    h.Agrees ref' ↔ g.BlankBelow backed size := by
  obtain ⟨ha, hhsize, hdata, hbytes, hlower⟩ := hh
  rw [agrees_iff ha, hhsize, hlen, hdata, hbytes, hlower]
  simp only [true_and, BlankBelow, hbyte]
  refine forall₂_congr fun i _ => ?_
  by_cases hhas : HasPage g.data (i / imageDataPageSize)
  · simp only [hhas, if_true, true_implies]
    by_cases hi : i < backed
    · simp only [hi, true_or, iff_true]
      exact hp.held i hi hhas
    · simp only [hi, false_or, Blank, hp.behind i hhas (by omega)]
  · simp only [hhas, if_false, false_implies, iff_true]
    exact hp.sparse i hhas

theorem Prepared.written_agrees_iff {off : Nat} {src : Bytes} (hp : g.Prepared backed ref) (hl : g.lowerFile = none)
    (hsrc : 0 < src.length)
    (hh : h.abstractFile = none ∧ h.size = max g.size (off + src.length) ∧ h.lowerFile = none ∧
      h.dataBytes = writeAt g.dataBytes off src)
    (hdata : ∀ p, HasPage h.data p ↔
      HasPage g.data p ∨ (off / imageDataPageSize ≤ p ∧ p ≤ (off + src.length - 1) / imageDataPageSize)) :
    h.Agrees (writeAt ref off src) ↔ g.WriteMasked backed off src.length := by
  obtain ⟨ha, hhsize, hlower, hbytes⟩ := hh
  rw [agrees_iff ha, hhsize, hbytes, length_writeAt, hp.size]
  simp only [true_and, WriteMasked, hp.size, length_writeAt, byteAt_writeAt, hdata]
  refine forall₂_congr fun i hi => ?_
  have hzero : ∀ j, g.lowerByte j = 0 := fun j => by simp only [lowerByte, hl]
  have hzero' : ∀ j, h.lowerByte j = 0 := fun j => by simp only [lowerByte, hlower]
  by_cases hin : off ≤ i ∧ i < off + src.length
  · -- A written byte is in the data file, on a page that has an extent now.
    have hpage : off / imageDataPageSize ≤ i / imageDataPageSize ∧
        i / imageDataPageSize ≤ (off + src.length - 1) / imageDataPageSize :=
      ⟨Nat.div_le_div_right hin.1, Nat.div_le_div_right (by omega)⟩
    simp only [hpage, hin, and_self, or_true, if_true, not_true, false_implies, iff_true, and_true]
    omega
  · simp only [hin, if_false, not_false_iff, true_implies]
    split
    · rename_i hhas
      simp only [hhas, true_implies]
      by_cases hheld : HasPage g.data (i / imageDataPageSize) ∧ i < backed
      · obtain ⟨hlt, heq⟩ := hp.held i hheld.2 hheld.1
        simp only [hheld, and_self, true_or, iff_true]
        exact ⟨by omega, heq⟩
      · have href : byteAt ref i = 0 := by
          by_cases hg : HasPage g.data (i / imageDataPageSize)
          · exact hp.behind i hg (Nat.le_of_not_lt fun hi => hheld ⟨hg, hi⟩)
          · rw [← hp.sparse i hg, hzero]
        simp only [hheld, false_or, href]
    · rename_i hhas
      simp only [hhas, false_implies, iff_true]
      rw [hzero', ← hp.sparse i (by tauto), hzero]

/-! ## Size changes -/

/-- The reference ends no later than a pending truncation, apart from zeros. -/
def TrimZero (f : ImageFile) (ref : Bytes) : Prop :=
  ∀ t, f.pendingTrim = some t → t ≤ ref.length ∧ ∀ i, t ≤ i → byteAt ref i = 0

/-- `clearTail` succeeds on a valid file and writes zeros on the cleared positions below `size` only. -/
theorem clearTail_ok (hv : g.Valid) (size : Nat) :
    ∃ h, g.clearTail size = .ok h ∧ h = { g with dataFile := h.dataFile, dirty := h.dirty } ∧
      (g.dataFile.isSome → h.dataFile.isSome) ∧
      ∀ i < size, HasPage g.data (i / imageDataPageSize) →
        (g.Cleared i → i < h.dataBytes.length ∧ byteAt h.dataBytes i = 0) ∧
        (¬ g.Cleared i → byteAt h.dataBytes i = byteAt g.dataBytes i ∧
          (i < g.dataBytes.length → i < h.dataBytes.length) ∧
          ((∀ t ∈ g.pendingTrim, t ≤ i) → i < h.dataBytes.length → i < g.dataBytes.length)) := by
  by_cases hgrow : ∃ t, g.pendingTrim = some t ∧ t < size ∧ HasPage g.data (t / imageDataPageSize)
  · obtain ⟨t, ht, hsize, hpage⟩ := hgrow
    obtain ⟨file, hfile⟩ := hv.dataFile_eq hpage
    have hend : t < (t / imageDataPageSize + 1) * imageDataPageSize := by
      simp only [imageDataPageSize]
      omega
    have hclear : g.clearTail size = .ok { g with
        dataFile := some (writeAt file t
          (List.replicate (min size ((t / imageDataPageSize + 1) * imageDataPageSize) - t) 0))
        dirty := true } := by
      simp only [clearTail, ht, hfile]
      rw [if_pos ⟨hsize, by omega, (location_isSome hv.ordered _).mpr hpage⟩]
    refine ⟨_, hclear, rfl, fun _ => rfl, fun i hi _ => ?_⟩
    -- The cleared positions are those from the trim to the end of its page.
    have hcleared : g.Cleared i ↔ t ≤ i ∧ i < (t / imageDataPageSize + 1) * imageDataPageSize := by
      simp only [Cleared, ht, Option.mem_some_iff, exists_eq_left', imageDataPageSize]
      omega
    simp only [hcleared, dataBytes, hfile, Option.getD_some, byteAt_writeAt, length_writeAt, length_replicate,
      byteAt_replicate_zero, ht, Option.mem_some_iff, forall_eq']
    constructor
    · intro hc
      exact ⟨by omega, by rw [if_pos (by omega)]⟩
    · intro hc
      exact ⟨by rw [if_neg (by omega)], by omega, by omega⟩
  · have hclear : g.clearTail size = .ok g := by
      unfold clearTail
      split
      · rfl
      · rename_i t ht
        rw [if_neg]
        rintro ⟨hsize, -, hpage⟩
        exact hgrow ⟨t, ht, hsize, (location_isSome hv.ordered _).mp hpage⟩
    refine ⟨g, hclear, rfl, id, fun i hi hhas => ⟨?_, fun _ => ⟨rfl, id, fun _ => id⟩⟩⟩
    rintro ⟨t, ht, hti, hpage⟩
    exact absurd ⟨t, ht, by omega, hpage ▸ hhas⟩ hgrow

theorem truncateData_ok (hv : g.Valid) (hmax : size ≤ maxInt64) :
    ∃ h, g.clearTail size = .ok h ∧ h.lowerFile = g.lowerFile ∧ h.abstractFile = g.abstractFile ∧ g.truncateData size =
        .ok { h with data := g.data.truncatePages (pagesOf size), pendingTrim := some size, dirty := true } ∧
      ∀ file : ImageFile, file.data = g.data.truncatePages (pagesOf size) → file.dataFile = h.dataFile →
        file.lowerFile = none → file.abstractFile = none → file.Valid := by
  obtain ⟨h, hclear, hframe, hsome, -⟩ := clearTail_ok hv size
  have hhdata : h.data = g.data := by rw [hframe]
  refine ⟨h, hclear, by rw [hframe], by rw [hframe], ?_, fun file hdata hfile hfl hfa => ?_⟩
  · rw [truncateData, if_neg (by omega), hclear, ← hhdata]
    rfl
  · refine ⟨hdata ▸ (SparseImageData.truncatePages_spec hv.ordered _).1, fun hne => ?_, by simp [hfa], by simp [hfl]⟩
    rw [hfile]
    refine hsome (hv.present fun hnil => hne ?_)
    rw [hdata, hnil, SparseImageData.truncatePages, filterMap_nil]

theorem Prepared.sized_agrees_iff (hp : g.Prepared backed ref) (hl : g.lowerFile = none) (ht : g.TrimZero ref)
    (hbacked : g.pendingTrim ≠ none → backed = ref.length) (hclear : g.clearTail size = .ok h) (file : ImageFile)
    (hfile : file.abstractFile = none ∧ file.size = size ∧ file.data = g.data.truncatePages (pagesOf size) ∧
      file.dataFile = h.dataFile ∧ file.lowerFile = none) :
    file.Agrees (truncateTo ref size) ↔ g.SizeMasked backed size := by
  obtain ⟨h', hclear', hframe, hsome, hbyte⟩ := clearTail_ok hp.valid size
  obtain rfl : h = h' := Except.ok.inj (hclear.symm.trans hclear')
  obtain ⟨hfa, hfsize, hfdata, hffile, hfl⟩ := hfile
  have hfbytes : file.dataBytes = h.dataBytes := by rw [dataBytes, hffile, dataBytes]
  obtain ⟨-, hpages⟩ := SparseImageData.truncatePages_spec hp.valid.ordered (pagesOf size)
  rw [agrees_iff hfa, length_truncateTo, hfsize, hfdata, hfbytes]
  simp only [true_and, SizeMasked, byteAt_truncateTo, hpages]
  refine forall₂_congr fun i hi => ?_
  have hkeep : i / imageDataPageSize < pagesOf size := by
    rw [lt_pagesOf]
    simp only [imageDataPageSize]
    omega
  simp only [hkeep, and_true, if_pos hi]
  split
  · rename_i hhas
    simp only [hhas, true_implies]
    obtain ⟨hyes, hno⟩ := hbyte i hi hhas
    by_cases hc : g.Cleared i
    · obtain ⟨hlen, hzero⟩ := hyes hc
      simp only [hc, true_or, or_true, iff_true, hlen, hzero, true_and]
      obtain ⟨t, htrim, hti, -⟩ := hc
      exact ((ht t htrim).2 i hti).symm
    · obtain ⟨heq, hmono, hback⟩ := hno hc
      simp only [hc, false_or, heq]
      by_cases hib : i < backed
      · obtain ⟨hlen, hheld⟩ := hp.held i hib hhas
        simp only [hib, true_or, iff_true]
        exact ⟨hmono hlen, hheld⟩
      · have hiff : i < h.dataBytes.length ↔ i < g.dataBytes.length := by
          refine ⟨hback fun t htrim => ?_, hmono⟩
          have hle := (ht t htrim).1
          have := hbacked (by rw [Option.mem_def.mp htrim]; simp)
          omega
        simp only [hib, false_or, Blank, hiff, hp.behind i hhas (by omega)]
  · rename_i hhas
    simp only [hhas, false_implies, iff_true]
    rw [← hp.sparse i hhas]
    simp only [lowerByte, hl, hfl]

end CrumbleCracker.Virtio.ImageFile

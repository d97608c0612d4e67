import CrumbleCracker.Virtio.FileCalls

/-!
# Runs of calls on one file

`refStep` is the reference: a byte array that writes overlay and that size changes cut or extend with zeros.
`Masked f op` is the condition on the file before a call under which the call brings no stale byte of the data file
into view.

* `step_agrees_iff` : from a file that holds `ref`, one call leads to a file that holds `refStep ref op` exactly when
  the call is masked;
* `reads_reference_iff` : along a run, every `Read` returns the reference's bytes after every call exactly when every
  call of the run is masked.
-/

namespace CrumbleCracker.Virtio.ImageFile

open List Option

open SparseImageData (HasPage)

/-! ## The reference -/

def refStep (ref : Bytes) : FileOp → Bytes
  | .write off src written =>
    if off + src.length > maxInt64 ∨ (written = 0 ∧ src ≠ []) then ref
    else writeAt ref off (src.take written)
  | .setSize size => if size > maxInt64 then ref else truncateTo ref size
  | .openTruncate => []
  | .openWrite | .fsync _ | .syncFS _ | .fsyncDir => ref

def refRun (ref : Bytes) (ops : List FileOp) : Bytes := ops.foldl refStep ref

/-! ## The condition on a call -/

/-- The call shows no stale byte of the data file and loses none it should show. -/
def Masked (f : ImageFile) : FileOp → Prop
  | .write off src written =>
    if off + src.length > maxInt64 then True
    else if src = [] then f.copyUpFile.BlankBelow f.copyUpFile.backedEnd (max f.copyUpFile.size off)
    else if written = 0 then f.copyUpFile.materialized.BlankBelow f.copyUpFile.backedEnd f.copyUpFile.size
    else f.copyUpFile.materialized.WriteMasked f.copyUpFile.backedEnd off (min written src.length)
  | .setSize size =>
    if size = 0 then True
    else if size > maxInt64 then f.copyUpFile.materialized.BlankBelow f.copyUpFile.backedEnd f.copyUpFile.size
    else f.copyUpFile.materialized.SizeMasked f.copyUpFile.backedEnd size
  | .fsync .done | .syncFS .done => f.TrimMasked
  | _ => True

instance (f : ImageFile) : (op : FileOp) → Decidable (f.Masked op)
  | .write _ _ _ | .setSize _ => by unfold Masked; infer_instance
  | .fsync .done | .syncFS .done => inferInstanceAs (Decidable f.TrimMasked)
  | .fsync .syncFailed | .fsync .recordFailed | .fsync .reclaimFailed | .syncFS .syncFailed | .syncFS .recordFailed
  | .syncFS .reclaimFailed | .openWrite | .openTruncate | .fsyncDir => inferInstanceAs (Decidable True)

def MaskedRun (f : ImageFile) : List FileOp → Prop
  | [] => True
  | op :: ops => f.Masked op ∧ (f.step op).2.MaskedRun ops

instance : (f : ImageFile) → (ops : List FileOp) → Decidable (f.MaskedRun ops)
  | _, [] => inferInstanceAs (Decidable True)
  | f, op :: ops =>
    have : Decidable ((f.step op).2.MaskedRun ops) := instDecidableMaskedRun (f.step op).2 ops
    inferInstanceAs (Decidable (f.Masked op ∧ (f.step op).2.MaskedRun ops))

/-! ## One call -/

/-- What a call keeps whatever it shows: the file's own invariant, and that a pending truncation hides only zeros. -/
structure Tracks (f : ImageFile) (ref : Bytes) : Prop where
  valid : f.Valid
  trim : f.TrimZero ref

theorem Tracks.copyUpFile {f : ImageFile} {ref : Bytes} (ht : f.Tracks ref) : f.copyUpFile.Tracks ref :=
  ⟨ht.valid.copyUpFile, fun t h => ht.trim t ((pendingTrim_copyUpFile f).symm.trans h)⟩

theorem Valid.resize {f : ImageFile} (hv : f.Valid) {size : Nat} (hle : f.size ≤ size) :
    { f with size := size }.Valid := by
  refine ⟨hv.ordered, hv.present, hv.untouched, ?_⟩
  intro lower hl
  obtain ⟨hdata, htrim, hlen, hsize, hmax⟩ := hv.copiedUp lower hl
  exact ⟨hdata, htrim, hlen, Nat.le_trans hsize hle, hmax⟩

theorem TrimZero.extend {f g : ImageFile} {ref ref' : Bytes} (h : f.TrimZero ref) (hg : g.pendingTrim = f.pendingTrim)
    (hlen : ref.length ≤ ref'.length) (hbyte : ∀ i, byteAt ref' i = byteAt ref i) : g.TrimZero ref' := by
  intro t ht
  obtain ⟨hle, hzero⟩ := h t (hg ▸ ht)
  exact ⟨Nat.le_trans hle hlen, fun i hi => (hbyte i).trans (hzero i hi)⟩

/-- A pending truncation stays a bound on the reference when `src` is written and the trim moved behind it. -/
theorem TrimZero.writeAt {f g : ImageFile} {ref src : Bytes} {off : Nat} (h : f.TrimZero ref)
    (hg : g.pendingTrim = f.pendingTrim.map (fun t => max t (off + src.length))) :
    g.TrimZero (writeAt ref off src) := by
  intro t ht
  rw [hg] at ht
  obtain ⟨t', ht', rfl⟩ := map_eq_some_iff.mp ht
  obtain ⟨hle, hzero⟩ := h t' ht'
  refine ⟨by rw [length_writeAt]; omega, fun i hi => ?_⟩
  rw [byteAt_writeAt, if_neg (by omega)]
  exact hzero i (by omega)

section Calls

variable {f : ImageFile} {ref : Bytes} (ht : f.Tracks ref) (h : f.Agrees ref)

include ht h

theorem write_agrees_iff (off : Nat) (src : Bytes) (written : Nat) :
    (f.write off src written).2.Tracks (refStep ref (.write off src written)) ∧
      ((f.write off src written).2.Agrees (refStep ref (.write off src written)) ↔
        f.Masked (.write off src written)) := by
  obtain ⟨hv, htrim⟩ := ht.copyUpFile
  have ha := abstractFile_copyUpFile f
  have hagree := h.copyUpFile ht.valid
  unfold write refStep Masked
  simp only
  generalize f.copyUpFile = f₀ at hv ha hagree htrim
  by_cases hbig : off + src.length > maxInt64
  · simp only [hbig, if_true, true_or, iff_true]
    exact ⟨⟨hv, htrim⟩, hagree⟩
  by_cases hsrc : src = []
  · -- An empty write past the end moves the end of file only.
    subst hsrc
    simp only [length_nil, Nat.add_zero] at hbig
    have hself := prepared_self hv ha hagree
    simp only [hbig, if_false, length_nil, Nat.add_zero, prepareImageOverlayWrite, if_true, Nat.min_zero,
      Nat.not_lt_zero, writeData, false_or, ne_eq, not_true, and_false, take_nil]
    have hbyte : ∀ i, byteAt (writeAt ref off []) i = byteAt ref i := fun i => by
      rw [byteAt_writeAt, if_neg (by simp only [length_nil]; omega)]
    refine ⟨⟨hv.resize (by omega), htrim.extend rfl (by rw [length_writeAt]; omega) hbyte⟩, ?_⟩
    refine hself.grown_agrees_iff ⟨ha, rfl, rfl, rfl, rfl⟩ ?_ hbyte
    rw [length_writeAt, length_nil, hself.size, Nat.add_zero]
  obtain ⟨hmat, hml, hmt, hprep⟩ := materialize_ok hv ha hagree
  have hmtrim : f₀.materialized.TrimZero ref := htrim.extend hmt le_rfl fun _ => rfl
  have hlen : src.length ≠ 0 := by rwa [ne_eq, length_eq_zero_iff]
  have hsize : f₀.materialized.size = f₀.size := hprep.size.trans (prepared_self hv ha hagree).size.symm
  simp only [hbig, if_false, false_or, hsrc, prepareImageOverlayWrite, hlen, hmat, writeData]
  generalize f₀.materialized = g at hml hmt hprep hmtrim hsize
  by_cases hw : written = 0
  · -- The host took nothing, but the lower contents are copied.
    subst hw
    simp only [Nat.zero_min, Nat.pos_of_ne_zero hlen, if_true, Nat.lt_irrefl, if_false, ne_eq, hsrc, not_false_iff,
      and_self]
    refine ⟨⟨⟨hprep.valid.ordered, fun _ => rfl, by simp [hprep.touched], by simp [hml]⟩, hmtrim⟩, ?_⟩
    rw [← hsize]
    exact hprep.grown_agrees_iff ⟨hprep.touched, rfl, rfl, rfl, rfl⟩ hprep.size.symm fun _ => rfl
  · obtain ⟨n, hn⟩ : ∃ n, min written src.length = n := ⟨_, rfl⟩
    have hpos : 0 < n := by omega
    have htake : src.take n = src.take written := by rw [← hn, ← take_eq_take_min]
    have htakelen : (src.take n).length = n := by rw [length_take]; omega
    obtain ⟨hord, hpages⟩ := insertPages_spec hprep.valid.ordered
      (List.range' (off / imageDataPageSize) ((off + n - 1) / imageDataPageSize + 1 - off / imageDataPageSize))
    -- Whether the host took all of it or not, the end moves behind what it took.
    have hafter : ∀ file : ImageFile, file.abstractFile = none → file.size = max g.size (off + n) →
        file.lowerFile = none → file.dataFile = some (CrumbleCracker.writeAt g.dataBytes off (src.take n)) →
        file.data = insertPages g.data
          (List.range' (off / imageDataPageSize) ((off + n - 1) / imageDataPageSize + 1 - off / imageDataPageSize)) →
        file.pendingTrim = g.pendingTrim.map (fun trim => max trim (off + n)) →
        file.Tracks (CrumbleCracker.writeAt ref off (src.take n)) ∧
          (file.Agrees (CrumbleCracker.writeAt ref off (src.take n)) ↔ g.WriteMasked f₀.backedEnd off n) := by
      intro file hfa hfs hfl hff hfd hft
      refine ⟨⟨⟨hfd ▸ hord, by simp [hff], by simp [hfa], by simp [hfl]⟩,
        hmtrim.writeAt (by rw [hft, htakelen])⟩, ?_⟩
      have hmask := @Prepared.written_agrees_iff g _ _ file off (src.take n) hprep hml (by omega)
        ⟨hfa, by rw [hfs, htakelen], hfl, by rw [dataBytes, hff, getD_some]⟩ (fun p => by
          rw [hfd, hpages, htakelen, mem_range'_1]
          have : off / imageDataPageSize ≤ (off + n - 1) / imageDataPageSize := Nat.div_le_div_right (by omega)
          have hrange : off / imageDataPageSize ≤ p ∧
              p < off / imageDataPageSize + ((off + n - 1) / imageDataPageSize + 1 - off / imageDataPageSize) ↔
              off / imageDataPageSize ≤ p ∧ p ≤ (off + n - 1) / imageDataPageSize := by omega
          rw [hrange])
      rwa [htakelen] at hmask
    simp only [hn, hw, Nat.pos_iff_ne_zero.mp hpos, if_false, false_and, ← htake]
    split
    · exact hafter _ hprep.touched rfl hml rfl rfl rfl
    · have hfull : n = src.length := by omega
      rw [← hfull]
      exact hafter _ hprep.touched rfl hml rfl rfl rfl

theorem setSize_agrees_iff (size : Nat) : (f.setSize size).2.Tracks (refStep ref (.setSize size)) ∧
      ((f.setSize size).2.Agrees (refStep ref (.setSize size)) ↔ f.Masked (.setSize size)) := by
  obtain ⟨hv, htrim⟩ := ht.copyUpFile
  have ha := abstractFile_copyUpFile f
  have hagree := h.copyUpFile ht.valid
  unfold setSize refStep Masked
  simp only
  generalize f.copyUpFile = f₀ at hv ha hagree htrim
  have hnew : ∀ file : ImageFile, file.pendingTrim = some size → file.TrimZero (truncateTo ref size) := by
    intro file hft t hfile
    obtain rfl : size = t := some.inj (hft.symm.trans hfile)
    exact ⟨by rw [length_truncateTo], fun i hi => by rw [byteAt_truncateTo, if_neg (by omega)]⟩
  by_cases hzero : size = 0
  · -- A truncation to nothing drops the lower file instead of copying it.
    subst hzero
    simp only [ne_eq, not_true, if_false, and_true, if_true, iff_true, Nat.not_lt_zero, gt_iff_lt]
    obtain ⟨g, hg, hgv, hgl, hga⟩ : ∃ g : ImageFile, (if f₀.lowerFile.isSome = true then
        { f₀ with lowerFile := none, lowerSize := 0, independent := true } else f₀) = g ∧ g.Valid ∧
        g.lowerFile = none ∧ g.abstractFile = none := by
      split
      · exact ⟨_, rfl, ⟨hv.ordered, hv.present, by simp [ha], by simp⟩, rfl, ha⟩
      · rename_i hnone
        exact ⟨_, rfl, hv, by simpa using hnone, ha⟩
    rw [hg]
    obtain ⟨c, -, hcl, hca, htr, hcv⟩ := truncateData_ok hgv (Nat.zero_le maxInt64)
    rw [htr]
    refine ⟨⟨hcv _ rfl rfl (hcl.trans hgl) (hca.trans hga), hnew _ rfl⟩, ?_, ?_⟩
    · simp only [endOfFile, hca, hga, length_truncateTo]
    · intro i hi
      rw [length_truncateTo] at hi
      omega
  · obtain ⟨hmat, hml, hmt, hprep⟩ := materialize_ok hv ha hagree
    have hmtrim : f₀.materialized.TrimZero ref := htrim.extend hmt le_rfl fun _ => rfl
    have hsize : f₀.materialized.size = f₀.size := hprep.size.trans (prepared_self hv ha hagree).size.symm
    have hbacked : f₀.materialized.pendingTrim ≠ none → f₀.backedEnd = ref.length := by
      intro hne
      rw [hmt] at hne
      cases hl : f₀.lowerFile with
      | none => simp only [backedEnd, hl, isSome_none, Bool.false_eq_true, if_false, ← hsize, hprep.size]
      | some lower => exact absurd (hv.copiedUp lower hl).2.1 hne
    simp only [hzero, ne_eq, not_false_iff, if_true, hmat, and_false, if_false]
    generalize f₀.materialized = g at hml hmt hprep hmtrim hsize hbacked
    by_cases hbig : size > maxInt64
    · -- The size is refused, but the lower contents are copied.
      have htr : g.truncateData size = .error .EFBIG := by rw [truncateData, if_pos hbig]
      simp only [htr, hbig, if_true]
      refine ⟨⟨hprep.valid, hmtrim⟩, ?_⟩
      rw [← hsize]
      exact hprep.grown_agrees_iff ⟨hprep.touched, rfl, rfl, rfl, rfl⟩ hprep.size.symm fun _ => rfl
    · obtain ⟨c, hclear, hcl, hca, htr, hcv⟩ := truncateData_ok hprep.valid (Nat.le_of_not_lt hbig)
      simp only [htr, hbig, if_false]
      exact ⟨⟨hcv _ rfl rfl (hcl.trans hml) (hca.trans hprep.touched), hnew _ rfl⟩,
        hprep.sized_agrees_iff hml hmtrim hbacked hclear _ ⟨hca.trans hprep.touched, rfl, rfl, rfl, hcl.trans hml⟩⟩

omit h in
theorem openTruncate_agrees : f.openTruncate.2.Tracks [] ∧ f.openTruncate.2.Agrees [] := by
  obtain ⟨c, -, -, hca, htr, -⟩ := truncateData_ok ht.valid.copyUpFile (Nat.zero_le maxInt64)
  have ha : c.abstractFile = none := hca.trans (abstractFile_copyUpFile f)
  unfold openTruncate
  rw [htr]
  refine ⟨⟨⟨SparseImageData.ordered_nil, by simp, by simp [ha], by simp⟩, ?_⟩, ?_, ?_⟩
  · intro t hfile
    cases hfile
    exact ⟨le_rfl, fun i _ => byteAt_of_le (Nat.zero_le i)⟩
  · simp only [endOfFile, ha, length_nil]
  · intro i hi
    exact absurd hi (Nat.not_lt_zero i)

theorem barrier_agrees_iff (outcome : Barrier) : (f.barrier outcome).2.Tracks ref ∧
      ((f.barrier outcome).2.Agrees ref ↔ (outcome = .done → f.TrimMasked)) := by
  have hkept : ∀ dirty, { f with dirty := dirty }.Tracks ref ∧ { f with dirty := dirty }.Agrees ref := fun dirty =>
    ⟨⟨⟨ht.valid.ordered, ht.valid.present, ht.valid.untouched, ht.valid.copiedUp⟩, ht.trim⟩, h.endOfFile, h.byte⟩
  cases outcome with
  | syncFailed => exact ⟨ht, by simpa [barrier] using h⟩
  | recordFailed | reclaimFailed => exact ⟨(hkept false).1, by simpa [barrier] using (hkept false).2⟩
  | done =>
    simp only [barrier, reclaimDurableFileData, true_implies]
    cases htrim : f.pendingTrim with
    | none =>
      simp only [TrimMasked, htrim, not_mem_none, false_implies, implies_true, iff_true]
      rw [← htrim]
      exact hkept false
    | some t =>
      have ha : f.abstractFile = none := by
        cases ha : f.abstractFile with
        | none => rfl
        | some lower => exact absurd ((ht.valid.untouched lower ha).2.1.symm.trans htrim) (by simp)
      have hl : f.lowerFile = none := by
        cases hl : f.lowerFile with
        | none => rfl
        | some lower => exact absurd ((ht.valid.copiedUp lower hl).2.1.symm.trans htrim) (by simp)
      obtain ⟨hsize, hbyte⟩ := (agrees_iff ha).mp h
      refine ⟨⟨⟨ht.valid.ordered, fun hne => ?_, by simp [ha], by simp [hl]⟩, fun _ h' => by cases h'⟩, ?_⟩
      · obtain ⟨file, hfile⟩ := isSome_iff_exists.mp (ht.valid.present hne)
        simp [hfile]
      · refine (agrees_iff (by exact ha)).trans ?_
        simp only [TrimMasked, htrim, mem_some_iff, forall_eq', hsize, true_and]
        refine forall₂_congr fun i hi => ?_
        have hold := hbyte i hi
        split
        · rename_i hhas
          rw [if_pos hhas] at hold
          obtain ⟨file, hfile⟩ := ht.valid.dataFile_eq hhas
          simp only [dataBytes, hfile, getD_some] at hold
          simp only [hhas, true_implies, dataBytes, hfile, map_some, getD_some, length_truncateTo,
            byteAt_truncateTo]
          constructor
          · exact fun hcut => hcut.1
          · intro hlt
            exact ⟨hlt, by rw [if_pos hlt]; exact hold.2⟩
        · rename_i hhas
          rw [if_neg hhas] at hold
          simp only [hhas, false_implies, iff_true]
          exact hold

/-- One call leads from a file that holds `ref` to one that holds the reference after it exactly when it is masked. -/
theorem step_agrees_iff (op : FileOp) :
    (f.step op).2.Tracks (refStep ref op) ∧ ((f.step op).2.Agrees (refStep ref op) ↔ f.Masked op) := by
  have hbarrier : ∀ outcome, (f.barrier outcome).2.Agrees ref ↔ f.Masked (.fsync outcome) := by
    intro outcome
    rw [(barrier_agrees_iff ht h outcome).2]
    cases outcome <;> simp [Masked]
  cases op with
  | write off src written => exact write_agrees_iff ht h off src written
  | setSize size => exact setSize_agrees_iff ht h size
  | openWrite => exact ⟨ht.copyUpFile, iff_of_true (h.copyUpFile ht.valid) trivial⟩
  | openTruncate => exact ⟨(openTruncate_agrees ht).1, iff_of_true (openTruncate_agrees ht).2 trivial⟩
  | fsync outcome => exact ⟨(barrier_agrees_iff ht h outcome).1, hbarrier outcome⟩
  | syncFS outcome =>
    refine ⟨(barrier_agrees_iff ht h outcome).1, (hbarrier outcome).trans ?_⟩
    cases outcome <;> rfl
  | fsyncDir => exact ⟨ht, iff_of_true h trivial⟩

end Calls

/-! ## Runs -/

theorem run_reads_iff {f : ImageFile} {ref : Bytes} (ht : f.Tracks ref) (h : f.ReadsAs ref) (ops : List FileOp) :
    (∀ done, done <+: ops → (f.run done).ReadsAs (refRun ref done)) ↔ f.MaskedRun ops := by
  induction ops generalizing f ref with
  | nil =>
    refine iff_of_true (fun done hdone => ?_) trivial
    rw [prefix_nil.mp hdone]
    exact h
  | cons op ops ih =>
    obtain ⟨ht', hiff⟩ := step_agrees_iff ht ((reads_iff ht.valid ref).mp h) op
    rw [← reads_iff ht'.valid] at hiff
    constructor
    · intro hall
      have hstep : (f.step op).2.ReadsAs (refStep ref op) := hall [op] ⟨ops, rfl⟩
      refine ⟨hiff.mp hstep, (ih ht' hstep).mp fun done hdone => ?_⟩
      exact hall (op :: done) (cons_prefix_cons.mpr ⟨rfl, hdone⟩)
    · intro hmask done hdone
      cases done with
      | nil => exact h
      | cons op' done =>
        obtain ⟨rfl, hrest⟩ := cons_prefix_cons.mp hdone
        exact (ih ht' (hiff.mpr hmask.1)).mpr hmask.2 done hrest

theorem reads_reference_iff (f : ImageFile) (ref : Bytes) (ops : List FileOp) (hv : f.Valid)
    (htrim : f.pendingTrim = none) (h : f.ReadsAs ref) :
    (∀ done, done <+: ops → (f.run done).ReadsAs (refRun ref done)) ↔ f.MaskedRun ops :=
  run_reads_iff ⟨hv, fun t h' => by rw [htrim] at h'; cases h'⟩ h ops

theorem created_valid : ({} : ImageFile).Valid := ⟨SparseImageData.ordered_nil, by simp, by simp, by simp⟩

theorem created_reads : ({} : ImageFile).ReadsAs [] :=
  (reads_iff created_valid []).mpr ⟨rfl, fun i hi => absurd hi (Nat.not_lt_zero i)⟩

/-- Write `secret`, cut it to three bytes, grow it to eight, fsync, and write one byte. -/
def cutAndGrow : List FileOp :=
  [.write 0 [0x73, 0x65, 0x63, 0x72, 0x65, 0x74] 6, .setSize 3, .setSize 8, .fsync .done, .write 1 [0x58] 1]

theorem cutAndGrow_reads :
    ({} : ImageFile).MaskedRun cutAndGrow ∧ refRun [] cutAndGrow = [0x73, 0x58, 0x63, 0, 0, 0, 0, 0] ∧
    ∀ done, done <+: cutAndGrow → (({} : ImageFile).run done).ReadsAs (refRun [] done) :=
  ⟨by decide, by decide, (reads_reference_iff {} [] cutAndGrow created_valid rfl created_reads).mpr (by decide)⟩

/-- Write `secret`, open with `O_TRUNC`, and write one byte at offset 3. -/
def truncateAndWrite : List FileOp :=
  [.write 0 [0x73, 0x65, 0x63, 0x72, 0x65, 0x74] 6, .openTruncate, .write 3 [0x58] 1]

/-- The three bytes before the write read as the start of what was discarded, not as zeros. -/
theorem truncateAndWrite_shows_discarded :
    ({} : ImageFile).Valid ∧ ({} : ImageFile).pendingTrim = none ∧ ({} : ImageFile).ReadsAs [] ∧
      refRun [] truncateAndWrite = [0, 0, 0, 0x58] ∧
      (({} : ImageFile).run truncateAndWrite).read 0 4 = .ok [0x73, 0x65, 0x63, 0x58] :=
  ⟨created_valid, rfl, created_reads, by decide, by rfl⟩

end CrumbleCracker.Virtio.ImageFile

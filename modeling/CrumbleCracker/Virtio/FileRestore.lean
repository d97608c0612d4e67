import CrumbleCracker.Lib.Turns
import CrumbleCracker.Virtio.FileRun
import CrumbleCracker.Virtio.PersistentState

/-!
# A file after a crash

The data file is written in place, ahead of the metadata, so after a crash it may hold anything behind or between what
the recovered record describes, and where a call since the last barrier wrote, also there. `restoreFile` rebuilds the
file from its record, as `restorePersistentNode` and `restorePersistentState` do.

* `Stored` : a byte that the record describes in the data file;
* `Spares` : a call after the barrier leaves such a byte alone, and `Survives` : then the crash does;
* `recovered_reads_iff` : where every stored byte is left alone, every `Read` after recovery returns the contents at the
  last barrier overlaid with the later calls, exactly when no later call is unmasked.
-/

namespace CrumbleCracker.Virtio

open List

open SparseImageData (HasPage Ordered)

inductive RestoreError
  | invalidExtent (page : Nat)
  | extentBeyondSize (page size : Nat)
  | lowerSizeBeyondSize (lowerSize size : Nat)
  | invalidWhiteout (name : Name)
  | xattrsBeyondNode
  | directoryData
  | symlinkContents
  | fileDirectory
  | invalidNextNodeID (id : Nat)
  | invalidNodeID (id : Nat)
  | invalidGuestPath (id : Nat) (path : Path)
  | guestPathConflict (id other : Nat) (path : Path)
  | rootMissing
  | notDirectory (path : Path)
  | lowerParentUnavailable (path : Path)
  | lowerUnavailable (path : Path)
  | parentMissing (id parent : Nat)
  | invalidEntry (id : Nat) (name : Name)
  | xattrsBeyondFilesystem
  deriving DecidableEq

/-- The extent loop of `restorePersistentNode`; `previous` is where the extent before ended. -/
def restoreExtents (size : Nat) : Option Nat → List PersistentImageExtent → Except RestoreError SparseImageData
  | _, [] => .ok []
  | previous, extent :: rest =>
    if extent.count = 0 ∨ extent.page > 2 ^ 64 - 1 - extent.count ∨ extent.page < previous.getD 0 then
      .error (.invalidExtent extent.page)
    else if ImageFile.pagesOf size ≤ extent.page then .error (.extentBeyondSize extent.page size)
    else do
      let data ← restoreExtents size (some (extent.page + extent.count)) rest
      return ⟨extent.page, extent.page + 1, extent.count⟩ :: data

/-- Whether the restored inode still reads through its lower object. -/
def PersistentImageNode.ReadsLower (saved : PersistentImageNode) : Prop :=
  saved.lowerPath.isSome ∧ saved.independent = false
deriving Decidable

/-- The regular file a record describes, over the lower file found at its lower path and the data file found on disk.
A data file without extents in the record has been moved away when the store was opened. -/
def restoreFile (saved : PersistentImageNode) (lower dataFile : Option Bytes) : Except RestoreError ImageFile := do
  let data ← restoreExtents saved.size none saved.data
  if saved.size < saved.lowerSize then .error (.lowerSizeBeyondSize saved.lowerSize saved.size)
  else return {
    size := saved.size
    data := data
    abstractFile := if saved.ReadsLower ∧ saved.copiedUp = false then lower else none
    lowerFile := if saved.ReadsLower ∧ saved.copiedUp = true then lower else none
    lowerSize := saved.lowerSize
    independent := saved.independent
    dataFile := if saved.data = [] then none else dataFile }

/-! ## Extents -/

theorem restoreExtents_ok {size : Nat} {previous : Option Nat} {saved : List PersistentImageExtent}
    {data : SparseImageData} (h : restoreExtents size previous saved = .ok data) : Ordered data ∧
      (∀ e ∈ data, previous.getD 0 ≤ e.page ∧ e.page < ImageFile.pagesOf size ∧ e.page ≤ 2 ^ 64 - 1 - e.count) ∧
      data = saved.map (fun e => ⟨e.page, e.page + 1, e.count⟩) := by
  induction saved generalizing previous data with
  | nil =>
    cases h
    exact ⟨SparseImageData.ordered_nil, by simp, rfl⟩
  | cons extent rest ih =>
    simp only [restoreExtents] at h
    split at h
    · cases h
    · split at h
      · cases h
      · rename_i hvalid hsize
        cases hrest : restoreExtents size (some (extent.page + extent.count)) rest with
        | error e => rw [hrest] at h; cases h
        | ok tail =>
          rw [hrest] at h
          cases h
          obtain ⟨hord, hbound, heq⟩ := ih hrest
          simp only [Option.getD_some] at hbound
          refine ⟨SparseImageData.Ordered.cons_iff.mpr ⟨⟨by simp only; omega, rfl⟩, fun b hb => (hbound b hb).1, hord⟩,
            ?_, by rw [map_cons, heq]⟩
          intro e he
          rcases mem_cons.mp he with rfl | he
          · exact ⟨by simp only; omega, by simp only; omega, by simp only; omega⟩
          · have := hbound e he
            exact ⟨by omega, this.2⟩

/-! ## The restored file -/

theorem restoreFile_ok {saved : PersistentImageNode} {lower dataFile : Option Bytes} {f : ImageFile}
    (h : restoreFile saved lower dataFile = .ok f) :
    restoreExtents saved.size none saved.data = .ok f.data ∧ saved.lowerSize ≤ saved.size ∧ f = {
      size := saved.size
      data := f.data
      abstractFile := if saved.ReadsLower ∧ saved.copiedUp = false then lower else none
      lowerFile := if saved.ReadsLower ∧ saved.copiedUp = true then lower else none
      lowerSize := saved.lowerSize
      independent := saved.independent
      dataFile := if saved.data = [] then none else dataFile } := by
  unfold restoreFile at h
  cases hdata : restoreExtents saved.size none saved.data with
  | error e => rw [hdata] at h; cases h
  | ok data =>
    rw [hdata] at h
    simp only [bind, Except.bind] at h
    split at h
    · cases h
    · cases h
      exact ⟨rfl, by omega, rfl⟩

/-! ## Between the last barrier and the crash -/

namespace ImageFile

/-- The file half of `persistentNodeFromImageNode`. -/
def record (f : ImageFile) (lowerPath : Option Path) : PersistentImageNode where
  kind := .file
  size := f.size
  lowerPath := lowerPath
  data := f.data.map fun e => ⟨e.page, e.count⟩
  copiedUp := f.lowerFile.isSome
  independent := f.independent
  lowerSize := f.lowerSize

/-- Byte `i` of the file stands in the data file. -/
def Stored (f : ImageFile) (i : Nat) : Prop := i < f.size ∧ HasPage f.data (i / imageDataPageSize)
deriving Decidable

/-- The barrier got as far as a new record. -/
def Barrier.records : Barrier → Bool
  | .reclaimFailed | .done => true
  | .syncFailed | .recordFailed => false

def FileOp.records : FileOp → Bool
  | .fsync outcome | .syncFS outcome => outcome.records
  | _ => false

/-- The call writes byte `i` of the data file: a write what the host takes of it, a size change the zeros behind a
pending truncation. -/
def Overwrites (f : ImageFile) (i : Nat) : FileOp → Prop
  | .write off src written => off + src.length ≤ maxInt64 ∧ off ≤ i ∧ i < off + min written src.length
  | .setSize size => size ≤ maxInt64 ∧ i < size ∧ f.Cleared i ∧ (f.data.location (i / imageDataPageSize)).isSome
  | _ => False

instance (f : ImageFile) (i : Nat) : (op : FileOp) → Decidable (f.Overwrites i op)
  | .write _ _ _ | .setSize _ => by unfold Overwrites; infer_instance
  | .openWrite | .openTruncate | .fsync _ | .syncFS _ | .fsyncDir => inferInstanceAs (Decidable False)

/-- The call makes no new record, and leaves byte `i` of the data file alone. -/
def Spares (i : Nat) (f : ImageFile) (op : FileOp) : Prop := op.records = false ∧ ¬f.Overwrites i op
deriving Decidable

/-- Every call after `f` was recorded leaves byte `i` of the data file alone. -/
def SparedBy (f : ImageFile) (i : Nat) (since : List FileOp) : Prop :=
  Throughout (fun f op => (f.step op).2) (Spares i) f since
deriving Decidable

/-- What a crash leaves of the data file after the calls `since`: at least the bytes that were synced and left alone. -/
def Survives (f : ImageFile) (since : List FileOp) (disk : Option Bytes) : Prop :=
  ∀ i, f.Stored i → i < f.dataBytes.length → f.SparedBy i since →
    i < (disk.getD []).length ∧ byteAt (disk.getD []) i = byteAt f.dataBytes i

/-- The lower file found is the one that the file reads through. -/
def LowerFound (f : ImageFile) (lowerPath : Option Path) (lower : Option Bytes) : Prop :=
  if (f.record lowerPath).ReadsLower then lower.isSome ∧ f.abstractFile.or f.lowerFile = lower
  else f.abstractFile = none ∧ f.lowerFile = none

/-- A file with its own contents, and byte `i` of its data file. -/
structure Holds (i : Nat) (b : UInt8) (f : ImageFile) : Prop where
  touched : f.abstractFile = none
  noLower : f.lowerFile = none
  within : i < f.dataBytes.length
  byte : byteAt f.dataBytes i = b

section Spared

variable {f g : ImageFile} {i : Nat} {b : UInt8}

theorem Holds.of_eq (h : Holds i b f) (ha : g.abstractFile = none) (hl : g.lowerFile = none)
    (hd : g.dataBytes = f.dataBytes) : Holds i b g := ⟨ha, hl, hd ▸ h.within, hd ▸ h.byte⟩

theorem Holds.writeAt (h : Holds i b f) (ha : g.abstractFile = none) (hl : g.lowerFile = none) {off : Nat} {src : Bytes}
    (hd : g.dataBytes = CrumbleCracker.writeAt f.dataBytes off src) (hout : ¬(off ≤ i ∧ i < off + src.length)) :
    Holds i b g := by
  refine ⟨ha, hl, ?_, ?_⟩
  · have := h.within
    rw [hd, length_writeAt]
    omega
  · rw [hd, byteAt_writeAt, if_neg hout]
    exact h.byte

theorem Holds.truncateData (h : Holds i b f) {size : Nat} (hspare : ¬f.Overwrites i (.setSize size))
    (hok : f.truncateData size = .ok g) : Holds i b g := by
  unfold ImageFile.truncateData at hok
  split at hok
  · cases hok
  rename_i hmax
  have hclear (g : ImageFile) (hg : f.clearTail size = .ok g) : Holds i b g := by
    unfold clearTail at hg
    split at hg
    · cases hg
      exact h
    rename_i t ht
    dsimp only at hg
    split at hg
    · rename_i hzeros
      cases hfile : f.dataFile with
      | none => rw [hfile] at hg; cases hg
      | some file =>
        rw [hfile] at hg
        cases hg
        have hbytes : f.dataBytes = file := by rw [dataBytes, hfile, Option.getD_some]
        refine h.writeAt h.touched h.noLower (by rw [hbytes]; rfl) fun hin => hspare ?_
        rw [length_replicate] at hin
        have hpage : i / imageDataPageSize = t / imageDataPageSize := by
          simp only [imageDataPageSize] at hin hzeros ⊢
          omega
        exact ⟨by omega, by omega, ⟨t, ht, hin.1, hpage⟩, hpage ▸ hzeros.2.2⟩
    · cases hg
      exact h
  rcases hc : f.clearTail size with e | c
  · rw [hc] at hok
    cases hok
  · rw [hc] at hok
    cases hok
    have hkept := hclear c hc
    exact hkept.of_eq hkept.touched hkept.noLower rfl

theorem Holds.write (h : Holds i b f) {off : Nat} {src : Bytes} {written : Nat}
    (hspare : ¬f.Overwrites i (.write off src written)) : Holds i b (f.write off src written).2 := by
  have hprepare : f.prepareImageOverlayWrite src.length = .ok f := by
    simp only [prepareImageOverlayWrite, materializePersistentLowerFile, h.noLower, ite_self]
  have hcopy : f.copyUpFile = f := by rw [copyUpFile, h.touched]
  simp only [ImageFile.write, hcopy, hprepare]
  split
  · exact h
  rename_i hmax
  have hdata : Holds i b (f.writeData src off (min written src.length)) := by
    unfold writeData
    split
    · exact h
    split
    · exact h.of_eq h.touched h.noLower rfl
    · refine h.writeAt h.touched h.noLower rfl fun hin => hspare ?_
      rw [length_take] at hin
      exact ⟨by omega, hin.1, by omega⟩
  have hsize (n : Nat) : Holds i b { f.writeData src off (min written src.length) with size := n } :=
    hdata.of_eq hdata.touched hdata.noLower rfl
  split
  · dsimp only
    split
    · exact hsize _
    · exact hdata
  · exact hsize _

theorem Holds.setSize (h : Holds i b f) {size : Nat} (hspare : ¬f.Overwrites i (.setSize size)) :
    Holds i b (f.setSize size).2 := by
  have hprepare : (if size ≠ 0 then f.materializePersistentLowerFile else .ok f) = .ok f := by
    simp only [materializePersistentLowerFile, h.noLower, ite_self]
  have hcopy : f.copyUpFile = f := by rw [copyUpFile, h.touched]
  have hlower : ¬(f.lowerFile.isSome = true ∧ size = 0) := by simp [h.noLower]
  simp only [ImageFile.setSize, hcopy, hprepare, if_neg hlower]
  rcases htr : f.truncateData size with e | g
  · exact h
  · have hkept := h.truncateData hspare htr
    exact hkept.of_eq hkept.touched hkept.noLower rfl

theorem Holds.step (f : ImageFile) (op : FileOp) (h : Holds i b f) (hspare : Spares i f op) :
    Holds i b (f.step op).2 := by
  have hcopy : f.copyUpFile = f := by rw [copyUpFile, h.touched]
  have hbarrier (outcome : Barrier) (hrecords : outcome.records = false) : Holds i b (f.barrier outcome).2 := by
    cases outcome with
    | syncFailed => exact h
    | recordFailed => exact h.of_eq h.touched h.noLower rfl
    | reclaimFailed | done => cases hrecords
  cases op with
  | write off src written => exact h.write hspare.2
  | setSize size => exact h.setSize hspare.2
  | openWrite =>
    rw [ImageFile.step, openWrite, hcopy]
    exact h
  | openTruncate =>
    simp only [ImageFile.step, openTruncate, hcopy]
    rcases htr : f.truncateData 0 with e | g
    · exact h
    · have hkept := h.truncateData (fun hover => absurd hover.2.1 (Nat.not_lt_zero i)) htr
      exact hkept.of_eq hkept.touched rfl rfl
  | fsync outcome => exact hbarrier outcome hspare.1
  | syncFS outcome => exact hbarrier outcome hspare.1
  | fsyncDir => exact h

theorem Valid.own_of_stored (hv : f.Valid) (hi : f.Stored i) : f.abstractFile = none ∧ f.lowerFile = none := by
  have hne : f.data ≠ [] := fun hnil => SparseImageData.not_hasPage_nil _ (hnil ▸ hi.2)
  refine ⟨?_, ?_⟩
  · cases ha : f.abstractFile with
    | none => rfl
    | some lower => exact absurd (hv.untouched lower ha).1 hne
  · cases hl : f.lowerFile with
    | none => rfl
    | some lower => exact absurd (hv.copiedUp lower hl).1 hne

/-- When only the process dies, the data file is as the calls have left it. -/
theorem survives_run (hv : f.Valid) (since : List FileOp) : f.Survives since (f.run since).dataFile := by
  intro i hi hlt hspared
  obtain ⟨ha, hl⟩ := hv.own_of_stored hi
  have hend := Throughout.invariant (I := Holds i (byteAt f.dataBytes i)) Holds.step ⟨ha, hl, hlt, rfl⟩ hspared
  exact ⟨hend.within, hend.byte⟩

end Spared

end ImageFile

/-! ## The recovered file -/

section Recovered

variable {f₀ f : ImageFile} {contents : Bytes} {lowerPath : Option Path} {since : List ImageFile.FileOp}
  {lower disk : Option Bytes}

theorem restored_eq (hv : f₀.Valid) (hl : f₀.LowerFound lowerPath lower)
    (hf : restoreFile (f₀.record lowerPath) lower disk = .ok f) :
    f = { f₀ with pendingTrim := none, dirty := false, dataFile := if f₀.data = [] then none else disk } := by
  obtain ⟨hdata, -, heq⟩ := restoreFile_ok hf
  have hextents : f.data = f₀.data := by
    rw [(restoreExtents_ok hdata).2.2, ImageFile.record, map_map]
    conv_rhs => rw [← map_id f₀.data]
    refine map_congr_left fun e he => ?_
    rw [Function.comp_apply, ← (hv.ordered.inPlace e he).2]
    rfl
  have hnil : (f₀.record lowerPath).data = [] ↔ f₀.data = [] := map_eq_nil_iff
  have hlower : (if (f₀.record lowerPath).ReadsLower ∧ f₀.lowerFile.isSome = false then lower else none) =
      f₀.abstractFile ∧
      (if (f₀.record lowerPath).ReadsLower ∧ f₀.lowerFile.isSome = true then lower else none) = f₀.lowerFile := by
    unfold ImageFile.LowerFound at hl
    split at hl
    · rename_i hreads
      cases hfl : f₀.lowerFile with
      | none => simpa [hreads, hfl] using hl.2.symm
      | some contents =>
        have habs : f₀.abstractFile = none := by
          cases ha : f₀.abstractFile with
          | none => rfl
          | some c => exact absurd (hfl.symm.trans (hv.untouched c ha).2.2.1) (by simp)
        simpa [hreads, hfl, habs] using hl.2.symm
    · rename_i hreads
      simp [hreads, hl.1, hl.2]
  rw [heq, hextents]
  simp only [hnil]
  rw [show (f₀.record lowerPath).copiedUp = f₀.lowerFile.isSome from rfl, hlower.1, hlower.2]
  rfl

theorem disk_of_survives (hv : f₀.Valid) (hreads : f₀.ReadsAs contents) (hdisk : f₀.Survives since disk)
    (hspared : ∀ i, f₀.Stored i → f₀.SparedBy i since) {i : Nat} (hi : f₀.Stored i) :
    i < (disk.getD []).length ∧ byteAt (disk.getD []) i = byteAt contents i := by
  obtain ⟨ha, -⟩ := hv.own_of_stored hi
  obtain ⟨hsize, hbyte⟩ := (ImageFile.agrees_iff ha).mp ((ImageFile.reads_iff hv contents).mp hreads)
  obtain ⟨hlt, heq⟩ := (if_pos hi.2) ▸ hbyte i (hsize ▸ hi.1)
  obtain ⟨hlt', heq'⟩ := hdisk i hi hlt (hspared i hi)
  exact ⟨hlt', heq'.trans heq⟩

/-- The recovered file holds the contents at the last barrier. -/
theorem recovered_tracks (hv : f₀.Valid) (hreads : f₀.ReadsAs contents) (hl : f₀.LowerFound lowerPath lower)
    (hstored : ∀ i, f₀.Stored i → i < (disk.getD []).length ∧ byteAt (disk.getD []) i = byteAt contents i)
    (hf : restoreFile (f₀.record lowerPath) lower disk = .ok f) : f.Tracks contents ∧ f.Agrees contents := by
  have hbound := (restoreExtents_ok (restoreFile_ok hf).1).2.1
  obtain rfl := restored_eq hv hl hf
  have hpresent : f₀.data ≠ [] → disk.isSome := by
    intro hne
    obtain ⟨e, he⟩ := exists_mem_of_ne_nil _ hne
    have hpage : e.page * imageDataPageSize / imageDataPageSize = e.page := Nat.mul_div_cancel _ (by decide)
    have hpos := (hv.ordered.inPlace e he).1
    obtain ⟨hlen, -⟩ := hstored (e.page * imageDataPageSize)
      ⟨ImageFile.lt_pagesOf.mp (hbound e he).2.1, e, he, by rw [hpage], by rw [hpage]; omega⟩
    cases disk with
    | none => simp only [Option.getD_none, length_nil] at hlen; omega
    | some file => rfl
  refine ⟨⟨⟨hv.ordered, fun hne => ?_, fun c ha => ?_, fun c hlow => ?_⟩, fun t ht => by cases ht⟩, ?_⟩
  · simp only [if_neg hne]
    exact hpresent hne
  · obtain ⟨hdata, -, hlow⟩ := hv.untouched c ha
    exact ⟨hdata, rfl, hlow⟩
  · obtain ⟨hdata, -, hrest⟩ := hv.copiedUp c hlow
    exact ⟨hdata, rfl, hrest⟩
  have hagrees := (ImageFile.reads_iff hv contents).mp hreads
  cases ha : f₀.abstractFile with
  | some c =>
    refine ⟨?_, fun i hi => ?_⟩
    · simpa only [ImageFile.endOfFile, ha] using hagrees.endOfFile
    · simpa only [ImageFile.byte?, ha] using hagrees.byte i hi
  | none =>
    obtain ⟨hsize, hbyte⟩ := (ImageFile.agrees_iff ha).mp hagrees
    refine (ImageFile.agrees_iff rfl).mpr ⟨hsize, fun i hi => ?_⟩
    have hold := hbyte i hi
    by_cases hhas : HasPage f₀.data (i / imageDataPageSize)
    · have hne : f₀.data ≠ [] := by
        intro hnil
        rw [hnil] at hhas
        exact SparseImageData.not_hasPage_nil _ hhas
      rw [if_pos hhas]
      simp only [ImageFile.dataBytes, if_neg hne]
      exact hstored i ⟨hsize ▸ hi, hhas⟩
    · rw [if_neg hhas] at hold ⊢
      exact hold

end Recovered

theorem recovered_reads_iff (f₀ f : ImageFile) (contents : Bytes) (lowerPath : Option Path)
    (since later : List ImageFile.FileOp)
    (lower disk : Option Bytes) (hv : f₀.Valid) (hreads : f₀.ReadsAs contents) (hl : f₀.LowerFound lowerPath lower)
    (hdisk : f₀.Survives since disk) (hspared : ∀ i, f₀.Stored i → f₀.SparedBy i since)
    (hf : restoreFile (f₀.record lowerPath) lower disk = .ok f) :
    (∀ done, done <+: later → (f.run done).ReadsAs (ImageFile.refRun contents done)) ↔ f.MaskedRun later := by
  obtain ⟨htracks, hagrees⟩ := recovered_tracks hv hreads hl
    (fun i hi => disk_of_survives hv hreads hdisk hspared hi) hf
  exact ImageFile.run_reads_iff htracks ((ImageFile.reads_iff htracks.valid contents).mpr hagrees) later

/-! ## A crash behind an fsync -/

/-- A new file with `abc` written and fsynced. -/
def syncedFile : ImageFile := ({} : ImageFile).run [.write 0 [0x61, 0x62, 0x63] 3, .fsync .done]

/-- `SECRET` is appended, just before a crash. -/
def appended : List ImageFile.FileOp := [.write 3 [0x53, 0x45, 0x43, 0x52, 0x45, 0x54] 6]

def crashedFile : ImageFile :=
  ((restoreFile (syncedFile.record none) none (syncedFile.run appended).dataFile).toOption).getD {}

theorem crashedFile_restored :
    restoreFile (syncedFile.record none) none (syncedFile.run appended).dataFile = .ok crashedFile := by
  rfl

theorem syncedFile_valid : syncedFile.Valid ∧ syncedFile.ReadsAs [0x61, 0x62, 0x63] := by
  have hdata : syncedFile.data = [⟨0, 1, 1⟩] := by rfl
  have hv : syncedFile.Valid := by
    refine ⟨⟨?_, ?_⟩, fun _ => rfl, ?_, ?_⟩
    · rw [hdata]
      simp [SparseImageData.InPlace]
    · rw [hdata]
      exact pairwise_singleton _ _
    · rintro c ⟨⟩
    · rintro c ⟨⟩
  exact ⟨hv, (ImageFile.reads_iff hv _).mpr ((ImageFile.agrees_iff rfl).mpr ⟨rfl, by decide⟩)⟩

theorem syncedFile_spared (i : Nat) (hi : syncedFile.Stored i) : syncedFile.SparedBy i appended := by
  have hlt : i < 3 := hi.1
  interval_cases i <;> decide

/-- A shrink and an overwrite after the crash read as they should. -/
theorem crashedFile_shrunk_reads :
    restoreFile (syncedFile.record none) none (syncedFile.run appended).dataFile = .ok crashedFile ∧
    ∀ done, done <+: [.setSize 2, .write 0 [0x5A] 1] →
      (crashedFile.run done).ReadsAs (ImageFile.refRun [0x61, 0x62, 0x63] done) := by
  obtain ⟨hv, hreads⟩ := syncedFile_valid
  refine ⟨crashedFile_restored, ?_⟩
  exact (recovered_reads_iff syncedFile crashedFile _ none appended _ none _ hv hreads ⟨rfl, rfl⟩
    (ImageFile.survives_run hv appended) syncedFile_spared crashedFile_restored).mpr (by decide)

/-- Growing the recovered file brings the bytes into view that were never made durable. -/
theorem crashedFile_grown_shows_unsynced :
    restoreFile (syncedFile.record none) none (syncedFile.run appended).dataFile = .ok crashedFile ∧
      syncedFile.read 0 9 = .ok [0x61, 0x62, 0x63] ∧ crashedFile.read 0 9 = .ok [0x61, 0x62, 0x63] ∧
      ImageFile.refRun [0x61, 0x62, 0x63] [.setSize 9] = [0x61, 0x62, 0x63, 0, 0, 0, 0, 0, 0] ∧
      (crashedFile.run [.setSize 9]).read 0 9 = .ok [0x61, 0x62, 0x63, 0x53, 0x45, 0x43, 0x52, 0x45, 0x54] :=
  ⟨crashedFile_restored, by rfl, by rfl, by decide, by rfl⟩

end CrumbleCracker.Virtio

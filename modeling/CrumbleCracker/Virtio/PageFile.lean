import CrumbleCracker.Virtio.ImageDataStore

/-!
# Pages of the store's file

What the steps of the page store do to the pages of its file:

* `HoldsPage` : the file has a page with these bytes; writes, truncation and holes elsewhere leave it there;
* `cutTail_spec`, `punchRanges_spec` : a reclaim cuts off and punches free pages only;
* `copyPages_spec`, `slot?_relocate`, `mem_livePages` : a rewrite of the file copies every page in use and points its
  slot to the copy.
-/

namespace CrumbleCracker.Virtio

open List Option Std.ExtTreeSet

variable {offset : Nat} {offsets : List Nat} {pages : List ((Nat × Nat) × Nat)}

/-! ## Pages of a file -/

/-- The file has the page at `offset`, with these bytes. -/
structure HoldsPage (file : Bytes) (offset : Nat) (bytes : Bytes) : Prop where
  within : offset + imageDataPageSize ≤ file.length
  length : bytes.length = imageDataPageSize
  byte : ∀ i < imageDataPageSize, byteAt bytes i = byteAt file (offset + i)

theorem readWhole_eq_some {file bytes : Bytes} : readWhole file offset = some bytes ↔ HoldsPage file offset bytes := by
  have hlen : (field file offset imageDataPageSize).length = imageDataPageSize ↔
      offset + imageDataPageSize ≤ file.length := by
    rw [length_field]
    unfold imageDataPageSize
    omega
  unfold readWhole
  constructor
  · intro h
    split at h
    · rename_i hfull
      cases h
      refine ⟨hlen.mp hfull, hfull, fun i hi => ?_⟩
      rw [byteAt_field, if_pos hi]
    · cases h
  · intro h
    rw [if_pos (hlen.mpr h.within)]
    refine congrArg some (ext_byteAt ?_ fun i hi => ?_)
    · rw [hlen.mpr h.within, h.length]
    · rw [h.length] at hi
      rw [byteAt_field, if_pos hi, h.byte i hi]

namespace HoldsPage

variable {file bytes : Bytes} {offset : Nat}

theorem unique {bytes' : Bytes} (h : HoldsPage file offset bytes) (h' : HoldsPage file offset bytes') :
    bytes = bytes' := by
  refine ext_byteAt (h.length.trans h'.length.symm) fun i hi => ?_
  rw [h'.length] at hi
  rw [h.byte i hi, h'.byte i hi]

theorem congr {file' : Bytes} (h : HoldsPage file offset bytes) (hlen : offset + imageDataPageSize ≤ file'.length)
    (hbyte : ∀ i < imageDataPageSize, byteAt file' (offset + i) = byteAt file (offset + i)) :
    HoldsPage file' offset bytes :=
  ⟨hlen, h.length, fun i hi => (h.byte i hi).trans (hbyte i hi).symm⟩

theorem writeAt_other (h : HoldsPage file offset bytes) {at_ : Nat} {data : Bytes}
    (hapart : at_ + data.length ≤ offset ∨ offset + imageDataPageSize ≤ at_) :
    HoldsPage (writeAt file at_ data) offset bytes := by
  refine h.congr ?_ fun i hi => ?_
  · have := h.within
    rw [length_writeAt]
    omega
  · rw [byteAt_writeAt, if_neg (by omega)]

theorem writeAt_new (hdata : bytes.length = imageDataPageSize) :
    HoldsPage (writeAt file offset bytes) offset bytes := by
  refine ⟨?_, hdata, fun i hi => ?_⟩
  · rw [length_writeAt, hdata]
    omega
  · rw [byteAt_writeAt, if_pos (by omega), Nat.add_sub_cancel_left]

section

variable (h : HoldsPage file offset bytes)

include h

theorem writeAt_within {at_ : Nat} {data : Bytes} (hfits : at_ + data.length ≤ imageDataPageSize) :
    HoldsPage (writeAt file (offset + at_) data) offset (writeAt bytes at_ data) := by
  have hwithin := h.within
  refine ⟨?_, ?_, fun i hi => ?_⟩
  · rw [length_writeAt]
    omega
  · rw [length_writeAt, h.length]
    omega
  · rw [byteAt_writeAt, byteAt_writeAt, h.byte i hi]
    by_cases hin : at_ ≤ i ∧ i < at_ + data.length
    · rw [if_pos hin, if_pos (by omega)]
      congr 1
      omega
    · rw [if_neg hin, if_neg (by omega)]

theorem truncate {n : Nat} (hn : offset + imageDataPageSize ≤ n) : HoldsPage (truncateTo file n) offset bytes := by
  refine h.congr ?_ fun i hi => ?_
  · rw [length_truncateTo]
    exact hn
  · rw [byteAt_truncateTo, if_pos (by omega)]

theorem punchHole {range : Nat × Nat} (hapart : offset + imageDataPageSize ≤ range.1 ∨ range.2 ≤ offset) :
    HoldsPage (Virtio.punchHole file range) offset bytes := by
  have hlen : (Virtio.punchHole file range).length = file.length := by simp [Virtio.punchHole]
  have hwithin := h.within
  refine h.congr (hlen ▸ hwithin) fun i hi => ?_
  unfold Virtio.punchHole byteAt
  rw [getD_eq_getElem?_getD, getElem?_map, getElem?_range (by omega), map_some, getD_some,
    if_neg (by omega)]

theorem punchAll {ranges : List (Nat × Nat)}
    (hapart : ∀ range ∈ ranges, offset + imageDataPageSize ≤ range.1 ∨ range.2 ≤ offset) (results : List PunchResult) :
    HoldsPage (Virtio.punchAll file ranges results) offset bytes := by
  induction ranges generalizing file results with
  | nil => exact h
  | cons range ranges ih =>
    rw [forall_mem_cons] at hapart
    unfold Virtio.punchAll
    split
    · exact ih (h.punchHole hapart.1) hapart.2 _
    · exact ih h hapart.2 _
    · exact h

end

end HoldsPage

/-! ## Free offsets -/

theorem popFree_mem {freeSet : IdSet} {free rest : List Nat} (h : popFree freeSet free = (some offset, rest)) :
    offset ∈ freeSet := by
  induction free with
  | nil => cases h
  | cons first free ih =>
    unfold popFree at h
    split at h
    · rename_i hmem
      cases h
      exact hmem
    · exact ih h

/-- Free pages lie below the end, on page boundaries. -/
def FreeBelow (freeSet : IdSet) (next : Nat) : Prop :=
  ∀ offset ∈ freeSet, offset % imageDataPageSize = 0 ∧ offset + imageDataPageSize ≤ next

/-- Cutting the free tail off leaves the free pages below the new end, and every page that is not free below it. -/
theorem cutTail_spec (fuel : Nat) {next : Nat} {freeSet : IdSet} (hnext : next % imageDataPageSize = 0)
    (hfree : FreeBelow freeSet next) : (cutTail fuel (next, freeSet)).1 % imageDataPageSize = 0 ∧
      FreeBelow (cutTail fuel (next, freeSet)).2 (cutTail fuel (next, freeSet)).1 ∧
      (∀ offset ∈ (cutTail fuel (next, freeSet)).2, offset ∈ freeSet) ∧
      ∀ offset, offset % imageDataPageSize = 0 → offset + imageDataPageSize ≤ next → offset ∉ freeSet →
        offset + imageDataPageSize ≤ (cutTail fuel (next, freeSet)).1 := by
  induction fuel generalizing next freeSet with
  | zero => exact ⟨hnext, hfree, fun _ h => h, fun _ _ h _ => h⟩
  | succ fuel ih =>
    unfold cutTail
    simp only
    split
    · rename_i htail
      obtain ⟨hle, hmem⟩ := htail
      have hnext' : (next - imageDataPageSize) % imageDataPageSize = 0 := (hfree _ hmem).1
      have hfree' : FreeBelow (freeSet.erase (next - imageDataPageSize)) (next - imageDataPageSize) := by
        intro offset hoffset
        obtain ⟨hne, hin⟩ := mem_erase.mp hoffset
        have hne' : next - imageDataPageSize ≠ offset := by simpa using hne
        obtain ⟨haligned, hbelow⟩ := hfree offset hin
        refine ⟨haligned, ?_⟩
        unfold imageDataPageSize at *
        omega
      obtain ⟨h1, h2, h3, h4⟩ := ih hnext' hfree'
      refine ⟨h1, h2, fun offset hoffset => mem_of_mem_erase (h3 offset hoffset), ?_⟩
      intro offset haligned hbelow hlive
      refine h4 offset haligned ?_ fun hin => hlive (mem_of_mem_erase hin)
      have hne : offset ≠ next - imageDataPageSize := fun heq => hlive (heq ▸ hmem)
      unfold imageDataPageSize at *
      omega
    · exact ⟨hnext, hfree, fun _ h => h, fun _ _ h _ => h⟩

/-- A range of whole pages that all have the property. -/
structure PageRange (F : Nat → Prop) (start stop : Nat) : Prop where
  aligned : start % imageDataPageSize = 0
  ends : stop % imageDataPageSize = 0
  pages : ∀ offset, offset % imageDataPageSize = 0 → start ≤ offset → offset < stop → F offset

variable {F : Nat → Prop}

theorem PageRange.apart {start stop : Nat} (h : PageRange F start stop) (haligned : offset % imageDataPageSize = 0)
    (hnot : ¬F offset) : offset + imageDataPageSize ≤ start ∨ stop ≤ offset := by
  by_contra hboth
  have hstart := h.aligned
  refine hnot (h.pages offset haligned ?_ ?_)
  all_goals
    unfold imageDataPageSize at *
    omega

theorem extendRange_spec {start stop : Nat} (next : Nat) (h : PageRange F start stop)
    (hoffsets : ∀ offset ∈ offsets, F offset) :
    PageRange F start (extendRange next stop offsets).1 ∧ ∀ offset ∈ (extendRange next stop offsets).2, F offset := by
  induction offsets generalizing stop with
  | nil => exact ⟨h, hoffsets⟩
  | cons first offsets ih =>
    rw [forall_mem_cons] at hoffsets
    unfold extendRange
    split
    · rename_i hnext
      refine ih ⟨h.aligned, ?_, fun offset haligned hge hlt => ?_⟩ hoffsets.2
      · rw [Nat.add_mod_right]
        exact h.ends
      · by_cases hold : offset < stop
        · exact h.pages offset haligned hge hold
        · have hstop := h.ends
          have heq : offset = first := by
            unfold imageDataPageSize at *
            omega
          exact heq ▸ hoffsets.1
    · exact ⟨h, forall_mem_cons.mpr hoffsets⟩

theorem punchRanges_spec {next : Nat} (hF : ∀ offset, F offset → offset % imageDataPageSize = 0) (fuel : Nat)
    (hoffsets : ∀ offset ∈ offsets, F offset) :
    ∀ range ∈ punchRanges next fuel offsets, PageRange F range.1 range.2 := by
  induction fuel generalizing offsets with
  | zero => simp [punchRanges]
  | succ fuel ih =>
    match offsets with
    | [] => simp [punchRanges]
    | start :: offsets =>
      rw [forall_mem_cons] at hoffsets
      unfold punchRanges
      split
      · exact ih hoffsets.2
      · have hstart := hF start hoffsets.1
        have hone : PageRange F start (start + imageDataPageSize) := by
          refine ⟨hstart, by rwa [Nat.add_mod_right], fun offset haligned hge hlt => ?_⟩
          have heq : offset = start := by
            unfold imageDataPageSize at *
            omega
          exact heq ▸ hoffsets.1
        obtain ⟨hrange, hrest⟩ := extendRange_spec next hone hoffsets.2
        exact forall_mem_cons.mpr ⟨hrange, ih hrest⟩

/-! ## Rewriting the file -/

theorem copyPages_spec {file copied : Bytes} {fails : Option Nat} {i : Nat}
    (h : ImageDataStore.copyPages file fails pages i = some copied) : copied.length = pages.length * imageDataPageSize ∧
      ∀ k index offset bytes, pages[k]? = some (index, offset) → HoldsPage file offset bytes →
        HoldsPage copied (k * imageDataPageSize) bytes := by
  induction pages generalizing i copied with
  | nil =>
    cases h
    exact ⟨by simp, by simp⟩
  | cons page pages ih =>
    obtain ⟨index, offset⟩ := page
    unfold ImageDataStore.copyPages at h
    split at h
    · cases h
    · cases hread : readWhole file offset with
      | none => simp [hread] at h
      | some bytes =>
        cases hrest : ImageDataStore.copyPages file fails pages (i + 1) with
        | none => simp [hread, hrest] at h
        | some rest =>
          simp only [hread, hrest, bind_eq_bind, bind_some, pure, Option.some.injEq] at h
          subst h
          obtain ⟨hlen, hholds⟩ := ih hrest
          have hpage := readWhole_eq_some.mp hread
          refine ⟨?_, ?_⟩
          · rw [length_append, hlen, hpage.length, length_cons]
            ring
          · intro k index' offset' bytes' hk hheld
            match k with
            | 0 =>
              rw [getElem?_cons_zero, Option.some.injEq, Prod.mk.injEq] at hk
              obtain ⟨rfl, rfl⟩ := hk
              rw [hheld.unique hpage]
              refine ⟨?_, hpage.length, fun j hj => ?_⟩
              · rw [length_append, hpage.length]
                omega
              · rw [Nat.zero_mul, Nat.zero_add, byteAt_append, if_pos (by rw [hpage.length]; exact hj)]
            | k + 1 =>
              have hin := hholds k index' offset' bytes' (by simpa using hk) hheld
              have hwithin := hin.within
              refine ⟨?_, hin.length, fun j hj => ?_⟩
              · rw [length_append, hpage.length]
                rw [Nat.add_mul]
                omega
              · rw [hin.byte j hj, byteAt_append, hpage.length, Nat.add_mul, if_neg (by omega)]
                refine congrArg (byteAt rest) ?_
                omega

theorem slot?_relocate (hnodup : (pages.map Prod.fst).Nodup) (i : Nat) (chunks : ChunkedMap ImagePage) :
    (∀ k index offset, pages[k]? = some (index, offset) → (ImageDataStore.relocate pages i chunks).slot? index =
        (chunks.slot? index).map fun page => { page with offset := (i + k) * imageDataPageSize }) ∧
    ∀ index, index ∉ pages.map Prod.fst → (ImageDataStore.relocate pages i chunks).slot? index =
    chunks.slot? index := by
  induction pages generalizing i chunks with
  | nil => exact ⟨by simp, fun _ _ => rfl⟩
  | cons page pages ih =>
    obtain ⟨first, offset⟩ := page
    rw [map_cons, nodup_cons] at hnodup
    unfold ImageDataStore.relocate
    obtain ⟨hin, hout⟩ := ih hnodup.2 (i + 1)
      (chunks.alterSlot first fun page => { page with offset := i * imageDataPageSize })
    refine ⟨?_, ?_⟩
    · intro k index offset' hk
      match k with
      | 0 =>
        rw [getElem?_cons_zero, Option.some.injEq, Prod.mk.injEq] at hk
        obtain ⟨rfl, rfl⟩ := hk
        rw [hout first hnodup.1, ChunkedMap.slot?_alterSlot, if_pos rfl]
        rfl
      | k + 1 =>
        rw [getElem?_cons_succ] at hk
        have hne : first ≠ index := by
          rintro rfl
          exact hnodup.1 (mem_map.mpr ⟨_, mem_of_getElem? hk, rfl⟩)
        rw [hin k index offset' hk, ChunkedMap.slot?_alterSlot, if_neg hne, show i + 1 + k = i + (k + 1) by omega]
    · intro index hindex
      rw [map_cons, mem_cons, not_or] at hindex
      rw [hout index hindex.2, ChunkedMap.slot?_alterSlot, if_neg (Ne.symm hindex.1)]

theorem wellCounted_relocate {chunks : ChunkedMap ImagePage} (h : chunks.WellCounted) (pages : List ((Nat × Nat) × Nat))
    (i : Nat) : (ImageDataStore.relocate pages i chunks).WellCounted := by
  induction pages generalizing i chunks with
  | nil => exact h
  | cons page pages ih => exact ih (h.alterSlot _ _) _

theorem rangeOrder_perm (order keys : List Nat) : (rangeOrder order keys).Perm keys := by
  unfold rangeOrder
  split
  · assumption
  · exact List.Perm.refl keys

section LivePages

variable (s : ImageDataStore)

theorem mem_chunkPages {id : Nat} {index : Nat × Nat} :
    (index, offset) ∈ s.chunkPages id ↔ index.1 = id ∧ index.2 < ChunkedMap.chunkSize ∧
      ∃ page, s.locationChunks.slot? index = some page ∧ page.offset = offset := by
  unfold ImageDataStore.chunkPages ChunkedMap.slot?
  cases hchunk : s.locationChunks[id]? with
  | none =>
    simp only [not_mem_nil, false_iff]
    rintro ⟨rfl, -, page, hpage, -⟩
    simp [hchunk] at hpage
  | some chunk =>
    simp only [mem_filterMap, mem_range, Option.map_eq_some_iff, Prod.mk.injEq]
    constructor
    · rintro ⟨slot, hslot, page, hpage, rfl, rfl⟩
      exact ⟨rfl, hslot, page, by simp [hchunk, hpage], rfl⟩
    · rintro ⟨rfl, hslot, page, hpage, rfl⟩
      exact ⟨index.2, hslot, page, by simpa [hchunk] using hpage, rfl, rfl⟩

theorem nodup_chunkPages (id : Nat) : ((s.chunkPages id).map Prod.fst).Nodup := by
  unfold ImageDataStore.chunkPages
  split
  · exact nodup_nil
  · rw [map_filterMap]
    refine nodup_range.filterMap fun a a' b hb hb' => ?_
    simp only [Option.map_map, Option.mem_def, Option.map_eq_some_iff, Function.comp_apply] at hb hb'
    obtain ⟨-, -, rfl⟩ := hb
    obtain ⟨-, -, hb'⟩ := hb'
    exact (congrArg Prod.snd hb').symm

theorem mem_livePages {order : List Nat} {index : Nat × Nat} :
    (index, offset) ∈ s.livePages order ↔ index.1 ∈ order ∧ index.2 < ChunkedMap.chunkSize ∧
      ∃ page, s.locationChunks.slot? index = some page ∧ page.offset = offset := by
  unfold ImageDataStore.livePages
  simp only [mem_flatMap, mem_chunkPages]
  constructor
  · rintro ⟨id, hid, rfl, hpage⟩
    exact ⟨hid, hpage⟩
  · rintro ⟨hid, hpage⟩
    exact ⟨index.1, hid, rfl, hpage⟩

theorem nodup_livePages {order : List Nat} (h : order.Nodup) : ((s.livePages order).map Prod.fst).Nodup := by
  unfold ImageDataStore.livePages
  rw [map_flatMap, nodup_flatMap]
  refine ⟨fun id _ => nodup_chunkPages s id, h.imp fun {id id'} hne => ?_⟩
  intro index hindex hindex'
  obtain ⟨page, hpage, rfl⟩ := mem_map.mp hindex
  obtain ⟨page', hpage', heq⟩ := mem_map.mp hindex'
  have hid := ((mem_chunkPages s).mp hpage).1
  have hid' := ((mem_chunkPages s).mp hpage').1
  exact hne (hid.symm.trans ((congrArg Prod.fst heq).symm.trans hid'))

end LivePages

end CrumbleCracker.Virtio

import CrumbleCracker.Virtio.PageCalls

/-!
# Runs of the page store

A reclaim and a rewrite of the file keep `ImageDataStore.Sound`, so every call does (`Sound.step`);
`pages_eq_reference` is what follows for any sequence of calls.
-/

namespace CrumbleCracker.Virtio

open Std.ExtTreeMap Option ChunkedMap

variable {t : Nat}

namespace ImageDataStore

variable {s s' : ImageDataStore} {ref : RefPages}

/-! ## Compaction and reclaim -/

section Compact

variable {file copied : Bytes} {order : List Nat} {fails : Option Nat}

theorem Sound.mem_livePages (h : s.Sound ref) (horder : order.Perm s.locationChunks.keys) {index : Nat × Nat}
    {offset : Nat} : (index, offset) ∈ s.livePages order ↔
      ∃ t page, s.page? t = some page ∧ chunkIndex t = index ∧ page.offset = offset := by
  rw [Virtio.mem_livePages]
  constructor
  · rintro ⟨-, hslot, page, hpage, rfl⟩
    have hindex : chunkIndex (index.1 * chunkSize + index.2) = index := by
      unfold chunkIndex chunkSize at *
      exact Prod.ext (by omega) (by omega)
    refine ⟨index.1 * chunkSize + index.2, page, ?_, hindex, rfl⟩
    have hget : s.locationChunks.get? (index.1 * chunkSize + index.2) = some page := by
      unfold ChunkedMap.get?
      rw [hindex, hpage]
    unfold page?
    rw [if_neg, hget]
    intro hzero
    rw [h.tokens _ (.inl hzero)] at hget
    cases hget
  · rintro ⟨t, page, ht, rfl, rfl⟩
    have hslot : s.locationChunks.slot? (chunkIndex t) = some page := page?_some ht
    refine ⟨horder.mem_iff.mpr ?_, Nat.mod_lt _ (by decide), page, hslot, rfl⟩
    rw [mem_keys, ← isSome_getElem?_iff_mem]
    unfold slot? at hslot
    cases hchunk : s.locationChunks[(chunkIndex t).1]? with
    | none => simp [hchunk] at hslot
    | some chunk => rfl

theorem Sound.length_livePages (h : s.Sound ref) (horder : order.Perm s.locationChunks.keys) :
    (s.livePages order).length ≤ maxInt64 / imageDataPageSize + 1 := by
  have hnodup := nodup_livePages s (horder.nodup_iff.mpr (nodup_keys ..))
  have hpages : ((s.livePages order).map fun page => page.2 / imageDataPageSize).Nodup := by
    refine List.Nodup.map_on ?_ (List.Nodup.of_map _ hnodup)
    rintro ⟨index, offset⟩ hin ⟨index', offset'⟩ hin' heq
    obtain ⟨t, page, ht, rfl, rfl⟩ := (h.mem_livePages horder).mp hin
    obtain ⟨t', page', ht', rfl, rfl⟩ := (h.mem_livePages horder).mp hin'
    have hoffset : page.offset = page'.offset := by
      have hpage := (h.pages t page ht).1
      have hpage' := (h.pages t' page' ht').1
      simp only at heq
      unfold imageDataPageSize at *
      omega
    rw [h.distinct t t' page page' ht ht' hoffset, hoffset]
  have hrange : ∀ k ∈ (s.livePages order).map fun page => page.2 / imageDataPageSize,
      k ∈ List.range (maxInt64 / imageDataPageSize + 1) := by
    intro k hk
    obtain ⟨⟨index, offset⟩, hin, rfl⟩ := List.mem_map.mp hk
    obtain ⟨t, page, ht, rfl, rfl⟩ := (h.mem_livePages horder).mp hin
    exact List.mem_range.mpr (Nat.lt_succ_of_le (Nat.div_le_div_right (h.pages t page ht).2.2.2))
  simpa using (List.subperm_of_subset hpages hrange).length_le

theorem get?_relocate_none (horder : order.Perm s.locationChunks.keys) (hnone : s.locationChunks.get? t = none) :
    (relocate (s.livePages order) 0 s.locationChunks).get? t = none := by
  obtain ⟨-, hout⟩ := slot?_relocate (nodup_livePages s (horder.nodup_iff.mpr (nodup_keys ..))) 0
    s.locationChunks
  unfold ChunkedMap.get? at hnone ⊢
  rw [hout _ fun hmem => ?_, hnone]
  obtain ⟨⟨index, offset⟩, hlisted, rfl⟩ := List.mem_map.mp hmem
  obtain ⟨-, -, page, hpage, -⟩ := (Virtio.mem_livePages s).mp hlisted
  rw [hpage] at hnone
  cases hnone

/-- The tokens in use after a rewrite are those before it, each at the place of its copy. -/
theorem Sound.page?_relocate (h : s.Sound ref) (horder : order.Perm s.locationChunks.keys)
    (hchunks : s'.locationChunks = relocate (s.livePages order) 0 s.locationChunks) (t : Nat) :
    (s.page? t = none → s'.page? t = none) ∧ ∀ page, s.page? t = some page →
      ∃ k, (s.livePages order)[k]? = some (chunkIndex t, page.offset) ∧
        s'.page? t = some { page with offset := k * imageDataPageSize } := by
  obtain ⟨hin, -⟩ := slot?_relocate (nodup_livePages s (horder.nodup_iff.mpr (nodup_keys ..))) 0
    s.locationChunks
  refine ⟨fun hnone => ?_, fun page hpage => ?_⟩
  · unfold page? at hnone ⊢
    split at hnone
    · rename_i hzero
      rw [if_pos hzero]
    · rename_i hzero
      rw [if_neg hzero, hchunks]
      exact get?_relocate_none horder hnone
  · obtain ⟨k, hk⟩ := List.getElem?_of_mem ((h.mem_livePages horder).mpr ⟨t, page, hpage, rfl, rfl⟩)
    refine ⟨k, hk, ?_⟩
    have hslot : s.locationChunks.slot? (chunkIndex t) = some page := page?_some hpage
    have hmoved := hin k _ _ hk
    rw [hslot, map_some, Nat.zero_add] at hmoved
    unfold page? at hpage ⊢
    split at hpage
    · cases hpage
    · rename_i hzero
      rw [if_neg hzero, hchunks]
      exact hmoved

theorem Sound.compacted (h : s.Sound ref) (horder : order.Perm s.locationChunks.keys)
    (hcopied : copyPages (s.file.getD []) fails (s.livePages order) 0 = some copied)
    (hchunks : s'.locationChunks = relocate (s.livePages order) 0 s.locationChunks) (hfile : s'.file = some copied)
    (hnext : s'.next = (s.livePages order).length * imageDataPageSize) (hlocation : s'.nextLocation = s.nextLocation)
    (hlive : s'.liveLocations = s.liveLocations) (hfree : s'.freeSet = ∅) (hcurrent : s'.current = s.current) :
    s'.Sound ref := by
  obtain ⟨-, hholds⟩ := copyPages_spec hcopied
  have hlength := h.length_livePages horder
  have hpage := h.page?_relocate horder hchunks
  have hlisted : ∀ t page', s'.page? t = some page' → ∃ page k, s.page? t = some page ∧
      (s.livePages order)[k]? = some (chunkIndex t, page.offset) ∧
      page' = { page with offset := k * imageDataPageSize } := by
    intro t page' ht
    cases hold : s.page? t with
    | none =>
      rw [(hpage t).1 hold] at ht
      cases ht
    | some page =>
      obtain ⟨k, hk, hnew⟩ := (hpage t).2 page hold
      exact ⟨page, k, rfl, hk, some.inj (ht.symm.trans hnew)⟩
  have htokens : s'.liveTokens = s.liveTokens := by
    refine liveTokens_congr hlocation fun t => ?_
    cases hold : s.page? t with
    | none => rw [(hpage t).1 hold]
    | some page =>
      obtain ⟨k, -, hnew⟩ := (hpage t).2 page hold
      rw [hnew]
      rfl
  refine ⟨hchunks ▸ wellCounted_relocate h.counted _ 0, ?_, ?_, ?_, ?_, ?_, ?_, ?_, ?_, ?_⟩
  · intro t ht
    rw [hlocation] at ht
    rw [hchunks]
    exact get?_relocate_none horder (h.tokens t ht)
  · intro t ht
    cases hold : s.page? t with
    | none => exact h.dead t hold
    | some page =>
      obtain ⟨k, -, hnew⟩ := (hpage t).2 page hold
      rw [ht] at hnew
      cases hnew
  · intro t page' ht
    obtain ⟨page, k, hold, hk, rfl⟩ := hlisted t page' ht
    obtain ⟨r, hr, hrefs, hpos, hheld⟩ := h.live t page hold
    rw [hfile]
    exact ⟨r, hr, hrefs, hpos, hholds k _ _ _ hk hheld⟩
  · rw [hnext]
    exact Nat.mul_mod_left _ _
  · intro t page' ht
    obtain ⟨page, k, hold, hk, rfl⟩ := hlisted t page' ht
    have hk' : k < (s.livePages order).length := (List.getElem?_eq_some_iff.mp hk).1
    rw [hnext, hfree]
    refine ⟨Nat.mul_mod_left _ _, ?_, by simp, ?_⟩
    · show k * imageDataPageSize + imageDataPageSize ≤ _
      rw [← Nat.succ_mul]
      exact Nat.mul_le_mul_right _ hk'
    · show k * imageDataPageSize ≤ maxInt64
      exact (Nat.le_div_iff_mul_le (by decide)).mp (by omega)
  · rw [hfree]
    intro offset hoffset
    simp at hoffset
  · intro t t' page page' ht ht' heq
    obtain ⟨old, k, -, hk, rfl⟩ := hlisted t page ht
    obtain ⟨old', k', -, hk', rfl⟩ := hlisted t' page' ht'
    obtain rfl : k = k' := Nat.eq_of_mul_eq_mul_right (by decide) heq
    rw [hk, Option.some.injEq, Prod.mk.injEq] at hk'
    exact chunkIndex_injective hk'.1
  · rw [hlive, htokens, h.count]
  · rw [hcurrent, htokens, h.current]

theorem Sound.compactLocked (h : s.Sound ref) (host : FlushHost) : (s.compactLocked host).Sound ref := by
  unfold ImageDataStore.compactLocked
  split
  · exact h
  · rename_i file hfile
    split
    · exact h
    · simp only
      split
      · exact h
      · rename_i copied hcopied
        exact h.compacted (rangeOrder_perm host.chunkOrder _) (by rw [hfile]; exact hcopied) rfl rfl rfl rfl rfl rfl rfl

end Compact

theorem Sound.compactMetadataLocked (h : s.Sound ref) (order : List Nat) :
    (s.compactMetadataLocked order).Sound ref := by
  unfold ImageDataStore.compactMetadataLocked
  split
  · exact h.frame rfl rfl rfl rfl h.next h.free
      (fun t page ht => ⟨(h.pages t page ht).2.1, (h.pages t page ht).2.2.1⟩) fun _ _ _ _ hholds => hholds
  · exact h

theorem Sound.reclaimedRanges (h : s.Sound ref) :
    ∀ range ∈ s.reclaimedRanges, PageRange (· ∈ s.freeSet) range.1 range.2 := by
  refine punchRanges_spec (fun offset hoffset => (h.free offset hoffset).1) _ fun offset hoffset => ?_
  have hmem : offset ∈ s.reclaimable := (List.mem_insertionSort _).mp hoffset
  unfold reclaimable at hmem
  simpa using (List.mem_filter.mp hmem).2

theorem Sound.flushReclaimLocked (h : s.Sound ref) (host : FlushHost) : (s.flushReclaimLocked host).Sound ref := by
  unfold ImageDataStore.flushReclaimLocked
  split
  · exact h
  · rename_i file hfile
    split
    · exact h
    · obtain ⟨hnext, hbelow, hfewer, htail⟩ := cutTail_spec (s.next / imageDataPageSize) h.next h.free
      have hcompact : ∀ flushed : ImageDataStore, flushed.Sound ref →
          Sound (if shouldCompactPortableImageStore flushed.current flushed.next then flushed.compactLocked host
            else flushed) ref := by
        intro flushed hflushed
        split
        · exact hflushed.compactLocked host
        · exact hflushed
      refine Sound.compactMetadataLocked (hcompact _ ?_) _
      refine h.frame rfl rfl rfl rfl hnext hbelow ?_ ?_
      · intro t page ht
        obtain ⟨haligned, hend, hused, -⟩ := h.pages t page ht
        exact ⟨htail _ haligned hend hused, fun hin => hused (hfewer _ hin)⟩
      · intro t page bytes ht hholds
        obtain ⟨haligned, hend, hused, -⟩ := h.pages t page ht
        rw [hfile] at hholds
        refine HoldsPage.punchAll ?_ (fun range hrange => (h.reclaimedRanges range hrange).apart haligned hused) _
        split
        · exact hholds.truncate (htail _ haligned hend hused)
        · exact hholds

theorem Sound.step (h : s.Sound ref) (op : PageOp) : (s.step op).2.Sound (ref.step op (s.step op).1) := by
  match op with
  | .allocate data host =>
    rcases h.allocatePage data host with ⟨e, s', halloc, hs'⟩ | ⟨s', offset, halloc, hs', -⟩
    all_goals
      simp only [ImageDataStore.step, halloc, Except.toOption, RefPages.step]
      exact hs'
  | .retain location => exact h.retainPage location
  | .write location w ok host => exact h.writeAtCOW location w ok host
  | .release location => exact h.releasePage location
  | .flush host => exact h.flushReclaimLocked host

end ImageDataStore

theorem sound_init : ImageDataStore.Sound {} fun _ => none := by
  have hget : ∀ t, ImageDataStore.page? {} t = none := by
    intro t
    unfold ImageDataStore.page? ChunkedMap.get? slot?
    simp
  have htokens : ImageDataStore.liveTokens {} = ∅ := by
    unfold ImageDataStore.liveTokens
    simp [hget]
  refine ⟨?_, ?_, fun _ _ => rfl, ?_, rfl, ?_, ?_, ?_, ?_, ?_⟩
  · intro id chunk hchunk
    simp at hchunk
  · intro t _
    unfold ChunkedMap.get? slot?
    simp
  · intro t page ht
    rw [hget] at ht
    cases ht
  · intro t page ht
    rw [hget] at ht
    cases ht
  · intro offset hoffset
    simp at hoffset
  · intro t t' page page' ht
    rw [hget] at ht
    cases ht
  · rw [htokens]
    rfl
  · rw [htokens]
    rfl

theorem runPages_sound (ops : List PageOp) : (runPages ops).1.Sound (runPages ops).2 := by
  unfold runPages
  generalize hs : (({}, fun _ => none) : ImageDataStore × RefPages) = s
  have h : s.1.Sound s.2 := hs ▸ sound_init
  clear hs
  induction ops generalizing s with
  | nil => exact h
  | cons op ops ih => exact ih _ (h.step op)

namespace ImageDataStore

variable {s : ImageDataStore} {ref : RefPages}

theorem Sound.isSome_of_mem (h : s.Sound ref) (t : Nat) : t ∈ s.liveTokens ↔ (s.page? t).isSome := by
  constructor
  · intro ht
    exact (Finset.mem_filter.mp ht).2
  · intro ht
    obtain ⟨page, hpage⟩ := isSome_iff_exists.mp ht
    exact h.mem_liveTokens hpage

theorem Sound.readPage (h : s.Sound ref) {page : ImagePage} {r : RefPage} (hpage : s.page? t = some page)
    (hr : ref t = some r) : s.readPage t true = .ok r.bytes := by
  obtain ⟨file, hfile⟩ := file_of_live h hpage
  have hread := readWhole_of_live h hpage hr
  rw [hfile, getD_some] at hread
  simp only [ImageDataStore.readPage, hfile, hpage, hread, if_true]

theorem Sound.allocatePage_fresh (h : s.Sound ref) {data : Bytes} {host : PageHost}
    (ht : (s.allocatePage data host).1.toOption = some t) : ref t = none := by
  rcases h.allocatePage data host with ⟨e, s', halloc, -⟩ | ⟨s', offset, halloc, -, -⟩
  · rw [halloc] at ht
    cases ht
  · rw [halloc] at ht
    cases ht
    refine h.dead _ ?_
    unfold page?
    rw [h.tokens _ (.inr (Nat.lt_succ_self _)), ite_self]

theorem Sound.writeAtCOW_fresh (h : s.Sound ref) {location : Nat} {w : PageWrite} {ok : Bool} {host : PageHost}
    (ht : (s.writeAtCOW location w ok host).1.toOption = some t) :
    ref t = none ∨ t = location ∧ ∃ r, ref location = some r ∧ r.refs = 1 := by
  unfold ImageDataStore.writeAtCOW at ht
  split at ht
  · rename_i file page hfile hpage
    obtain ⟨r, hr, hrefs, -, -⟩ := h.live location page hpage
    split at ht
    · rename_i hown
      refine .inr ⟨?_, r, hr, hrefs.trans hown⟩
      simp only at ht
      split at ht
      · exact (some.inj ht).symm
      · cases ht
    · left
      split at ht
      · cases ht
      · rename_i bytes _
        have hnew : (s.allocatePage (writeAt bytes w.offset w.data) host).1.toOption = some t := by
          split at ht
          · cases ht
          · rename_i new s' halloc
            rw [halloc]
            exact ht
        exact h.allocatePage_fresh hnew
  · cases ht

end ImageDataStore

/-- After any calls on the page store, with any host faults: a token in use reads the bytes last written through it and
has the references the reference counts; its page is whole in the file, not free, below the end that a reclaim truncates
to and apart from every range that a reclaim punches; the pages of two tokens do not overlap; the store counts the
tokens in use; and a call that makes a token makes a new one. -/
theorem pages_eq_reference (ops : List PageOp) :
    (∀ t, ((runPages ops).1.page? t).isSome = ((runPages ops).2 t).isSome) ∧
    (∀ t page r, (runPages ops).1.page? t = some page → (runPages ops).2 t = some r →
      (runPages ops).1.readPage t true = .ok r.bytes ∧ page.refs = r.refs ∧ page.offset ∉ (runPages ops).1.freeSet ∧
      page.offset + imageDataPageSize ≤ ((runPages ops).1.file.getD []).length ∧
      page.offset + imageDataPageSize ≤ (runPages ops).1.reclaimedTail.1 ∧
      ∀ range ∈ (runPages ops).1.reclaimedRanges, page.offset + imageDataPageSize ≤ range.1 ∨ range.2 ≤ page.offset) ∧
    (∀ t t' page page', t ≠ t' → (runPages ops).1.page? t = some page → (runPages ops).1.page? t' = some page' →
      page'.offset + imageDataPageSize ≤ page.offset ∨ page.offset + imageDataPageSize ≤ page'.offset) ∧
    (∀ t, t ∈ (runPages ops).1.liveTokens ↔ ((runPages ops).1.page? t).isSome) ∧
    (runPages ops).1.current = imageDataPageSize * (runPages ops).1.liveTokens.card ∧
    (∀ data host t, ((runPages ops).1.allocatePage data host).1.toOption = some t → (runPages ops).2 t = none) ∧
    ∀ location w ok host t, ((runPages ops).1.writeAtCOW location w ok host).1.toOption = some t →
      (runPages ops).2 t = none ∨ t = location ∧ ∃ r, (runPages ops).2 location = some r ∧ r.refs = 1 := by
  have h := runPages_sound ops
  generalize runPages ops = run at h
  obtain ⟨s, ref⟩ := run
  refine ⟨fun t => ?_, fun t page r hpage hr => ?_, fun t t' page page' hne hpage hpage' => ?_,
    h.isSome_of_mem, h.current, fun _ _ _ => h.allocatePage_fresh, fun _ _ _ _ _ => h.writeAtCOW_fresh⟩
  · cases hpage : s.page? t with
    | none =>
      rw [h.dead t hpage]
      rfl
    | some page =>
      obtain ⟨r, hr, -⟩ := h.live t page hpage
      rw [hr]
      rfl
  · obtain ⟨r', hr', hrefs, -, hholds⟩ := h.live t page hpage
    obtain rfl : r = r' := some.inj (hr.symm.trans hr')
    obtain ⟨haligned, hbelow, hused, -⟩ := h.pages t page hpage
    obtain ⟨-, -, -, htail⟩ := cutTail_spec (s.next / imageDataPageSize) h.next h.free
    refine ⟨h.readPage hpage hr, hrefs.symm, hused, hholds.within, htail _ haligned hbelow hused, ?_⟩
    intro range hrange
    exact (h.reclaimedRanges range hrange).apart haligned hused
  · have hoffset : page.offset ≠ page'.offset := fun heq => hne (h.distinct t t' page page' hpage hpage' heq)
    exact ImageDataStore.apart_of_ne (h.pages t page hpage).1 (h.pages t' page' hpage').1 hoffset

end CrumbleCracker.Virtio

import CrumbleCracker.Virtio.PageFile

/-!
# The page store against a reference

The reference knows, for each token, its references and the bytes last written through it. `ImageDataStore.Sound` is
what every call keeps, with any host faults: `Sound.allocatePage`, `Sound.retainPage`, `Sound.writeAtCOW` and
`Sound.releasePage` are the calls on one page.
-/

namespace CrumbleCracker.Virtio

open Option Finset Std.LawfulEqCmp

/-! ## The reference -/

/-- What a token stands for: the bytes last written through it, and its references. -/
structure RefPage where
  refs : Nat
  bytes : Bytes

abbrev RefPages := Nat → Option RefPage

inductive PageOp
  | allocate (data : Bytes) (host : PageHost)
  | retain (location : Nat)
  | write (location : Nat) (w : PageWrite) (ok : Bool) (host : PageHost)
  | release (location : Nat)
  | flush (host : FlushHost)

def PageHost.taken (host : PageHost) (data : Bytes) : Bytes :=
  match host.fails with
  | none => data
  | some k => data.take k

/-- One call; the token it returns, if it succeeds with one. -/
def ImageDataStore.step (s : ImageDataStore) : PageOp → Option Nat × ImageDataStore
  | .allocate data host => ((s.allocatePage data host).1.toOption, (s.allocatePage data host).2)
  | .retain location => ((s.retainPage location).1.toOption.map fun _ => location, (s.retainPage location).2)
  | .write location w ok host => ((s.writeAtCOW location w ok host).1.toOption, (s.writeAtCOW location w ok host).2)
  | .release location => (none, s.releasePage location)
  | .flush host => (none, s.flushReclaimLocked host)

namespace RefPages

variable (ref : RefPages)

def put (location : Nat) (page : Option RefPage) : RefPages := fun t => if t = location then page else ref t

def drop (location : Nat) (page : RefPage) : RefPages := ref.put location (some { page with refs := page.refs - 1 })

/-- One call that returned `reply`. A write through the only reference changes the page; any other makes a new page and
gives up the reference. -/
def step : PageOp → Option Nat → RefPages
  | .allocate data _, some location => ref.put location (some ⟨1, pageOf data⟩)
  | .retain location, some _ => match ref location with
    | none => ref
    | some page => ref.put location (some { page with refs := page.refs + 1 })
  | .write location w _ host, reply => match ref location with
    | none => ref
    | some page =>
      if page.refs = 1 then
        ref.put location (some { page with bytes := writeAt page.bytes w.offset (host.taken w.data) })
      else match reply with
        | none => ref
        | some new => (ref.drop location page).put new (some ⟨1, writeAt page.bytes w.offset w.data⟩)
  | .release location, _ => match ref location with
    | none => ref
    | some page => if page.refs > 1 then ref.drop location page else ref.put location none
  | _, _ => ref

theorem put_comm (ref : RefPages) {a b : Nat} (h : a ≠ b) (p q : Option RefPage) :
    (ref.put b q).put a p = (ref.put a p).put b q := by
  funext t
  unfold put
  by_cases ha : t = a
  · rw [if_pos ha, if_pos ha, if_neg (ha ▸ h)]
  · rw [if_neg ha, if_neg ha]

end RefPages

/-- The store and the reference after a sequence of calls. -/
def runPages (ops : List PageOp) : ImageDataStore × RefPages :=
  ops.foldl (fun s op => ((s.1.step op).2, s.2.step op (s.1.step op).1)) ({}, fun _ => none)

namespace ImageDataStore

def liveTokens (s : ImageDataStore) : Finset Nat :=
  (Finset.range (s.nextLocation + 1)).filter fun t => (s.page? t).isSome

structure Sound (s : ImageDataStore) (ref : RefPages) : Prop where
  counted : s.locationChunks.WellCounted
  tokens : ∀ t, t = 0 ∨ s.nextLocation < t → s.locationChunks.get? t = none
  dead : ∀ t, s.page? t = none → ref t = none
  live : ∀ t page, s.page? t = some page → ∃ r, ref t = some r ∧ r.refs = page.refs ∧ 1 ≤ page.refs ∧
    HoldsPage (s.file.getD []) page.offset r.bytes
  next : s.next % imageDataPageSize = 0
  pages : ∀ t page, s.page? t = some page → page.offset % imageDataPageSize = 0 ∧
    page.offset + imageDataPageSize ≤ s.next ∧ page.offset ∉ s.freeSet ∧ page.offset ≤ maxInt64
  free : FreeBelow s.freeSet s.next
  distinct : ∀ t t' page page', s.page? t = some page → s.page? t' = some page' → page.offset = page'.offset → t = t'
  count : s.liveLocations = s.liveTokens.card
  current : s.current = imageDataPageSize * s.liveTokens.card

variable {s s' : ImageDataStore} {ref : RefPages}

theorem liveTokens_congr (hnext : s'.nextLocation = s.nextLocation)
    (h : ∀ t, (s'.page? t).isSome = (s.page? t).isSome) :
    s'.liveTokens = s.liveTokens := by
  unfold liveTokens
  rw [hnext]
  exact filter_congr fun t _ => by rw [h t]

/-- A change to the file and to the free pages that leaves the table alone and every page in use where it is. -/
theorem Sound.frame (h : s.Sound ref) (hchunks : s'.locationChunks = s.locationChunks)
    (hlocation : s'.nextLocation = s.nextLocation) (hlive : s'.liveLocations = s.liveLocations)
    (hcurrent : s'.current = s.current) (hnext : s'.next % imageDataPageSize = 0) (hfree : FreeBelow s'.freeSet s'.next)
    (hpages : ∀ t page, s.page? t = some page → page.offset + imageDataPageSize ≤ s'.next ∧ page.offset ∉ s'.freeSet)
    (hfile : ∀ t page bytes, s.page? t = some page → HoldsPage (s.file.getD []) page.offset bytes →
      HoldsPage (s'.file.getD []) page.offset bytes) : s'.Sound ref := by
  have hpage (t : Nat) : s'.page? t = s.page? t := by rw [page?, page?, hchunks]
  have htokens : s'.liveTokens = s.liveTokens := liveTokens_congr hlocation fun t => by rw [hpage]
  refine ⟨hchunks ▸ h.counted, ?_, ?_, ?_, hnext, ?_, hfree, ?_, ?_, ?_⟩
  · rw [hlocation, hchunks]
    exact h.tokens
  · intro t ht
    exact h.dead t (hpage t ▸ ht)
  · intro t page ht
    rw [hpage] at ht
    obtain ⟨r, hr, hrefs, hpos, hholds⟩ := h.live t page ht
    exact ⟨r, hr, hrefs, hpos, hfile t page _ ht hholds⟩
  · intro t page ht
    rw [hpage] at ht
    exact ⟨(h.pages t page ht).1, (hpages t page ht).1, (hpages t page ht).2, (h.pages t page ht).2.2.2⟩
  · intro t t' page page' ht ht'
    rw [hpage] at ht ht'
    exact h.distinct t t' page page' ht ht'
  · rw [hlive, htokens, h.count]
  · rw [hcurrent, htokens, h.current]

/-! ## Allocation -/

/-- The offset for a new page is below the end, not free any more, and no page in use has it. -/
theorem Sound.takeOffset (h : s.Sound ref) : s.takeOffset.2.Sound ref ∧ s.takeOffset.2.file = s.file ∧
    s.takeOffset.2.nextLocation = s.nextLocation ∧ s.takeOffset.1 % imageDataPageSize = 0 ∧
    s.takeOffset.1 + imageDataPageSize ≤ s.takeOffset.2.next ∧ s.takeOffset.1 ∉ s.takeOffset.2.freeSet ∧
    ∀ t page, s.takeOffset.2.page? t = some page → page.offset ≠ s.takeOffset.1 := by
  unfold ImageDataStore.takeOffset
  split
  · rename_i offset free hpop
    have hmem := popFree_mem hpop
    obtain ⟨haligned, hbelow⟩ := h.free offset hmem
    refine ⟨h.frame rfl rfl rfl rfl h.next ?_ ?_ fun _ _ _ _ hholds => hholds, rfl, rfl, haligned, hbelow, ?_, ?_⟩
    · intro other hother
      exact h.free other (Std.ExtTreeSet.mem_of_mem_erase hother)
    · intro t page ht
      exact ⟨(h.pages t page ht).2.1, fun hin => (h.pages t page ht).2.2.1 (Std.ExtTreeSet.mem_of_mem_erase hin)⟩
    · simp
    · intro t page ht heq
      exact (h.pages t page ht).2.2.1 (heq ▸ hmem)
  · have hlarger : FreeBelow s.freeSet (s.next + imageDataPageSize) :=
      fun offset hoffset => ⟨(h.free offset hoffset).1, Nat.le_add_right_of_le (h.free offset hoffset).2⟩
    refine ⟨h.frame rfl rfl rfl rfl ?_ hlarger ?_ fun _ _ _ _ hholds => hholds, rfl, rfl, h.next, Nat.le_refl _, ?_, ?_⟩
    · rw [Nat.add_mod_right]
      exact h.next
    · intro t page ht
      exact ⟨Nat.le_add_right_of_le (h.pages t page ht).2.1, (h.pages t page ht).2.2.1⟩
    · intro hin
      have := (h.free _ hin).2
      unfold imageDataPageSize at this
      omega
    · intro t page ht heq
      have := (h.pages t page ht).2.1
      unfold imageDataPageSize at this
      omega

theorem Sound.noteMetadata (h : s.Sound ref) : s.noteMetadata.Sound ref :=
  h.frame rfl rfl rfl rfl h.next h.free (fun t page ht => ⟨(h.pages t page ht).2.1, (h.pages t page ht).2.2.1⟩)
    fun _ _ _ _ hholds => hholds

theorem apart_of_ne {a b : Nat} (ha : a % imageDataPageSize = 0) (hb : b % imageDataPageSize = 0) (h : a ≠ b) :
    b + imageDataPageSize ≤ a ∨ a + imageDataPageSize ≤ b := by
  unfold imageDataPageSize at *
  omega

theorem taken_length (host : PageHost) (data : Bytes) : (host.taken data).length ≤ data.length := by
  unfold PageHost.taken
  split
  · exact Nat.le_refl _
  · rw [List.length_take]
    exact Nat.min_le_right _ _

theorem hostWrite_cases (file : Bytes) (offset : Nat) (data : Bytes) (host : PageHost) :
    (maxInt64 < offset ∧ hostWrite file offset data host.fails = (false, file)) ∨
      offset ≤ maxInt64 ∧ hostWrite file offset data host.fails =
        (host.fails.isNone, writeAt file offset (host.taken data)) := by
  unfold hostWrite PageHost.taken
  by_cases hbig : maxInt64 < offset
  · exact .inl ⟨hbig, if_pos hbig⟩
  · refine .inr ⟨Nat.le_of_not_lt hbig, ?_⟩
    rw [if_neg hbig]
    cases host.fails <;> rfl

theorem Sound.add (h : s.Sound ref) {offset : Nat} {bytes : Bytes} (haligned : offset % imageDataPageSize = 0)
    (hbelow : offset + imageDataPageSize ≤ s.next) (hfree : offset ∉ s.freeSet) (hmax : offset ≤ maxInt64)
    (hnew : ∀ t page, s.page? t = some page → page.offset ≠ offset) (hbytes : bytes.length = imageDataPageSize)
    (hfile' : s'.file = some (writeAt (s.file.getD []) offset bytes)) (hnext' : s'.next = s.next)
    (hlocation' : s'.nextLocation = s.nextLocation + 1)
    (hchunks' : s'.locationChunks = s.locationChunks.add (s.nextLocation + 1) ⟨offset, 1⟩)
    (hlive' : s'.liveLocations = s.liveLocations + 1) (hfree' : s'.freeSet = s.freeSet)
    (hcurrent' : s'.current = s.current + imageDataPageSize) :
    s'.Sound (ref.put (s.nextLocation + 1) (some ⟨1, bytes⟩)) := by
  have hfresh : s.locationChunks.get? (s.nextLocation + 1) = none := h.tokens _ (.inr (Nat.lt_succ_self _))
  have hpage : ∀ t, s'.page? t = if t = s.nextLocation + 1 then some ⟨offset, 1⟩ else s.page? t := by
    intro t
    unfold page?
    by_cases ht : t = 0
    · subst ht
      simp
    · rw [if_neg ht, if_neg ht, hchunks', ChunkedMap.get?_add]
      simp [eq_comm]
  have hcard : s'.liveTokens.card = s.liveTokens.card + 1 := by
    have htokens : s'.liveTokens = insert (s.nextLocation + 1) s.liveTokens := by
      ext t
      unfold liveTokens
      simp only [mem_insert, mem_filter, mem_range, hpage, hlocation']
      by_cases ht : t = s.nextLocation + 1
      · simp [ht]
      · simp only [ht, if_false, false_or]
        exact and_congr_left fun _ => by omega
    rw [htokens, card_insert_of_notMem]
    unfold liveTokens
    simp
  refine ⟨?_, ?_, ?_, ?_, hnext' ▸ h.next, ?_, ?_, ?_, ?_, ?_⟩
  · rw [hchunks']
    exact h.counted.add hfresh _
  · intro t ht
    rw [hchunks', ChunkedMap.get?_add, if_neg (by omega)]
    exact h.tokens t (by omega)
  · intro t ht
    rw [hpage] at ht
    unfold RefPages.put
    split at ht
    · cases ht
    · rename_i hne
      rw [if_neg hne]
      exact h.dead t ht
  · intro t page ht
    rw [hpage] at ht
    rw [hfile', getD_some]
    unfold RefPages.put
    split at ht
    · rename_i heq
      cases ht
      rw [if_pos heq]
      exact ⟨_, rfl, rfl, Nat.le_refl _, HoldsPage.writeAt_new hbytes⟩
    · rename_i hne
      rw [if_neg hne]
      obtain ⟨r, hr, hrefs, hpos, hholds⟩ := h.live t page ht
      refine ⟨r, hr, hrefs, hpos, hholds.writeAt_other ?_⟩
      rw [hbytes]
      exact apart_of_ne (h.pages t page ht).1 haligned (hnew t page ht)
  · intro t page ht
    rw [hpage] at ht
    rw [hnext', hfree']
    split at ht
    · cases ht
      exact ⟨haligned, hbelow, hfree, hmax⟩
    · exact h.pages t page ht
  · rw [hnext', hfree']
    exact h.free
  · intro t t' page page' ht ht' heq
    rw [hpage] at ht ht'
    split at ht <;> split at ht'
    · rename_i h1 h2
      exact h1.trans h2.symm
    · cases ht
      exact absurd heq.symm (hnew t' page' ht')
    · cases ht'
      exact absurd heq (hnew t page ht)
    · exact h.distinct t t' page page' ht ht' heq
  · rw [hlive', hcard, ← h.count]
  · rw [hcurrent', hcard, Nat.mul_add, Nat.mul_one, ← h.current]

theorem pageOf_of_length {data : Bytes} (h : data.length = imageDataPageSize) : pageOf data = data := by
  unfold pageOf
  refine ext_byteAt (by rw [length_truncateTo, h]) fun i hi => ?_
  rw [byteAt_truncateTo, if_pos (h ▸ hi)]

theorem length_pageOf (data : Bytes) : (pageOf data).length = imageDataPageSize := length_truncateTo _ _

/-- `allocatePage` fails and nothing is allocated, or it returns a new token for the data. -/
theorem Sound.allocatePage (h : s.Sound ref) (data : Bytes) (host : PageHost) :
    (∃ e s', s.allocatePage data host = (.error e, s') ∧ s'.Sound ref) ∨
      ∃ s' offset, s.allocatePage data host = (.ok (s.nextLocation + 1), s') ∧
        s'.Sound (ref.put (s.nextLocation + 1) (some ⟨1, pageOf data⟩)) ∧
        s'.locationChunks = s.locationChunks.add (s.nextLocation + 1) ⟨offset, 1⟩ := by
  unfold ImageDataStore.allocatePage
  by_cases hfull : s.nextLocation = 2 ^ 64 - 1
  · rw [if_pos hfull]
    exact .inl ⟨_, _, rfl, h⟩
  rw [if_neg hfull]
  by_cases hcreate : s.file.isNone ∧ host.create = false
  · rw [if_pos hcreate]
    exact .inl ⟨_, _, rfl, h⟩
  rw [if_neg hcreate]
  obtain ⟨htaken, hfile, hlocation, haligned, hbelow, hfree, hnew⟩ := h.takeOffset
  have hchunks : s.takeOffset.2.locationChunks = s.locationChunks := by
    unfold ImageDataStore.takeOffset
    split <;> rfl
  generalize s.takeOffset = taken at *
  obtain ⟨offset, s₁⟩ := taken
  simp only at htaken hfile hlocation haligned hbelow hfree hnew hchunks ⊢
  -- A failed write touches only the page that goes back to the free ones.
  have hback : ∀ file, (∀ t page bytes, s₁.page? t = some page → HoldsPage (s₁.file.getD []) page.offset bytes →
      HoldsPage file page.offset bytes) → Sound { s₁ with
        file := some file, free := offset :: s₁.free, freeSet := s₁.freeSet.insert offset }.noteMetadata ref := by
    intro file hholds
    refine Sound.noteMetadata (htaken.frame rfl rfl rfl rfl htaken.next ?_ ?_ hholds)
    · intro other hother
      rcases Std.ExtTreeSet.mem_insert.mp hother with heq | hother
      · rw [← eq_of_compare heq]
        exact ⟨haligned, hbelow⟩
      · exact htaken.free other hother
    · intro t page ht
      refine ⟨(htaken.pages t page ht).2.1, fun hin => ?_⟩
      rcases Std.ExtTreeSet.mem_insert.mp hin with heq | hin
      · exact hnew t page ht (eq_of_compare heq).symm
      · exact (htaken.pages t page ht).2.2.1 hin
  rcases hostWrite_cases (s₁.file.getD []) offset (pageOf data) host with ⟨hbig, hwrite⟩ | ⟨hmax, hwrite⟩
  · rw [hwrite]
    exact .inl ⟨_, _, rfl, hback _ fun _ _ _ _ hholds => hholds⟩
  · rw [hwrite]
    cases hfails : host.fails with
    | some k =>
      refine .inl ⟨_, _, rfl, hback _ fun t page bytes ht hholds => hholds.writeAt_other ?_⟩
      have hshort := taken_length host (pageOf data)
      rw [length_pageOf] at hshort
      have := apart_of_ne (htaken.pages t page ht).1 haligned (hnew t page ht)
      omega
    | none =>
      have hall : host.taken (pageOf data) = pageOf data := by
        unfold PageHost.taken
        rw [hfails]
      rw [← hlocation]
      refine .inr ⟨_, offset, rfl, Sound.noteMetadata ?_, hchunks ▸ rfl⟩
      exact htaken.add haligned hbelow hfree hmax hnew (length_pageOf data) (by rw [hall]) rfl rfl rfl rfl rfl rfl

/-! ## References -/

variable {page : ImagePage}

theorem page?_some {t : Nat} (h : s.page? t = some page) : s.locationChunks.get? t = some page := by
  unfold page? at h
  split at h
  · cases h
  · exact h

variable {location : Nat}

section

variable (h : s.Sound ref)

include h

section Live

variable (hpage : s.page? location = some page)

include hpage

theorem Sound.change {page' : ImagePage} (hoffset : page'.offset = page.offset) (hrefs : 1 ≤ page'.refs) {bytes : Bytes}
    (hbytes : HoldsPage (s'.file.getD []) page.offset bytes)
    (hfile : ∀ t other bytes, s.page? t = some other → t ≠ location → HoldsPage (s.file.getD []) other.offset bytes →
      HoldsPage (s'.file.getD []) other.offset bytes)
    (hcounted : s'.locationChunks.WellCounted)
    (hget : ∀ t, s'.locationChunks.get? t = if t = location then some page' else s.locationChunks.get? t)
    (hlocation : s'.nextLocation = s.nextLocation) (hnext : s'.next = s.next) (hfree : s'.freeSet = s.freeSet)
    (hlive : s'.liveLocations = s.liveLocations) (hcurrent : s'.current = s.current) :
    s'.Sound (ref.put location (some ⟨page'.refs, bytes⟩)) := by
  have hget' : ∀ t, s'.page? t = if t = location then some page' else s.page? t := by
    intro t
    unfold page? at *
    rw [hget]
    split at hpage
    · cases hpage
    · by_cases ht : t = location
      · rw [if_pos ht, if_pos ht, if_neg (by rwa [ht])]
      · rw [if_neg ht, if_neg ht]
  have htokens : s'.liveTokens = s.liveTokens := by
    refine liveTokens_congr hlocation fun t => ?_
    rw [hget']
    split
    · rename_i heq
      rw [heq, hpage]
      rfl
    · rfl
  refine ⟨hcounted, ?_, ?_, ?_, hnext ▸ h.next, ?_, ?_, ?_, ?_, ?_⟩
  · intro t ht
    rw [hget]
    split
    · rename_i heq
      have hnone := h.tokens t (hlocation ▸ ht)
      rw [heq, page?_some hpage] at hnone
      cases hnone
    · exact h.tokens t (hlocation ▸ ht)
  · intro t ht
    rw [hget'] at ht
    unfold RefPages.put
    split at ht
    · cases ht
    · rename_i hne
      rw [if_neg hne]
      exact h.dead t ht
  · intro t other ht
    rw [hget'] at ht
    unfold RefPages.put
    split at ht
    · rename_i heq
      cases ht
      rw [if_pos heq, hoffset]
      exact ⟨_, rfl, rfl, hrefs, hbytes⟩
    · rename_i hne
      rw [if_neg hne]
      obtain ⟨r, hr, hrefs, hpos, hholds⟩ := h.live t other ht
      exact ⟨r, hr, hrefs, hpos, hfile t other _ ht hne hholds⟩
  · intro t other ht
    rw [hget'] at ht
    rw [hnext, hfree]
    split at ht
    · cases ht
      rw [hoffset]
      exact h.pages location page hpage
    · exact h.pages t other ht
  · rw [hnext, hfree]
    exact h.free
  · intro t t' other other' ht ht' heq
    rw [hget'] at ht ht'
    split at ht <;> split at ht'
    · rename_i h1 h2
      exact h1.trans h2.symm
    · rename_i h1 h2
      cases ht
      rw [h1]
      exact h.distinct location t' page other' hpage ht' (hoffset ▸ heq)
    · rename_i h1 h2
      cases ht'
      rw [h2]
      exact h.distinct t location other page ht hpage (hoffset ▸ heq)
    · exact h.distinct t t' other other' ht ht' heq
  · rw [hlive, htokens, h.count]
  · rw [hcurrent, htokens, h.current]

variable {r : RefPage}

theorem Sound.alter (hr : ref location = some r) {f : ImagePage → ImagePage} (hoffset : (f page).offset = page.offset)
    (hrefs : 1 ≤ (f page).refs) : Sound { s with locationChunks := s.locationChunks.alter location f }
      (ref.put location (some { r with refs := (f page).refs })) := by
  obtain ⟨r', hr', -, -, hholds⟩ := h.live location page hpage
  obtain rfl : r = r' := some.inj (hr.symm.trans hr')
  refine h.change hpage hoffset hrefs hholds (fun _ _ _ _ _ hholds => hholds) (h.counted.alterSlot _ _) ?_
    rfl rfl rfl rfl
    rfl
  intro t
  rw [ChunkedMap.get?_alter]
  by_cases ht : t = location
  · rw [if_pos ht.symm, if_pos ht, ht, page?_some hpage]
    rfl
  · rw [if_neg (Ne.symm ht), if_neg ht]

omit hpage in
theorem Sound.retainPage (location : Nat) :
    (s.step (.retain location)).2.Sound (ref.step (.retain location) (s.step (.retain location)).1) := by
  have hfailed : ∀ e, s.retainPage location = (.error e, s) →
      (s.step (.retain location)).2.Sound (ref.step (.retain location) (s.step (.retain location)).1) := by
    intro e he
    simp only [step, he, Except.toOption, map_none, RefPages.step]
    exact h
  cases hpage : s.page? location with
  | none =>
    refine hfailed .notExist ?_
    unfold ImageDataStore.retainPage
    rw [hpage]
  | some page =>
    by_cases hfull : page.refs = 2 ^ 32 - 1
    · refine hfailed .refsOverflow ?_
      unfold ImageDataStore.retainPage
      rw [hpage]
      exact if_pos hfull
    · obtain ⟨r, hr, hrefs, -, -⟩ := h.live location page hpage
      simp only [step, ImageDataStore.retainPage, hpage, if_neg hfull, Except.toOption, map_some, RefPages.step, hr,
        hrefs]
      exact h.alter hpage hr rfl (Nat.le_add_left _ _)

/-! ## Writes -/

theorem Sound.writeWithin (hr : ref location = some r) {at_ : Nat} {data : Bytes}
    (hfits : at_ + data.length ≤ imageDataPageSize) :
    Sound { s with file := some (writeAt (s.file.getD []) (page.offset + at_) data) }
      (ref.put location (some { r with bytes := writeAt r.bytes at_ data })) := by
  obtain ⟨r', hr', hrefs, hpos, hholds⟩ := h.live location page hpage
  obtain rfl : r = r' := some.inj (hr.symm.trans hr')
  rw [hrefs]
  refine h.change hpage rfl hpos (hholds.writeAt_within hfits) ?_ h.counted ?_ rfl rfl rfl rfl rfl
  · intro t other bytes ht hne hother
    have hoffset : other.offset ≠ page.offset := fun heq => hne (h.distinct t location other page ht hpage heq)
    have := apart_of_ne (h.pages t other ht).1 (h.pages location page hpage).1 hoffset
    exact hother.writeAt_other (by omega)
  · intro t
    split
    · rename_i heq
      rw [heq, page?_some hpage]
    · rfl

theorem readWhole_of_live (hr : ref location = some r) :  readWhole (s.file.getD []) page.offset = some r.bytes := by
  obtain ⟨r', hr', -, -, hholds⟩ := h.live location page hpage
  obtain rfl : r = r' := some.inj (hr.symm.trans hr')
  exact readWhole_eq_some.mpr hholds

theorem file_of_live : ∃ file, s.file = some file := by
  obtain ⟨r, -, -, -, hholds⟩ := h.live location page hpage
  have hwithin := hholds.within
  cases hfile : s.file with
  | none =>
    rw [hfile] at hwithin
    simp [imageDataPageSize] at hwithin
  | some file => exact ⟨file, rfl⟩

theorem Sound.writeOwn (hr : ref location = some r) (w : PageWrite) (host : PageHost) :
    Sound { s with file := some (hostWrite (s.file.getD []) (page.offset + w.offset) w.data host.fails).2 }
      (ref.put location (some { r with bytes := writeAt r.bytes w.offset (host.taken w.data) })) := by
  have hfits : w.offset + (host.taken w.data).length ≤ imageDataPageSize :=
    Nat.le_trans (Nat.add_le_add_left (taken_length host w.data) _) w.fits
  rcases hostWrite_cases (s.file.getD []) (page.offset + w.offset) w.data host with ⟨hbig, hwrite⟩ | ⟨-, hwrite⟩
  · -- Only an empty write at the very end of the last page can lie beyond the range of the host.
    have hempty : w.data = [] := by
      obtain ⟨haligned, -, -, hmax⟩ := h.pages location page hpage
      have hfits := w.fits
      refine List.eq_nil_of_length_eq_zero ?_
      unfold imageDataPageSize maxInt64 at *
      omega
    have hsame : writeAt (s.file.getD []) (page.offset + w.offset) (host.taken w.data) = s.file.getD [] := by
      obtain ⟨r', -, -, -, hholds⟩ := h.live location page hpage
      have hwithin := hholds.within
      have htaken : (host.taken w.data).length = 0 := by
        have := taken_length host w.data
        rw [hempty] at this ⊢
        simpa using this
      refine ext_byteAt ?_ fun i _ => ?_
      · have hfits := w.fits
        rw [length_writeAt, htaken]
        omega
      · rw [byteAt_writeAt, if_neg (by omega)]
    rw [hwrite]
    have := h.writeWithin hpage hr hfits
    rwa [hsame] at this
  · rw [hwrite]
    exact h.writeWithin hpage hr hfits

omit hpage in
theorem Sound.writeAtCOW (location : Nat) (w : PageWrite) (ok : Bool) (host : PageHost) :
    (s.step (.write location w ok host)).2.Sound
      (ref.step (.write location w ok host) (s.step (.write location w ok host)).1) := by
  cases hpage : s.page? location with
  | none =>
    have hwrite : s.writeAtCOW location w ok host = (.error .notExist, s) := by
      unfold ImageDataStore.writeAtCOW
      rw [hpage]
      cases s.file <;> rfl
    simp only [step, hwrite, RefPages.step, h.dead location hpage]
    exact h
  | some page =>
    obtain ⟨file, hfile⟩ := file_of_live h hpage
    obtain ⟨r, hr, hrefs, hpos, hholds⟩ := h.live location page hpage
    have hget := page?_some hpage
    by_cases hown : page.refs = 1
    · have := h.writeOwn hpage hr w host
      simp only [step, ImageDataStore.writeAtCOW, hfile, hpage, if_pos hown, RefPages.step, hr,
        if_pos (hrefs.trans hown)]
      rwa [hfile] at this
    · have hread : readWhole file page.offset = some r.bytes := by
        have := readWhole_of_live h hpage hr
        rwa [hfile] at this
      cases ok with
      | false =>
        simp only [step, ImageDataStore.writeAtCOW, hfile, hpage, if_neg hown, RefPages.step, hr,
          if_neg (hrefs ▸ hown), Bool.false_eq_true, if_false, Except.toOption]
        exact h
      | true =>
        have hdata : pageOf (writeAt r.bytes w.offset w.data) = writeAt r.bytes w.offset w.data := by
          refine pageOf_of_length ?_
          rw [length_writeAt, hholds.length]
          exact Nat.max_eq_left w.fits
        rcases h.allocatePage (writeAt r.bytes w.offset w.data) host with ⟨e, s', halloc, hs'⟩ | ⟨s', offset, halloc,
          hs', hchunks⟩
        · simp only [step, ImageDataStore.writeAtCOW, hfile, hpage, if_neg hown, RefPages.step, hr,
            if_neg (hrefs ▸ hown), if_true, hread, halloc, Except.toOption]
          exact hs'
        · simp only [step, ImageDataStore.writeAtCOW, hfile, hpage, if_neg hown, RefPages.step, hr,
            if_neg (hrefs ▸ hown), if_true, hread, halloc, Except.toOption]
          have hold : location ≠ s.nextLocation + 1 := by
            rintro rfl
            rw [h.tokens _ (.inr (Nat.lt_succ_self _))] at hget
            cases hget
          have hpage' : s'.page? location = some page := by
            unfold page?
            rw [hchunks, ChunkedMap.get?_add, if_neg (Ne.symm hold)]
            exact hpage
          have hr' : ref.put (s.nextLocation + 1) (some ⟨1, pageOf (writeAt r.bytes w.offset w.data)⟩) location =
              some r := by
            unfold RefPages.put
            rw [if_neg hold]
            exact hr
          unfold RefPages.drop
          rw [← hdata, hrefs, ← RefPages.put_comm _ hold]
          exact hs'.alter hpage' hr' rfl (show 1 ≤ page.refs - 1 by omega)

/-! ## Release -/

theorem Sound.mem_liveTokens : location ∈ s.liveTokens := by
  unfold liveTokens
  simp only [mem_filter, mem_range, hpage, isSome_some, and_true]
  by_contra hlt
  have hget := page?_some hpage
  rw [h.tokens location (by omega)] at hget
  cases hget

/-- The last reference goes: the token is dead and its page free. -/
theorem Sound.remove (hchunks' : s'.locationChunks = s.locationChunks.remove location) (hfile' : s'.file = s.file)
    (hnext' : s'.next = s.next) (hlocation' : s'.nextLocation = s.nextLocation)
    (hlive' : s'.liveLocations = s.liveLocations - 1) (hfree' : s'.freeSet = s.freeSet.insert page.offset)
    (hcurrent' : s'.current = s.current - imageDataPageSize) : s'.Sound (ref.put location none) := by
  have hsome : (s.locationChunks.get? location).isSome := by rw [page?_some hpage]; rfl
  have hget : ∀ t, s'.page? t = if t = location then none else s.page? t := by
    intro t
    unfold page?
    rw [hchunks', ChunkedMap.get?_remove h.counted hsome]
    by_cases ht : t = location
    · rw [if_pos ht, if_pos ht.symm]
      exact ite_self _
    · rw [if_neg ht, if_neg (Ne.symm ht)]
  have hcard : s'.liveTokens.card + 1 = s.liveTokens.card := by
    have htokens : s'.liveTokens = s.liveTokens.erase location := by
      ext t
      unfold liveTokens
      simp only [mem_erase, mem_filter, mem_range, hget, hlocation']
      by_cases ht : t = location
      · simp [ht]
      · simp [ht]
    rw [htokens, card_erase_add_one (h.mem_liveTokens hpage)]
  have hlive : ∀ t other, s'.page? t = some other → t ≠ location ∧ s.page? t = some other := by
    intro t other ht
    rw [hget] at ht
    split at ht
    · cases ht
    · rename_i hne
      exact ⟨hne, ht⟩
  refine ⟨?_, ?_, ?_, ?_, hnext' ▸ h.next, ?_, ?_, ?_, ?_, ?_⟩
  · rw [hchunks']
    exact h.counted.remove hsome
  · intro t ht
    rw [hchunks', ChunkedMap.get?_remove h.counted hsome]
    split
    · rfl
    · exact h.tokens t (hlocation' ▸ ht)
  · intro t ht
    rw [hget] at ht
    unfold RefPages.put
    split
    · rfl
    · rename_i hne
      rw [if_neg hne] at ht
      exact h.dead t ht
  · intro t other ht
    obtain ⟨hne, ht⟩ := hlive t other ht
    unfold RefPages.put
    rw [if_neg hne, hfile']
    exact h.live t other ht
  · intro t other ht
    obtain ⟨hne, ht⟩ := hlive t other ht
    obtain ⟨haligned, hbelow, hused, hmax⟩ := h.pages t other ht
    rw [hnext', hfree']
    refine ⟨haligned, hbelow, fun hin => ?_, hmax⟩
    rcases Std.ExtTreeSet.mem_insert.mp hin with heq | hin
    · exact hne (h.distinct t location other page ht hpage (eq_of_compare heq).symm)
    · exact hused hin
  · rw [hnext', hfree']
    intro offset hoffset
    rcases Std.ExtTreeSet.mem_insert.mp hoffset with heq | hoffset
    · rw [← eq_of_compare heq]
      exact ⟨(h.pages location page hpage).1, (h.pages location page hpage).2.1⟩
    · exact h.free offset hoffset
  · intro t t' other other' ht ht'
    exact h.distinct t t' other other' (hlive t other ht).2 (hlive t' other' ht').2
  · rw [hlive', h.count]
    omega
  · rw [hcurrent', h.current, ← hcard, Nat.mul_add]
    omega

end Live

theorem Sound.releasePage (location : Nat) : (s.releasePage location).Sound (ref.step (.release location) none) := by
  cases hpage : s.page? location with
  | none =>
    simp only [ImageDataStore.releasePage, hpage, RefPages.step, h.dead location hpage]
    exact h
  | some page =>
    obtain ⟨r, hr, hrefs, hpos, hholds⟩ := h.live location page hpage
    by_cases hshared : page.refs > 1
    · simp only [ImageDataStore.releasePage, hpage, if_pos hshared, RefPages.step, hr, if_pos (hrefs ▸ hshared)]
      unfold RefPages.drop
      rw [hrefs]
      exact h.alter hpage hr rfl (show 1 ≤ page.refs - 1 by omega)
    · simp only [ImageDataStore.releasePage, hpage, if_neg hshared, RefPages.step, hr, if_neg (hrefs ▸ hshared)]
      refine h.remove hpage rfl rfl rfl rfl rfl rfl ?_
      have hone : 1 ≤ s.liveTokens.card := card_pos.mpr ⟨location, h.mem_liveTokens hpage⟩
      refine if_pos (h.current ▸ ?_)
      exact Nat.le_mul_of_pos_right imageDataPageSize hone

end

end ImageDataStore

end CrumbleCracker.Virtio

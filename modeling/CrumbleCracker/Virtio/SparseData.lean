import CrumbleCracker.Lib.HostFile

/-!
# The extent list of a file

`SparseImageData` lists the runs of file pages that the inode's data file holds. `location`, `insert` and
`truncatePages` are the source's, on the sorted slice. A list that `Ordered` describes is known by its pages.
-/

namespace CrumbleCracker.Virtio

open List

def imageDataPageSize : Nat := 4096

structure ImageDataExtent where
  page : Nat
  location : Nat
  count : Nat
  deriving DecidableEq

abbrev SparseImageData := List ImageDataExtent

namespace SparseImageData

/-- The location of a page. `sort.Search` on the sorted slice is the first index of its predicate. -/
def location (d : SparseImageData) (page : Nat) : Option Nat :=
  match d[d.findIdx (fun e => page < e.page + e.count)]? with
  | none => none
  | some e => if page < e.page then none else some (e.location + page - e.page)

/-- Whether the run `e` ends where the page at `loc` begins. -/
def Precedes (e : ImageDataExtent) (page loc : Nat) : Prop := e.page + e.count = page ∧ e.location + e.count = loc
deriving Decidable

/-- Whether the run `e` begins where the page at `loc` ends. -/
def Follows (e : ImageDataExtent) (page loc : Nat) : Prop := page + 1 = e.page ∧ loc + 1 = e.location
deriving Decidable

/-- The runs from `page` on with the page put in front: a run that follows it grows downwards. -/
def insertBefore (after : SparseImageData) (page loc : Nat) : SparseImageData :=
  match after with
  | next :: rest =>
    if Follows next page loc then { next with page := page, location := loc, count := next.count + 1 } :: rest
    else ⟨page, loc, 1⟩ :: next :: rest
  | [] => [⟨page, loc, 1⟩]

/-- The run before the page grown by it, and joined with the run that follows. -/
def growPrevious (previous : ImageDataExtent) (after : SparseImageData) (page loc : Nat) : SparseImageData :=
  match after with
  | next :: rest =>
    if Follows next page loc then { previous with count := previous.count + 1 + next.count } :: rest
    else { previous with count := previous.count + 1 } :: next :: rest
  | [] => [{ previous with count := previous.count + 1 }]

def insert (d : SparseImageData) (page loc : Nat) : SparseImageData :=
  let i := d.findIdx (fun e => page ≤ e.page)
  match (d.take i).getLast? with
  | some previous =>
    if Precedes previous page loc then (d.take i).dropLast ++ growPrevious previous (d.drop i) page loc
    else d.take i ++ insertBefore (d.drop i) page loc
  | none => d.take i ++ insertBefore (d.drop i) page loc

def cutExtent (keep : Nat) (e : ImageDataExtent) : Option ImageDataExtent :=
  if keep ≤ e.page then none
  else
    let count := min e.count (keep - e.page)
    if count ≠ 0 then some { page := e.page, location := e.page + 1, count := count } else none

/-- The extents below page `keep`, as `truncateData` leaves them. -/
def truncatePages (d : SparseImageData) (keep : Nat) : SparseImageData := d.filterMap (cutExtent keep)

/-! ## Ordered extent lists -/

def Covers (e : ImageDataExtent) (page : Nat) : Prop := e.page ≤ page ∧ page < e.page + e.count
deriving Decidable

def HasPage (d : SparseImageData) (page : Nat) : Prop := ∃ e ∈ d, Covers e page
deriving Decidable

/-- The run lies where a data file keeps it: page `p` at location `p + 1`. -/
def InPlace (e : ImageDataExtent) : Prop := 0 < e.count ∧ e.location = e.page + 1

/-- Every run lies in place, and each ends at or before the next begins. -/
structure Ordered (d : SparseImageData) : Prop where
  inPlace : ∀ e ∈ d, InPlace e
  sorted : d.Pairwise (fun a b => a.page + a.count ≤ b.page)

theorem ordered_nil : Ordered [] := ⟨by simp, List.Pairwise.nil⟩

variable {e : ImageDataExtent} {d : SparseImageData}

theorem Ordered.cons_iff : Ordered (e :: d) ↔ InPlace e ∧ (∀ b ∈ d, e.page + e.count ≤ b.page) ∧ Ordered d := by
  constructor
  · rintro ⟨hin, hs⟩
    rw [pairwise_cons] at hs
    exact ⟨hin e (by simp), hs.1, fun b hb => hin b (by simp [hb]), hs.2⟩
  · rintro ⟨he, hb, hd⟩
    exact ⟨by simpa using ⟨he, hd.inPlace⟩, pairwise_cons.mpr ⟨hb, hd.sorted⟩⟩

theorem Ordered.append_iff {a b : SparseImageData} :
    Ordered (a ++ b) ↔ Ordered a ∧ Ordered b ∧ ∀ x ∈ a, ∀ y ∈ b, x.page + x.count ≤ y.page := by
  constructor
  · rintro ⟨hin, hs⟩
    rw [pairwise_append] at hs
    exact ⟨⟨fun e he => hin e (by simp [he]), hs.1⟩, ⟨fun e he => hin e (by simp [he]), hs.2.1⟩, hs.2.2⟩
  · rintro ⟨ha, hb, h⟩
    exact ⟨forall_mem_append.2 ⟨ha.inPlace, hb.inPlace⟩, pairwise_append.mpr ⟨ha.sorted, hb.sorted, h⟩⟩

theorem hasPage_cons {p : Nat} : HasPage (e :: d) p ↔ Covers e p ∨ HasPage d p := by
  simp [HasPage]

theorem hasPage_append {a b : SparseImageData} {p : Nat} : HasPage (a ++ b) p ↔ HasPage a p ∨ HasPage b p := by
  simp only [HasPage, mem_append, or_and_right, exists_or]

theorem not_hasPage_nil (p : Nat) : ¬ HasPage [] p := by
  rintro ⟨e, he, _⟩
  cases he

theorem location_cons (e : ImageDataExtent) (d : SparseImageData) (p : Nat) : location (e :: d) p =
      if p < e.page + e.count then if p < e.page then none else some (e.location + p - e.page) else location d p := by
  unfold location
  rw [findIdx_cons]
  by_cases h : p < e.page + e.count <;> simp [h]

theorem location_isSome (hd : Ordered d) (p : Nat) : (location d p).isSome ↔ HasPage d p := by
  induction d with
  | nil => simp [location, not_hasPage_nil]
  | cons e d ih =>
    obtain ⟨-, hlt, hrest⟩ := Ordered.cons_iff.mp hd
    rw [location_cons, hasPage_cons, ← ih hrest]
    by_cases hend : p < e.page + e.count
    · by_cases hstart : p < e.page
      · -- Every later run starts at or after the end of this one.
        have hlater : ¬ HasPage d p := by
          rintro ⟨b, hb, hcov⟩
          have := hlt b hb
          have := hcov.1
          omega
        simp [hend, hstart, Covers, ih hrest, hlater]
      · simp [hend, hstart, Covers, Nat.le_of_not_lt hstart]
    · simp [hend, Covers]

/-! ## Inserting a page -/

variable {page : Nat}

theorem take_findIdx_lt : ∀ e ∈ d.take (d.findIdx (fun e => page ≤ e.page)), e.page < page := by
  intro e he
  obtain ⟨i, hi, rfl⟩ := mem_iff_getElem.mp he
  rw [length_take] at hi
  have hnot := not_of_lt_findIdx (p := fun e : ImageDataExtent => decide (page ≤ e.page))
    (Nat.lt_of_lt_of_le hi (Nat.min_le_left ..))
  simpa using hnot

theorem drop_findIdx_ge (hd : Ordered d) : ∀ e ∈ d.drop (d.findIdx (fun e => page ≤ e.page)), page ≤ e.page := by
  induction d with
  | nil => simp
  | cons e d ih =>
    obtain ⟨hin, hlt, hrest⟩ := Ordered.cons_iff.mp hd
    rw [findIdx_cons]
    by_cases h : page ≤ e.page
    · simp only [h, decide_true, cond_true, drop_zero]
      refine forall_mem_cons.2 ⟨h, fun b hb => ?_⟩
      have := hlt b hb
      omega
    · simpa [h] using ih hrest

/-- Where a missing page goes: every run before ends at or before it, every run behind begins after it. -/
structure Gap (before after : SparseImageData) (page : Nat) : Prop where
  orderedBefore : Ordered before
  orderedAfter : Ordered after
  ends : ∀ e ∈ before, e.page + e.count ≤ page
  begins : ∀ e ∈ after, page + 1 ≤ e.page

theorem gap_of_not_hasPage (hd : Ordered d) (h : ¬ HasPage d page) :
    Gap (d.take (d.findIdx (fun e => page ≤ e.page))) (d.drop (d.findIdx (fun e => page ≤ e.page))) page := by
  have hsplit := hd
  rw [← take_append_drop (d.findIdx (fun e => page ≤ e.page)) d] at hsplit
  obtain ⟨hbefore, hafter, -⟩ := Ordered.append_iff.mp hsplit
  refine ⟨hbefore, hafter, fun e he => ?_, fun e he => ?_⟩
  · have hlt := take_findIdx_lt e he
    by_contra hcov
    exact h ⟨e, mem_of_mem_take he, by omega, by omega⟩
  · have hge := drop_findIdx_ge hd e he
    have hpos := (hd.inPlace e (mem_of_mem_drop he)).1
    by_contra hcov
    exact h ⟨e, mem_of_mem_drop he, by omega, by omega⟩

variable {after : SparseImageData}

theorem Gap.insertBefore {before : SparseImageData} (g : Gap before after page) :
    Ordered (before ++ insertBefore after page (page + 1)) := by
  have hlt : ∀ x ∈ before, ∀ y ∈ SparseImageData.insertBefore after page (page + 1), x.page + x.count ≤ y.page := by
    intro x hx y hy
    have hend := g.ends x hx
    suffices page ≤ y.page by omega
    cases after with
    | nil => simp [SparseImageData.insertBefore] at hy; simp [hy]
    | cons next rest =>
      have hnext := g.begins next (by simp)
      have hbegin : ∀ e ∈ rest, page ≤ e.page := fun e he => by
        have := g.begins e (by simp [he])
        omega
      simp only [SparseImageData.insertBefore] at hy
      split at hy <;> simp only [mem_cons] at hy <;> grind
  refine Ordered.append_iff.mpr ⟨g.orderedBefore, ?_, hlt⟩
  cases after with
  | nil => exact Ordered.cons_iff.mpr ⟨⟨by simp, rfl⟩, by simp, ordered_nil⟩
  | cons next rest =>
    obtain ⟨hin, hrest, hord⟩ := Ordered.cons_iff.mp g.orderedAfter
    simp only [SparseImageData.insertBefore]
    split
    · rename_i hf
      refine Ordered.cons_iff.mpr ⟨⟨by simp, rfl⟩, fun b hb => ?_, hord⟩
      have := hrest b hb
      have := hf.1
      simp only
      omega
    · exact Ordered.cons_iff.mpr ⟨⟨by simp, rfl⟩, fun b hb => g.begins b hb, g.orderedAfter⟩

theorem hasPage_insertBefore {loc p : Nat} : HasPage (insertBefore after page loc) p ↔ HasPage after p ∨ p = page := by
  cases after with
  | nil => simp [insertBefore, hasPage_cons, not_hasPage_nil, Covers]; omega
  | cons next rest =>
    simp only [insertBefore]
    split
    · rename_i hf
      have := hf.1
      simp only [hasPage_cons, Covers]
      by_cases hr : HasPage rest p <;> simp only [hr, or_true, or_false, true_or]
      omega
    · simp only [hasPage_cons, Covers]
      by_cases hr : HasPage rest p <;> simp only [hr, or_true, or_false, true_or]
      omega

/-- A run that grows by the page is that run joined with what `insertBefore` puts behind it. -/
theorem growPrevious_insertBefore (after : SparseImageData) (page loc : Nat) : ∃ e rest,
    insertBefore after page loc = e :: rest ∧ e.page = page ∧
      ∀ previous, growPrevious previous after page loc =
        { previous with count := previous.count + e.count } :: rest := by
  cases after with
  | nil => exact ⟨_, _, rfl, rfl, fun _ => rfl⟩
  | cons next rest =>
    simp only [insertBefore, growPrevious]
    split
    · refine ⟨_, _, rfl, rfl, fun previous => ?_⟩
      rw [Nat.add_assoc, Nat.add_comm 1]
    · exact ⟨_, _, rfl, rfl, fun _ => rfl⟩

section Join

variable {before rest : SparseImageData} {a b : ImageDataExtent} (hnext : a.page + a.count = b.page)

include hnext

theorem ordered_join (h : Ordered (before ++ a :: b :: rest)) :
    Ordered (before ++ { a with count := a.count + b.count } :: rest) := by
  obtain ⟨hbefore, hab, hlt⟩ := Ordered.append_iff.mp h
  obtain ⟨ha, -, hb⟩ := Ordered.cons_iff.mp hab
  obtain ⟨-, hbrest, hrest⟩ := Ordered.cons_iff.mp hb
  refine Ordered.append_iff.mpr ⟨hbefore, Ordered.cons_iff.mpr ⟨⟨Nat.add_pos_left ha.1 _, ha.2⟩, fun c hc => ?_, hrest⟩,
    ?_⟩
  · have := hbrest c hc
    simp only
    omega
  · intro x hx y hy
    rcases mem_cons.mp hy with rfl | hy
    · exact hlt x hx a (by simp)
    · exact hlt x hx y (by simp [hy])

theorem hasPage_join (p : Nat) :
    HasPage (before ++ { a with count := a.count + b.count } :: rest) p ↔ HasPage (before ++ a :: b :: rest) p := by
  have hcovers : Covers { a with count := a.count + b.count } p ↔ Covers a p ∨ Covers b p := by
    simp only [Covers]
    omega
  simp only [hasPage_append, hasPage_cons, hcovers, or_assoc]

end Join

theorem insert_spec (hd : Ordered d) (h : ¬ HasPage d page) :
    Ordered (insert d page (page + 1)) ∧ ∀ p, HasPage (insert d page (page + 1)) p ↔ HasPage d p ∨ p = page := by
  have g := gap_of_not_hasPage hd h
  have hsplit : ∀ p, HasPage d p ↔ HasPage (d.take (d.findIdx (fun e => page ≤ e.page))) p ∨
      HasPage (d.drop (d.findIdx (fun e => page ≤ e.page))) p := fun p => by
    rw [← hasPage_append, take_append_drop]
  unfold insert
  simp only
  generalize d.drop (d.findIdx (fun e => page ≤ e.page)) = after at g hsplit
  generalize d.take (d.findIdx (fun e => page ≤ e.page)) = before at g hsplit
  have hplain : Ordered (before ++ insertBefore after page (page + 1)) ∧
      ∀ p, HasPage (before ++ insertBefore after page (page + 1)) p ↔ HasPage d p ∨ p = page :=
    ⟨g.insertBefore, fun p => by rw [hasPage_append, hasPage_insertBefore, hsplit, or_assoc]⟩
  cases hlast : before.getLast? with
  | none => exact hplain
  | some previous =>
    simp only
    split
    · rename_i hp
      obtain ⟨init, rfl⟩ := getLast?_eq_some_iff.mp hlast
      obtain ⟨e, rest, hinsert, hpage, hgrow⟩ := growPrevious_insertBefore after page (page + 1)
      rw [hinsert, append_assoc, singleton_append] at hplain
      rw [dropLast_concat, hgrow]
      have hnext := hp.1.trans hpage.symm
      exact ⟨ordered_join hnext hplain.1, fun p => (hasPage_join hnext p).trans (hplain.2 p)⟩
    · exact hplain

/-! ## Truncation -/

theorem cutExtent_eq_some {keep : Nat} {c : ImageDataExtent} : cutExtent keep e = some c ↔
      e.page < keep ∧ 0 < e.count ∧ c = ⟨e.page, e.page + 1, min e.count (keep - e.page)⟩ := by
  unfold cutExtent
  split
  · simp; omega
  · simp only [ne_eq, ite_not]
    split
    · simp; omega
    · simp only [Option.some.injEq]
      constructor
      · rintro rfl
        exact ⟨by omega, by omega, rfl⟩
      · rintro ⟨-, -, rfl⟩
        rfl

theorem truncatePages_spec (hd : Ordered d) (keep : Nat) :
    Ordered (truncatePages d keep) ∧ ∀ p, HasPage (truncatePages d keep) p ↔ HasPage d p ∧ p < keep := by
  refine ⟨⟨fun c hc => ?_, ?_⟩, fun p => ⟨?_, ?_⟩⟩
  · obtain ⟨e, -, hcut⟩ := mem_filterMap.mp hc
    obtain ⟨hlt, hpos, rfl⟩ := cutExtent_eq_some.mp hcut
    exact ⟨by simp only; omega, rfl⟩
  · refine pairwise_filterMap.mpr (hd.sorted.imp ?_)
    intro a b hab x hx y hy
    obtain ⟨-, -, rfl⟩ := cutExtent_eq_some.mp hx
    obtain ⟨-, -, rfl⟩ := cutExtent_eq_some.mp hy
    simp only
    omega
  · rintro ⟨c, hc, hcov⟩
    obtain ⟨e, he, hcut⟩ := mem_filterMap.mp hc
    obtain ⟨hlt, hpos, rfl⟩ := cutExtent_eq_some.mp hcut
    simp only [Covers] at hcov
    exact ⟨⟨e, he, by omega, by omega⟩, by omega⟩
  · rintro ⟨⟨e, he, hcov⟩, hp⟩
    have := hcov.1
    have := hcov.2
    refine ⟨⟨e.page, e.page + 1, min e.count (keep - e.page)⟩, mem_filterMap.mpr ⟨e, he, ?_⟩, ?_⟩
    · exact cutExtent_eq_some.mpr ⟨by omega, by omega, rfl⟩
    · simp only [Covers]
      omega

end SparseImageData

end CrumbleCracker.Virtio

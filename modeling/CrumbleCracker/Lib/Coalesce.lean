import Mathlib.Data.List.Basic

/-!
# Coalescing neighbours in a sorted list

`coalesce join` goes through a list once and joins each element into the one kept last, where `join` allows it.

* `exists_coalesce` : what the elements of a sorted list cover together does not change;
* `pairwise_coalesce` : a list whose elements stand in the relation `S` ends up with its elements in the sharper
  relation `T`, when neighbours that are not joined are in `T` already.
-/

namespace CrumbleCracker.Coalesce

open List

variable {α β : Type} {join : α → α → Option α} {last : α} {xs : List α}

/-- The rest of the list, with `last` the element kept last. -/
def coalesceFrom (join : α → α → Option α) (last : α) : List α → List α
  | [] => [last]
  | x :: xs =>
    match join last x with
    | some joined => coalesceFrom join joined xs
    | none => last :: coalesceFrom join x xs

def coalesce (join : α → α → Option α) : List α → List α
  | [] => []
  | x :: xs => coalesceFrom join x xs

theorem forall_coalesceFrom {P : α → Prop} (hjoin : ∀ a b c, P a → P b → join a b = some c → P c)
    (h : ∀ x ∈ last :: xs, P x) :
    ∀ x ∈ coalesceFrom join last xs, P x := by
  induction xs generalizing last with
  | nil => exact h
  | cons x xs ih =>
    rw [forall_mem_cons, forall_mem_cons] at h
    unfold coalesceFrom
    split
    · rename_i joined hjoined
      exact ih (forall_mem_cons.mpr ⟨hjoin _ _ _ h.1 h.2.1 hjoined, h.2.2⟩)
    · exact forall_mem_cons.mpr ⟨h.1, ih (forall_mem_cons.mpr h.2)⟩

theorem forall_coalesce {P : α → Prop} (hjoin : ∀ a b c, P a → P b → join a b = some c → P c) (h : ∀ x ∈ xs, P x) :
    ∀ x ∈ coalesce join xs, P x := by
  match xs with
  | [] => exact h
  | x :: xs => exact forall_coalesceFrom hjoin h

section Sorted

variable {S T : α → α → Prop} (hright : ∀ a b c d, S a b → join a b = some c → S a d → S b d → S c d)

include hright

/-- The first step over a sorted list that joins leaves a sorted list. -/
theorem pairwise_joined {x joined : α} (h : (last :: x :: xs).Pairwise S) (hjoined : join last x = some joined) :
    (joined :: xs).Pairwise S := by
  rw [pairwise_cons, forall_mem_cons, pairwise_cons] at h
  obtain ⟨⟨hlast, hrest⟩, hx, hxs⟩ := h
  exact pairwise_cons.mpr ⟨fun d hd => hright _ _ _ d hlast hjoined (hrest d hd) (hx d hd), hxs⟩

section Cover

variable {C : α → β → Prop}
  (hcover : ∀ a b c, S a b → join a b = some c → ∀ y, C c y ↔ C a y ∨ C b y)

include hcover

theorem exists_coalesceFrom (h : (last :: xs).Pairwise S) (y : β) :
    (∃ x ∈ coalesceFrom join last xs, C x y) ↔ ∃ x ∈ last :: xs, C x y := by
  induction xs generalizing last with
  | nil => rfl
  | cons x xs ih =>
    unfold coalesceFrom
    split
    · rename_i joined hjoined
      have hlast : S last x := rel_of_pairwise_cons h mem_cons_self
      rw [ih (pairwise_joined hright h hjoined)]
      simp only [exists_mem_cons_iff, hcover _ _ _ hlast hjoined, or_assoc]
    · have hx := ih (List.Pairwise.of_cons h)
      simp only [exists_mem_cons_iff] at hx ⊢
      rw [hx]

theorem exists_coalesce (h : xs.Pairwise S) (y : β) : (∃ x ∈ coalesce join xs, C x y) ↔ ∃ x ∈ xs, C x y := by
  match xs with
  | [] => rfl
  | x :: xs => exact exists_coalesceFrom hright hcover h y

end Cover

variable (hleft : ∀ z a b c, join a b = some c → T z a → T z c) (hapart : ∀ a b, S a b → join a b = none → T a b)
  (hfar : ∀ a b d, S a b → S b d → T a d)

include hleft hapart hfar

theorem pairwise_coalesceFrom (h : (last :: xs).Pairwise S) : (coalesceFrom join last xs).Pairwise T := by
  induction xs generalizing last with
  | nil => exact pairwise_singleton T last
  | cons x xs ih =>
    unfold coalesceFrom
    split
    · rename_i joined hjoined
      exact ih (pairwise_joined hright h hjoined)
    · rename_i hjoined
      have hlast : S last x := rel_of_pairwise_cons h mem_cons_self
      have hrest := List.Pairwise.of_cons h
      refine pairwise_cons.mpr ⟨?_, ih hrest⟩
      -- A later element is a join that starts from one of the rest, all of them far from `last`.
      refine forall_coalesceFrom (fun a b c ha _ hc => hleft last a b c hc ha) ?_
      refine forall_mem_cons.mpr ⟨hapart _ _ hlast hjoined, fun d hd => ?_⟩
      exact hfar _ _ _ hlast (rel_of_pairwise_cons hrest hd)

theorem pairwise_coalesce (h : xs.Pairwise S) : (coalesce join xs).Pairwise T := by
  match xs with
  | [] => exact List.Pairwise.nil
  | x :: xs => exact pairwise_coalesceFrom hright hleft hapart hfar h

end Sorted

end CrumbleCracker.Coalesce

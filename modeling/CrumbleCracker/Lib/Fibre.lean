import Mathlib

/-!
# The keys of a value

`fibre t b` is the set of keys a finite map sends to `b`.
-/

namespace CrumbleCracker

open Std.ExtTreeMap

variable {α β : Type} {cmp : α → α → Ordering} [Std.TransCmp cmp] [Std.LawfulEqCmp cmp] [DecidableEq α] [DecidableEq β]

def fibre (t : Std.ExtTreeMap α β cmp) (b : β) : Finset α := (t.keys.filter fun a => t[a]? = some b).toFinset

@[simp] theorem mem_fibre {t : Std.ExtTreeMap α β cmp} {a : α} {b : β} : a ∈ fibre t b ↔ t[a]? = some b := by
  simp only [fibre, List.mem_toFinset, List.mem_filter, mem_keys, decide_eq_true_eq, and_iff_right_iff_imp]
  intro h
  exact isSome_getElem?_iff_mem.mp (h ▸ rfl)

@[simp] theorem fibre_empty (b : β) : fibre (∅ : Std.ExtTreeMap α β cmp) b = ∅ := by
  ext a
  simp

variable (t : Std.ExtTreeMap α β cmp)

theorem fibre_insert_self (a : α) (b : β) : fibre (t.insert a b) b = insert a (fibre t b) := by
  ext c
  simp only [mem_fibre, Finset.mem_insert, getElem?_insert, Std.LawfulEqCmp.compare_eq_iff_eq]
  grind

theorem fibre_insert_of_ne (a : α) {b c : β} (h : b ≠ c) : fibre (t.insert a b) c = (fibre t c).erase a := by
  ext d
  simp only [mem_fibre, Finset.mem_erase, getElem?_insert, Std.LawfulEqCmp.compare_eq_iff_eq]
  grind

theorem fibre_erase (a : α) (b : β) : fibre (t.erase a) b = (fibre t b).erase a := by
  ext c
  simp only [mem_fibre, Finset.mem_erase, getElem?_erase, Std.LawfulEqCmp.compare_eq_iff_eq]
  grind

end CrumbleCracker

import Mathlib

/-!
# Tables

Maps with each key once (Mathlib's `AList`), and what their values weigh together.

* `Table.lookup_insert`, `Table.lookup_erase` : what is found after a change;
* `Table.sum_insert`, `Table.sum_erase`, `Table.sum_of_lookup` : the weight after a change, and of a table made from
  another;
* `Within` : a bound on two tables together, kept when an entry is let in below it, taken out, or moved.
-/

namespace CrumbleCracker

open List

abbrev Table (κ β : Type) : Type := AList fun _ : κ => β

namespace Table

variable {κ β γ : Type} [DecidableEq κ] {t : Table κ β} {key k : κ} {v x : β}

@[grind =] theorem lookup_insert (t : Table κ β) (key k : κ) (v : β) :
    (t.insert key v).lookup k = if k = key then some v else t.lookup k := by
  split
  · next hk => rw [hk, AList.lookup_insert]
  · next hk => exact AList.lookup_insert_ne hk

@[grind =] theorem lookup_erase (t : Table κ β) (key k : κ) :
    (t.erase key).lookup k = if k = key then none else t.lookup k := by
  split
  · next hk => rw [hk, AList.lookup_erase]
  · next hk => exact AList.lookup_erase_ne hk

theorem lookup_insert_some (h : (t.insert key v).lookup k = some x) :
    (k = key ∧ x = v) ∨ (k ≠ key ∧ t.lookup k = some x) := by
  rw [lookup_insert] at h
  split at h
  · next hk => exact .inl ⟨hk, (Option.some.inj h).symm⟩
  · next hk => exact .inr ⟨hk, h⟩

theorem lookup_erase_some (h : (t.erase key).lookup k = some x) : k ≠ key ∧ t.lookup k = some x := by
  rw [lookup_erase] at h
  split at h
  · cases h
  · next hk => exact ⟨hk, h⟩

def sum (t : Table κ β) (w : β → Nat) : Nat := (t.entries.map fun e => w e.2).sum

theorem sum_insert (h : t.lookup key = none) (w : β → Nat) : sum (t.insert key v) w = w v + sum t w := by
  have hnot : key ∉ t := AList.lookup_eq_none.mp h
  rw [sum, AList.entries_insert_of_notMem hnot, map_cons, sum_cons]
  rfl

theorem sum_erase (h : t.lookup key = some v) (w : β → Nat) : sum t w = w v + sum (t.erase key) w := by
  have hmem : key ∈ t.entries.keys := AList.lookup_isSome.mp (by rw [h]; rfl)
  obtain ⟨b, l₁, l₂, hno, heq, hrest⟩ := exists_of_kerase hmem
  have hb : b = v := by
    have hin : (⟨key, b⟩ : Sigma fun _ : κ => β) ∈ t.entries := by rw [heq]; simp
    exact Option.some.inj ((AList.mem_lookup_iff.mpr hin).symm.trans h)
  have herase : (t.erase key).entries = l₁ ++ l₂ := hrest
  rw [sum, sum, herase, heq, hb]
  simp only [map_append, map_cons, sum_append, sum_cons]
  omega

theorem sum_erase_le (t : Table κ β) (key : κ) (w : β → Nat) : sum (t.erase key) w ≤ sum t w := by
  cases h : t.lookup key with
  | none =>
    have hnot : key ∉ t := AList.lookup_eq_none.mp h
    rw [sum, show (t.erase key).entries = t.entries from kerase_of_notMem_keys hnot]
    exact le_rfl
  | some v =>
    have := sum_erase h w
    omega

theorem sum_of_lookup {u : Table κ γ} {g : β → γ} (h : ∀ key, u.lookup key = (t.lookup key).map g) (w : γ → Nat) :
    sum u w = sum t fun x => w (g x) := by
  let l : List (Sigma fun _ : κ => γ) := t.entries.map (Sigma.map id fun _ => g)
  have hkeys : l.NodupKeys := by
    have := t.nodupKeys
    rw [List.NodupKeys, List.keys] at this ⊢
    rwa [map_map]
  have hperm : u.entries.Perm l := by
    refine lookup_ext u.nodupKeys hkeys fun key y => ?_
    rw [dlookup_map₂, show u.entries.dlookup key = u.lookup key from rfl, h]
    rfl
  rw [sum, (hperm.map _).sum_eq, map_map]
  rfl
end Table

/-- Two tables weigh no more than `max` together, where a bound is set. -/
def Within {κ β γ : Type} (t : Table κ β) (u : Table κ γ) (f : β → Nat) (g : γ → Nat) (max : Nat) : Prop :=
  0 < max → Table.sum t f + Table.sum u g ≤ max

section Within

variable {κ β γ : Type} [DecidableEq κ] {t : Table κ β} {u : Table κ γ} {f : β → Nat} {g : γ → Nat}
  {max : Nat} {key : κ}

theorem Within.admitted {v : γ} (hu : u.lookup key = none) (h : 0 < max → Table.sum t f + Table.sum u g + g v ≤ max) :
    Within t (u.insert key v) f g max := by
  intro hmax
  rw [Table.sum_insert hu]
  have := h hmax
  omega

theorem Within.eraseRight (h : Within t u f g max) (key : κ) : Within t (u.erase key) f g max := fun hmax =>
  (Nat.add_le_add_left (Table.sum_erase_le u key g) _).trans (h hmax)

theorem Within.eraseLeft (h : Within t u f g max) (key : κ) : Within (t.erase key) u f g max := fun hmax =>
  (Nat.add_le_add_right (Table.sum_erase_le t key f) _).trans (h hmax)

theorem Within.move (h : Within t u f g max) {b : β} {c : γ} (ht : t.lookup key = none) (hu : u.lookup key = some c)
    (hw : f b = g c) : Within (t.insert key b) (u.erase key) f g max := by
  intro hmax
  have hsum := Table.sum_erase hu g
  have := h hmax
  rw [Table.sum_insert ht]
  omega

end Within

end CrumbleCracker

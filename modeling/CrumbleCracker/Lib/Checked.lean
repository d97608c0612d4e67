import CrumbleCracker.Lib.Bytes

/-!
# Checked access to bytes

Reading a byte string as Go does: an index or a range outside it is a fault, so that its absence is something to prove.

* `Yields x Q E` : the computation ends with a value that has `Q` or an error that has `E`;
* `index`, `slice`, `natBE` : one byte, a range, and a big-endian number (`yields_index`, `yields_slice`).
-/

namespace CrumbleCracker.Checked

variable {ε α β : Type}

def Yields (x : Except ε α) (Q : α → Prop) (E : ε → Prop) : Prop := match x with
  | .ok a => Q a
  | .error e => E e

section Rules

variable {Q : α → Prop} {R : β → Prop} {E : ε → Prop} {x : Except ε α}

theorem Yields.bind {f : α → Except ε β} (hx : Yields x Q E) (hf : ∀ a, Q a → Yields (f a) R E) :
    Yields (x >>= f) R E := by
  cases x with
  | ok a => exact hf a hx
  | error e => exact hx

theorem Yields.ok (h : Yields x (fun _ => True) fun _ => False) : ∃ a, x = .ok a :=
  match x, h with
  | .ok a, _ => ⟨a, rfl⟩

theorem yields_ite {c : Prop} [Decidable c] {y : Except ε α} (hx : c → Yields x Q E) (hy : ¬c → Yields y Q E) :
    Yields (if c then x else y) Q E := by
  by_cases h : c
  · rw [if_pos h]
    exact hx h
  · rw [if_neg h]
    exact hy h

theorem Yields.mono {Q' : α → Prop} {E' : ε → Prop} (h : Yields x Q E) (hQ : ∀ a, Q a → Q' a) (hE : ∀ e, E e → E' e) :
    Yields x Q' E' := by
  cases x with
  | ok a => exact hQ a h
  | error e => exact hE e h

end Rules

/-- `b[i]`. -/
def index (fault : ε) (b : Bytes) (i : Nat) : Except ε UInt8 := match b[i]? with
  | some x => .ok x
  | none => .error fault

/-- `b[lo:hi]`. -/
def slice (fault : ε) (b : Bytes) (lo hi : Nat) : Except ε Bytes :=
  if lo ≤ hi ∧ hi ≤ b.length then .ok (field b lo (hi - lo)) else .error fault

def natBE (b : Bytes) : Nat := natLE b.reverse

variable {b : Bytes}

variable (fault : ε)

theorem index_eq {i : Nat} (h : i < b.length) : index fault b i = .ok (b.get ⟨i, h⟩) := by
  rw [index, List.getElem?_eq_getElem h]
  rfl

theorem slice_eq {lo hi : Nat} (hle : lo ≤ hi) (h : hi ≤ b.length) :
    slice fault b lo hi = .ok (field b lo (hi - lo)) := if_pos ⟨hle, h⟩

variable {E : ε → Prop}

theorem yields_index {i : Nat} (h : i < b.length) : Yields (index fault b i) (fun _ => True) E := by
  rw [index_eq fault h]
  exact trivial

theorem yields_slice {lo hi : Nat} (hle : lo ≤ hi) (h : hi ≤ b.length) :
    Yields (slice fault b lo hi) (fun x => x.length = hi - lo) E := by
  rw [slice_eq fault hle h]
  show (field b lo (hi - lo)).length = hi - lo
  rw [field, List.length_take, List.length_drop]
  omega

end CrumbleCracker.Checked

import Mathlib.Tactic.Common
import Mathlib.Data.Nat.Basic

/-!
# A ring, by counts

* `RingCount` : a ring of `size` entries by how many entries were ever put and taken; `slot` is where the next one goes,
  `first` where the oldest one lies, and `phase` tells whether the lap is an odd one;
* `push` : one more entry (`slot_push`, `phase_push`);
* `takeTo` : the entries up to a position are taken (`first_takeTo`, `held_takeTo`).
-/

namespace CrumbleCracker

structure RingCount where
  size : Nat
  put : Nat := 0
  taken : Nat := 0
deriving DecidableEq

namespace RingCount

variable {r : RingCount}

def slot (r : RingCount) : Nat := r.put % r.size

def first (r : RingCount) : Nat := r.taken % r.size

/-- True in the first lap, and turned over by each lap. -/
def phase (r : RingCount) : Bool := r.put / r.size % 2 = 0

/-- The entries that were not taken. -/
def held (r : RingCount) : Nat := r.put - r.taken

/-- No entry was taken before it was put, and none was put over one that was not taken. -/
structure Fits (r : RingCount) : Prop where
  pos : 0 < r.size
  taken_le : r.taken ≤ r.put
  held_le : r.held ≤ r.size

def push (r : RingCount) : RingCount := { r with put := r.put + 1 }

/-- The entries from the oldest one up to position `pos`. -/
def ahead (r : RingCount) (pos : Nat) : Nat := (pos + r.size - r.first) % r.size

/-- The entries up to `pos` are taken. In a full ring a position that stays where it was means all of them. -/
def takeTo (r : RingCount) (pos : Nat) : RingCount :=
  { r with taken := r.taken + if r.ahead pos = 0 ∧ r.held = r.size then r.size else r.ahead pos }

theorem slot_lt (h : 0 < r.size) : r.slot < r.size := Nat.mod_lt _ h

theorem first_lt (h : 0 < r.size) : r.first < r.size := Nat.mod_lt _ h

theorem slot_push (r : RingCount) : r.push.slot = (r.slot + 1) % r.size := by
  show (r.put + 1) % r.size = (r.put % r.size + 1) % r.size
  rw [Nat.mod_add_mod]

/-- The phase turns over with the entry that closes a lap. -/
theorem phase_push (r : RingCount) : r.push.phase = if r.push.slot = 0 then !r.phase else r.phase := by
  have hdiv : r.push.put / r.push.size = r.put / r.size + if r.push.slot = 0 then 1 else 0 := by
    show (r.put + 1) / r.size = _
    have hiff : r.size ∣ r.put + 1 ↔ r.push.slot = 0 := Nat.dvd_iff_mod_eq_zero
    rw [Nat.succ_div]
    by_cases hslot : r.push.slot = 0
    · rw [if_pos hslot, if_pos (hiff.mpr hslot)]
    · rw [if_neg hslot, if_neg (mt hiff.mp hslot)]
  rw [phase, hdiv]
  split
  · rw [phase, ← decide_not]
    apply decide_eq_decide.mpr
    omega
  · rfl

theorem Fits.push (h : r.Fits) (hroom : r.held < r.size) : r.push.Fits := by
  obtain ⟨hpos, hle, hheld⟩ := h
  refine ⟨hpos, ?_, ?_⟩
  · exact Nat.le_succ_of_le hle
  · simp only [held, RingCount.push] at hroom ⊢
    omega

theorem held_push (h : r.Fits) : r.push.held = r.held + 1 := by
  have hle := h.taken_le
  simp only [held, push]
  omega

variable {pos : Nat}

theorem ahead_eq (hpos : pos < r.size) :
    r.ahead pos = if pos < r.first then r.size - r.first + pos else pos - r.first := by
  have hfirst := first_lt (Nat.zero_lt_of_lt hpos)
  unfold ahead
  split
  · rw [Nat.mod_eq_of_lt (by omega)]
    omega
  · have heq : pos + r.size - r.first = (pos - r.first) + r.size := by omega
    rw [heq, Nat.add_mod_right, Nat.mod_eq_of_lt (by omega)]

theorem first_takeTo (hpos : pos < r.size) : (r.takeTo pos).first = pos := by
  have hfirst := first_lt (Nat.zero_lt_of_lt hpos)
  have hahead := ahead_eq (r := r) hpos
  show (r.taken + _) % r.size = pos
  rw [← Nat.mod_add_mod]
  change (r.first + _) % r.size = pos
  split
  · rename_i hfull
    rw [Nat.add_mod_right, Nat.mod_eq_of_lt hfirst]
    rw [hahead] at hfull
    split at hfull
    · omega
    · omega
  · rw [hahead]
    split
    · have heq : r.first + (r.size - r.first + pos) = pos + r.size := by omega
      rw [heq, Nat.add_mod_right, Nat.mod_eq_of_lt hpos]
    · rw [Nat.add_sub_cancel' (by omega), Nat.mod_eq_of_lt hpos]

theorem held_takeTo (r : RingCount) (pos : Nat) :
    (r.takeTo pos).held = r.held - if r.ahead pos = 0 ∧ r.held = r.size then r.size else r.ahead pos :=
  (Nat.sub_sub _ _ _).symm

theorem Fits.takeTo (h : r.Fits) (hle : r.ahead pos ≤ r.held) : (r.takeTo pos).Fits := by
  obtain ⟨hpos, htaken, hheld⟩ := h
  refine ⟨hpos, ?_, ?_⟩
  · show r.taken + _ ≤ r.put
    unfold held at hle ⊢
    split
    · omega
    · omega
  · rw [held_takeTo]
    exact Nat.le_trans (Nat.sub_le _ _) hheld

end RingCount

end CrumbleCracker

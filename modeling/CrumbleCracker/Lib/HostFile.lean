import CrumbleCracker.Lib.Bytes

/-!
# Byte-addressed files

A file is the list of its bytes. `writeAt` is a positioned write (a gap behind the end reads as zeros),
`truncateTo` cuts or zero-extends to a length. `byteAt f i` is the byte at `i`, zero behind the end; two files are
equal when their lengths and their bytes are (`ext_byteAt`), and each operation is known by its length and by what
it does to `byteAt`.
-/

namespace CrumbleCracker

open List

/-- The byte at `i`, zero behind the end. -/
def byteAt (f : Bytes) (i : Nat) : UInt8 := f.getD i 0

/-- `f` with `src` written at `off`. -/
def writeAt (f : Bytes) (off : Nat) (src : Bytes) : Bytes :=
  (f ++ List.replicate (off - f.length) 0).take off ++ src ++ f.drop (off + src.length)

/-- `f` cut, or extended with zeros, to `n` bytes. -/
def truncateTo (f : Bytes) (n : Nat) : Bytes := f.take n ++ List.replicate (n - f.length) 0

theorem byteAt_of_le {f : Bytes} {i : Nat} (h : f.length ≤ i) : byteAt f i = 0 := by
  simp [byteAt, getElem?_eq_none h]

theorem getElem?_eq_byteAt {f : Bytes} {i : Nat} (h : i < f.length) : f[i]? = some (byteAt f i) := by
  simp [byteAt, getElem?_eq_getElem h]

theorem ext_byteAt {f g : Bytes} (hlen : f.length = g.length)
    (h : ∀ i < g.length, byteAt f i = byteAt g i) : f = g := by
  apply ext_getElem? fun i => ?_
  by_cases hi : i < g.length
  · rw [getElem?_eq_byteAt (hlen ▸ hi), getElem?_eq_byteAt hi, h i hi]
  · rw [getElem?_eq_none (by omega), getElem?_eq_none (by omega)]

@[simp] theorem byteAt_replicate_zero (n i : Nat) : byteAt (List.replicate n 0) i = 0 := by
  simp only [byteAt, getD_eq_getElem?_getD, getElem?_replicate]
  split <;> rfl

variable (f : Bytes)

theorem byteAt_append (g : Bytes) (i : Nat) :
    byteAt (f ++ g) i = if i < f.length then byteAt f i else byteAt g (i - f.length) := by
  simp only [byteAt, getD_eq_getElem?_getD, getElem?_append]
  split <;> rfl

theorem byteAt_take (n i : Nat) : byteAt (f.take n) i = if i < n then byteAt f i else 0 := by
  simp only [byteAt, getD_eq_getElem?_getD, getElem?_take]
  split <;> rfl

theorem byteAt_drop (n i : Nat) : byteAt (f.drop n) i = byteAt f (n + i) := by
  simp only [byteAt, getD_eq_getElem?_getD, getElem?_drop]

@[simp] theorem length_writeAt (off : Nat) (src : Bytes) :
    (writeAt f off src).length = max f.length (off + src.length) := by
  simp only [writeAt, length_append, length_take, length_replicate, length_drop]
  omega

theorem byteAt_writeAt (off : Nat) (src : Bytes) (i : Nat) :
    byteAt (writeAt f off src) i = if off ≤ i ∧ i < off + src.length then byteAt src (i - off) else byteAt f i := by
  have hpad : ((f ++ List.replicate (off - f.length) 0).take off).length = off := by
    simp only [length_take, length_append, length_replicate]
    omega
  rw [writeAt, append_assoc, byteAt_append, hpad, byteAt_append, byteAt_take, byteAt_append,
    byteAt_replicate_zero, byteAt_drop]
  by_cases hlow : i < off
  · rw [if_pos hlow, if_pos hlow, if_neg (show ¬(off ≤ i ∧ i < off + src.length) by omega)]
    split
    · rfl
    · rw [byteAt_of_le (by omega)]
  · by_cases hsrc : i < off + src.length
    · rw [if_neg hlow, if_pos (by omega), if_pos (by omega)]
    · rw [if_neg hlow, if_neg (by omega), if_neg (by omega)]
      congr 1
      omega

@[simp] theorem length_truncateTo (n : Nat) : (truncateTo f n).length = n := by
  simp only [truncateTo, length_append, length_take, length_replicate]
  omega

theorem byteAt_truncateTo (n i : Nat) : byteAt (truncateTo f n) i = if i < n then byteAt f i else 0 := by
  rw [truncateTo, byteAt_append, byteAt_take, byteAt_replicate_zero, length_take]
  by_cases hi : i < min n f.length
  · rw [if_pos hi]
  · rw [if_neg hi]
    split
    · rw [byteAt_of_le (by omega)]
    · rfl

theorem length_field (off n : Nat) : (field f off n).length = min n (f.length - off) := by
  simp [field]

theorem byteAt_field (off n i : Nat) : byteAt (field f off n) i = if i < n then byteAt f (off + i) else 0 := by
  rw [field, byteAt_take, byteAt_drop]

end CrumbleCracker

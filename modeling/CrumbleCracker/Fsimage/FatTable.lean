import CrumbleCracker.Lib.Bytes

/-!
# The table of a FAT image

`FATTableRegion` keeps the entries as numbers and makes their bytes when they are read (`readAt`). `packing` is what the
bytes of the table are; `readAt_exact_iff` says which ranges of it a read returns. Two entries of 16 or 32 bits are read
from wherever the read starts as if it started at an entry, and what is not a whole entry is left out; a last 12-bit
entry without a partner is never read.
-/

namespace CrumbleCracker.Fat

open List

inductive FatType where
  | fat12
  | fat16
  | fat32
deriving DecidableEq

/-- `FATTableRegion`, as far as reading goes. -/
structure FATTableRegion where
  fatType : FatType
  entries : List UInt32
  /-- The number of clusters is a `uint32`. -/
  count : entries.length < 2 ^ 32

/-! ## Reading -/

/-- Byte `i` of the three that hold two entries of 12 bits. -/
def groupByte (entry0 entry1 : UInt32) : Nat → UInt8
  | 0 => (entry0 &&& 0xff).toUInt8
  | 1 => ((entry0 >>> 8) &&& 0x0f).toUInt8 ||| ((entry1 &&& 0x0f) <<< 4).toUInt8
  | _ => ((entry1 >>> 4) &&& 0xff).toUInt8

/-- `readFAT12`: so many bytes from byte `pos` on. -/
def readFAT12 (entries : List UInt32) : Nat → Nat → Bytes
  | 0, _ => []
  | left + 1, pos =>
    let entryPairIndex := pos / 3 * 2
    if entries.length ≤ entryPairIndex + 1 then []
    else
      groupByte (entries.getD entryPairIndex 0 &&& 0xfff) (entries.getD (entryPairIndex + 1) 0 &&& 0xfff) (pos % 3)
        :: readFAT12 entries left (pos + 1)

/-- The loop of `readFAT16` and `readFAT32`, over entries of `k` bytes: `left` bytes from byte `pos` on. -/
def readWords (k : Nat) (mask : UInt32) (entries : List UInt32) : Nat → Nat → Nat → Bytes
  | 0, _, _ => []
  | turns + 1, pos, left =>
    if left < k then []
    else match entries[pos / k]? with
      | none => []
      | some value => bytesLE k (value &&& mask).toNat ++ readWords k mask entries turns (pos + k) (left - k)

def readFAT16 (entries : List UInt32) (pos left : Nat) : Bytes := readWords 2 0xffff entries left pos left

def readFAT32 (entries : List UInt32) (pos left : Nat) : Bytes := readWords 4 0x0fffffff entries left pos left

/-- Two entries of 12 bits in three bytes; one without a partner in two. -/
def packPairs : List UInt32 → Bytes
  | entry0 :: entry1 :: rest =>
    bytesLE 3 ((entry0 &&& 0xfff).toNat + 2 ^ 12 * (entry1 &&& 0xfff).toNat) ++ packPairs rest
  | [entry] => bytesLE 2 (entry &&& 0xfff).toNat
  | [] => []

def packWords (k : Nat) (mask : UInt32) (entries : List UInt32) : Bytes :=
  entries.flatMap fun e => bytesLE k (e &&& mask).toNat

namespace FATTableRegion

/-- `totalSize`, as `NewFATTableRegion` computes it; for FAT12 in `uint32`. -/
def totalSize (f : FATTableRegion) : Nat := match f.fatType with
  | .fat12 => (f.entries.length * 3 + 1) % 2 ^ 32 / 2
  | .fat16 => f.entries.length * 2
  | .fat32 => f.entries.length * 4

/-- `ReadAt` with a buffer of `n` bytes: the bytes it puts there, or `io.EOF`. -/
def readAt (f : FATTableRegion) (n : Nat) (off : Int) : Option Bytes :=
  if off < 0 ∨ f.totalSize ≤ off then none
  else
    let maxRead := min n (f.totalSize - off.toNat)
    some (match f.fatType with
      | .fat12 => readFAT12 f.entries maxRead off.toNat
      | .fat16 => readFAT16 f.entries off.toNat maxRead
      | .fat32 => readFAT32 f.entries off.toNat maxRead)

def packing (f : FATTableRegion) : Bytes := match f.fatType with
  | .fat12 => packPairs f.entries
  | .fat16 => packWords 2 0xffff f.entries
  | .fat32 => packWords 4 0x0fffffff f.entries

/-- A read of `n` bytes returns those of the table. -/
def Exact (f : FATTableRegion) (off n : Nat) : Prop := f.readAt n off = some (field f.packing off n)
deriving Decidable

/-- The range is of whole entries, and starts at one unless its bytes are those before it; or, with 12 bits, every byte
of it belongs to two entries. -/
def Whole (f : FATTableRegion) (off n : Nat) : Prop :=
  let words (k : Nat) := n % k = 0 ∧ (off % k = 0 ∨ field f.packing (off - off % k) n = field f.packing off n)
  match f.fatType with
  | .fat12 => ∀ i < n, (off + i) / 3 * 2 + 1 < f.entries.length
  | .fat16 => words 2
  | .fat32 => words 4

end FATTableRegion

/-! ## Entries of 12 bits -/

theorem bytesLE_group {a : UInt32} (ha : a.toNat < 2 ^ 12) (b : UInt32) :
    bytesLE 3 (a.toNat + 2 ^ 12 * b.toNat) = [groupByte a b 0, groupByte a b 1, groupByte a b 2] := by
  have hlow (x : Nat) : x &&& 15 = x % 16 := Nat.and_two_pow_sub_one_eq_mod x 4
  have hbyte (x : Nat) : x &&& 255 = x % 256 := Nat.and_two_pow_sub_one_eq_mod x 8
  have hor : a.toNat / 256 % 16 % 256 ||| b.toNat % 16 * 16 % 256 = b.toNat % 16 * 16 + a.toNat / 256 % 16 := by
    have hdisjoint := Nat.two_pow_add_eq_or_of_lt (show a.toNat / 256 % 16 < 2 ^ 4 by omega) (b.toNat % 16)
    have hhigh : b.toNat % 16 * 16 % 256 = 2 ^ 4 * (b.toNat % 16) := by omega
    rw [Nat.mod_eq_of_lt (a := a.toNat / 256 % 16) (by omega), hhigh, Nat.or_comm, ← hdisjoint]
    omega
  simp only [bytesLE, groupByte, List.cons.injEq, ← UInt8.toNat_inj, UInt8.toNat_ofNat', UInt32.toNat_toUInt8,
    UInt32.toNat_and, UInt8.toNat_or, UInt32.toNat_shiftRight, UInt32.toNat_shiftLeft, and_true]
  simp [hlow, hbyte, hor, Nat.shiftRight_eq_div_pow, Nat.shiftLeft_eq]
  omega

variable (entries : List UInt32)

theorem length_packPairs : (packPairs entries).length = (entries.length * 3 + 1) / 2 := by
  induction entries using packPairs.induct with
  | case1 entry0 entry1 rest ih =>
    simp only [packPairs, length_append, length_bytesLE, ih, length_cons]
    omega
  | case2 entry => simp [packPairs]
  | case3 => rfl

theorem getElem?_packPairs (pos : Nat) (h : pos / 3 * 2 + 1 < entries.length) :
    (packPairs entries)[pos]? = some (groupByte (entries.getD (pos / 3 * 2) 0 &&& 0xfff)
      (entries.getD (pos / 3 * 2 + 1) 0 &&& 0xfff) (pos % 3)) := by
  induction entries using packPairs.induct generalizing pos with
  | case1 entry0 entry1 rest ih =>
    rw [packPairs, bytesLE_group (by rw [UInt32.toNat_and]; exact Nat.and_lt_two_pow _ (by decide))]
    match pos with
    | 0 => rfl
    | 1 => rfl
    | 2 => rfl
    | pos + 3 =>
      have hpos : (pos + 3) / 3 * 2 = pos / 3 * 2 + 2 := by omega
      rw [hpos] at h ⊢
      simpa using ih pos (by simp at h; omega)
  | case2 entry => simp at h
  | case3 => simp at h

theorem readFAT12_eq (left pos : Nat) (h : ∀ i < left, (pos + i) / 3 * 2 + 1 < entries.length) :
    readFAT12 entries left pos = field (packPairs entries) pos left := by
  induction left generalizing pos with
  | zero => simp [readFAT12, field]
  | succ left ih =>
    have hpos : pos / 3 * 2 + 1 < entries.length := h 0 (by omega)
    have hbyte := getElem?_packPairs entries pos hpos
    rw [readFAT12, if_neg (Nat.not_le.2 hpos), ih (pos + 1) fun i hi => ?_]
    · obtain ⟨hlt, heq⟩ := List.getElem?_eq_some_iff.1 hbyte
      rw [field, field, drop_eq_getElem_cons hlt, take_succ_cons, heq]
    · have := h (i + 1) (by omega)
      rwa [Nat.add_assoc, Nat.add_comm 1]

theorem length_readFAT12_lt (left pos : Nat) (h : ¬ ∀ i < left, (pos + i) / 3 * 2 + 1 < entries.length) :
    (readFAT12 entries left pos).length < left := by
  induction left generalizing pos with
  | zero => simp at h
  | succ left ih =>
    rw [readFAT12]
    split
    · simp
    · next hpos =>
      rw [length_cons, Nat.add_lt_add_iff_right]
      refine ih (pos + 1) fun hall => h fun i hi => ?_
      cases i with
      | zero => omega
      | succ i =>
        rw [← Nat.add_assoc, Nat.add_right_comm]
        exact hall i (by omega)

/-! ## Whole entries -/

theorem packWords_append (k : Nat) (mask : UInt32) (l l' : List UInt32) :
    packWords k mask (l ++ l') = packWords k mask l ++ packWords k mask l' := flatMap_append

theorem length_packWords (k : Nat) (mask : UInt32) (entries : List UInt32) :
    (packWords k mask entries).length = entries.length * k := by
  simp [packWords, length_flatMap]

/-- The bytes of so many entries, from entry `j` on. -/
theorem field_packWords (k : Nat) (mask : UInt32) {entries : List UInt32} {j m : Nat} (h : j + m ≤ entries.length) :
    field (packWords k mask entries) (j * k) (m * k) = packWords k mask ((entries.drop j).take m) := by
  have hsplit : entries = entries.take j ++ ((entries.drop j).take m ++ (entries.drop j).drop m) := by
    rw [take_append_drop, take_append_drop]
  conv_lhs => rw [hsplit, packWords_append, packWords_append]
  refine field_at _ _ _ ?_ ?_ <;> simp only [length_packWords, length_take, length_drop] <;> congr 1 <;> omega

theorem readWords_eq {k : Nat} (hk : 0 < k) (mask : UInt32) (entries : List UInt32) (turns pos left : Nat)
    (hturns : left ≤ turns) (h : pos + left ≤ entries.length * k) :
    readWords k mask entries turns pos left = packWords k mask ((entries.drop (pos / k)).take (left / k)) := by
  induction turns generalizing pos left with
  | zero => simp [readWords, packWords, Nat.le_zero.1 hturns]
  | succ turns ih =>
    rw [readWords]
    split
    · next hlt => simp [Nat.div_eq_of_lt hlt, packWords]
    · next hle =>
      have hpos : pos / k < entries.length := (Nat.div_lt_iff_lt_mul hk).2 (by omega)
      have hleft : left / k = (left - k) / k + 1 := Nat.div_eq_sub_div hk (by omega)
      rw [getElem?_eq_getElem hpos, drop_eq_getElem_cons hpos, hleft, take_succ_cons]
      dsimp only
      rw [ih (pos + k) (left - k) (by omega) (by omega), Nat.add_div_right pos hk]
      rfl

theorem words_exact_iff {k : Nat} (hk : 0 < k) (mask : UInt32) (entries : List UInt32) (off n : Nat)
    (h : off + n ≤ entries.length * k) :
    readWords k mask entries n off n = field (packWords k mask entries) off n ↔ n % k = 0 ∧
      (off % k = 0 ∨ field (packWords k mask entries) (off - off % k) n = field (packWords k mask entries) off n) := by
  have hin : off / k + n / k ≤ entries.length :=
    Nat.div_add_div_le_add_div.trans (Nat.div_le_of_le_mul (by rwa [Nat.mul_comm] at h))
  rw [readWords_eq hk mask entries n off n (Nat.le_refl _) h, ← field_packWords k mask hin,
    Nat.div_mul_self_eq_mod_sub_self, Nat.div_mul_self_eq_mod_sub_self]
  have hle := Nat.mod_le n k
  constructor
  · intro heq
    have hlen := congrArg List.length heq
    simp only [field, length_take, length_drop, length_packWords] at hlen
    have hn : n % k = 0 := by omega
    rw [hn] at heq
    exact ⟨hn, .inr heq⟩
  · rintro ⟨hn, hoff | hsame⟩
    · rw [hn, hoff, Nat.sub_zero, Nat.sub_zero]
    · rw [hn, Nat.sub_zero, hsame]

namespace FATTableRegion

/-- A read inside the table returns exactly its bytes there, and so at least one, exactly when the range is `Whole`. -/
theorem readAt_exact_iff (f : FATTableRegion) (off n : Nat) (hoff : off < f.totalSize) (h : off + n ≤ f.totalSize) :
    f.Exact off n ↔ f.Whole off n := by
  have hmax : min n (f.totalSize - off) = n := by omega
  rw [Exact, readAt, if_neg (by omega), Option.some.injEq, Int.toNat_natCast, hmax]
  obtain ⟨fatType, entries, count⟩ := f
  cases fatType with
  | fat12 =>
    constructor
    · intro heq
      by_contra hnot
      have hlt := length_readFAT12_lt entries n off hnot
      have hsize : off + n ≤ (entries.length * 3 + 1) % 2 ^ 32 / 2 := h
      have hmod := Nat.mod_le (entries.length * 3 + 1) (2 ^ 32)
      have hlen : (readFAT12 entries n off).length = (field (packPairs entries) off n).length := congrArg _ heq
      simp only [field, length_take, length_drop, length_packPairs] at hlen
      omega
    · exact readFAT12_eq entries n off
  | fat16 => exact words_exact_iff (by decide) _ entries off n h
  | fat32 => exact words_exact_iff (by decide) _ entries off n h

/-- All of a table of two 16-bit entries. -/
theorem readAt_exact_iff_pair : Exact ⟨.fat16, [1, 2], by decide⟩ 0 4 :=
  (readAt_exact_iff ⟨.fat16, [1, 2], by decide⟩ 0 4 (by decide) (by decide)).2 ⟨rfl, .inl rfl⟩

/-- A read of one byte of a 16-bit entry, or of a 12-bit entry that is alone, returns nothing; one from an odd offset
returns the bytes before it. -/
theorem reads_wrong : ¬ Exact ⟨.fat16, [1], by decide⟩ 0 1 ∧ ¬ Exact ⟨.fat12, [1], by decide⟩ 0 2 ∧
    ¬ Exact ⟨.fat16, [1, 2], by decide⟩ 1 2 := by
  decide

end FATTableRegion

end CrumbleCracker.Fat

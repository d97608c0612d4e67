import Mathlib

/-!
# Little-endian fields and the IEEE CRC-32

`bytesLE k n` writes the low `8 k` bits of `n` as `k` little-endian bytes; `natLE` reads them back
(`natLE_bytesLE`). `checksumIEEE` is the reflected CRC-32 with polynomial `0xEDB88320`.
`field b off n` is the byte range `b[off : off + n]`; `field_at` and `field_append` read it off a concatenation.
-/

namespace CrumbleCracker

abbrev Bytes := List UInt8

instance : LawfulBEq Bytes := inferInstance

/-! ## Little-endian naturals -/

/-- The low `8 k` bits of `n` as `k` little-endian bytes. -/
def bytesLE : Nat → Nat → Bytes
  | 0, _ => []
  | k + 1, n => UInt8.ofNat n :: bytesLE k (n / 256)

def natLE : Bytes → Nat
  | [] => 0
  | b :: bs => b.toNat + 256 * natLE bs

@[simp] theorem length_bytesLE (k n : Nat) : (bytesLE k n).length = k := by
  induction k generalizing n with
  | zero => rfl
  | succ k ih => simp [bytesLE, ih]

theorem natLE_bytesLE (k n : Nat) : natLE (bytesLE k n) = n % 256 ^ k := by
  induction k generalizing n with
  | zero => simp [bytesLE, natLE, Nat.mod_one]
  | succ k ih =>
    have hdigit : (UInt8.ofNat n).toNat = n % 256 := UInt8.toNat_ofNat'
    rw [bytesLE, natLE, ih, hdigit, pow_succ', Nat.mod_mul]

/-! ## Byte ranges -/

/-- The bytes `b[off : off + n]`, cut short at the end of `b`. -/
def field (b : Bytes) (off n : Nat) : Bytes := (b.drop off).take n

/-- A range that starts at a seam of a concatenation and has the length of the part behind it is that part. -/
theorem field_at (a x c : Bytes) {off n : Nat} (ha : a.length = off) (hx : x.length = n) :
    field (a ++ (x ++ c)) off n = x := by
  subst ha hx
  simp [field]

theorem field_append (a c : Bytes) {off n : Nat} (h : off + n ≤ a.length) : field (a ++ c) off n = field a off n := by
  have hoff : off ≤ a.length := by omega
  have hn : n ≤ (a.drop off).length := by rw [List.length_drop]; omega
  simp only [field, List.drop_append_of_le_length hoff, List.take_append_of_le_length hn]

/-! ## CRC-32 -/

def crcBit (c : UInt32) : UInt32 := if c &&& 1 = 1 then (c >>> 1) ^^^ 0xEDB88320 else c >>> 1

def crcByte (c : UInt32) (b : UInt8) : UInt32 := crcBit^[8] (c ^^^ b.toUInt32)

/-- `crc32.ChecksumIEEE`. -/
def checksumIEEE (bs : Bytes) : Nat := (~~~(bs.foldl crcByte 0xFFFFFFFF)).toNat

theorem checksumIEEE_lt (bs : Bytes) : checksumIEEE bs < 256 ^ 4 := (~~~(bs.foldl crcByte 0xFFFFFFFF)).toNat_lt

-- The check value of the polynomial: the CRC of the ASCII digits 1 to 9.
example : checksumIEEE [0x31, 0x32, 0x33, 0x34, 0x35, 0x36, 0x37, 0x38, 0x39] = 0xCBF43926 := by decide +kernel

end CrumbleCracker

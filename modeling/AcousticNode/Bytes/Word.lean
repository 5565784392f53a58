/-!
# Byte strings and the words in them

A byte string is a list of octets.  A word of `w` octets is written least significant octet
first (`littleEndian`) or last (`bigEndian`); reading takes any byte string to the number it
spells.

* `fromLittleEndian_littleEndian`, `fromBigEndian_bigEndian` : reading a written word gives
  the number back, modulo the number of words;
* `littleEndian_fromLittleEndian`, `bigEndian_fromBigEndian` : writing what was read gives
  the octets back.
-/

set_option autoImplicit false

namespace AcousticNode

/-- A byte string. -/
abbrev Bytes := List UInt8

namespace Bytes

/-- How many words of `w` octets there are. -/
def wordCount : Nat → Nat
  | 0 => 1
  | w + 1 => 256 * wordCount w

/-- The `w` low octets of `n`, least significant first. -/
def littleEndian : Nat → Nat → Bytes
  | 0, _ => []
  | w + 1, n => UInt8.ofNat n :: littleEndian w (n / 256)

/-- The number that `bs` spells, least significant octet first. -/
def fromLittleEndian : Bytes → Nat
  | [] => 0
  | b :: bs => b.toNat + 256 * fromLittleEndian bs

/-- The `w` low octets of `n`, most significant first. -/
def bigEndian (w n : Nat) : Bytes := (littleEndian w n).reverse

/-- The number that `bs` spells, most significant octet first. -/
def fromBigEndian (bs : Bytes) : Nat := fromLittleEndian bs.reverse

@[simp] theorem length_littleEndian (w n : Nat) : (littleEndian w n).length = w := by
  induction w generalizing n with
  | zero => rfl
  | succ w ih => simp [littleEndian, ih]

@[simp] theorem length_bigEndian (w n : Nat) : (bigEndian w n).length = w := by
  simp [bigEndian]

theorem wordCount_pos (w : Nat) : 0 < wordCount w := by
  induction w with
  | zero => decide
  | succ w ih =>
    rw [wordCount]
    omega

theorem fromLittleEndian_lt (bs : Bytes) : fromLittleEndian bs < wordCount bs.length := by
  induction bs with
  | nil => decide
  | cons b bs ih =>
    have hb : b.toNat < 256 := b.toNat_lt
    simp only [fromLittleEndian, List.length_cons, wordCount]
    omega

theorem fromBigEndian_lt (bs : Bytes) : fromBigEndian bs < wordCount bs.length := by
  simpa [fromBigEndian] using fromLittleEndian_lt bs.reverse

theorem fromLittleEndian_littleEndian (w n : Nat) :
    fromLittleEndian (littleEndian w n) = n % wordCount w := by
  induction w generalizing n with
  | zero => simp [littleEndian, fromLittleEndian, wordCount, Nat.mod_one]
  | succ w ih =>
    rw [littleEndian, fromLittleEndian, ih, wordCount, Nat.mod_mul]
    simp

theorem fromBigEndian_bigEndian (w n : Nat) :
    fromBigEndian (bigEndian w n) = n % wordCount w := by
  simp [fromBigEndian, bigEndian, fromLittleEndian_littleEndian]

theorem littleEndian_fromLittleEndian (bs : Bytes) :
    littleEndian bs.length (fromLittleEndian bs) = bs := by
  induction bs with
  | nil => rfl
  | cons b bs ih =>
    have hb : b.toNat < 256 := b.toNat_lt
    simp only [List.length_cons, littleEndian, fromLittleEndian]
    rw [show (b.toNat + 256 * fromLittleEndian bs) / 256 = fromLittleEndian bs by omega, ih]
    congr 1
    apply UInt8.toNat_inj.mp
    simp only [UInt8.toNat_ofNat']
    omega

theorem bigEndian_fromBigEndian (bs : Bytes) :
    bigEndian bs.length (fromBigEndian bs) = bs := by
  have h := littleEndian_fromLittleEndian bs.reverse
  simp only [List.length_reverse] at h
  simp [bigEndian, fromBigEndian, h]

end Bytes

end AcousticNode

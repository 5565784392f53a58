import AcousticNode.Bytes.Word

/-!
# Hexadecimal text

Two lower-case digits to an octet.  Reading takes either letter case, works on the octets of
the text, and names the first octet that is no digit; an odd number of digits is reported
before any bad one.

* `decode_encode` : reading written text gives the byte string back.
-/

set_option autoImplicit false

namespace AcousticNode.Hex

/-- The lower-case digit of a value below sixteen. -/
def digit (n : Nat) : Char :=
  if n < 10 then Char.ofNat (48 + n) else Char.ofNat (87 + n)

/-- The `w` low hexadecimal digits of `n`, most significant first. -/
def digits : Nat → Nat → List Char
  | 0, _ => []
  | w + 1, n => digits w (n / 16) ++ [digit (n % 16)]

/-- `n` in exactly `w` hexadecimal digits. -/
def fixed (w n : Nat) : String := String.ofList (digits w n)

/-- A byte string as text, two digits to an octet. -/
def encodeChars : Bytes → List Char
  | [] => []
  | b :: bs => digit (b.toNat / 16) :: digit (b.toNat % 16) :: encodeChars bs

def encode (bs : Bytes) : String := String.ofList (encodeChars bs)

/-- The value of an octet of text that is a hexadecimal digit. -/
def value? (b : UInt8) : Option Nat :=
  let n := b.toNat
  if 48 ≤ n ∧ n ≤ 57 then some (n - 48)
  else if 97 ≤ n ∧ n ≤ 102 then some (n - 87)
  else if 65 ≤ n ∧ n ≤ 70 then some (n - 55)
  else none

/-- Why text is not hexadecimal. -/
inductive Flaw where
  | oddLength
  | badDigit (octet : UInt8) (position : Nat)
  deriving DecidableEq, Repr

/-- Reads pairs of digits, the first at position `i`. -/
def decodePairs (i : Nat) : Bytes → Except Flaw Bytes
  | [] => .ok []
  | [_] => .error .oddLength
  | hi :: lo :: rest =>
    match value? hi, value? lo with
    | none, _ => .error (.badDigit hi i)
    | some _, none => .error (.badDigit lo (i + 1))
    | some h, some l => (decodePairs (i + 2) rest).map (UInt8.ofNat (16 * h + l) :: ·)

/-- The byte string that the octets of a text spell. -/
def decode (text : Bytes) : Except Flaw Bytes :=
  if text.length % 2 = 0 then decodePairs 0 text else .error .oddLength

/-- The octet of a character below 128. -/
def octet (c : Char) : UInt8 := UInt8.ofNat c.toNat

theorem value?_octet_digit : ∀ n : Fin 16, value? (octet (digit n)) = some n.val := by decide

theorem decodePairs_encodeChars (i : Nat) (bs : Bytes) :
    decodePairs i ((encodeChars bs).map octet) = .ok bs := by
  induction bs generalizing i with
  | nil => rfl
  | cons b bs ih =>
    have hb : b.toNat < 256 := b.toNat_lt
    have hi := value?_octet_digit ⟨b.toNat / 16, by omega⟩
    have lo := value?_octet_digit ⟨b.toNat % 16, by omega⟩
    simp only at hi lo
    simp only [encodeChars, List.map_cons, decodePairs, hi, lo, ih, Except.map]
    rw [show 16 * (b.toNat / 16) + b.toNat % 16 = b.toNat by omega]
    simp

theorem length_encodeChars (bs : Bytes) : (encodeChars bs).length = 2 * bs.length := by
  induction bs with
  | nil => rfl
  | cons b bs ih => simp only [encodeChars, List.length_cons, ih]; omega

theorem decode_encode (bs : Bytes) : decode ((encodeChars bs).map octet) = .ok bs := by
  simp [decode, length_encodeChars, decodePairs_encodeChars]

end AcousticNode.Hex

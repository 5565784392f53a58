import AcousticNode.Bytes.Hex

/-!
# Hexadecimal arguments

An argument may hold colons and white space anywhere between its digits.  What is left is read
as octets of UTF-8, and a flaw names the first bad octet by its position among them.
-/

set_option autoImplicit false

namespace AcousticNode

/-- The characters with the Unicode property White_Space. -/
def isWhiteSpace (c : Char) : Bool :=
  let n := c.toNat
  9 ≤ n && n ≤ 13 || n == 0x20 || n == 0x85 || n == 0xa0 || n == 0x1680 ||
    0x2000 ≤ n && n ≤ 0x200a || n == 0x2028 || n == 0x2029 || n == 0x202f || n == 0x205f ||
    n == 0x3000

/-- Whether a character only separates digits. -/
def isSeparator (c : Char) : Bool := isWhiteSpace c || c == ':'

/-- An argument without its separators. -/
def compactHex (argument : String) : String :=
  String.ofList (argument.toList.filter fun c => !isSeparator c)

/-- The byte string that an argument spells. -/
def readHexArgument (argument : String) : Except Hex.Flaw Bytes :=
  Hex.decode (compactHex argument).toUTF8.toList

/-- The hexadecimal digits of a number below 256, without a zero in front. -/
private def shortHex (n : Nat) : List Char := if n < 16 then Hex.digits 1 n else Hex.digits 2 n

/-- An octet in single quotes, as the character with its number. -/
def quotedOctet (b : UInt8) : String :=
  let c := Char.ofNat b.toNat
  let inner :=
    if b = 0 then ['\\', '0']
    else if c = '\t' then ['\\', 't']
    else if c = '\n' then ['\\', 'n']
    else if c = '\r' then ['\\', 'r']
    else if c = '\'' ∨ c = '\\' then ['\\', c]
    else if b < 0x20 ∨ 0x7f ≤ b ∧ b ≤ 0xa0 ∨ b = 0xad then
      ['\\', 'u', '\x7b'] ++ shortHex b.toNat ++ ['\x7d']
    else [c]
  String.ofList (['\''] ++ inner ++ ['\''])

namespace Hex

def Flaw.text : Flaw → String
  | oddLength => "Odd number of digits"
  | badDigit octet position =>
    "Invalid character " ++ quotedOctet octet ++ " at position " ++ toString position

end Hex

end AcousticNode

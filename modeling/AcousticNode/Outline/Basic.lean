import AcousticNode.Bytes.Hex

/-!
# Outlines

A value as an indented outline for readers: every part stands on a line of its own, four
spaces further in than what encloses it, and ends in a comma.
-/

set_option autoImplicit false

namespace AcousticNode

/-- What an outline shows. -/
inductive Outline where
  /-- Text within a line. -/
  | word (s : String)
  /-- An alternative with the value it holds. -/
  | holding (name : String) (inner : Outline)
  /-- A structure with its named parts. -/
  | parts (name : String) (members : List (String × Outline))
  | list (items : List Outline)

namespace Outline

/-- An optional value. -/
def optional : Option Outline → Outline
  | none => word "None"
  | some o => holding "Some" o

/-- The lines with text before the first one. -/
def labelled (label : String) : List String → List String
  | [] => [label]
  | line :: lines => (label ++ line) :: lines

/-- The lines as a part of something: further in, with a comma after the last one. -/
def nested : List String → List String
  | [] => []
  | [line] => ["    " ++ line ++ ","]
  | line :: lines => ("    " ++ line) :: nested lines

mutual

/-- The lines of an outline. -/
def lines : Outline → List String
  | word s => [s]
  | holding name inner => (name ++ "(") :: (nested inner.lines ++ [")"])
  | parts name members => (name ++ " \x7b") :: (memberLines members ++ ["\x7d"])
  | list [] => ["[]"]
  | list items => "[" :: (itemLines items ++ ["]"])

def memberLines : List (String × Outline) → List String
  | [] => []
  | (name, value) :: rest => nested (labelled (name ++ ": ") value.lines) ++ memberLines rest

def itemLines : List Outline → List String
  | [] => []
  | item :: rest => nested item.lines ++ itemLines rest

end

/-- An outline as text, without a line break at the end. -/
def text (o : Outline) : String := "\n".intercalate o.lines

/-- An octet of a byte string in quotes. -/
def octetChars (b : UInt8) : List Char :=
  let c := Char.ofNat b.toNat
  if c = '\n' then ['\\', 'n']
  else if c = '\r' then ['\\', 'r']
  else if c = '\t' then ['\\', 't']
  else if c = '\\' ∨ c = '"' then ['\\', c]
  else if b = 0 then ['\\', '0']
  else if 0x20 ≤ b ∧ b < 0x7f then [c]
  else ['\\', 'x'] ++ Hex.digits 2 b.toNat

/-- A byte string in quotes. -/
def bytes (bs : Bytes) : Outline :=
  word (String.ofList (['b', '"'] ++ bs.flatMap octetChars ++ ['"']))

/-- A truth value. -/
def flag (b : Bool) : Outline := word (if b then "true" else "false")

/-- An octet as a number. -/
def octet (b : UInt8) : Outline := word (toString b.toNat)

end Outline

end AcousticNode

import AcousticNode.Bytes.Hex
import AcousticNode.Json.Basic

/-!
# Writing JSON

`compact` puts everything on one line; `pretty` puts each item and each member on a line of
its own, two spaces further in than what encloses it.  Empty arrays and objects stay closed.
Of what a value does not keep, a representative is written: `-0` for a number that is not
natural, a lone surrogate for a broken string.
-/

set_option autoImplicit false

namespace AcousticNode.Json

/-- A character inside quotes.  Quote, backslash and control characters are escaped. -/
def escape (c : Char) : List Char :=
  if c = '"' then ['\\', '"']
  else if c = '\\' then ['\\', '\\']
  else if c = '\n' then ['\\', 'n']
  else if c = '\r' then ['\\', 'r']
  else if c = '\t' then ['\\', 't']
  else if c.toNat = 8 then ['\\', 'b']
  else if c.toNat = 12 then ['\\', 'f']
  else if c.toNat < 32 then '\\' :: 'u' :: Hex.digits 4 c.toNat
  else [c]

/-- A string in quotes. -/
def quoted (s : List Char) : List Char := '"' :: (s.flatMap escape ++ ['"'])

/-- A string with an unpaired surrogate. -/
def quotedSurrogate : List Char := ['"', '\\', 'u', 'd', '8', '0', '0', '"']

/-- The name of a member. -/
def nameChars : Option String → List Char
  | some s => quoted s.toList
  | none => quotedSurrogate

/-- A value that is neither array nor object. -/
def scalarChars : Json → List Char
  | null => ['n', 'u', 'l', 'l']
  | bool true => ['t', 'r', 'u', 'e']
  | bool false => ['f', 'a', 'l', 's', 'e']
  | natural n => Nat.toDigits 10 n
  | otherNumber => ['-', '0']
  | text s => quoted s.toList
  | _ => quotedSurrogate

mutual

def compactChars : Json → List Char
  | array items => '[' :: (compactItems items ++ [']'])
  | object members => '\x7b' :: (compactMembers members ++ ['\x7d'])
  | scalar => scalarChars scalar

def compactItems : List Json → List Char
  | [] => []
  | [j] => compactChars j
  | j :: js => compactChars j ++ ',' :: compactItems js

def compactMembers : List (Option String × Json) → List Char
  | [] => []
  | [(name, j)] => nameChars name ++ ':' :: compactChars j
  | (name, j) :: rest => nameChars name ++ ':' :: (compactChars j ++ ',' :: compactMembers rest)

end

/-- A value on one line. -/
def compact (j : Json) : String := String.ofList (compactChars j)

/-- A new line, `depth` levels in. -/
def newline (depth : Nat) : List Char := '\n' :: List.replicate (2 * depth) ' '

mutual

def prettyChars (depth : Nat) : Json → List Char
  | array [] => ['[', ']']
  | array items => '[' :: (prettyItems (depth + 1) items ++ newline depth ++ [']'])
  | object [] => ['\x7b', '\x7d']
  | object members =>
    '\x7b' :: (prettyMembers (depth + 1) members ++ newline depth ++ ['\x7d'])
  | scalar => scalarChars scalar

def prettyItems (depth : Nat) : List Json → List Char
  | [] => []
  | [j] => newline depth ++ prettyChars depth j
  | j :: js => newline depth ++ prettyChars depth j ++ ',' :: prettyItems depth js

def prettyMembers (depth : Nat) : List (Option String × Json) → List Char
  | [] => []
  | [(name, j)] => newline depth ++ nameChars name ++ ':' :: ' ' :: prettyChars depth j
  | (name, j) :: rest =>
    newline depth ++ nameChars name ++ ':' :: ' ' :: (prettyChars depth j ++
      ',' :: prettyMembers depth rest)

end

/-- A value over several lines. -/
def pretty (j : Json) : String := String.ofList (prettyChars 0 j)

end AcousticNode.Json

import AcousticNode.Bytes.Hex
import AcousticNode.Json.Basic

/-!
# Reading JSON

The grammar is strict: no comments, no trailing commas, no leading zeros, and only space, tab,
line feed and carriage return between tokens.  Arrays and objects nest as deep as they like.
A reader takes a value off the front of a text and leaves the rest.
-/

set_option autoImplicit false

namespace AcousticNode.Json

def isBlank (c : Char) : Bool := c = ' ' || c = '\n' || c = '\r' || c = '\t'

/-- A text without the blanks in front. -/
def skipBlanks (s : List Char) : List Char := s.dropWhile isBlank

/-- The rest of a text after a word that it has to start with. -/
def expect : List Char → List Char → Option (List Char)
  | [], s => some s
  | c :: cs, d :: s => if c = d then expect cs s else none
  | _ :: _, [] => none

def hexValue? (c : Char) : Option Nat :=
  if c.toNat < 128 then Hex.value? (Hex.octet c) else none

/-- The number that four hexadecimal digits spell. -/
def hexUnit? (a b c d : Char) : Option Nat := do
  let a ← hexValue? a
  let b ← hexValue? b
  let c ← hexValue? c
  let d ← hexValue? d
  return ((a * 16 + b) * 16 + c) * 16 + d

/-- A piece of a string: a character, or a code unit that was written in hexadecimal. -/
inductive Piece where
  | char (c : Char)
  | unit (n : Nat)

/-- What a backslash and a letter stand for. -/
def simpleEscape? (c : Char) : Option Char :=
  if c = '"' then some '"'
  else if c = '\\' then some '\\'
  else if c = '/' then some '/'
  else if c = 'b' then some (Char.ofNat 8)
  else if c = 'f' then some (Char.ofNat 12)
  else if c = 'n' then some '\n'
  else if c = 'r' then some '\r'
  else if c = 't' then some '\t'
  else none

/-- The pieces of a string up to its closing quote, and what follows. -/
def pieces : List Char → Option (List Piece × List Char)
  | [] => none
  | '"' :: rest => some ([], rest)
  | '\\' :: 'u' :: a :: b :: c :: d :: rest => do
    let n ← hexUnit? a b c d
    let (ps, rest) ← pieces rest
    return (.unit n :: ps, rest)
  | '\\' :: e :: rest => do
    let c ← simpleEscape? e
    let (ps, rest) ← pieces rest
    return (.char c :: ps, rest)
  | c :: rest =>
    if c = '\\' ∨ c.toNat < 32 then none
    else do
      let (ps, rest) ← pieces rest
      return (.char c :: ps, rest)

def isLeading (n : Nat) : Bool := 0xd800 ≤ n && n ≤ 0xdbff

def isTrailing (n : Nat) : Bool := 0xdc00 ≤ n && n ≤ 0xdfff

/-- The characters of the pieces.  Two code units make one character if they are a surrogate
pair; half a pair makes none. -/
def assemble : List Piece → Option (List Char)
  | [] => some []
  | .char c :: ps => (assemble ps).map (c :: ·)
  | .unit h :: .unit l :: ps =>
    if isLeading h then
      if isTrailing l then
        (assemble ps).map (Char.ofNat (0x10000 + (h - 0xd800) * 0x400 + (l - 0xdc00)) :: ·)
      else none
    else if isTrailing h then none
    else (assemble (.unit l :: ps)).map (Char.ofNat h :: ·)
  | .unit h :: ps =>
    if isLeading h || isTrailing h then none else (assemble ps).map (Char.ofNat h :: ·)

/-- A string after its opening quote: its text, if it has one, and what follows. -/
def stringRest (s : List Char) : Option (Option String × List Char) := do
  let (ps, rest) ← pieces s
  return ((assemble ps).map String.ofList, rest)

def digitValue (c : Char) : Nat := c.toNat - 48

/-- The number that decimal digits spell. -/
def decimal (digits : List Char) : Nat := digits.foldl (fun n c => 10 * n + digitValue c) 0

/-- One digit or more. -/
def digits1 (s : List Char) : Option (List Char × List Char) :=
  let ds := s.takeWhile Char.isDigit
  if ds.isEmpty then none else some (ds, s.dropWhile Char.isDigit)

/-- The digits before a decimal point: a single zero, or digits that do not start with one. -/
def integerPart : List Char → Option (List Char × List Char)
  | '0' :: rest => some (['0'], rest)
  | s => digits1 s

/-- Skips a fraction, and says whether there was one. -/
def fraction : List Char → Option (Bool × List Char)
  | '.' :: rest => (digits1 rest).map fun (_, rest) => (true, rest)
  | s => some (false, s)

/-- Skips an exponent, and says whether there was one. -/
def exponent : List Char → Option (Bool × List Char)
  | c :: rest =>
    if c = 'e' ∨ c = 'E' then
      let unsigned :=
        match rest with
        | '+' :: r => r
        | '-' :: r => r
        | r => r
      (digits1 unsigned).map fun (_, rest) => (true, rest)
    else some (false, c :: rest)
  | [] => some (false, [])

/-- A number without sign. -/
def unsigned (s : List Char) : Option (Json × List Char) := do
  let (ds, s) ← integerPart s
  let (fractional, s) ← fraction s
  let (scaled, s) ← exponent s
  return (if fractional || scaled then otherNumber else natural (decimal ds), s)

/-- A number. -/
def number : List Char → Option (Json × List Char)
  | '-' :: rest => (unsigned rest).map fun (_, rest) => (otherNumber, rest)
  | s => unsigned s

mutual

/-- A value at the front of a text.  `fuel` bounds the work. -/
def value : Nat → List Char → Option (Json × List Char)
  | 0, _ => none
  | fuel + 1, s =>
    match s with
    | [] => none
    | 'n' :: _ => (expect ['n', 'u', 'l', 'l'] s).map fun rest => (null, rest)
    | 't' :: _ => (expect ['t', 'r', 'u', 'e'] s).map fun rest => (bool true, rest)
    | 'f' :: _ => (expect ['f', 'a', 'l', 's', 'e'] s).map fun rest => (bool false, rest)
    | '"' :: rest => (stringRest rest).map fun (t, rest) => (t.elim brokenText text, rest)
    | '[' :: rest =>
      match skipBlanks rest with
      | ']' :: rest => some (array [], rest)
      | rest => (items fuel rest).map fun (js, rest) => (array js, rest)
    | '\x7b' :: rest =>
      match skipBlanks rest with
      | '\x7d' :: rest => some (object [], rest)
      | rest => (members fuel rest).map fun (ms, rest) => (object ms, rest)
    | _ => number s

/-- The items of an array up to its end; there is at least one. -/
def items : Nat → List Char → Option (List Json × List Char)
  | 0, _ => none
  | fuel + 1, s => do
    let (j, rest) ← value fuel (skipBlanks s)
    match skipBlanks rest with
    | ',' :: rest => do
      let (js, rest) ← items fuel rest
      return (j :: js, rest)
    | ']' :: rest => return ([j], rest)
    | _ => none

/-- The members of an object up to its end; there is at least one. -/
def members : Nat → List Char → Option (List (Option String × Json) × List Char)
  | 0, _ => none
  | fuel + 1, s =>
    match skipBlanks s with
    | '"' :: rest => do
      let (name, rest) ← stringRest rest
      match skipBlanks rest with
      | ':' :: rest => do
        let (j, rest) ← value fuel (skipBlanks rest)
        match skipBlanks rest with
        | ',' :: rest => do
          let (ms, rest) ← members fuel rest
          return ((name, j) :: ms, rest)
        | '\x7d' :: rest => return ([(name, j)], rest)
        | _ => none
      | _ => none
    | _ => none

end

/-- The value that a text starts with, blanks in front skipped, and what follows it.  Each step
of the reader takes a character, so a text of `n` characters needs no more than `2 * n + 2`
units of fuel. -/
def readFront (s : List Char) : Option (Json × List Char) :=
  value (2 * s.length + 2) (skipBlanks s)

/-- Whether nothing but blanks is left. -/
def isEnd (s : List Char) : Bool := (skipBlanks s).isEmpty

/-- The value that a whole text spells. -/
def read? (s : String) : Option Json := do
  let (j, rest) ← readFront s.toList
  if isEnd rest then some j else none

end AcousticNode.Json

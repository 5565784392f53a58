import AcousticNode.CommandLine.Request

/-!
# Arguments

A command with its options.  Options and values come in any order; an option takes its value
from the same argument or from the next one, which then does not start with a dash, and is
given once at most.  After two dashes everything is a value.
-/

set_option autoImplicit false

namespace AcousticNode

/-- What the command line is asked to do. -/
inductive Command where
  /-- Show the packet that the argument spells. -/
  | decode (argument : String)
  /-- Show the checksum of the octets that the argument spells. -/
  | checksum (argument : String)
  /-- Show the packet of a request. -/
  | request (r : Request)
  deriving DecidableEq

namespace CommandLine

/-- An option of a request. -/
inductive Flag where
  | address
  | modules
  | aspects
  deriving DecidableEq, Repr

namespace Flag

/-- The option with a long name. -/
def ofLong? : List Char → Option Flag
  | ['a', 'd', 'd', 'r', 'e', 's', 's'] => some address
  | ['m', 'o', 'd', 'u', 'l', 'e', 's'] => some modules
  | ['a', 's', 'p', 'e', 'c', 't', 's'] => some aspects
  | _ => none

/-- The option with a letter. -/
def ofLetter? : Char → Option Flag
  | 'a' => some address
  | 'm' => some modules
  | _ => none

end Flag

/-- What an argument is. -/
inductive Token where
  | value (s : String)
  /-- An option, with the value in the same argument. -/
  | flag (f : Flag) (attached : Option String)
  /-- Two dashes. -/
  | separator
  | unknown
  deriving DecidableEq, Repr

/-- A long option without its dashes. -/
def longToken (cs : List Char) : Token :=
  let name := cs.takeWhile (· ≠ '=')
  let attached := (cs.dropWhile (· ≠ '=')).tail?.map String.ofList
  match Flag.ofLong? name with
  | some f => .flag f attached
  | none => .unknown

/-- A letter option without its dash.  An equals sign before its value is dropped. -/
def letterToken (letter : Char) (rest : List Char) : Token :=
  match Flag.ofLetter? letter, rest with
  | none, _ => .unknown
  | some f, [] => .flag f none
  | some f, '=' :: value => .flag f (some (String.ofList value))
  | some f, value => .flag f (some (String.ofList value))

/-- Sorts an argument.  A single dash is a value. -/
def classify (argument : String) : Token :=
  match argument.toList with
  | ['-', '-'] => .separator
  | '-' :: '-' :: cs => longToken cs
  | '-' :: letter :: cs => letterToken letter cs
  | _ => .value argument

/-- The arguments of a command, sorted. -/
structure Sorted where
  values : List String
  address : Option String
  modules : Option String
  aspects : Option String

namespace Sorted

def empty : Sorted := ⟨[], none, none, none⟩

def addValue (s : Sorted) (v : String) : Sorted := { s with values := s.values ++ [v] }

/-- Sets an option that was not given before. -/
def set? (s : Sorted) (f : Flag) (v : String) : Option Sorted :=
  match f with
  | .address => if s.address.isSome then none else some { s with address := some v }
  | .modules => if s.modules.isSome then none else some { s with modules := some v }
  | .aspects => if s.aspects.isSome then none else some { s with aspects := some v }

end Sorted

/-- Sorts the arguments of a command; `ended` after two dashes. -/
def sort? (ended : Bool) (s : Sorted) : List String → Option Sorted
  | [] => some s
  | arg :: rest =>
    if ended then sort? true (s.addValue arg) rest
    else
      match classify arg with
      | .value v => sort? false (s.addValue v) rest
      | .separator => sort? true s rest
      | .unknown => none
      | .flag f (some v) => (s.set? f v).bind fun s => sort? false s rest
      | .flag f none =>
        match rest with
        | [] => none
        | next :: rest =>
          match classify next with
          | .value v => (s.set? f v).bind fun s => sort? false s rest
          | _ => none

/-- A number from 0 to 255 in decimal, with an optional sign. -/
def octet? (s : String) : Option UInt8 :=
  let number? (digits : List Char) : Option Nat :=
    if digits.isEmpty || !digits.all Char.isDigit then none
    else some (Nat.ofDigitChars 10 digits 0)
  match s.toList with
  | '-' :: digits => (number? digits).bind fun n => if n = 0 then some 0 else none
  | '+' :: digits => (number? digits).bind fun n => if n < 256 then some (UInt8.ofNat n) else none
  | digits => (number? digits).bind fun n => if n < 256 then some (UInt8.ofNat n) else none

/-- The only value of a command without options. -/
def soleValue? (args : List String) : Option String := do
  let s ← sort? false .empty args
  match s with
  | ⟨[v], none, none, none⟩ => some v
  | _ => none

/-- The octet that an option gives, or the usual one. -/
def octetOr? (usual : UInt8) : Option String → Option UInt8
  | none => some usual
  | some v => octet? v

/-- The request that arguments describe.  Unless told otherwise it goes to node 1, and asks for
battery, position, clock and network, or for all four aspects. -/
def request? (args : List String) : Option Request := do
  let s ← sort? false .empty args
  match s.values with
  | [name] =>
    let kind ← RequestKind.ofName? name
    let node ← octetOr? 1 s.address
    let aspects ← octetOr? 15 s.aspects
    return ⟨kind, ⟨node⟩, (s.modules.getD "BLRN").toUTF8.toList, ⟨aspects⟩⟩
  | _ => none

/-- The command that arguments describe. -/
def command? : List String → Option Command
  | "decode" :: args => (soleValue? args).map .decode
  | "crc" :: args => (soleValue? args).map .checksum
  | "request" :: args => (request? args).map .request
  | _ => none

end CommandLine

end AcousticNode

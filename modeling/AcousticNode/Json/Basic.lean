/-!
# JSON values

A JSON text as a tree, with as much of it kept as configuration documents need: of numbers
only those that are written as plain natural numbers keep their value, and a string whose
escapes name half a surrogate pair, which no text can hold, is kept as `brokenText`.  Members
of an object stay in order, repeated names included; a name that no text can hold is `none`.
-/

set_option autoImplicit false

namespace AcousticNode

/-- A JSON value. -/
inductive Json where
  | null
  | bool (b : Bool)
  /-- A number without sign, fraction and exponent. -/
  | natural (n : Nat)
  /-- Any other number. -/
  | otherNumber
  | text (s : String)
  /-- A string with an unpaired surrogate. -/
  | brokenText
  | array (items : List Json)
  | object (members : List (Option String × Json))

namespace Json

/-- An object whose members have names. -/
def record (members : List (String × Json)) : Json :=
  object (members.map fun m => (some m.1, m.2))

/-- The value of a natural number below `bound`. -/
def below? (bound : Nat) : Json → Option Nat
  | natural n => if n < bound then some n else none
  | _ => none

/-- An octet. -/
def octet? (j : Json) : Option UInt8 := (j.below? 256).map UInt8.ofNat

/-- A number of sixteen bits. -/
def word? (j : Json) : Option UInt16 := (j.below? 65536).map UInt16.ofNat

/-- A list, item by item. -/
def listOf? {α : Type} (item : Json → Option α) : Json → Option (List α)
  | array items => items.mapM item
  | _ => none

/-- The name of an alternative: the name itself, or an object that gives it the value null. -/
def keyword? : Json → Option String
  | text s => some s
  | object [(some s, null)] => some s
  | _ => none

/-- The first value of a name. -/
def find? (name : String) (members : List (Option String × Json)) : Option Json :=
  (members.find? fun m => m.1 == some name).map (·.2)

/-- How many members have a name. -/
def occurrences (name : String) (members : List (Option String × Json)) : Nat :=
  (members.filter fun m => m.1 == some name).length

/-- The values of the fields of a structure, in the order of `names`.  A structure is an
object, in which each name occurs at most once and other names are skipped, or an array of the
values in order, which may end early. -/
def fields? (names : List String) : Json → Option (List (Option Json))
  | object members =>
    if members.all (·.1.isSome) && names.all (fun n => occurrences n members ≤ 1) then
      some (names.map fun n => find? n members)
    else none
  | array items =>
    if items.length ≤ names.length then
      some (items.map some ++ List.replicate (names.length - items.length) none)
    else none
  | _ => none

end Json

end AcousticNode

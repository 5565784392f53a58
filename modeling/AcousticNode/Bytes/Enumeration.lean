import AcousticNode.Bytes.Word

/-!
# Enumerations coded in one octet

A type of finitely many values, each with an octet of its own.  `ofByte?` reads an octet.

* `ofByte?_byte` : every value is read back from its octet;
* `byte_of_ofByte?` : what is read has the octet it was read from.
-/

set_option autoImplicit false

namespace AcousticNode

/-- A finite type whose values have pairwise different octets. -/
class Enumeration (α : Type) where
  byte : α → UInt8
  all : List α
  mem_all : ∀ a, a ∈ all
  byte_injective : ∀ a b, byte a = byte b → a = b

namespace Enumeration

variable {α : Type} [Enumeration α]

/-- The value whose octet is `b`. -/
def ofByte? (b : UInt8) : Option α := all.find? fun a => byte a == b

theorem byte_of_ofByte? {b : UInt8} {a : α} (h : ofByte? b = some a) : byte a = b := by
  have := List.find?_some h
  simpa using this

theorem ofByte?_byte (a : α) : ofByte? (byte a) = some a := by
  unfold ofByte?
  cases h : (all : List α).find? fun x => byte x == byte a with
  | none => simpa using List.find?_eq_none.mp h a (mem_all a)
  | some x =>
    have hx := List.find?_some h
    rw [byte_injective x a (by simpa using hx)]

theorem ofByte?_eq_some_iff {b : UInt8} {a : α} : ofByte? b = some a ↔ byte a = b :=
  ⟨byte_of_ofByte?, fun h => h ▸ ofByte?_byte a⟩

end Enumeration

/-- Flags: zero for no, one for yes. -/
instance : Enumeration Bool where
  byte b := if b then 1 else 0
  all := [false, true]
  mem_all := by decide
  byte_injective := by decide

end AcousticNode

/-!
# Floating-point words

A floating-point number is carried as its bit pattern, so that equality of values is equality
of patterns: not-a-number payloads and the sign of zero are kept.  `numericallyEqual` is the
comparison of the numbers themselves, by which zeros of either sign agree and a not-a-number
agrees with nothing.
-/

set_option autoImplicit false

namespace AcousticNode

/-- A single-precision floating-point word. -/
structure Binary32 where
  bits : UInt32
  deriving DecidableEq, Repr

/-- A double-precision floating-point word. -/
structure Binary64 where
  bits : UInt64
  deriving DecidableEq, Repr

instance : Inhabited Binary32 := ⟨⟨0⟩⟩

instance : Inhabited Binary64 := ⟨⟨0⟩⟩

namespace Binary32

/-- The bits below the sign. -/
def magnitude (x : Binary32) : Nat := x.bits.toNat % 0x80000000

def isNegative (x : Binary32) : Bool := 0x80000000 ≤ x.bits.toNat

def isNaN (x : Binary32) : Bool := 0x7f800000 < x.magnitude

def isZero (x : Binary32) : Bool := x.magnitude == 0

def numericallyEqual (x y : Binary32) : Bool :=
  !x.isNaN && !y.isNaN && (x == y || x.isZero && y.isZero)

end Binary32

namespace Binary64

/-- The bits below the sign. -/
def magnitude (x : Binary64) : Nat := x.bits.toNat % 0x8000000000000000

def isNegative (x : Binary64) : Bool := 0x8000000000000000 ≤ x.bits.toNat

def isNaN (x : Binary64) : Bool := 0x7ff0000000000000 < x.magnitude

def isZero (x : Binary64) : Bool := x.magnitude == 0

def numericallyEqual (x y : Binary64) : Bool :=
  !x.isNaN && !y.isNaN && (x == y || x.isZero && y.isZero)

end Binary64

end AcousticNode

import AcousticNode.Bytes.Hex
import AcousticNode.Table

/-!
# Addresses

One octet names a node.  Zero is the shore backend and 255 is every node at once.
-/

set_option autoImplicit false

namespace AcousticNode

/-- The address of a node. -/
structure Address where
  value : UInt8
  deriving DecidableEq, Repr

instance : Rank Address where
  rank a := a.value.toNat
  rank_injective := by
    rintro ⟨a⟩ ⟨b⟩ h
    exact congrArg Address.mk (UInt8.toNat_inj.mp h)

namespace Address

/-- The shore station. -/
def backend : Address := ⟨0⟩

/-- Every node that hears the frame. -/
def broadcast : Address := ⟨255⟩

def isBackend (a : Address) : Bool := a = backend

def isBroadcast (a : Address) : Bool := a = broadcast

/-- Whether an address names no single node. -/
def isReserved (a : Address) : Bool := a.isBackend || a.isBroadcast

/-- The reserved addresses have names; all others are written in hexadecimal. -/
def text (a : Address) : String :=
  if a = backend then "backend"
  else if a = broadcast then "broadcast"
  else "0x" ++ Hex.fixed 2 a.value.toNat

end Address

end AcousticNode

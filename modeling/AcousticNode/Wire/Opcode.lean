import AcousticNode.Bytes.Enumeration

/-!
# Operation codes

The first octet of a packet says what the packet is about.
-/

set_option autoImplicit false

namespace AcousticNode

/-- What a packet is about. -/
inductive Opcode where
  | errorReport
  | completeStatus
  | basicStatus
  | setConfiguration
  | getConfiguration
  | getHydrophone
  | setHydrophone
  deriving DecidableEq, Repr

namespace Opcode

/-- The octets are letters: `E S s C U I i`. -/
instance : Enumeration Opcode where
  byte
    | errorReport => 0x45
    | completeStatus => 0x53
    | basicStatus => 0x73
    | setConfiguration => 0x43
    | getConfiguration => 0x55
    | getHydrophone => 0x49
    | setHydrophone => 0x69
  all := [errorReport, completeStatus, basicStatus, setConfiguration, getConfiguration,
    getHydrophone, setHydrophone]
  mem_all a := by cases a <;> decide
  byte_injective a b := by cases a <;> cases b <;> decide

/-- The octet of an operation code. -/
abbrev byte (op : Opcode) : UInt8 := Enumeration.byte op

/-- Every operation code, in the order of the dispatch table. -/
abbrev all : List Opcode := Enumeration.all

/-- The place of an operation code in `all`. -/
def index : Opcode → Nat
  | errorReport => 0
  | completeStatus => 1
  | basicStatus => 2
  | setConfiguration => 3
  | getConfiguration => 4
  | getHydrophone => 5
  | setHydrophone => 6

def name : Opcode → String
  | errorReport => "ERROR_REPORT"
  | completeStatus => "COMPLETE_STATUS_REPORT"
  | basicStatus => "BASIC_STATUS_REPORT"
  | setConfiguration => "SET_NODE_DEVICE_CONFIG"
  | getConfiguration => "GET_UPDATED_NODE_DEVICE_CONFIG"
  | getHydrophone => "GET_ICLISTEN_CONFIG"
  | setHydrophone => "SET_ICLISTEN_CONFIG"

end Opcode

end AcousticNode

import AcousticNode.Bytes.Enumeration

/-!
# Reporting transports

A reporting schedule belongs to the LoRa radio or to the Iridium satellite modem.
-/

set_option autoImplicit false

namespace AcousticNode

/-- A way to send scheduled reports. -/
inductive Transport where
  | lora
  | iridium
  deriving DecidableEq, Repr

namespace Transport

instance : Enumeration Transport where
  byte
    | lora => 1
    | iridium => 2
  all := [lora, iridium]
  mem_all a := by cases a <;> decide
  byte_injective a b := by cases a <;> cases b <;> decide

def name : Transport → String
  | lora => "LoRa"
  | iridium => "Iridium"

end Transport

end AcousticNode

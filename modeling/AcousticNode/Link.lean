import AcousticNode.Bytes.Word
import AcousticNode.FrameQueue

/-!
# Links

A link takes frames in and sends frames out over one medium, which limits their length.
-/

set_option autoImplicit false

namespace AcousticNode

/-- A medium. -/
inductive Medium where
  | lora
  | satellite
  | serial
  deriving DecidableEq, Repr

namespace Medium

def name : Medium → String
  | lora => "LoRa"
  | satellite => "Iridium SBD"
  | serial => "serial"

/-- The longest frame that the medium carries. -/
def maxFrame : Medium → Nat
  | lora => Limits.maxLoraFrame
  | satellite => Limits.maxPacketSize
  | serial => Limits.maxPacketSize

end Medium

/-- Frames that came in and frames that were sent. -/
structure Link where
  medium : Medium
  inbound : FrameQueue Bytes
  sent : List Bytes
  deriving DecidableEq

namespace Link

/-- A link that has seen no frame. -/
def ofMedium (m : Medium) : Link := ⟨m, .empty, []⟩

/-- A frame comes in. -/
def receive (l : Link) (frame : Bytes) : Link := { l with inbound := (l.inbound.push frame).2 }

/-- Whether frames are waiting. -/
def available (l : Link) : Bool := !l.inbound.isEmpty

/-- Takes the waiting frames, oldest first. -/
def read (l : Link) : List Bytes × Link :=
  let (frames, inbound) := l.inbound.takeAll
  (frames, { l with inbound := inbound })

/-- Sends a frame. -/
def send (l : Link) (frame : Bytes) : Link := { l with sent := l.sent ++ [frame] }

/-- Takes the frames that were sent. -/
def takeSent (l : Link) : List Bytes × Link := (l.sent, { l with sent := [] })

end Link

end AcousticNode

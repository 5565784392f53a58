import AcousticNode.Packet

/-!
# Requests

The packets by which the shore asks a node for something.
-/

set_option autoImplicit false

namespace AcousticNode

/-- What a node is asked for. -/
inductive RequestKind where
  | basicStatus
  | completeStatus
  | configuration
  | hydrophone
  deriving DecidableEq, Repr

namespace RequestKind

/-- The name in an argument. -/
def name : RequestKind → String
  | basicStatus => "status"
  | completeStatus => "complete"
  | configuration => "get-config"
  | hydrophone => "iclisten"

def all : List RequestKind := [basicStatus, completeStatus, configuration, hydrophone]

def ofName? (s : String) : Option RequestKind := all.find? fun k => k.name == s

end RequestKind

/-- A request of the shore. -/
structure Request where
  kind : RequestKind
  node : Address
  /-- The codes of the modules to ask for, as octets of text. -/
  modules : Bytes
  /-- The aspects of the hydrophone to ask for. -/
  aspects : AspectMask
  deriving DecidableEq

namespace Request

/-- The operation code and the payload of a request.  Only the four bits with an aspect are
asked for. -/
def content (r : Request) : Except Fault (Opcode × Payload) :=
  match r.kind with
  | .basicStatus => .ok (.basicStatus, .empty)
  | .completeStatus => .ok (.completeStatus, .empty)
  | .configuration => (decodeCodes r.modules).map fun codes =>
      (.getConfiguration, .configurationQuery codes)
  | .hydrophone => .ok (.getHydrophone, .hydrophoneQuery r.aspects.low)

/-- The packet of a request. -/
def packet (r : Request) : Except Fault Packet := do
  let (op, payload) ← r.content
  Packet.make op (.toNode r.node) payload

end Request

end AcousticNode

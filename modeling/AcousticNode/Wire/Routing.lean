import AcousticNode.Fault
import AcousticNode.Wire.Limits

/-!
# Routing

Sender, receiver and hop budget of a packet, and the routing of an answer to it.

* `read_write` : routing survives its three octets.
-/

set_option autoImplicit false

namespace AcousticNode

/-- The address of a number, which has to fit one octet. -/
def Address.ofInt (value : Int) : Except Fault Address :=
  if 0 ≤ value ∧ value ≤ 255 then .ok ⟨UInt8.ofNat value.toNat⟩ else .error (.addressRange value)

/-- Where a packet comes from, where it goes, and how many hops it may take. -/
structure Routing where
  sender : Address
  receiver : Address
  ttl : UInt8
  deriving DecidableEq, Repr

namespace Routing

/-- From the shore to a node. -/
def toNode (receiver : Address) : Routing := ⟨.backend, receiver, Limits.defaultTtl⟩

/-- From a node to the shore. -/
def toBackend (sender : Address) : Routing := ⟨sender, .backend, Limits.defaultTtl⟩

/-- From a node to every node. -/
def toAll (sender : Address) : Routing := ⟨sender, .broadcast, Limits.defaultTtl⟩

def write (r : Routing) : Bytes := [r.sender.value, r.receiver.value, r.ttl]

/-- The routing in the first three octets. -/
def read : Bytes → Except Fault Routing
  | s :: r :: t :: _ => .ok ⟨⟨s⟩, ⟨r⟩, t⟩
  | short => .error (.insufficient Limits.routingSize short.length)

theorem read_write (r : Routing) (rest : Bytes) : read (r.write ++ rest) = .ok r := rfl

/-- The same way back, with the hops that are left. -/
def swapped (r : Routing) : Routing := ⟨r.receiver, r.sender, r.ttl⟩

/-- The routing of an answer to a packet with this routing: back to its sender with a fresh hop
budget.  What was sent to every node is answered from `localAddress`, so that an answer claims the
broadcast address only if that is the node's own. -/
def reply (r : Routing) (localAddress : Address) : Routing :=
  ⟨if r.receiver.isBroadcast then localAddress else r.receiver, r.sender, Limits.defaultTtl⟩

/-- Whether the packet travels towards the shore. -/
def isUplink (r : Routing) : Bool := r.receiver.isBackend

def text (r : Routing) : String :=
  r.sender.text ++ " -> " ++ r.receiver.text ++ " (ttl " ++ toString r.ttl ++ ")"

end Routing

end AcousticNode

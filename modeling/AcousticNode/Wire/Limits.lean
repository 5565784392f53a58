/-!
# Sizes and limits of the wire format

A packet is an operation code, three octets of routing, a payload and a two-octet checksum.
-/

set_option autoImplicit false

namespace AcousticNode.Limits

/-- Octets of the operation code. -/
def opcodeSize : Nat := 1

/-- Octets of the routing: sender, receiver, hop budget. -/
def routingSize : Nat := 3

/-- Octets of the checksum that ends a packet. -/
def checksumSize : Nat := 2

/-- Octets before the payload. -/
def headerSize : Nat := opcodeSize + routingSize

/-- The smallest packet: a header and a checksum around an empty payload. -/
def minPacketSize : Nat := headerSize + checksumSize

/-- The satellite message limit, which caps every packet. -/
def maxPacketSize : Nat := 340

/-- The largest frame that the LoRa radio takes. -/
def maxLoraFrame : Nat := 255

/-- Octets before a record's value: its tag and its length. -/
def recordHeaderSize : Nat := 2

/-- The longest value that a one-octet length describes. -/
def maxRecordValue : Nat := 255

/-- The hop budget of fresh routing. -/
def defaultTtl : UInt8 := 3

/-- Frames that a link holds before it drops the oldest. -/
def queueCapacity : Nat := 10

end AcousticNode.Limits

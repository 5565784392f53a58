import AcousticNode.Payload.Basic
import AcousticNode.Wire.Checksum

/-!
# Packets

Operation code, routing, payload and checksum.  A packet keeps the octets it was sealed with
or received in, so it is always sent as the same octets and with a checksum that holds.
-/

set_option autoImplicit false

namespace AcousticNode

/-- A validated packet together with its octets. -/
structure Packet where
  opcode : Opcode
  routing : Routing
  payload : Payload
  crc : UInt16
  /-- Header, payload and checksum. -/
  wire : Bytes
  deriving DecidableEq

namespace Packet

/-- Everything before the checksum. -/
def body (op : Opcode) (routing : Routing) (payload : Payload) : Bytes :=
  op.byte :: (routing.write ++ payload.encode)

/-- Adds the checksum. -/
def sealed (op : Opcode) (routing : Routing) (payload : Payload) : Packet :=
  let octets := body op routing payload
  ⟨op, routing, payload, Checksum.compute octets, Checksum.append octets⟩

/-- A packet with the given contents, if the payload fits and the packet is not too long. -/
def make (op : Opcode) (routing : Routing) (payload : Payload) : Except Fault Packet :=
  let size := (body op routing payload).length + Limits.checksumSize
  if !payload.fits op routing then .error (.payloadMismatch op)
  else if Limits.maxPacketSize < size then .error (.packetTooLong size Limits.maxPacketSize)
  else .ok (sealed op routing payload)

/-- Reads a packet.  Checked in this order: the length, the operation code, the checksum, the
payload. -/
def decode (wire : Bytes) : Except Fault Packet :=
  if wire.length < Limits.minPacketSize then
    .error (.insufficient Limits.minPacketSize wire.length)
  else if Limits.maxPacketSize < wire.length then
    .error (.packetTooLong wire.length Limits.maxPacketSize)
  else
    match wire with
    | [] => .error (.insufficient Limits.minPacketSize 0)
    | first :: rest =>
      match Enumeration.ofByte? first with
      | none => .error (.unknownOpcode first)
      | some op => do
        let routing ← Routing.read rest
        let bodySize := wire.length - Limits.checksumSize
        let expected := Checksum.compute (wire.take bodySize)
        let found := Checksum.ofBytes (wire.drop bodySize)
        if expected ≠ found then .error (.checksum expected found)
        else do
          let data := (wire.take bodySize).drop Limits.headerSize
          let payload ← Payload.decode op routing data
          return ⟨op, routing, payload, found, wire⟩

/-- A report that a request was refused. -/
def errorReport (routing : Routing) (code : ErrorCode) : Packet :=
  sealed .errorReport routing (.error code)

/-- The number of octets. -/
def size (p : Packet) : Nat := p.wire.length

/-- The octets in hexadecimal. -/
def hex (p : Packet) : String := Hex.encode p.wire

/-- A packet in one line. -/
def text (p : Packet) : String :=
  p.opcode.name ++ " [" ++ p.routing.text ++ "] payload " ++ toString p.payload.size ++
    " bytes, crc 0x" ++ Hex.fixed 4 p.crc.toNat

/-- Whether two packets are the same when floating-point numbers are compared as numbers. -/
def numericallyEqual (p q : Packet) : Bool :=
  p.opcode == q.opcode && p.routing == q.routing && p.payload.numericallyEqual q.payload &&
    p.crc == q.crc && p.wire == q.wire

end Packet

/-- A received frame: a packet, or octets that are none. -/
inductive Frame where
  | valid (packet : Packet)
  | invalid (raw : Bytes) (reason : Fault)
  deriving DecidableEq

namespace Frame

def ofBytes (raw : Bytes) : Frame :=
  match Packet.decode raw with
  | .ok packet => valid packet
  | .error reason => invalid raw reason

/-- The packet of a valid frame. -/
def packet? : Frame → Option Packet
  | valid packet => some packet
  | invalid _ _ => none

end Frame

end AcousticNode

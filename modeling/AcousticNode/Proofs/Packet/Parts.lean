import AcousticNode.Packet
import AcousticNode.Proofs.Payload.RoundTrip

/-!
# The parts of a packet

A byte string of a packet's length is a first octet, a routing, the octets of a payload and a
trailer of two octets, and decoding looks at these parts in turn.

* `exists_parts` : every byte string that is long enough has the four parts;
* `decode_parts` : what decoding answers, part by part;
* `decode_eq_ok_iff` : the byte strings that a packet is decoded from.
-/

set_option autoImplicit false

namespace AcousticNode

open Outcome

/-! ## The trailer -/

namespace Checksum

theorem verify_append_iff {body trailer : Bytes} (h : trailer.length = Limits.checksumSize) :
    verify (body ++ trailer) = true ↔ compute body = ofBytes trailer := by
  have hlen : (body ++ trailer).length - Limits.checksumSize = body.length := by
    rw [List.length_append, h]
    omega
  have hsplit : split? (body ++ trailer) = some (body, ofBytes trailer) := by
    unfold split?
    rw [if_neg (by rw [List.length_append]; omega)]
    simp only [hlen, List.take_left', List.drop_left']
  rw [verify, hsplit]
  exact beq_iff_eq

theorem append_eq_of_compute {body trailer : Bytes} (hlen : trailer.length = Limits.checksumSize)
    (h : compute body = ofBytes trailer) : append body = body ++ trailer := by
  rw [append, h, toBytes_ofBytes hlen]

end Checksum

namespace Packet

/-! ## Cutting a byte string into the parts of a packet -/

/-- Header and payload, as they are sent. -/
def front (first : UInt8) (routing : Routing) (data : Bytes) : Bytes :=
  first :: (routing.write ++ data)

@[simp] theorem length_front (first : UInt8) (routing : Routing) (data : Bytes) :
    (front first routing data).length = Limits.headerSize + data.length := by
  simp only [front, Routing.write, List.length_cons, List.length_append, Limits.headerSize,
    Limits.opcodeSize, Limits.routingSize, List.length_nil]
  omega

theorem exists_parts {b : Bytes} (h : Limits.minPacketSize ≤ b.length) :
    ∃ first routing data trailer, trailer.length = Limits.checksumSize ∧
      b = front first routing data ++ trailer := by
  have hsix : 6 ≤ b.length := h
  match b, hsix with
  | first :: s :: r :: t :: rest, hsix =>
    simp only [List.length_cons] at hsix
    refine ⟨first, ⟨⟨s⟩, ⟨r⟩, t⟩, rest.take (rest.length - 2), rest.drop (rest.length - 2), ?_, ?_⟩
    · rw [List.length_drop, Limits.checksumSize]
      omega
    · simp only [front, Routing.write, List.cons_append, List.nil_append, List.take_append_drop]
  | [], hsix => exact absurd hsix (by decide)
  | [_], hsix | [_, _], hsix | [_, _, _], hsix =>
    simp only [List.length_cons, List.length_nil] at hsix
    omega

theorem decode_of_short {b : Bytes} (h : b.length < Limits.minPacketSize) :
    decode b = .error (.insufficient Limits.minPacketSize b.length) := by
  rw [decode.eq_def, if_pos h]

theorem decode_of_long {b : Bytes} (h : Limits.maxPacketSize < b.length) :
    decode b = .error (.packetTooLong b.length Limits.maxPacketSize) := by
  have hbounds : Limits.minPacketSize ≤ Limits.maxPacketSize := by decide
  rw [decode.eq_def, if_neg (by omega), if_pos h]

theorem decode_parts {first : UInt8} {routing : Routing} {data trailer : Bytes}
    (htrailer : trailer.length = Limits.checksumSize)
    (hlen : Limits.minPacketSize + data.length ≤ Limits.maxPacketSize) :
    decode (front first routing data ++ trailer) =
      match Enumeration.ofByte? first with
      | none => .error (.unknownOpcode first)
      | some op =>
        if Checksum.compute (front first routing data) = Checksum.ofBytes trailer then
          (Payload.decode op routing data).map fun payload =>
            ⟨op, routing, payload, Checksum.ofBytes trailer, front first routing data ++ trailer⟩
        else .error (.checksum (Checksum.compute (front first routing data))
          (Checksum.ofBytes trailer)) := by
  have hsize : (front first routing data ++ trailer).length =
      Limits.minPacketSize + data.length := by
    rw [List.length_append, length_front, htrailer, Limits.minPacketSize]
    omega
  have hbody : (front first routing data ++ trailer).length - Limits.checksumSize =
      (front first routing data).length := by
    rw [List.length_append, htrailer]
    omega
  have hread : Routing.read ((routing.write ++ data) ++ trailer) = .ok routing := by
    rw [List.append_assoc]
    exact Routing.read_write routing _
  have hdrop : (front first routing data).drop Limits.headerSize = data := rfl
  unfold decode
  rw [if_neg (by omega), if_neg (by omega)]
  simp only [hbody, List.take_left', List.drop_left', hdrop]
  simp only [front, List.cons_append, hread]
  cases (Enumeration.ofByte? first : Option Opcode) with
  | none => rfl
  | some op =>
    simp only [bind, Except.bind]
    by_cases hsum : Checksum.compute (first :: (routing.write ++ data)) = Checksum.ofBytes trailer
    · simp only [hsum, ne_eq, not_true_eq_false, if_false, if_true]
      cases Payload.decode op routing data <;> rfl
    · simp only [hsum, ne_eq, not_false_eq_true, if_false, if_true]

/-! ## The packets that are decoded -/

theorem decode_append {op : Opcode} {routing : Routing} {data : Bytes}
    (hlen : Limits.minPacketSize + data.length ≤ Limits.maxPacketSize) :
    decode (Checksum.append (front op.byte routing data)) =
      (Payload.decode op routing data).map fun payload =>
        ⟨op, routing, payload, Checksum.compute (front op.byte routing data),
          Checksum.append (front op.byte routing data)⟩ := by
  rw [Checksum.append, decode_parts (Checksum.length_toBytes _) hlen]
  simp only [Enumeration.ofByte?_byte, Checksum.ofBytes_toBytes, if_true]

theorem decode_append_of_payload {op : Opcode} {routing : Routing} {data : Bytes}
    {payload : Payload} (hlen : Limits.minPacketSize + data.length ≤ Limits.maxPacketSize)
    (h : Payload.decode op routing data = .ok payload) :
    decode (Checksum.append (front op.byte routing data)) =
      .ok ⟨op, routing, payload, Checksum.compute (front op.byte routing data),
        Checksum.append (front op.byte routing data)⟩ := by
  rw [decode_append hlen, h]
  rfl

/-- What has to be the case for a byte string to decode to a packet. -/
structure Spells (b : Bytes) (p : Packet) (data : Bytes) : Prop where
  length_le : Limits.minPacketSize + data.length ≤ Limits.maxPacketSize
  payload : Payload.decode p.opcode p.routing data = .ok p.payload
  crc : p.crc = Checksum.compute (front p.opcode.byte p.routing data)
  wire : p.wire = b
  octets : b = Checksum.append (front p.opcode.byte p.routing data)

theorem decode_eq_ok_iff {b : Bytes} {p : Packet} :
    decode b = .ok p ↔ ∃ data, Spells b p data := by
  constructor
  · intro h
    have hmin : Limits.minPacketSize ≤ b.length := by
      refine Classical.byContradiction fun hlt => ?_
      rw [decode_of_short (Nat.lt_of_not_le hlt)] at h
      cases h
    have hmax : b.length ≤ Limits.maxPacketSize := by
      refine Classical.byContradiction fun hlt => ?_
      rw [decode_of_long (Nat.lt_of_not_le hlt)] at h
      cases h
    obtain ⟨first, routing, data, trailer, htrailer, rfl⟩ := exists_parts hmin
    have hlen : Limits.minPacketSize + data.length ≤ Limits.maxPacketSize := by
      rw [List.length_append, length_front, htrailer] at hmax
      simp only [Limits.minPacketSize]
      omega
    rw [decode_parts htrailer hlen] at h
    split at h
    · cases h
    · rename_i op hop
      obtain rfl := Enumeration.byte_of_ofByte? hop
      split at h
      · rename_i hsum
        obtain ⟨payload, hpayload, rfl⟩ := map_eq_ok.mp h
        exact ⟨data, hlen, hpayload, hsum.symm, rfl,
          (Checksum.append_eq_of_compute htrailer hsum).symm⟩
      · cases h
  · rintro ⟨data, hlen, hpayload, hcrc, hwire, rfl⟩
    obtain ⟨op, routing, payload, crc, wire⟩ := p
    simp only at hpayload hcrc hwire
    rw [decode_append_of_payload hlen hpayload, hcrc, hwire]

end Packet

end AcousticNode

import AcousticNode.Proofs.Packet.Parts

/-!
# Packets survive the wire

A packet is obtained in three ways: it is made of a payload, it is an error report, or it is
decoded.  However it is obtained, its octets are decoded to the same packet again, checksum,
length and all.

* `make_eq_ok_iff` : when a packet is made, and which;
* `make_payload_of_decode` : the payload of a decoded packet can be sent on;
* `Obtained.carried` : what holds of every packet that is obtained.
-/

set_option autoImplicit false

namespace AcousticNode.Packet

open Outcome

/-- The ways to come by a packet. -/
inductive Obtained : Packet → Prop where
  | made {op : Opcode} {routing : Routing} {payload : Payload} {p : Packet}
      (h : make op routing payload = .ok p) : Obtained p
  | reported (routing : Routing) (code : ErrorCode) : Obtained (errorReport routing code)
  | decoded {b : Bytes} {p : Packet} (h : decode b = .ok p) : Obtained p

/-- What the octets of a packet say about it. -/
structure Carried (p : Packet) : Prop where
  /-- The octets are decoded to the packet, floating-point numbers bit by bit. -/
  decode_wire : decode p.wire = .ok p
  verify_wire : Checksum.verify p.wire = true
  /-- The checksum is what the last two octets spell, most significant first. -/
  crc_wire : ∃ body high low, p.wire = body ++ [high, low] ∧
    p.crc.toNat = 256 * high.toNat + low.toNat
  size_ge : 6 ≤ p.size
  size_eq : p.size = 6 + p.payload.size
  size_le : p.size ≤ 340

theorem make_eq_ok_iff {op : Opcode} {routing : Routing} {payload : Payload} {p : Packet} :
    make op routing payload = .ok p ↔
      payload.fits op routing = true ∧
        Limits.minPacketSize + payload.size ≤ Limits.maxPacketSize ∧
        p = sealed op routing payload := by
  have hsize : (body op routing payload).length + Limits.checksumSize =
      Limits.minPacketSize + payload.size := by
    have hbody : body op routing payload = front op.byte routing payload.encode := rfl
    rw [hbody, length_front, payload.length_encode, Limits.minPacketSize]
    omega
  unfold make
  simp only [hsize]
  cases payload.fits op routing with
  | false => simp
  | true =>
    by_cases hlen : Limits.maxPacketSize < Limits.minPacketSize + payload.size
    · simp [hlen, Nat.not_le.mpr hlen]
    · simp [hlen, Nat.not_lt.mp hlen, eq_comm]

theorem sealed_eq (op : Opcode) (routing : Routing) (payload : Payload) :
    sealed op routing payload =
      ⟨op, routing, payload, Checksum.compute (front op.byte routing payload.encode),
        Checksum.append (front op.byte routing payload.encode)⟩ := rfl

/-- A packet that is sealed around a fitting payload is spelled by its octets. -/
theorem spells_sealed {op : Opcode} {routing : Routing} {payload : Payload}
    (hfits : payload.fits op routing = true)
    (hlen : Limits.minPacketSize + payload.size ≤ Limits.maxPacketSize) :
    Spells (sealed op routing payload).wire (sealed op routing payload) payload.encode := by
  rw [sealed_eq]
  constructor
  case length_le => rwa [payload.length_encode]
  case payload => exact Payload.decode_encode hfits
  all_goals dsimp only

theorem crc_of_append (body : Bytes) :
    ∃ high low, Checksum.append body = body ++ [high, low] ∧
      (Checksum.compute body).toNat = 256 * high.toNat + low.toNat := by
  generalize hc : Checksum.compute body = c
  have hlt : c.toNat < 65536 := c.toNat_lt
  refine ⟨UInt8.ofNat (c.toNat / 256), UInt8.ofNat c.toNat, ?_, ?_⟩
  · rw [Checksum.append, hc]
    rfl
  · simp only [UInt8.toNat_ofNat']
    omega

theorem Carried.of_spells {b data : Bytes} {p : Packet} (h : Spells b p data) : Carried p := by
  have hwire : p.wire = Checksum.append (front p.opcode.byte p.routing data) :=
    h.wire.trans h.octets
  have hpayload : p.payload.size = data.length := Payload.size_of_decode h.payload
  have hlen : p.size = Limits.minPacketSize + data.length := by
    rw [size, hwire, Checksum.append, List.length_append, length_front, Checksum.length_toBytes,
      Limits.minPacketSize]
    omega
  have hmax := h.length_le
  have hmin : Limits.minPacketSize = 6 := rfl
  have htop : Limits.maxPacketSize = 340 := rfl
  refine ⟨decode_eq_ok_iff.mpr ⟨data, ?_⟩, ?_, ?_, by omega, by omega, by omega⟩
  · exact ⟨h.length_le, h.payload, h.crc, rfl, hwire⟩
  · rw [hwire]
    exact Checksum.verify_append _
  · obtain ⟨high, low, hoctets, hcrc⟩ := crc_of_append (front p.opcode.byte p.routing data)
    exact ⟨_, high, low, hwire.trans hoctets, by rw [h.crc, hcrc]⟩

theorem decode_wire_sealed {op : Opcode} {routing : Routing} {payload : Payload}
    (hfits : payload.fits op routing = true)
    (hlen : Limits.minPacketSize + payload.size ≤ Limits.maxPacketSize) :
    decode (sealed op routing payload).wire = .ok (sealed op routing payload) :=
  (Carried.of_spells (spells_sealed hfits hlen)).decode_wire

/-- What was received fits a packet of its own, to wherever it is sent. -/
theorem make_payload_of_decode {b : Bytes} {p : Packet} (h : decode b = .ok p)
    {payload : Payload} (hpayload : p.payload = payload) {op : Opcode} {routing : Routing}
    (hfits : payload.fits op routing = true) :
    make op routing payload = .ok (sealed op routing payload) := by
  subst hpayload
  obtain ⟨data, hs⟩ := decode_eq_ok_iff.mp h
  refine make_eq_ok_iff.mpr ⟨hfits, ?_, rfl⟩
  rw [Payload.size_of_decode hs.payload]
  exact hs.length_le

theorem Obtained.spells {p : Packet} (h : Obtained p) : ∃ data, Spells p.wire p data := by
  cases h with
  | made h =>
    obtain ⟨hfits, hlen, rfl⟩ := make_eq_ok_iff.mp h
    exact ⟨_, spells_sealed hfits hlen⟩
  | reported routing code => exact ⟨_, spells_sealed rfl (by decide : (7 : Nat) ≤ 340)⟩
  | decoded h =>
    obtain ⟨data, hs⟩ := decode_eq_ok_iff.mp h
    exact ⟨data, hs.length_le, hs.payload, hs.crc, rfl, hs.wire.trans hs.octets⟩

theorem Obtained.decode_wire {p : Packet} (h : Obtained p) : decode p.wire = .ok p := by
  obtain ⟨data, hs⟩ := h.spells
  exact (Carried.of_spells hs).decode_wire

/-- **Every packet survives the wire**, however it was obtained. -/
theorem Obtained.carried {p : Packet} (h : Obtained p) : Carried p := by
  obtain ⟨data, hs⟩ := h.spells
  exact .of_spells hs

/-- A report whose position is not a number is carried bit by bit. -/
theorem carried_nan_report :
    ∃ p, make .basicStatus (.toBackend ⟨5⟩)
        (.basicReport ⟨⟨77, .charging⟩, ⟨⟨0x7fc00001⟩, ⟨0x80000000⟩⟩, ⟨1700000000⟩⟩) = .ok p ∧
      Obtained p ∧ Carried p := by
  have hmade : make .basicStatus (.toBackend ⟨5⟩)
      (.basicReport ⟨⟨77, .charging⟩, ⟨⟨0x7fc00001⟩, ⟨0x80000000⟩⟩, ⟨1700000000⟩⟩) = .ok _ := rfl
  exact ⟨_, hmade, .made hmade, Obtained.carried (.made hmade)⟩

end AcousticNode.Packet

import AcousticNode.Proofs.Grammar.Payload
import AcousticNode.Proofs.Packet.Parts
import AcousticNode.Proofs.Payload.Faults

/-!
# The packets that are accepted

Decoding looks at the length, the operation code, the checksum and the payload, in this order,
and the first of them that is wrong is the fault.  When nothing else is wrong, a packet is
accepted if and only if its payload is in the language of its operation code and receiver.

* `decode_acceptance` : the answer to every byte string.
-/

set_option autoImplicit false

namespace AcousticNode.Packet

open Outcome Grammar

theorem decode_of_unknown {first : UInt8} {routing : Routing} {data trailer : Bytes}
    (htrailer : trailer.length = Limits.checksumSize)
    (hlen : Limits.minPacketSize + data.length ≤ Limits.maxPacketSize)
    (h : ∀ op : Opcode, op.byte ≠ first) :
    decode (front first routing data ++ trailer) = .error (.unknownOpcode first) := by
  have hnone : (Enumeration.ofByte? first : Option Opcode) = none :=
    Option.eq_none_iff_forall_ne_some.mpr fun op hop => h op (Enumeration.byte_of_ofByte? hop)
  rw [decode_parts htrailer hlen, hnone]

theorem decode_of_verify_false {op : Opcode} {routing : Routing} {data trailer : Bytes}
    (htrailer : trailer.length = Limits.checksumSize)
    (hlen : Limits.minPacketSize + data.length ≤ Limits.maxPacketSize)
    (h : Checksum.verify (front op.byte routing data ++ trailer) = false) :
    decode (front op.byte routing data ++ trailer) = .error
      (.checksum (Checksum.compute (front op.byte routing data)) (Checksum.ofBytes trailer)) := by
  have hsum : Checksum.compute (front op.byte routing data) ≠ Checksum.ofBytes trailer := by
    rw [ne_eq, ← Checksum.verify_append_iff htrailer, h]
    exact Bool.false_ne_true
  rw [decode_parts htrailer hlen]
  simp only [Enumeration.ofByte?_byte, if_neg hsum]

theorem decode_of_verify {op : Opcode} {routing : Routing} {data trailer : Bytes}
    (htrailer : trailer.length = Limits.checksumSize)
    (hlen : Limits.minPacketSize + data.length ≤ Limits.maxPacketSize)
    (h : Checksum.verify (front op.byte routing data ++ trailer) = true) :
    decode (front op.byte routing data ++ trailer) =
      (Payload.decode op routing data).map fun payload =>
        ⟨op, routing, payload, Checksum.ofBytes trailer,
          front op.byte routing data ++ trailer⟩ := by
  rw [decode_parts htrailer hlen]
  simp only [Enumeration.ofByte?_byte, if_pos ((Checksum.verify_append_iff htrailer).mp h)]

/-- The octets between header and checksum. -/
def payloadOctets (b : Bytes) : Bytes :=
  (b.take (b.length - Limits.checksumSize)).drop Limits.headerSize

theorem payloadOctets_append {first : UInt8} {routing : Routing} {data trailer : Bytes}
    (htrailer : trailer.length = Limits.checksumSize) :
    payloadOctets (front first routing data ++ trailer) = data := by
  have hbody : (front first routing data ++ trailer).length - Limits.checksumSize =
      (front first routing data).length := by
    rw [List.length_append, htrailer]
    omega
  rw [payloadOctets, hbody, List.take_left']
  · rfl
  · rfl

/-- **Packets are accepted by their grammar.**  Of the faults of a byte string the first is
reported: a length out of bounds, an unknown operation code, a checksum that does not hold, a
payload outside the language of the operation code and the receiver.  A status report that is
not a request has 24 or 120 octets. -/
theorem decode_acceptance (b : Bytes) :
    (b.length < 6 → decode b = .error (.insufficient 6 b.length)) ∧
    (340 < b.length → decode b = .error (.packetTooLong b.length 340)) ∧
    (6 ≤ b.length → b.length ≤ 340 → ∃ first receiver, b[0]? = some first ∧ b[2]? = some receiver ∧
      ((∀ op : Opcode, op.byte ≠ first) → decode b = .error (.unknownOpcode first)) ∧
      ∀ op : Opcode, op.byte = first →
        ((∃ expected found, decode b = .error (.checksum expected found)) ↔
          Checksum.verify b = false) ∧
        (Checksum.verify b = true →
          ((∃ p, decode b = .ok p) ↔ payloadOctets b ∈ language op receiver) ∧
          ∀ e, decode b = .error e → e.blamesContents = true)) ∧
    (∀ data ∈ basicReport, data.length = 24) ∧ ∀ data ∈ completeReport, data.length = 120 := by
  refine ⟨decode_of_short, decode_of_long, fun hmin hmax => ?_,
    fun _ => length_of_mem_basicReport, fun _ => length_of_mem_completeReport⟩
  obtain ⟨first, routing, data, trailer, htrailer, rfl⟩ := exists_parts hmin
  have hlen : Limits.minPacketSize + data.length ≤ Limits.maxPacketSize := by
    rw [List.length_append, length_front, htrailer] at hmax
    simp only [Limits.minPacketSize]
    exact le_trans (by omega) hmax
  refine ⟨first, routing.receiver.value, rfl, rfl, decode_of_unknown htrailer hlen, ?_⟩
  rintro op rfl
  rw [payloadOctets_append htrailer]
  cases hverify : Checksum.verify (front op.byte routing data ++ trailer) with
  | false =>
    refine ⟨iff_of_true ⟨_, _, decode_of_verify_false htrailer hlen hverify⟩ rfl,
      fun h => absurd h Bool.false_ne_true⟩
  | true =>
    have hdecode := decode_of_verify htrailer hlen hverify
    have hcontents : ∀ e, decode (front op.byte routing data ++ trailer) = .error e →
        e.blamesContents = true := by
      intro e he
      rw [hdecode] at he
      exact Payload.decode_contents op routing data e (map_eq_error.mp he)
    refine ⟨iff_of_false ?_ Bool.true_eq_false_eq_False, fun _ => ⟨?_, hcontents⟩⟩
    · rintro ⟨expected, found, he⟩
      cases hcontents _ he
    · rw [hdecode, exists_map_eq_ok, Payload.exists_decode_iff]

/-- A refusal that is sent to the shore is in the language of error reports, so it is accepted. -/
theorem decode_refusal_accepted :
    let b := Checksum.append [0x45, 0x05, 0x00, 0x03, 0x02]
    6 ≤ b.length ∧ b.length ≤ 340 ∧ Checksum.verify b = true ∧
      payloadOctets b ∈ language .errorReport 0 ∧ ∃ p, decode b = .ok p := by
  intro b
  have hmin : 6 ≤ b.length := by decide
  have hmax : b.length ≤ 340 := by decide
  have hverify : Checksum.verify b = true := Checksum.verify_append _
  have hlanguage : payloadOctets b ∈ language .errorReport 0 := ⟨2, by decide, rfl⟩
  obtain ⟨first, receiver, hfirst, hreceiver, _, hop⟩ := (decode_acceptance b).2.2.1 hmin hmax
  cases hfirst
  cases hreceiver
  exact ⟨hmin, hmax, hverify, hlanguage,
    ((hop .errorReport rfl).2 hverify).1.mpr hlanguage⟩

end AcousticNode.Packet

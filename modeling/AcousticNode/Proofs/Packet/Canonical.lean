import AcousticNode.Proofs.Packet.Acceptance
import AcousticNode.Proofs.Packet.RoundTrip

/-!
# Packets that are sent on

Sending on what was received gives the octets that were received, with one exception: the aspects of
the hydrophone may come in any order, and are sent in one.

* `flatMap_encode_records` : the records of a list of modules;
* `eq_of_inOrder` : records have one order;
* `exists_inOrder_of_decode` : the records of an update, as received and as sent;
* `decode_canonical` : every packet that is received.
-/

set_option autoImplicit false

namespace AcousticNode

open Outcome

namespace Record

/-- The order in which the aspects of the hydrophone are written. -/
def aspectOrder : List ModuleCode :=
  [.hydrophoneStatus, .hydrophoneLogging, .hydrophoneStreaming, .hydrophoneStats]

/-- Records of aspects in their order, each at most once. -/
def InOrder (rs : List Record) : Prop := (rs.map (·.code)).Sublist aspectOrder

theorem pairwise_of_inOrder {rs : List Record} (h : InOrder rs) :
    rs.Pairwise fun r r' => aspectOrder.idxOf r.code < aspectOrder.idxOf r'.code := by
  have horder : aspectOrder.Pairwise fun c c' => aspectOrder.idxOf c < aspectOrder.idxOf c' := by
    decide
  have hcodes := horder.sublist h
  rwa [List.pairwise_map] at hcodes

theorem eq_of_inOrder {rs rs' : List Record} (h : rs.Perm rs') (hrs : InOrder rs)
    (hrs' : InOrder rs') : rs = rs' :=
  h.eq_of_pairwise (fun _ _ _ _ hlt hgt => absurd hgt (Nat.lt_asymm hlt))
    (pairwise_of_inOrder hrs) (pairwise_of_inOrder hrs')

end Record

namespace Module

/-- The records of modules that all fit one. -/
def records (ms : List Module) (h : ∀ m ∈ ms, m.value.length ≤ Limits.maxRecordValue) :
    List Record := ms.pmap record h

theorem flatMap_encode_records {ms : List Module}
    (h : ∀ m ∈ ms, m.value.length ≤ Limits.maxRecordValue) :
    (records ms h).flatMap Record.encode = ms.flatMap frame := by
  induction ms with
  | nil => rfl
  | cons m ms ih =>
    rw [records, List.pmap_cons, List.flatMap_cons, List.flatMap_cons]
    exact congrArg (m.frame ++ ·) (ih fun m' hm => h m' (List.mem_cons_of_mem _ hm))

theorem map_code_records {ms : List Module}
    (h : ∀ m ∈ ms, m.value.length ≤ Limits.maxRecordValue) :
    (records ms h).map (·.code) = ms.map code := by
  rw [records, List.map_pmap]
  exact List.pmap_eq_map ..

end Module

namespace HydrophoneUpdate

theorem sublist_codes (u : HydrophoneUpdate) :
    (u.modules.map Module.code).Sublist Record.aspectOrder := by
  have hcode : ∀ {α : Type} (wrap : α → Module) {code : ModuleCode}, (∀ a, (wrap a).code = code) →
      ∀ o : Option α, ((o.map wrap).toList.map Module.code).Sublist [code] := by
    intro α wrap code hwrap o
    cases o <;> simp [hwrap]
  simp only [modules, List.map_append]
  exact (((hcode .hydrophoneStatus (fun _ => rfl) u.status).append
    (hcode .hydrophoneLogging (fun _ => rfl) u.logging)).append
    (hcode .hydrophoneStreaming (fun _ => rfl) u.streaming)).append
    (hcode .hydrophoneStats (fun _ => rfl) u.stats)

/-- The records of an update are put in order, and only if they are not. -/
theorem exists_inOrder_of_decode {data : Bytes} {u : HydrophoneUpdate} (h : decode data = .ok u) :
    ∃ received sent : List Record, data = received.flatMap Record.encode ∧
      u.encode = sent.flatMap Record.encode ∧ sent.Perm received ∧ Record.InOrder sent ∧
      (u.encode = data ↔ Record.InOrder received) := by
  obtain ⟨ms, hperm, rfl⟩ := decode_eq_ok_iff.mp h
  have hfits : ∀ m ∈ u.modules, m.value.length ≤ Limits.maxRecordValue := fun m hm =>
    Module.fits_of_fixedLength (fixedLength_of_isAspect (isAspect_of_mem hm)).1
  have hfits' : ∀ m ∈ ms, m.value.length ≤ Limits.maxRecordValue := fun m hm =>
    hfits m (hperm.mem_iff.mpr hm)
  have hreceived := Module.flatMap_encode_records hfits'
  have hsent : u.encode = (Module.records u.modules hfits).flatMap Record.encode :=
    (Module.flatMap_encode_records hfits).symm
  have hpermR : (Module.records u.modules hfits).Perm (Module.records ms hfits') :=
    hperm.pmap _
  have horder : Record.InOrder (Module.records u.modules hfits) := by
    rw [Record.InOrder, Module.map_code_records]
    exact u.sublist_codes
  refine ⟨_, _, hreceived.symm, hsent, hpermR, horder, fun hsame => ?_, fun hin => ?_⟩
  · -- what is decoded from the octets are the modules in the one order and in the other
    have hms : u.modules = ms := by
      have hdecode := Module.decodeAll_records hfits
      rw [show u.modules.flatMap Module.frame = _ from hsame, Module.decodeAll_records hfits']
        at hdecode
      exact (Except.ok.inj hdecode).symm
    subst hms
    exact horder
  · rw [hsent, Record.eq_of_inOrder hpermR horder hin, hreceived]

end HydrophoneUpdate

namespace Packet

/-- A packet that is made of what another one was decoded from. -/
structure Resent (b : Bytes) (p q : Packet) : Prop where
  make_eq : make p.opcode p.routing p.payload = .ok q
  length_eq : q.wire.length = b.length
  decode_wire : decode q.wire = .ok q
  opcode_eq : q.opcode = p.opcode
  routing_eq : q.routing = p.routing
  payload_eq : q.payload = p.payload
  wire_eq : p.payload.update? = none → q.wire = b
  /-- Aspects of the hydrophone are put in order. -/
  ordered : p.payload.update?.isSome → ∃ received sent : List Record,
    payloadOctets b = received.flatMap Record.encode ∧
    payloadOctets q.wire = sent.flatMap Record.encode ∧ sent.Perm received ∧
    Record.InOrder sent ∧ (q.wire = b ↔ Record.InOrder received)

theorem payloadOctets_checksum (first : UInt8) (routing : Routing) (data : Bytes) :
    payloadOctets (Checksum.append (front first routing data)) = data :=
  payloadOctets_append (Checksum.length_toBytes _)

/-- **What was received is sent on in one form.**  A packet made of what was decoded from a byte
string has its length and is decoded to the same operation code, routing and payload.  It is
the byte string again, unless there are aspects of the hydrophone in another order than they are
written in; then the payload is their records put in order. -/
theorem decode_canonical {b : Bytes} {p : Packet} (h : decode b = .ok p) : ∃ q, Resent b p q := by
  obtain ⟨data, hs⟩ := decode_eq_ok_iff.mp h
  have hmade := make_payload_of_decode h rfl (Payload.fits_decode hs.payload)
  have hwire : (sealed p.opcode p.routing p.payload).wire =
    Checksum.append (front p.opcode.byte p.routing p.payload.encode) := rfl
  have hsame : (sealed p.opcode p.routing p.payload).wire = b ↔ p.payload.encode = data := by
    rw [hwire, hs.octets]
    constructor
    · intro heq
      have hdata := congrArg payloadOctets heq
      rwa [payloadOctets_checksum, payloadOctets_checksum] at hdata
    · intro heq
      rw [heq]
  have hcarried := Obtained.carried (.made hmade)
  refine ⟨_, hmade, ?_, hcarried.decode_wire, rfl, rfl, rfl, ?_, ?_⟩
  · have hsize := hcarried.size_eq
    have hreceived := (Obtained.carried (.decoded h)).size_eq
    rw [size, hs.wire] at hreceived
    exact hsize.trans hreceived.symm
  · intro hnone
    rcases Payload.decode_cases hs.payload with ⟨_, hencode⟩ | ⟨u, hu, _⟩
    · exact hsame.mpr hencode
    · rw [hu] at hnone
      cases hnone
  · intro hsome
    rcases Payload.decode_cases hs.payload with ⟨hnone, _⟩ | ⟨u, _, hencode, hu⟩
    · rw [hnone] at hsome
      cases hsome
    · obtain ⟨received, sent, hreceived, hsent, hperm, horder, hiff⟩ :=
        HydrophoneUpdate.exists_inOrder_of_decode hu
      refine ⟨received, sent, ?_, ?_, hperm, horder, ?_⟩
      · rw [hs.octets, payloadOctets_checksum, hreceived]
      · rw [hwire, payloadOctets_checksum, hencode, hsent]
      · rw [hsame, hencode, hiff]

/-- New streaming settings that come behind the recording statistics are sent on before them. -/
theorem decode_canonical_streaming :
    let streaming := Module.hydrophoneStreaming ⟨true, false, 0, 5, 9, true, true, 1, 5, 9, 1700⟩
    let stats := Module.hydrophoneStats ⟨1700, 3, 60, 2⟩
    let b := Checksum.append (front Opcode.setHydrophone.byte (.toNode ⟨5⟩)
      ([stats, streaming].flatMap Module.frame))
    ∃ p q, decode b = .ok p ∧ Resent b p q ∧
      payloadOctets q.wire = [streaming, stats].flatMap Module.frame := by
  intro streaming stats b
  let u : HydrophoneUpdate :=
    ⟨none, none, some ⟨true, false, 0, 5, 9, true, true, 1, 5, 9, 1700⟩, some ⟨1700, 3, 60, 2⟩⟩
  have hu : HydrophoneUpdate.decode ([stats, streaming].flatMap Module.frame) = .ok u :=
    HydrophoneUpdate.decode_eq_ok_iff.mpr ⟨_, .swap stats streaming [], rfl⟩
  have hpayload : Payload.decode .setHydrophone (.toNode ⟨5⟩)
      ([stats, streaming].flatMap Module.frame) = .ok (.hydrophoneChange u) := by
    rw [Payload.decode, hu]
    rfl
  have hp := decode_append_of_payload (by decide) hpayload
  obtain ⟨q, hq⟩ := decode_canonical hp
  obtain ⟨_, _, rfl⟩ := make_eq_ok_iff.mp hq.make_eq
  exact ⟨_, _, hp, hq, payloadOctets_checksum _ _ _⟩

end Packet

end AcousticNode

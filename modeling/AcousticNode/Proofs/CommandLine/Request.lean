import AcousticNode.CommandLine.Basic
import AcousticNode.Proofs.CommandLine.HexArgument
import AcousticNode.Proofs.Grammar.Payload
import AcousticNode.Proofs.Node.Reply
import AcousticNode.Proofs.Node.Run
import AcousticNode.Store.File

/-!
# Requests reach their node

What the command line prints for a request is read back as the octets of its packet, and the node
that the packet is for answers to the shore.  A node that has lost its configuration answers no one.

* `exists_packet_iff` : the requests that have a packet;
* `Node.exists_reply_to_sender` : the packets that are answered, over any store and by any routines;
* `packet_delivered` : the way of a packet from the command line to the reply;
* `receive_unloaded` : a node without an answer.
-/

set_option autoImplicit false

namespace AcousticNode

open Outcome

/-! ## Packets of requests -/

/-- Octets that are codes of modules. -/
theorem exists_map_byte_iff {data : Bytes} :
    (∃ codes : List ModuleCode, codes.map ModuleCode.byte = data) ↔
      ∀ b ∈ data, b ∈ Grammar.tags := by
  have htag : ∀ b, b ∈ Set.range ModuleCode.byte ↔ b ∈ Grammar.tags := fun b => by
    have htags : Grammar.tags = (Enumeration.all : List ModuleCode).map ModuleCode.byte := rfl
    rw [htags, List.mem_map]
    exact exists_congr fun code => (and_iff_right (Enumeration.mem_all code)).symm
  have hrange : data ∈ Set.range (List.map ModuleCode.byte) ↔
      ∀ b ∈ data, b ∈ Set.range ModuleCode.byte := by
    rw [Set.range_list_map]
    rfl
  exact hrange.trans (forall₂_congr fun b _ => htag b)

namespace Request

/-- What a request needs to have a packet.  The shore, address zero, is asked for nothing but its
status; and a list of modules consists of codes and fits a packet. -/
structure Possible (r : Request) : Prop where
  address : r.node ≠ .backend ∨ r.kind = .basicStatus ∨ r.kind = .completeStatus
  modules : r.kind ≠ .configuration ∨
    (∀ b ∈ r.modules, b ∈ Grammar.tags) ∧ r.modules.length ≤ 334

theorem packet_eq_ok_iff {r : Request} {p : Packet} : r.packet = .ok p ↔
    ∃ op payload, r.content = .ok (op, payload) ∧
      payload.fits op (.toNode r.node) = true ∧ payload.size ≤ 334 ∧
      p = Packet.sealed op (.toNode r.node) payload := by
  have hroom : ∀ n, Limits.minPacketSize + n ≤ Limits.maxPacketSize ↔ n ≤ 334 := fun n => by
    have hmin : Limits.minPacketSize = 6 := rfl
    have hmax : Limits.maxPacketSize = 340 := rfl
    omega
  rw [packet, bind_eq_ok, Prod.exists]
  simp only [Packet.make_eq_ok_iff, hroom]

/-- A question other than for the status is only put to nodes. -/
theorem not_isUplink_toNode {node : Address} :
    (!(Routing.toNode node).isUplink) = true ↔ node ≠ .backend := by
  rw [Bool.not_eq_true', ← Bool.not_eq_true, Routing.isUplink, Address.isBackend,
    decide_eq_true_iff]
  rfl

theorem exists_packet_iff_of_content {r : Request} {op : Opcode} {payload : Payload}
    (h : r.content = .ok (op, payload)) : (∃ p, r.packet = .ok p) ↔
      payload.fits op (.toNode r.node) = true ∧ payload.size ≤ 334 := by
  constructor
  · rintro ⟨p, hp⟩
    obtain ⟨_, _, h', hfits, hsize, _⟩ := packet_eq_ok_iff.mp hp
    cases h.symm.trans h'
    exact ⟨hfits, hsize⟩
  · rintro ⟨hfits, hsize⟩
    exact ⟨_, packet_eq_ok_iff.mpr ⟨op, payload, h, hfits, hsize, rfl⟩⟩

theorem Possible.ne_backend {r : Request} (h : r.Possible) (hbasic : r.kind ≠ .basicStatus)
    (hcomplete : r.kind ≠ .completeStatus) : r.node ≠ .backend :=
  h.address.resolve_right (not_or.mpr ⟨hbasic, hcomplete⟩)

/-- **The requests that have a packet.** -/
theorem exists_packet_iff (r : Request) : (∃ p, r.packet = .ok p) ↔ r.Possible := by
  obtain ⟨kind, node, modules, aspects⟩ := r
  cases kind with
  | basicStatus =>
    refine (exists_packet_iff_of_content rfl).trans ?_
    exact iff_of_true ⟨rfl, Nat.zero_le _⟩ ⟨.inr (.inl rfl), .inl nofun⟩
  | completeStatus =>
    refine (exists_packet_iff_of_content rfl).trans ?_
    exact iff_of_true ⟨rfl, Nat.zero_le _⟩ ⟨.inr (.inr rfl), .inl nofun⟩
  | configuration =>
    by_cases hcoded : ∀ b ∈ modules, b ∈ Grammar.tags
    · obtain ⟨codes, rfl⟩ := exists_map_byte_iff.mpr hcoded
      have hcontent : content ⟨.configuration, node, codes.map ModuleCode.byte, aspects⟩ =
          .ok (.getConfiguration, .configurationQuery codes) :=
        map_eq_ok.mpr ⟨codes, decodeCodes_eq_ok_iff.mpr rfl, rfl⟩
      have hlength : (codes.map ModuleCode.byte).length = codes.length := List.length_map _
      refine (exists_packet_iff_of_content hcontent).trans ?_
      constructor
      · rintro ⟨hfits, hsize⟩
        exact ⟨.inl (not_isUplink_toNode.mp hfits), .inr ⟨hcoded, hlength.trans_le hsize⟩⟩
      · intro h
        have hmodules := h.modules.resolve_left (not_not.mpr rfl)
        exact ⟨not_isUplink_toNode.mpr (h.ne_backend nofun nofun), hlength.symm.trans_le hmodules.2⟩
    · refine iff_of_false ?_ fun h => hcoded (h.modules.resolve_left (not_not.mpr rfl)).1
      rintro ⟨p, hp⟩
      obtain ⟨_, _, hcontent, _⟩ := packet_eq_ok_iff.mp hp
      obtain ⟨codes, hcodes, _⟩ := map_eq_ok.mp hcontent
      exact hcoded (exists_map_byte_iff.mp ⟨codes, decodeCodes_eq_ok_iff.mp hcodes⟩)
  | hydrophone =>
    refine (exists_packet_iff_of_content rfl).trans ?_
    constructor
    · rintro ⟨hfits, _⟩
      exact ⟨.inl (not_isUplink_toNode.mp hfits), .inl nofun⟩
    · intro h
      exact ⟨not_isUplink_toNode.mpr (h.ne_backend nofun nofun), (by decide : 1 ≤ 334)⟩

end Request

/-! ## Replies to the sender -/

namespace Node

variable {σ : Type} [ConfigurationStore σ] {n : Node σ} {raw : Bytes}

/-- A packet for a node or for all, that is no error report, is answered to its sender. -/
theorem exists_reply_to_sender {c : Configuration} (hc : n.configuration = .ok c) {request : Packet}
    (hdecode : Packet.decode raw = .ok request)
    (haccepted : request.routing.receiver = c.localAddress ∨ request.routing.receiver = .broadcast)
    (hop : request.opcode ≠ .errorReport) :
    ∃ reply, (n.receive raw).1 = some reply ∧
      reply.routing = ⟨c.localAddress, request.routing.sender, 3⟩ := by
  have htakes : n.Takes raw c request := ⟨hdecode, hc, (accepts_iff hdecode _).mpr ⟨haccepted, hop⟩⟩
  refine ⟨_, by rw [receive_of_takes htakes], ?_⟩
  rw [Dispatcher.routing_answer]
  exact Routing.reply_of_accepted haccepted

end Node

/-! ## From the command line to the reply -/

namespace Request

theorem opcode_of_content {r : Request} {op : Opcode} {payload : Payload}
    (h : r.content = .ok (op, payload)) : op ≠ .errorReport := by
  obtain ⟨kind, node, modules, aspects⟩ := r
  rintro rfl
  cases kind with
  | basicStatus => cases h
  | completeStatus => cases h
  | configuration =>
    obtain ⟨_, _, heq⟩ := map_eq_ok.mp h
    cases heq
  | hydrophone => cases h

/-- What becomes of the packet of a request. -/
structure Delivered (r : Request) (p : Packet) : Prop where
  content_eq : r.content = .ok (p.opcode, p.payload)
  routing_eq : p.routing = .toNode r.node
  printed : CommandLine.perform (.request r) = CommandLine.success (p.hex ++ "\n")
  /-- Colons, white space and the case of letters make no difference; all else does. -/
  read_iff : ∀ argument, readHexArgument argument = .ok p.wire ↔
    Hex.Spells argument.toList p.hex.toList
  decoded : Packet.decode p.wire = .ok p
  answered : ∀ {σ : Type} [ConfigurationStore σ] (n : Node σ) (c : Configuration),
    n.configuration = .ok c → r.node = c.localAddress ∨ r.node = .broadcast →
    ∃ reply, (n.receive p.wire).1 = some reply ∧ reply.routing = ⟨c.localAddress, .backend, 3⟩
  unanswered : ∀ {σ : Type} [ConfigurationStore σ] (n : Node σ) (e : Fault),
    n.configuration = .error e → n.receive p.wire = (none, n)

theorem delivered {r : Request} {p : Packet} (h : r.packet = .ok p) : r.Delivered p := by
  obtain ⟨op, payload, hcontent, hfits, hsize, rfl⟩ := packet_eq_ok_iff.mp h
  have hdecode := (Packet.Obtained.made (Packet.make_eq_ok_iff.mpr
    ⟨hfits, Nat.add_le_add_left hsize Limits.minPacketSize, rfl⟩)).decode_wire
  constructor
  case content_eq => exact hcontent
  case routing_eq => rfl
  case printed => simp only [CommandLine.perform, CommandLine.showRequest, h]
  case read_iff => exact fun _ => readHexArgument_eq_ok_iff
  case decoded => exact hdecode
  case answered =>
    intro _ _ n c hc hnode
    exact Node.exists_reply_to_sender hc hdecode hnode (opcode_of_content hcontent)
  case unanswered =>
    intro _ _ n e hc
    exact Node.receive_of_unloaded hc _

/-- **The command line and the nodes agree.**  A request has a packet exactly if it is possible.
What is printed for it may be typed in again in either letter case, with white space and colons
anywhere, and gives the octets of the packet.  Every node that is meant, and has its configuration,
replies with one packet to the shore. -/
theorem packet_delivered (r : Request) :
    ((∃ p, r.packet = .ok p) ↔ r.Possible) ∧ ∀ p, r.packet = .ok p → r.Delivered p :=
  ⟨r.exists_packet_iff, fun _ => delivered⟩

/-- All nodes are asked for their status. -/
theorem packet_delivered_status :
    let r : Request := ⟨.basicStatus, .broadcast, [], ⟨15⟩⟩
    ∃ p, r.packet = .ok p ∧ p.hex = "7300ff036ef5" ∧ r.Delivered p := by
  intro r
  have hp : r.packet = .ok (.sealed .basicStatus (.toNode .broadcast) .empty) := rfl
  exact ⟨_, hp, by decide +kernel, (packet_delivered r).2 _ hp⟩

/-- **A node that has lost its configuration does not answer**, even if all are asked: it has
answered, until someone left a file in place of its own that is no document. -/
theorem receive_unloaded :
    let r : Request := ⟨.basicStatus, .broadcast, [], ⟨15⟩⟩
    let peripherals : Peripherals := ⟨⟨77, .charging⟩, ⟨⟨0⟩, ⟨0⟩⟩, 0, ⟨0⟩⟩
    ∃ p n, r.packet = .ok p ∧
      Node.start peripherals (FileStore.ofPath "node.json") .standard = .ok n ∧
      (n.receive p.wire).1 ≠ none ∧
      let overwritten := n.memory.store.write "no document".toUTF8
      let lost := { n with memory.store := overwritten.2 }
      overwritten.1 = true ∧ lost.receive p.wire = (none, lost) := by
  intro r peripherals
  let n : Node FileStore := ⟨peripherals, ⟨.ofPath "node.json", .empty⟩, .standard, ⟨0, 0, 0⟩⟩
  have hp : r.packet = .ok (.sealed .basicStatus (.toNode .broadcast) .empty) := rfl
  have hdelivered := delivered hp
  have hload : ConfigurationStore.load (FileStore.ofPath "node.json") = .ok .default := by
    decide +kernel
  have hlost : ConfigurationStore.load
      ((FileStore.ofPath "node.json").write "no document".toUTF8).2 = .error (.document none) := by
    decide +kernel
  refine ⟨_, n, hp, bind_eq_ok.mpr ⟨.default, hload, rfl⟩, ?_, by decide +kernel, ?_⟩
  · obtain ⟨reply, hreply, _⟩ := hdelivered.answered n .default hload (.inr rfl)
    rw [hreply]
    nofun
  · have hconfig : ConfigurationStore.load (n.memory.store.write "no document".toUTF8).2 =
        .error (.document none) := hlost
    exact hdelivered.unanswered _ _ hconfig

end Request

end AcousticNode

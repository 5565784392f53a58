import AcousticNode.Proofs.Module.Encoding
import AcousticNode.Proofs.Node.Dispatch
import AcousticNode.Proofs.Node.Inventory
import AcousticNode.Proofs.Node.ValidConfiguration

/-!
# Questions about the configuration

The shore asks for modules by their codes.  A node answers with the modules that stand for the
codes, one after another, and they can be read back from the answer; or it refuses, because an
aspect of the hydrophone is not known, because a value is too long for its record, or because the
records are too long for a packet.

* `answerQuery_eq_ok_iff` : the questions that are answered, and how;
* `run_queried` : every question in every state of every run, over either store.
-/

set_option autoImplicit false

namespace AcousticNode

open Outcome
open ConfigurationStore (load)

/-! ## Answers -/

/-- The records of the modules fit one packet. -/
structure FitPacket (ms : List Module) : Prop where
  value_le : ∀ m ∈ ms, m.value.length ≤ 255
  size_le : ms.foldr (fun m n => m.size + n) 0 ≤ 334

/-- A packet tells a list of modules: it is received as it was sent, and its records are the
modules. -/
structure Packet.TellsModules (p : Packet) (ms : List Module) : Prop where
  decode_wire : decode p.wire = .ok p
  opcode_eq : p.opcode = .getConfiguration
  records : ∃ l, p.payload = .configurationAnswer l ∧ l.modules = .ok ms

theorem FitPacket.exists_records {ms : List Module} (h : FitPacket ms) :
    ∃ l, RecordList.ofModules ms = .ok l ∧ l.modules = .ok ms := by
  have hbytes : Module.encodeAll ms = .ok (ms.flatMap Module.frame) :=
    Module.encodeAll_eq_ok_iff.mpr ⟨h.value_le, rfl⟩
  let l : RecordList := ⟨ms.flatMap Module.frame, _, Module.count_encodeAll hbytes⟩
  exact ⟨l, RecordList.ofModules_eq_ok_iff.mpr ⟨h.value_le, rfl⟩,
    Module.decodeAll_records h.value_le⟩

/-- Six octets of the packet are not records. -/
theorem Packet.make_answer_eq_ok_iff {ms : List Module} {l : RecordList} {routing : Routing}
    {reply : Packet} (hl : RecordList.ofModules ms = .ok l) (hup : routing.isUplink = true) :
    make .getConfiguration routing (.configurationAnswer l) = .ok reply ↔
      FitPacket ms ∧ reply = sealed .getConfiguration routing (.configurationAnswer l) := by
  obtain ⟨hvalues, hbytes⟩ := RecordList.ofModules_eq_ok_iff.mp hl
  have hfits : (Payload.configurationAnswer l).fits .getConfiguration routing = true := by
    rw [Payload.fits, hup]
    rfl
  have hsize : (Payload.configurationAnswer l).size = ms.foldr (fun m n => m.size + n) 0 := by
    rw [Payload.size, hbytes, ← length_framesOf, framesOf]
  have hmin : Limits.minPacketSize = 6 := rfl
  have hmax : Limits.maxPacketSize = 340 := rfl
  rw [make_eq_ok_iff, hsize]
  constructor
  · rintro ⟨_, hlen, hreply⟩
    exact ⟨⟨hvalues, by omega⟩, hreply⟩
  · rintro ⟨hfit, hreply⟩
    have hlen := hfit.size_le
    exact ⟨hfits, by omega, hreply⟩

/-! ## The routine -/

variable {σ : Type} [ConfigurationStore σ]

namespace Routine

variable {ctx : Context} {c : Configuration} {mem : Memory σ} {request : Packet}
  {codes : List ModuleCode}

/-- A question from the shore is answered in three steps. -/
theorem answerQuery_eq_ok_iff {reply : Packet} (hload : load mem.store = .ok c)
    (hpayload : request.payload = .configurationQuery codes)
    (hsender : request.routing.sender = .backend) :
    answerQuery ctx mem request = .ok reply ↔ ∃ ms, ctx.TellsAll c mem.cache codes ms ∧
      FitPacket ms ∧ ∃ l, RecordList.ofModules ms = .ok l ∧ reply = .sealed .getConfiguration
        (request.routing.reply ctx.localAddress) (.configurationAnswer l) := by
  have hbackend : requireBackend request = .ok () := if_pos (decide_eq_true hsender)
  have hup : (request.routing.reply ctx.localAddress).isUplink = true := decide_eq_true hsender
  unfold answerQuery
  rw [hpayload]
  simp only [bind_eq_ok, hbackend, hload, Except.ok.injEq, exists_eq_left',
    Context.reportAll_eq_ok_iff, Context.answerRouting]
  constructor
  · rintro ⟨_, _, ms, htells, l, hl, hmake⟩
    obtain ⟨hfit, hreply⟩ := (Packet.make_answer_eq_ok_iff hl hup).mp hmake
    exact ⟨ms, htells, hfit, l, hl, hreply⟩
  · rintro ⟨ms, htells, hfit, l, hl, hreply⟩
    exact ⟨(), trivial, ms, htells, l, hl, (Packet.make_answer_eq_ok_iff hl hup).mpr ⟨hfit, hreply⟩⟩

theorem exists_answerQuery (hload : load mem.store = .ok c)
    (hpayload : request.payload = .configurationQuery codes)
    (hsender : request.routing.sender = .backend) {ms : List Module}
    (htells : ctx.TellsAll c mem.cache codes ms) (hfit : FitPacket ms) :
    ∃ reply, answerQuery ctx mem request = .ok reply ∧ reply.TellsModules ms := by
  obtain ⟨l, hl, hmodules⟩ := hfit.exists_records
  have hup : (request.routing.reply ctx.localAddress).isUplink = true := decide_eq_true hsender
  have hmade := (Packet.make_answer_eq_ok_iff hl hup).mpr ⟨hfit, rfl⟩
  exact ⟨_, (answerQuery_eq_ok_iff hload hpayload hsender).mpr ⟨ms, htells, hfit, l, hl, rfl⟩,
    (Packet.Obtained.made hmade).decode_wire, rfl, l, rfl, hmodules⟩

end Routine

/-! ## Nodes -/

/-- What a node replies to a question about codes. -/
structure Queried (ctx : Context) (c : Configuration) (cache : HydrophoneUpdate)
    (codes : List ModuleCode) (reply : Packet) : Prop where
  routing_eq : reply.routing = ⟨ctx.localAddress, .backend, 3⟩
  /-- The modules can be told if the aspects that they are made of are known. -/
  exists_tellsAll_iff : (∃ ms, ctx.TellsAll c cache codes ms) ↔
    ∀ code ∈ codes, ∀ a ∈ code.aspects, cache.holds a = true
  answered : ∀ ms, ctx.TellsAll c cache codes ms → FitPacket ms → reply.TellsModules ms
  refused : (∀ ms, ctx.TellsAll c cache codes ms → ¬ FitPacket ms) →
    reply = .errorReport reply.routing .invalidPayload

namespace Node

/-- A node answers the questions of the shore from its configuration, from the mode that it is in,
from the aspects that it knows, and from its peripherals, which are those that it started with. -/
structure Answers (n : Node σ) (peripherals : Peripherals) (c : Configuration) : Prop where
  configuration_eq : n.configuration = .ok c
  queried : ∀ raw request codes, Packet.decode raw = .ok request →
    request.payload = .configurationQuery codes → request.routing.sender = .backend →
    request.routing.receiver = c.localAddress ∨ request.routing.receiver = .broadcast →
    ∃ reply, (n.receive raw).1 = some reply ∧
      Queried ⟨c.localAddress, n.agenda.mode, peripherals⟩ c n.memory.cache codes reply
  /-- In a mode that the graph does not know the next minute starts again in the lowest mode. -/
  restarts : c.graph.contains n.agenda.mode = false →
    ∃ lowest, c.graph.keys.head? = some lowest ∧
      ∀ minute, (n.tick minute).2.agenda.mode = lowest

theorem queried [ImpartialStore σ] {n : Node σ} (hd : n.dispatcher = .standard)
    {c : Configuration} (hc : n.configuration = .ok c) {lowest : Mode}
    (hlowest : ModeGraph.first? c.graph = some lowest) {raw : Bytes} {request : Packet}
    {codes : List ModuleCode} (hdecode : Packet.decode raw = .ok request)
    (hpayload : request.payload = .configurationQuery codes)
    (hsender : request.routing.sender = .backend)
    (hreceiver : request.routing.receiver = c.localAddress ∨
      request.routing.receiver = .broadcast) :
    ∃ reply, (n.receive raw).1 = some reply ∧
      Queried (n.context c.localAddress) c n.memory.cache codes reply := by
  obtain ⟨hop, _⟩ : request.opcode = .getConfiguration ∧ request.routing.isUplink = false := by
    simpa [hpayload, Payload.fits] using Packet.fits_of_decode hdecode
  have hr : Dispatcher.standard.routine? request.opcode = some .reportConfiguration := by
    rw [hop]
    rfl
  have hforeign : ¬ request.IsForeignQuestion := fun hforeign => hforeign.sender_ne hsender
  have hanswer : ∀ ms, (n.context c.localAddress).TellsAll c n.memory.cache codes ms →
      FitPacket ms → ∃ reply, Routine.answerQuery (n.context c.localAddress) n.memory request =
        .ok reply ∧ reply.TellsModules ms :=
    fun _ htells hfit => Routine.exists_answerQuery hc hpayload hsender htells hfit
  obtain ⟨reply, hreply, hrouting, hrun⟩ := exists_reply hd hc hdecode hreceiver hr hforeign
  rw [hsender] at hrouting
  refine ⟨reply, hreply, hrouting, Context.exists_tellsAll_iff hlowest codes, ?_, ?_⟩
  · intro ms htells hfit
    obtain ⟨reply', hreply', htold⟩ := hanswer ms htells hfit
    rcases hrun with hok | ⟨⟨e, he⟩, _⟩
    · obtain rfl : reply' = reply := Except.ok.inj (hreply'.symm.trans hok)
      exact htold
    · cases hreply'.symm.trans he
  · intro hnot
    rcases hrun with hok | ⟨_, hrefused⟩
    · obtain ⟨ms, htells, hfit, _⟩ := (Routine.answerQuery_eq_ok_iff hc hpayload hsender).mp hok
      exact absurd hfit (hnot ms htells)
    · exact hrefused

theorem answers [ImpartialStore σ] {n : Node σ} (hd : n.dispatcher = .standard)
    {c : Configuration} (hc : n.configuration = .ok c) {lowest : Mode}
    (hlowest : ModeGraph.first? c.graph = some lowest) : n.Answers n.peripherals c where
  configuration_eq := hc
  queried _ _ _ hdecode hpayload hsender hreceiver :=
    queried hd hc hlowest hdecode hpayload hsender hreceiver
  restarts hunknown := by
    have hnone : c.graph.get? n.agenda.mode = none := by
      simpa [Table.contains] using hunknown
    refine ⟨lowest, hlowest, fun minute => ?_⟩
    rw [snd_tick_of_loaded hc]
    simp only [Agenda.mode_countCycle, Agenda.mode_note, Agenda.advance_of_unknown hnone hlowest]

theorem run_answers [ReliableStore σ] [ImpartialStore σ] {peripherals : Peripherals} {store : σ}
    {n : Node σ} (h : start peripherals store .standard = .ok n) (events : List Event) :
    ∃ c, (n.run events).Answers peripherals.synchronised c := by
  obtain ⟨c, hc, _, _, ⟨lowest, hlowest⟩, _⟩ := run_inOrder h events
  obtain ⟨hperipherals, hd⟩ := n.run_equipped events
  obtain ⟨hstart, hstandard⟩ := equipment_of_start h
  have hanswers := answers (hd.trans hstandard) hc hlowest
  rw [hperipherals, hstart] at hanswers
  exact ⟨c, hanswers⟩

/-- **Questions are answered faithfully.**  Whatever a node has started from and gone through since,
it replies to a question of the shore with the modules that stand for the codes, in the order of the
codes, if it knows them and they fit a packet; and they are read back from the reply as they are.
Otherwise it replies that the question is refused. -/
theorem run_queried (peripherals : Peripherals) (events : List Event) :
    (∀ (store : MemoryStore) (n : Node MemoryStore), start peripherals store .standard = .ok n →
      ∃ c, (n.run events).Answers peripherals.synchronised c) ∧
    (∀ (store : FileStore) (n : Node FileStore), start peripherals store .standard = .ok n →
      ∃ c, (n.run events).Answers peripherals.synchronised c) :=
  ⟨fun _ _ h => run_answers h events, fun _ _ h => run_answers h events⟩

/-- A node that stays in its first mode for no cycle at all tells, after a minute, that it is in the
second one, and then both its schedules. -/
theorem run_queried_modes :
    let c := { Configuration.default with
      localAddress := ⟨5⟩, graph := (Table.empty.insert 1 ⟨2, 0⟩).insert 2 ⟨1, 5⟩ }
    let request := Packet.sealed .getConfiguration (.toNode ⟨5⟩)
      (.configurationQuery [.modeList, .reporting])
    let n : Node MemoryStore := ⟨⟨⟨77, .charging⟩, ⟨⟨0⟩, ⟨0⟩⟩, 0, ⟨0⟩⟩, ⟨⟨c, true⟩, .empty⟩,
      .standard, ⟨1, 0, 0⟩⟩
    start n.peripherals n.memory.store .standard = .ok n ∧
      ∃ reply, ((n.run [.tick 15]).receive request.wire).1 = some reply ∧
        reply.TellsModules
          [.modeList ⟨[1, 2], 1, by decide⟩, .reporting c.lora, .reporting c.iridium] := by
  intro c request n
  have hstart : start n.peripherals n.memory.store .standard = .ok n := rfl
  obtain ⟨c', hanswers⟩ := (run_queried n.peripherals [.tick 15]).1 _ n hstart
  have hconfiguration : (n.run [.tick 15]).configuration = .ok c := rfl
  obtain rfl : c' = c := Except.ok.inj (hanswers.configuration_eq.symm.trans hconfiguration)
  have hspells : Packet.Spells request.wire request
      [ModuleCode.modeList.byte, ModuleCode.reporting.byte] :=
    Packet.spells_sealed rfl (by decide)
  have hdecode : Packet.decode request.wire = .ok request :=
    (Packet.Carried.of_spells hspells).decode_wire
  obtain ⟨reply, hreply, hqueried⟩ :=
    hanswers.queried _ request _ hdecode rfl rfl (.inl rfl)
  refine ⟨hstart, reply, hreply, hqueried.answered _ ⟨[[_], [_, _]], ?_, rfl⟩
    ⟨by decide, by decide⟩⟩
  exact .cons (.modeList rfl rfl (by decide)) (.cons .reporting .nil)

end Node

end AcousticNode

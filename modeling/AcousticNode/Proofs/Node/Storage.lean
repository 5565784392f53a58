import AcousticNode.Proofs.Node.ValidConfiguration
import AcousticNode.Proofs.Packet.RoundTrip
import AcousticNode.Proofs.Store.Working

/-!
# Nodes over different stores

A node does not notice where its configuration is kept.  It saves valid configurations only, and
these a file that can be saved to gives back as a store in memory does.  So of two nodes that start
with the same configuration, one in memory and one with a file, each gives back what the other does,
frame by frame, drain by drain and minute by minute.

* `run_mirrored` : every routine, over stores that mirror each other;
* `Twin.respond` : every event;
* `run_file` : every run over a file, against the same run in memory.
-/

set_option autoImplicit false

namespace AcousticNode

open Outcome
open ConfigurationStore (load save)

variable {σ τ : Type} [ConfigurationStore σ] [ConfigurationStore τ] {R : σ → τ → Prop}

/-! ## Memories -/

/-- The same cache, and stores that mirror each other. -/
structure Memory.Mirrored (R : σ → τ → Prop) (mem : Memory σ) (mem' : Memory τ) : Prop where
  store : R mem.store mem'.store
  cache_eq : mem'.cache = mem.cache

/-- The same result, and memories that mirror each other. -/
structure Mirrored {α : Type} (R : σ → τ → Prop) (x : α × Memory σ) (y : α × Memory τ) : Prop where
  result_eq : y.1 = x.1
  memory : x.2.Mirrored R y.2

namespace Routine

variable {mem : Memory σ} {mem' : Memory τ}

theorem updatedConfiguration_mirrored (hR : Mirroring R) (h : mem.Mirrored R mem')
    (records : RecordList) :
    updatedConfiguration mem'.store records = updatedConfiguration mem.store records := by
  rw [updatedConfiguration, updatedConfiguration, hR.load_eq h.store]

theorem answerChange_mirrored (hR : Mirroring R) (h : mem.Mirrored R mem') (ctx : Context)
    (request : Packet) :
    Mirrored R (answerChange ctx mem request) (answerChange ctx mem' request) := by
  unfold answerChange
  split
  · rename_i records _
    rw [updatedConfiguration_mirrored hR h]
    cases hupdated : updatedConfiguration mem.store records with
    | error e => exact ⟨rfl, h⟩
    | ok updated =>
      obtain ⟨hresult, hstores⟩ := hR.save_eq h.store (valid_of_updatedConfiguration hupdated)
      cases hsave : save mem.store updated with
      | mk result s =>
        cases hsave' : save mem'.store updated with
        | mk result' t =>
          rw [hsave, hsave'] at hresult hstores
          obtain rfl : result' = result := hresult
          simp only [hsave, hsave']
          cases result' with
          | ok _ => exact ⟨rfl, hstores, h.cache_eq⟩
          | error e => exact ⟨rfl, hstores, h.cache_eq⟩
  · exact ⟨rfl, h⟩

theorem answerQuery_mirrored (hR : Mirroring R) (h : mem.Mirrored R mem') (ctx : Context)
    (request : Packet) : answerQuery ctx mem' request = answerQuery ctx mem request := by
  rw [answerQuery, answerQuery, hR.load_eq h.store, h.cache_eq]

omit [ConfigurationStore σ] [ConfigurationStore τ] in
theorem answerStore_mirrored (h : mem.Mirrored R mem') (ctx : Context) (request : Packet) :
    Mirrored R (answerStore ctx mem request) (answerStore ctx mem' request) := by
  unfold answerStore
  split
  · rename_i update _
    exact ⟨rfl, h.store, congrArg (·.store update) h.cache_eq⟩
  · exact ⟨rfl, h⟩

theorem run_mirrored (hR : Mirroring R) (h : mem.Mirrored R mem') (r : Routine) (ctx : Context)
    (request : Option Packet) : Mirrored R (r.run ctx mem request) (r.run ctx mem' request) := by
  cases r with
  | basicStatus => exact ⟨rfl, h⟩
  | completeStatus => exact ⟨by rw [run, run, h.cache_eq], h⟩
  | changeConfiguration =>
    cases request with
    | none => exact ⟨rfl, h⟩
    | some p => exact answerChange_mirrored hR h ctx p
  | reportConfiguration =>
    cases request with
    | none => exact ⟨rfl, h⟩
    | some p => exact ⟨answerQuery_mirrored hR h ctx p, h⟩
  | storeHydrophone =>
    cases request with
    | none => exact ⟨rfl, h⟩
    | some p => exact answerStore_mirrored h ctx p
  | fetchHydrophone =>
    cases request with
    | none => exact ⟨rfl, h⟩
    | some p => exact ⟨by rw [run, run, h.cache_eq], h⟩

end Routine

namespace Dispatcher

variable {mem : Memory σ} {mem' : Memory τ}

theorem run_mirrored (hR : Mirroring R) (h : mem.Mirrored R mem') (d : Dispatcher) (op : Opcode)
    (ctx : Context) (request : Option Packet) :
    Mirrored R (d.run op ctx mem request) (d.run op ctx mem' request) := by
  unfold run
  cases d.routine? op with
  | none => exact ⟨rfl, h⟩
  | some r => exact r.run_mirrored hR h ctx request

theorem answer_mirrored (hR : Mirroring R) (h : mem.Mirrored R mem') (d : Dispatcher)
    (ctx : Context) (p : Packet) : Mirrored R (d.answer ctx mem p) (d.answer ctx mem' p) := by
  unfold answer
  cases d.routine? p.opcode with
  | none => exact ⟨rfl, h⟩
  | some r =>
    obtain ⟨hresult, hmemory⟩ := r.run_mirrored hR h ctx (some p)
    cases hrun : r.run ctx mem (some p) with
    | mk result m =>
      cases hrun' : r.run ctx mem' (some p) with
      | mk result' m' =>
        rw [hrun, hrun'] at hresult hmemory
        obtain rfl : result' = result := hresult
        simp only [hrun, hrun']
        cases result' with
        | ok reply => exact ⟨rfl, hmemory⟩
        | error e => exact ⟨rfl, hmemory⟩

end Dispatcher

/-! ## What a node gives back -/

/-- What comes of an event, as seen from outside the node. -/
inductive Response where
  | reply (packet : Option Packet)
  /-- A link with the answers that were sent, and their number. -/
  | drained (link : Link) (sent : Nat)
  | report (packet : Option Packet)

namespace Node

/-- What a node gives back for an event. -/
def response (n : Node σ) : Event → Response
  | .frame raw => .reply (n.receive raw).1
  | .drain link refused => .drained (n.drain link refused).link (n.drain link refused).sent
  | .tick minute => .report (n.tick minute).1

/-- What a node gives back for one event after another. -/
def responses (n : Node σ) : List Event → List Response
  | [] => []
  | e :: events => n.response e :: responses (n.after e) events

/-- A node that is the same but for its store, which mirrors that of the other. -/
structure Twin (R : σ → τ → Prop) (n : Node σ) (n' : Node τ) : Prop where
  peripherals_eq : n'.peripherals = n.peripherals
  dispatcher_eq : n'.dispatcher = n.dispatcher
  agenda_eq : n'.agenda = n.agenda
  memory : n.memory.Mirrored R n'.memory

variable {n : Node σ} {n' : Node τ}

theorem Twin.configuration_eq (hR : Mirroring R) (h : n.Twin R n') :
    n'.configuration = n.configuration := hR.load_eq h.memory.store

omit [ConfigurationStore σ] [ConfigurationStore τ] in
theorem Twin.context_eq (h : n.Twin R n') (localAddress : Address) :
    n'.context localAddress = n.context localAddress := by
  rw [context, context, h.agenda_eq, h.peripherals_eq]

theorem Twin.receive (hR : Mirroring R) (h : n.Twin R n') (raw : Bytes) :
    (n'.receive raw).1 = (n.receive raw).1 ∧ (n.receive raw).2.Twin R (n'.receive raw).2 := by
  unfold Node.receive
  rw [h.configuration_eq hR]
  split
  · rename_i p c _ _
    split
    · have hanswer := n.dispatcher.answer_mirrored hR h.memory (n.context c.localAddress) p
      simp only [answer, h.dispatcher_eq, h.context_eq]
      exact ⟨congrArg some hanswer.result_eq, h.peripherals_eq, rfl, h.agenda_eq, hanswer.memory⟩
    · exact ⟨rfl, h⟩
  · exact ⟨rfl, h⟩

theorem Twin.receiveAll (hR : Mirroring R) (h : n.Twin R n') (raws : List Bytes) :
    (n'.receiveAll raws).1 = (n.receiveAll raws).1 ∧
      (n.receiveAll raws).2.Twin R (n'.receiveAll raws).2 := by
  induction raws generalizing n n' with
  | nil => exact ⟨rfl, h⟩
  | cons raw raws ih =>
    obtain ⟨hreply, hnext⟩ := h.receive hR raw
    obtain ⟨hreplies, hlast⟩ := ih hnext
    simp only [Node.receiveAll]
    exact ⟨by rw [hreply, hreplies], hlast⟩

theorem Twin.drain (hR : Mirroring R) (h : n.Twin R n') (link : Link) (refused : Nat → Bool) :
    (n'.drain link refused).link = (n.drain link refused).link ∧
      (n'.drain link refused).sent = (n.drain link refused).sent ∧
      (n.drain link refused).node.Twin R (n'.drain link refused).node := by
  obtain ⟨hreplies, hlast⟩ := h.receiveAll hR link.read.1
  simp only [Node.drain, hreplies]
  exact ⟨trivial, trivial, hlast⟩

theorem Twin.tick (hR : Mirroring R) (h : n.Twin R n') (minute : Nat) :
    (n'.tick minute).1 = (n.tick minute).1 ∧ (n.tick minute).2.Twin R (n'.tick minute).2 := by
  unfold Node.tick
  rw [h.configuration_eq hR]
  split
  · exact ⟨rfl, h⟩
  · rename_i c _
    simp only [h.agenda_eq]
    split
    · exact ⟨rfl, h.peripherals_eq, h.dispatcher_eq, rfl, h.memory⟩
    · rename_i t _
      simp only [sendReport, context, h.dispatcher_eq, h.peripherals_eq]
      have hrun := n.dispatcher.run_mirrored hR h.memory t.opcode
        ⟨c.localAddress, (n.agenda.advance c.graph).mode, n.peripherals⟩ none
      exact ⟨congrArg Except.toOption hrun.result_eq, rfl, rfl, rfl, hrun.memory⟩

theorem Twin.respond (hR : Mirroring R) (h : n.Twin R n') (e : Event) :
    n'.response e = n.response e ∧ (n.after e).Twin R (n'.after e) := by
  cases e with
  | frame raw =>
    obtain ⟨hreply, hnext⟩ := h.receive hR raw
    exact ⟨congrArg Response.reply hreply, hnext⟩
  | drain link refused =>
    obtain ⟨hlink, hsent, hnext⟩ := h.drain hR link refused
    exact ⟨by rw [response, response, hlink, hsent], hnext⟩
  | tick minute =>
    obtain ⟨hreport, hnext⟩ := h.tick hR minute
    exact ⟨congrArg Response.report hreport, hnext⟩

theorem Twin.run (hR : Mirroring R) (h : n.Twin R n') (events : List Event) :
    n'.responses events = n.responses events ∧ (n.run events).Twin R (n'.run events) := by
  induction events generalizing n n' with
  | nil => exact ⟨rfl, h⟩
  | cons e events ih =>
    obtain ⟨hresponse, hnext⟩ := h.respond hR e
    obtain ⟨hresponses, hlast⟩ := ih hnext
    exact ⟨by rw [responses, responses, hresponse, hresponses], hlast⟩

/-- What can be asked of two nodes is answered alike: the configuration, the mode, and the cache. -/
structure Agree (n : Node σ) (n' : Node τ) : Prop where
  configuration_eq : n'.configuration = n.configuration
  mode_eq : n'.agenda.mode = n.agenda.mode
  cache_eq : n'.memory.cache = n.memory.cache

theorem Twin.agree (hR : Mirroring R) (h : n.Twin R n') : n.Agree n' :=
  ⟨h.configuration_eq hR, congrArg Agenda.mode h.agenda_eq, h.memory.cache_eq⟩

theorem Twin.of_start {peripherals : Peripherals} {s : σ} {t : τ} {d : Dispatcher}
    (hR : Mirroring R) (h : R s t) (hn : start peripherals s d = .ok n)
    (hn' : start peripherals t d = .ok n') : n.Twin R n' := by
  obtain ⟨c, first, hload, _, hfirst, rfl⟩ := start_eq_ok_iff.mp hn
  obtain ⟨c', first', hload', _, hfirst', rfl⟩ := start_eq_ok_iff.mp hn'
  obtain rfl : c' = c := Except.ok.inj (hload'.symm.trans ((hR.load_eq h).trans hload))
  obtain rfl : first' = first := Option.some.inj (hfirst'.symm.trans hfirst)
  exact ⟨rfl, rfl, rfl, h, rfl⟩

theorem exists_start {peripherals : Peripherals} {s : σ} {d : Dispatcher} {c : Configuration}
    (hload : load s = .ok c) (hvalid : c.Valid) : ∃ n, start peripherals s d = .ok n := by
  obtain ⟨first, hfirst⟩ := hvalid.exists_first?
  have hcheck : c.check = .ok () :=
    Configuration.check_eq_ok_iff.mpr ((Configuration.validate_eq_ok_iff c).mpr hvalid)
  exact ⟨_, start_eq_ok_iff.mpr ⟨c, first, hload, hcheck, hfirst, rfl⟩⟩

/-- **A file does what memory does.**  A node whose configuration is in a file that it can save to,
or in one that is missing and stands for the default, and a node that has the same configuration in
memory both start.  From then on they give back the same, whatever comes, and agree after each
event. -/
theorem run_file (peripherals : Peripherals) (d : Dispatcher) {file : FileStore}
    {c : Configuration} (hworking : file.Working) (hload : file.load = .ok c) :
    ∃ (n : Node MemoryStore) (n' : Node FileStore),
      start peripherals ⟨c, false⟩ d = .ok n ∧ start peripherals file d = .ok n' ∧
      ∀ events, n'.responses events = n.responses events ∧
        (n.run events).Agree (n'.run events) := by
  have hvalid : c.Valid := FileStore.valid_of_load hload
  have hmirrors : FileStore.Mirrors ⟨c, false⟩ file := ⟨rfl, hload, hworking⟩
  obtain ⟨n, hn⟩ := exists_start (s := (⟨c, false⟩ : MemoryStore)) rfl hvalid
  obtain ⟨n', hn'⟩ := exists_start (s := file) hload hvalid
  refine ⟨n, n', hn, hn', fun events => ?_⟩
  have htwin : n.Twin FileStore.Mirrors n' := .of_start .of_file hmirrors hn hn'
  obtain ⟨hresponses, hlast⟩ := htwin.run .of_file events
  exact ⟨hresponses, hlast.agree .of_file⟩

/-- A node whose file is missing is told of another graph.  It repeats the change, loads the new
graph from the file that it has made, and moves to the one mode there. -/
theorem run_file_missing :
    let file := FileStore.ofPath "node.json"
    let peripherals : Peripherals := ⟨⟨77, .charging⟩, ⟨⟨0⟩, ⟨0⟩⟩, 0, ⟨0⟩⟩
    let graph := Table.empty.insert 7 ⟨7, 3⟩
    let change := Payload.configurationChange ⟨[0x47, 4, 7, 7, 0, 3], 1, by decide +kernel⟩
    let regraph := Packet.sealed .setConfiguration (.toNode .broadcast) change
    let echo := Packet.sealed .setConfiguration
      (.toBackend Configuration.default.localAddress) change
    let events := [.frame regraph.wire, .tick 5]
    file.Working ∧ file.load = .ok .default ∧ ∃ n : Node FileStore,
      start peripherals file .standard = .ok n ∧
      n.responses events = [.reply echo, .report none] ∧
      (n.run events).configuration = .ok { Configuration.default with graph := graph } ∧
      (n.run events).agenda.mode = 7 := by
  intro file peripherals graph change regraph echo events
  have hworking : file.Working :=
    ⟨⟨⟨.above 0, ["node.json"]⟩, by decide +kernel, by decide +kernel⟩,
      ⟨⟨.above 0, ["node.json.tmp"]⟩, by decide +kernel, by decide +kernel⟩⟩
  have hload : file.load = .ok .default := by decide +kernel
  obtain ⟨m, n, hm, hn, hrun⟩ := run_file peripherals .standard hworking hload
  obtain ⟨hresponses, hagree⟩ := hrun events
  -- in memory the run can be computed
  let moved : Node MemoryStore := ⟨peripherals,
    ⟨⟨{ Configuration.default with graph := graph }, false⟩, .empty⟩, .standard, ⟨0, 0, 0⟩⟩
  have hdecode : Packet.decode regraph.wire = .ok regraph :=
    Packet.decode_wire_sealed rfl (by decide)
  have hmodules : Module.decodeAll [0x47, 4, 7, 7, 0, 3] = .ok [.modeGraph graph] :=
    @Module.decodeAll_records [.modeGraph graph] (by decide)
  have hupdated : Routine.updatedConfiguration (⟨.default, false⟩ : MemoryStore)
      ⟨[0x47, 4, 7, 7, 0, 3], 1, by decide +kernel⟩ =
      .ok { Configuration.default with graph := graph } := bind_eq_ok.mpr ⟨_, hmodules, rfl⟩
  have hreceive : m.receive regraph.wire = (some echo, moved) := by
    obtain rfl : m = ⟨peripherals, ⟨⟨.default, false⟩, .empty⟩, .standard, ⟨0, 0, 0⟩⟩ :=
      (Except.ok.inj hm).symm
    have hanswer : Dispatcher.standard.answer ⟨Configuration.default.localAddress, 0, peripherals⟩
        ⟨(⟨.default, false⟩ : MemoryStore), .empty⟩ regraph = (echo, moved.memory) := by
      simp only [Dispatcher.answer, Dispatcher.standard, regraph, Packet.sealed, Routine.run,
        Routine.answerChange, change, hupdated]
      rfl
    rw [receive, Frame.ofBytes, hdecode]
    exact congrArg (fun answered => (some answered.1, { moved with memory := answered.2 })) hanswer
  have hreport : (moved.tick 5).1 = none := rfl
  have hresponses' : m.responses events = [.reply echo, .report none] := by
    rw [responses, responses, responses, response, response, after, hreceive, hreport]
  have hlast : m.run events = (moved.tick 5).2 :=
    congrArg (fun last => (last.2.tick 5).2) hreceive
  refine ⟨hworking, hload, n, hn, hresponses.trans hresponses', ?_, ?_⟩
  · rw [hagree.configuration_eq, hlast]
    rfl
  · rw [hagree.mode_eq, hlast]
    decide +kernel

end Node

end AcousticNode

import AcousticNode.Node.Basic
import AcousticNode.Proofs.Packet.Parts

/-!
# Runs of a node

What a node does for one frame, and what becomes of it over any sequence of frames, drained links
and minutes.  Of a packet's effect on memory only the payload and the memory before matter: not
the address that the packet came to, nor the mode, nor the peripherals.

* `written_cases`, `snd_run_some` : the memory that a routine leaves;
* `receive_cases` : a frame is answered or ignored;
* `snd_tick_of_loaded` : a minute changes the agenda and nothing else;
* `fst_tick_of_loaded` : what a minute brings;
* `start_eq_ok_iff` : what a node starts as;
* `run_keeps` : what every routine keeps is kept along every run;
* `run_equipped` : peripherals and routines stay as they are.
-/

set_option autoImplicit false

namespace AcousticNode

variable {σ : Type} [ConfigurationStore σ]

open Outcome
open ConfigurationStore (load save)

/-! ## What routines write -/

namespace Routine

/-- The memory that a routine leaves behind for a request with a payload. -/
def written (r : Routine) (mem : Memory σ) (payload : Payload) : Memory σ :=
  match r, payload with
  | changeConfiguration, .configurationChange records =>
    match updatedConfiguration mem.store records with
    | .error _ => mem
    | .ok updated => { mem with store := (save mem.store updated).2 }
  | storeHydrophone, .hydrophoneChange update => { mem with cache := mem.cache.store update }
  | _, _ => mem

theorem written_of_updated {mem : Memory σ} {records : RecordList} {updated : Configuration}
    (h : updatedConfiguration mem.store records = .ok updated) :
    changeConfiguration.written mem (.configurationChange records) =
      { mem with store := (save mem.store updated).2 } := by
  simp only [written, h]

theorem written_of_not_updated {mem : Memory σ} {records : RecordList} {e : Fault}
    (h : updatedConfiguration mem.store records = .error e) :
    changeConfiguration.written mem (.configurationChange records) = mem := by
  simp only [written, h]

variable (σ) in
/-- Two routines write, each for one kind of payload. -/
theorem written_cases (r : Routine) (payload : Payload) :
    (r = changeConfiguration ∧ ∃ records, payload = .configurationChange records) ∨
    (r = storeHydrophone ∧ ∃ update, payload = .hydrophoneChange update) ∨
    ∀ mem : Memory σ, r.written mem payload = mem := by
  cases r
  case changeConfiguration =>
    cases payload
    case configurationChange records => exact .inl ⟨rfl, records, rfl⟩
    all_goals exact .inr (.inr fun _ => rfl)
  case storeHydrophone =>
    cases payload
    case hydrophoneChange update => exact .inr (.inl ⟨rfl, update, rfl⟩)
    all_goals exact .inr (.inr fun _ => rfl)
  all_goals exact .inr (.inr fun _ => rfl)

theorem snd_answerChange (ctx : Context) (mem : Memory σ) (request : Packet) :
    (answerChange ctx mem request).2 = changeConfiguration.written mem request.payload := by
  unfold answerChange
  cases hpayload : request.payload
  case configurationChange records =>
    simp only [written]
    cases updatedConfiguration mem.store records with
    | error e => rfl
    | ok updated =>
      simp only
      split <;> rename_i hsave <;> rw [hsave]
  all_goals rfl

theorem snd_answerStore (ctx : Context) (mem : Memory σ) (request : Packet) :
    (answerStore ctx mem request).2 = storeHydrophone.written mem request.payload := by
  unfold answerStore
  cases request.payload <;> rfl

theorem snd_run_some (r : Routine) (ctx : Context) (mem : Memory σ) (request : Packet) :
    (r.run ctx mem (some request)).2 = r.written mem request.payload := by
  cases r with
  | changeConfiguration => exact snd_answerChange ctx mem request
  | storeHydrophone => exact snd_answerStore ctx mem request
  | basicStatus | completeStatus | reportConfiguration | fetchHydrophone => rfl

/-- Without a request nothing is written. -/
theorem snd_run_none (r : Routine) (ctx : Context) (mem : Memory σ) :
    (r.run ctx mem none).2 = mem := by
  cases r <;> rfl

end Routine

namespace Dispatcher

/-- The memory that a packet leaves behind. -/
def written (d : Dispatcher) (mem : Memory σ) (request : Packet) : Memory σ :=
  match d.routine? request.opcode with
  | none => mem
  | some r => r.written mem request.payload

theorem snd_answer (d : Dispatcher) (ctx : Context) (mem : Memory σ) (request : Packet) :
    (d.answer ctx mem request).2 = d.written mem request := by
  unfold answer written
  cases d.routine? request.opcode with
  | none => rfl
  | some r =>
    simp only
    rw [← r.snd_run_some ctx]
    split <;> rename_i hrun <;> rw [hrun]

theorem snd_run_none (d : Dispatcher) (op : Opcode) (ctx : Context) (mem : Memory σ) :
    (d.run op ctx mem none).2 = mem := by
  unfold run
  cases d.routine? op with
  | none => rfl
  | some r => exact r.snd_run_none ctx mem

end Dispatcher

/-! ## One frame -/

theorem Frame.ofBytes_of_decode {raw : Bytes} {p : Packet} (h : Packet.decode raw = .ok p) :
    Frame.ofBytes raw = .valid p := by
  rw [ofBytes, h]

theorem Packet.fits_of_decode {raw : Bytes} {p : Packet} (h : decode raw = .ok p) :
    p.payload.fits p.opcode p.routing = true := by
  obtain ⟨_, hspells⟩ := decode_eq_ok_iff.mp h
  exact Payload.fits_decode hspells.payload

namespace Node

/-- A frame brings a node a packet that it answers. -/
structure Takes (n : Node σ) (raw : Bytes) (c : Configuration) (request : Packet) : Prop where
  decode_eq : Packet.decode raw = .ok request
  configuration_eq : n.configuration = .ok c
  accepts_eq : accepts c.localAddress request = true

theorem accepts_iff {raw : Bytes} {request : Packet} (h : Packet.decode raw = .ok request)
    (localAddress : Address) :
    accepts localAddress request = true ↔
      (request.routing.receiver = localAddress ∨ request.routing.receiver = .broadcast) ∧
        request.opcode ≠ .errorReport := by
  have hfits := Packet.fits_of_decode h
  rw [accepts, Bool.and_eq_true]
  refine and_congr (by simp [Address.isBroadcast]) ?_
  -- an error report is known by its payload as well as by its operation code
  cases hpayload : request.payload <;> rw [hpayload] at hfits <;> cases hop : request.opcode <;>
    rw [hop] at hfits <;> simp_all [Payload.fits]

theorem receive_of_takes {n : Node σ} {raw : Bytes} {c : Configuration} {request : Packet}
    (h : n.Takes raw c request) :
    n.receive raw = (some (n.dispatcher.answer (n.context c.localAddress) n.memory request).1,
      { n with memory := n.dispatcher.written n.memory request }) := by
  rw [receive, Frame.ofBytes_of_decode h.decode_eq, h.configuration_eq]
  simp only [h.accepts_eq, if_true, answer, Dispatcher.snd_answer]

theorem receive_of_not_takes {n : Node σ} {raw : Bytes} (h : ∀ c request, ¬ n.Takes raw c request) :
    n.receive raw = (none, n) := by
  unfold receive
  split
  · rename_i request c hframe hc
    have hdecode : Packet.decode raw = .ok request := by
      unfold Frame.ofBytes at hframe
      split at hframe
      · rename_i hdecode
        cases hframe
        exact hdecode
      · cases hframe
    split
    · rename_i haccepts
      exact absurd ⟨hdecode, hc, haccepts⟩ (h c request)
    · rfl
  · rfl

theorem receive_of_unloaded {n : Node σ} {e : Fault} (h : n.configuration = .error e)
    (raw : Bytes) : n.receive raw = (none, n) := by
  refine receive_of_not_takes fun c request htakes => ?_
  rw [htakes.configuration_eq] at h
  cases h

/-- A frame is answered, and may change the memory; or it is ignored, and changes nothing. -/
theorem receive_cases (n : Node σ) (raw : Bytes) :
    (∃ c request, n.Takes raw c request ∧
      n.receive raw = (some (n.dispatcher.answer (n.context c.localAddress) n.memory request).1,
        { n with memory := n.dispatcher.written n.memory request })) ∨
    (∀ c request, ¬ n.Takes raw c request) ∧ n.receive raw = (none, n) := by
  by_cases h : ∃ c request, n.Takes raw c request
  · obtain ⟨c, request, htakes⟩ := h
    exact .inl ⟨c, request, htakes, receive_of_takes htakes⟩
  · have hnot : ∀ c request, ¬ n.Takes raw c request :=
      fun c request htakes => h ⟨c, request, htakes⟩
    exact .inr ⟨hnot, receive_of_not_takes hnot⟩

end Node

/-! ## One minute -/

namespace Agenda

section Advance

variable {a : Agenda} {graph : ModeGraph} {t : Transition} {first : Mode}

theorem advance_of_lasting (h : graph.get? a.mode = some t) (hlasts : a.cycles < t.duration.toNat) :
    a.advance graph = a := by
  simp only [advance, h, if_neg (Nat.not_le.mpr hlasts)]

theorem advance_of_over (h : graph.get? a.mode = some t) (hover : t.duration.toNat ≤ a.cycles) :
    a.advance graph = { a with mode := t.next, cycles := 0 } := by
  simp only [advance, h, if_pos hover]

theorem advance_of_unknown (h : graph.get? a.mode = none)
    (hfirst : ModeGraph.first? graph = some first) :
    a.advance graph = { a with mode := first, cycles := 0 } := by
  simp only [advance, h, hfirst]

end Advance

/-- The agenda with a report that is due at a minute noted down. -/
def note (a : Agenda) (entries : Table Mode ReportEntry) (minute : Nat) : Agenda :=
  match a.due? entries minute with
  | some _ => { a with lastReport := minute }
  | none => a

@[simp] theorem mode_note (a : Agenda) (entries : Table Mode ReportEntry) (minute : Nat) :
    (a.note entries minute).mode = a.mode := by
  unfold note
  split <;> rfl

@[simp] theorem cycles_note (a : Agenda) (entries : Table Mode ReportEntry) (minute : Nat) :
    (a.note entries minute).cycles = a.cycles := by
  unfold note
  split <;> rfl

@[simp] theorem mode_countCycle (a : Agenda) : a.countCycle.mode = a.mode := rfl

@[simp] theorem lastReport_countCycle (a : Agenda) : a.countCycle.lastReport = a.lastReport := rfl

end Agenda

namespace Node

/-- The mode moves on, a report that is due is noted, and the cycle counts. -/
theorem snd_tick_of_loaded {n : Node σ} {c : Configuration} (h : n.configuration = .ok c)
    (minute : Nat) : (n.tick minute).2 = { n with agenda :=
      ((n.agenda.advance c.graph).note c.iridium.entries minute).countCycle } := by
  unfold tick
  rw [h]
  simp only [Agenda.note]
  cases (n.agenda.advance c.graph).due? c.iridium.entries minute with
  | none => rfl
  | some t => simp only [sendReport, Dispatcher.snd_run_none]

/-- A minute brings what the routine for the report that is due comes to. -/
theorem fst_tick_of_loaded {n : Node σ} {c : Configuration} (h : n.configuration = .ok c)
    (minute : Nat) : (n.tick minute).1 =
      ((n.agenda.advance c.graph).due? c.iridium.entries minute).bind fun t =>
        (n.dispatcher.run t.opcode ⟨c.localAddress, (n.agenda.advance c.graph).mode, n.peripherals⟩
          n.memory none).1.toOption := by
  unfold tick
  rw [h]
  simp only
  cases (n.agenda.advance c.graph).due? c.iridium.entries minute with
  | none => rfl
  | some t => rfl

theorem tick_of_unloaded {n : Node σ} {e : Fault} (h : n.configuration = .error e)
    (minute : Nat) : n.tick minute = (none, n) := by
  unfold tick
  rw [h]

theorem exists_agenda_tick (n : Node σ) (minute : Nat) :
    ∃ agenda, (n.tick minute).2 = { n with agenda := agenda } := by
  cases h : n.configuration with
  | error e => exact ⟨n.agenda, congrArg Prod.snd (tick_of_unloaded h minute)⟩
  | ok c => exact ⟨_, snd_tick_of_loaded h minute⟩

theorem memory_tick (n : Node σ) (minute : Nat) : (n.tick minute).2.memory = n.memory := by
  obtain ⟨agenda, h⟩ := n.exists_agenda_tick minute
  rw [h]

end Node

/-! ## Any number of events -/

/-- What happens to a node. -/
inductive Event where
  /-- A frame comes in. -/
  | frame (raw : Bytes)
  /-- A link is drained, whose sends fail as `refused` says. -/
  | drain (link : Link) (refused : Nat → Bool)
  /-- A minute of the schedule. -/
  | tick (minute : Nat)

/-- Whether an event is a minute. -/
def Event.isTick : Event → Bool
  | .tick _ => true
  | _ => false

namespace Node

/-- The node after an event. -/
def after (n : Node σ) : Event → Node σ
  | .frame raw => (n.receive raw).2
  | .drain link refused => (n.drain link refused).node
  | .tick minute => (n.tick minute).2

/-- The node after one event after another. -/
def run (n : Node σ) (events : List Event) : Node σ := events.foldl after n

/-- Frames change the memory only. -/
theorem exists_memory_receive (n : Node σ) (raw : Bytes) :
    ∃ memory, (n.receive raw).2 = { n with memory := memory } := by
  rcases n.receive_cases raw with ⟨c, request, _, heq⟩ | ⟨_, heq⟩
  · exact ⟨_, congrArg Prod.snd heq⟩
  · exact ⟨n.memory, congrArg Prod.snd heq⟩

theorem exists_memory_receiveAll (n : Node σ) (raws : List Bytes) :
    ∃ memory, (n.receiveAll raws).2 = { n with memory := memory } := by
  induction raws generalizing n with
  | nil => exact ⟨n.memory, rfl⟩
  | cons raw raws ih =>
    obtain ⟨memory, hfirst⟩ := n.exists_memory_receive raw
    obtain ⟨memory', hrest⟩ := ih (n.receive raw).2
    refine ⟨memory', ?_⟩
    rw [hfirst] at hrest
    exact (congrArg (fun m : Node σ => (m.receiveAll raws).2) hfirst).trans hrest

/-- A node starts in the first mode of its graph, where it has spent no cycle, and with an empty
cache. -/
theorem start_eq_ok_iff {peripherals : Peripherals} {store : σ} {d : Dispatcher} {n : Node σ} :
    start peripherals store d = .ok n ↔ ∃ c first, load store = .ok c ∧ c.check = .ok () ∧
      ModeGraph.first? c.graph = some first ∧
      n = ⟨peripherals.synchronised, ⟨store, .empty⟩, d, ⟨first, 0, 0⟩⟩ := by
  constructor
  · intro h
    obtain ⟨c, hload, h⟩ := bind_eq_ok.mp h
    obtain ⟨_, hcheck, h⟩ := bind_eq_ok.mp h
    split at h
    · cases h
    · rename_i first hfirst
      cases h
      exact ⟨c, first, hload, hcheck, hfirst, rfl⟩
  · rintro ⟨c, first, hload, hcheck, hfirst, rfl⟩
    refine bind_eq_ok.mpr ⟨c, hload, bind_eq_ok.mpr ⟨(), hcheck, ?_⟩⟩
    simp only [hfirst]
    rfl

/-- Only minutes change more than the memory. -/
theorem after_cases (n : Node σ) (e : Event) :
    (∃ minute, e = .tick minute) ∨
    e.isTick = false ∧ ∃ memory, n.after e = { n with memory := memory } := by
  cases e with
  | frame raw => exact .inr ⟨rfl, n.exists_memory_receive raw⟩
  | drain link refused => exact .inr ⟨rfl, n.exists_memory_receiveAll link.inbound.items⟩
  | tick minute => exact .inl ⟨minute, rfl⟩

/-- The same peripherals and the same routines. -/
structure Equipped (n n' : Node σ) : Prop where
  peripherals_eq : n'.peripherals = n.peripherals
  dispatcher_eq : n'.dispatcher = n.dispatcher

theorem equipment_of_start {peripherals : Peripherals} {store : σ} {d : Dispatcher} {n : Node σ}
    (h : start peripherals store d = .ok n) :
    n.peripherals = peripherals.synchronised ∧ n.dispatcher = d := by
  obtain ⟨c, first, _, _, _, rfl⟩ := start_eq_ok_iff.mp h
  exact ⟨rfl, rfl⟩

theorem after_equipped (n : Node σ) (e : Event) : Equipped n (n.after e) := by
  rcases n.after_cases e with ⟨minute, rfl⟩ | ⟨_, memory, h⟩
  · obtain ⟨agenda, h⟩ := n.exists_agenda_tick minute
    rw [after, h]
    exact ⟨rfl, rfl⟩
  · rw [h]
    exact ⟨rfl, rfl⟩

theorem run_equipped (n : Node σ) (events : List Event) : Equipped n (n.run events) := by
  induction events generalizing n with
  | nil => exact ⟨rfl, rfl⟩
  | cons e events ih =>
    have hfirst := n.after_equipped e
    have hrest := ih (n.after e)
    exact ⟨hrest.peripherals_eq.trans hfirst.peripherals_eq,
      hrest.dispatcher_eq.trans hfirst.dispatcher_eq⟩

section Kept

/-! What holds of a memory, whatever a routine writes, holds along every run. -/

variable {P : Memory σ → Prop}
  (hwritten : ∀ (r : Routine) (mem : Memory σ) (payload : Payload),
    P mem → P (r.written mem payload))

include hwritten

theorem receive_keeps {n : Node σ} (h : P n.memory) (raw : Bytes) :
    P (n.receive raw).2.memory := by
  rcases n.receive_cases raw with ⟨c, request, _, heq⟩ | ⟨_, heq⟩
  · rw [heq]
    simp only [Dispatcher.written]
    split
    · exact h
    · rename_i r _
      exact hwritten r n.memory request.payload h
  · rwa [heq]

theorem receiveAll_keeps {n : Node σ} (h : P n.memory) (raws : List Bytes) :
    P (n.receiveAll raws).2.memory := by
  induction raws generalizing n with
  | nil => exact h
  | cons raw raws ih => exact ih (receive_keeps hwritten h raw)

theorem after_keeps {n : Node σ} (h : P n.memory) (e : Event) : P (n.after e).memory := by
  cases e with
  | frame raw => exact receive_keeps hwritten h raw
  | drain link refused => exact receiveAll_keeps hwritten h link.inbound.items
  | tick minute =>
    rw [after, memory_tick]
    exact h

theorem run_keeps {n : Node σ} (h : P n.memory) (events : List Event) :
    P (n.run events).memory := by
  induction events generalizing n with
  | nil => exact h
  | cons e events ih => exact ih (after_keeps hwritten h e)

end Kept

end Node

end AcousticNode

import AcousticNode.Proofs.Node.Recollection
import AcousticNode.Proofs.Node.Redelivery
import AcousticNode.Proofs.Node.Resemblance
import AcousticNode.Proofs.Store.Working

/-!
# Minutes and frames apart

A minute changes the agenda, and a frame changes the memory.  Of the agenda a frame sees the mode,
which shows in lists of modes only; and of the memory a minute sees the configuration, which only
changes by frames whose change is repeated.  So a run without its minutes gives the same replies,
but for the active index in lists of modes; and a run without the frames that left the
configuration as it was goes through the same agendas.

* `replies_resemble` : a run without its minutes;
* `Aligned.agendas_eq` : a run without the frames that do not matter to the schedule;
* `run_undisturbed` : every run from every state, over either store.
-/

set_option autoImplicit false

namespace AcousticNode

open Outcome
open ConfigurationStore (load save)

variable {σ : Type} [ConfigurationStore σ]

namespace Node

/-! ## Runs without minutes -/

/-- What a node replies to one frame after another. -/
def repliesTo (n : Node σ) : List Bytes → List (Option Packet)
  | [] => []
  | raw :: raws => (n.receive raw).1 :: repliesTo (n.receive raw).2 raws

/-- What a node replies in a run, to every frame that comes in. -/
def replies (n : Node σ) : List Event → List (Option Packet)
  | [] => []
  | e :: events => n.repliesTo e.frames ++ replies (n.after e) events

/-- The same reply, but for the active index in lists of modes; or none. -/
abbrev SameReply : Option Packet → Option Packet → Prop := Option.Rel Packet.Resembles

variable (n : Node σ) (agenda : Agenda)

/-- Of the agenda a frame sees the mode, and changes nothing. -/
theorem receive_with_agenda (raw : Bytes) :
    SameReply (n.receive raw).1 ({ n with agenda := agenda }.receive raw).1 ∧
      ({ n with agenda := agenda }.receive raw).2 =
        { (n.receive raw).2 with agenda := agenda } := by
  rcases n.receive_cases raw with ⟨c, request, htakes, heq⟩ | ⟨hnot, heq⟩
  · have htakes' : ({ n with agenda := agenda } : Node σ).Takes raw c request :=
      ⟨htakes.decode_eq, htakes.configuration_eq, htakes.accepts_eq⟩
    rw [heq, receive_of_takes htakes']
    exact ⟨.some (n.dispatcher.answer_related (n.context c.localAddress) agenda.mode _ _), rfl⟩
  · have hnot' : ∀ c request, ¬ ({ n with agenda := agenda } : Node σ).Takes raw c request :=
      fun c request h => hnot c request ⟨h.decode_eq, h.configuration_eq, h.accepts_eq⟩
    rw [heq, receive_of_not_takes hnot']
    exact ⟨.none, rfl⟩

theorem receiveAll_with_agenda (raws : List Bytes) :
    List.Forall₂ SameReply (n.repliesTo raws) ({ n with agenda := agenda }.repliesTo raws) ∧
      ({ n with agenda := agenda }.receiveAll raws).2 =
        { (n.receiveAll raws).2 with agenda := agenda } := by
  induction raws generalizing n with
  | nil => exact ⟨.nil, rfl⟩
  | cons raw raws ih =>
    obtain ⟨hreply, hnext⟩ := n.receive_with_agenda agenda raw
    obtain ⟨hreplies, hlast⟩ := ih (n.receive raw).2
    rw [← hnext] at hreplies hlast
    exact ⟨.cons hreply hreplies, hlast⟩

/-- An event that is no minute is the frames that come in with it. -/
theorem after_of_frames {e : Event} (h : e.isTick = false) :
    n.after e = (n.receiveAll e.frames).2 := by
  cases e with
  | frame raw => rfl
  | drain link refused => rfl
  | tick minute => cases h

/-- Whatever the agenda, a run without its minutes brings the same replies and the same memory. -/
theorem replies_resemble (events : List Event) :
    List.Forall₂ SameReply (n.replies events)
        ({ n with agenda := agenda }.replies (events.filter fun e => !e.isTick)) ∧
      ∃ last, { n with agenda := agenda }.run (events.filter fun e => !e.isTick) =
        { n.run events with agenda := last } := by
  induction events generalizing n with
  | nil => exact ⟨.nil, agenda, rfl⟩
  | cons e events ih =>
    obtain ⟨hreplies, last, hlast⟩ := ih (n.after e)
    rcases n.after_cases e with ⟨minute, rfl⟩ | ⟨htick, _⟩
    · -- only the agenda is another one after the minute, and any agenda will do
      obtain ⟨agenda', hafter⟩ := n.exists_agenda_tick minute
      have hsame : ({ n.after (.tick minute) with agenda := agenda } : Node σ) =
          { n with agenda := agenda } := by
        rw [after, hafter]
      rw [hsame] at hreplies hlast
      exact ⟨hreplies, last, hlast⟩
    · obtain ⟨hfirst, hnext⟩ := n.receiveAll_with_agenda agenda e.frames
      rw [← n.after_of_frames htick, ← after_of_frames _ htick] at hnext
      rw [← hnext] at hreplies hlast
      rw [List.filter_cons_of_pos (by rw [htick]; rfl)]
      exact ⟨List.rel_append hfirst hreplies, last, hlast⟩

end Node

/-! ## Stores that behave the same -/

/-- Stores that load the same, and save with the same outcome. -/
structure Interchangeable (s s' : σ) : Prop where
  load_eq : load s' = load s
  fst_save_eq : ∀ c : Configuration, c.Valid → (save s' c).1 = (save s c).1

namespace Routine

variable {mem mem' : Memory σ}

theorem fst_save_written [UniformStore σ] (r : Routine) (mem : Memory σ) (payload : Payload)
    {c : Configuration} (hc : c.Valid) :
    (save (r.written mem payload).store c).1 = (save mem.store c).1 := by
  rcases r.written_cases σ payload with ⟨rfl, records, rfl⟩ | ⟨rfl, update, rfl⟩ | hsame
  · cases hupdated : updatedConfiguration mem.store records with
    | error e => rw [written_of_not_updated hupdated]
    | ok updated =>
      rw [written_of_updated hupdated]
      exact UniformStore.fst_save_save (valid_of_updatedConfiguration hupdated) hc
  · rfl
  · rw [hsame]

theorem load_written_congr [ReliableStore σ] (h : Interchangeable mem.store mem'.store)
    (r : Routine) (payload : Payload) :
    load (r.written mem' payload).store = load (r.written mem payload).store := by
  rcases r.written_cases σ payload with ⟨rfl, records, rfl⟩ | ⟨rfl, update, rfl⟩ | hsame
  · have hcongr := updatedConfiguration_congr h.load_eq records
    cases hupdated : updatedConfiguration mem.store records with
    | error e =>
      rw [written_of_not_updated hupdated, written_of_not_updated (hcongr.trans hupdated),
        h.load_eq]
    | ok updated =>
      rw [written_of_updated hupdated, written_of_updated (hcongr.trans hupdated)]
      have houtcome := h.fst_save_eq updated (valid_of_updatedConfiguration hupdated)
      cases hsave : save mem.store updated with
      | mk result store =>
        cases hsave' : save mem'.store updated with
        | mk result' store' =>
          rw [hsave, hsave'] at houtcome
          obtain rfl : result' = result := houtcome
          cases result' with
          | ok _ =>
            exact (ReliableStore.load_of_save_ok hsave').trans
              (ReliableStore.load_of_save_ok hsave).symm
          | error e =>
            rw [ReliableStore.load_of_save_error hsave', ReliableStore.load_of_save_error hsave,
              h.load_eq]
  · exact h.load_eq
  · rw [hsame, hsame, h.load_eq]

end Routine

namespace Node

/-- Nodes with the same routines and the same agenda, over stores that behave the same.  Their
peripherals and their caches may differ. -/
structure Aligned (n n' : Node σ) : Prop where
  dispatcher_eq : n'.dispatcher = n.dispatcher
  agenda_eq : n'.agenda = n.agenda
  stores : Interchangeable n.memory.store n'.memory.store

theorem Aligned.refl (n : Node σ) : n.Aligned n := ⟨rfl, rfl, rfl, fun _ _ => rfl⟩

/-- No frame changes the outcome of later saves. -/
theorem fst_save_receive [UniformStore σ] (n : Node σ) (raw : Bytes) {c : Configuration}
    (hc : c.Valid) :
    (save (n.receive raw).2.memory.store c).1 = (save n.memory.store c).1 :=
  receive_keeps (P := fun mem => (save mem.store c).1 = (save n.memory.store c).1)
    (fun r mem payload h => (r.fst_save_written mem payload hc).trans h) rfl raw

/-- A frame for which no change of the configuration is repeated does not change it. -/
theorem load_receive [ReliableStore σ] (n : Node σ) {raw : Bytes}
    (h : ∀ reply, (n.receive raw).1 = some reply → reply.opcode ≠ .setConfiguration) :
    load (n.receive raw).2.memory.store = load n.memory.store := by
  have hreceived := n.received raw
  cases hreply : (n.receive raw).1 with
  | none => exact (hreceived.of_silence hreply).load_eq
  | some reply =>
    obtain ⟨request, _, hdone⟩ := hreceived.of_reply reply hreply
    cases hdone with
    | unchanged same _ => exact same.load_eq
    | configured change => exact absurd change.opcode_eq (h reply hreply)
    | cached change => exact change.load_eq

namespace Aligned

variable [ReliableStore σ] [UniformStore σ] {n n' : Node σ}

omit [ReliableStore σ] [UniformStore σ] in
theorem configuration_eq (h : n.Aligned n') : n'.configuration = n.configuration :=
  h.stores.load_eq

omit [ReliableStore σ] [UniformStore σ] in
theorem takes_iff (h : n.Aligned n') {raw : Bytes} {c : Configuration} {request : Packet} :
    n'.Takes raw c request ↔ n.Takes raw c request := by
  constructor
  · rintro ⟨hdecode, hc, haccepts⟩
    exact ⟨hdecode, h.configuration_eq ▸ hc, haccepts⟩
  · rintro ⟨hdecode, hc, haccepts⟩
    exact ⟨hdecode, h.configuration_eq.trans hc, haccepts⟩

omit [UniformStore σ] in
theorem load_receive_eq (h : n.Aligned n') (raw : Bytes) :
    load (n'.receive raw).2.memory.store = load (n.receive raw).2.memory.store := by
  rcases n.receive_cases raw with ⟨c, request, htakes, heq⟩ | ⟨hnot, heq⟩
  · rw [heq, receive_of_takes (h.takes_iff.mpr htakes)]
    simp only [Dispatcher.written, h.dispatcher_eq]
    cases n.dispatcher.routine? request.opcode with
    | none => exact h.stores.load_eq
    | some r => exact r.load_written_congr h.stores request.payload
  · rw [heq, receive_of_not_takes fun c request htakes => hnot c request (h.takes_iff.mp htakes)]
    exact h.stores.load_eq

/-- Both nodes take a frame in. -/
theorem receive (h : n.Aligned n') (raw : Bytes) :
    (n.receive raw).2.Aligned (n'.receive raw).2 := by
  obtain ⟨memory, hnext⟩ := n.exists_memory_receive raw
  obtain ⟨memory', hnext'⟩ := n'.exists_memory_receive raw
  refine ⟨?_, ?_, h.load_receive_eq raw, fun c hc => ?_⟩
  · rw [hnext, hnext', h.dispatcher_eq]
  · rw [hnext, hnext', h.agenda_eq]
  · rw [fst_save_receive n' raw hc, fst_save_receive n raw hc, h.stores.fst_save_eq c hc]

/-- One node takes in a frame that leaves the configuration as it is. -/
theorem skip (h : n.Aligned n') {raw : Bytes}
    (hplain : ∀ reply, (n.receive raw).1 = some reply → reply.opcode ≠ .setConfiguration) :
    (n.receive raw).2.Aligned n' := by
  obtain ⟨memory, hnext⟩ := n.exists_memory_receive raw
  refine ⟨?_, ?_, h.stores.load_eq.trans (n.load_receive hplain).symm, fun c hc => ?_⟩
  · rw [hnext, h.dispatcher_eq]
  · rw [hnext, h.agenda_eq]
  · rw [fst_save_receive n raw hc, h.stores.fst_save_eq c hc]

theorem receiveAll (h : n.Aligned n') (raws : List Bytes) :
    (n.receiveAll raws).2.Aligned (n'.receiveAll raws).2 := by
  induction raws generalizing n n' with
  | nil => exact h
  | cons raw raws ih => exact ih (h.receive raw)

omit [ReliableStore σ] [UniformStore σ] in
theorem tick (h : n.Aligned n') (minute : Nat) : (n.tick minute).2.Aligned (n'.tick minute).2 := by
  cases hc : n.configuration with
  | error e =>
    rw [tick_of_unloaded hc, tick_of_unloaded (h.configuration_eq.trans hc)]
    exact h
  | ok c =>
    rw [snd_tick_of_loaded hc, snd_tick_of_loaded (h.configuration_eq.trans hc), h.agenda_eq]
    exact ⟨h.dispatcher_eq, rfl, h.stores⟩

theorem after (h : n.Aligned n') (e : Event) : (n.after e).Aligned (n'.after e) := by
  cases e with
  | frame raw => exact h.receive raw
  | drain link refused => exact h.receiveAll link.inbound.items
  | tick minute => exact h.tick minute

end Aligned

/-! ## Runs without frames -/

/-- Whether an event may matter to the schedule.  A frame does if the node repeats a change of its
configuration for it; a drained link, which may hold such frames, is always counted in. -/
def heeds (n : Node σ) : Event → Bool
  | .frame raw => (n.receive raw).1.any fun reply => reply.opcode == .setConfiguration
  | _ => true

/-- The events of a run that may matter to the schedule, each with the agenda after it. -/
def course (n : Node σ) : List Event → List (Event × Agenda)
  | [] => []
  | e :: events =>
    if n.heeds e then (e, (n.after e).agenda) :: course (n.after e) events
    else course (n.after e) events

/-- The agenda after every event of a run. -/
def agendas (n : Node σ) : List Event → List Agenda
  | [] => []
  | e :: events => (n.after e).agenda :: agendas (n.after e) events

theorem exists_frame_of_not_heeds {n : Node σ} {e : Event} (h : n.heeds e = false) :
    ∃ raw, e = .frame raw ∧
      ∀ reply, (n.receive raw).1 = some reply → reply.opcode ≠ .setConfiguration := by
  cases e with
  | frame raw =>
    refine ⟨raw, rfl, fun reply hreply hop => ?_⟩
    rw [heeds, hreply, Option.any_some, hop] at h
    cases h
  | drain link refused => cases h
  | tick minute => cases h

/-- Frames that do not matter to the schedule may be left out. -/
theorem Aligned.agendas_eq [ReliableStore σ] [UniformStore σ] {n n' : Node σ} (h : n.Aligned n')
    (events : List Event) :
    n'.agendas ((n.course events).map Prod.fst) = (n.course events).map Prod.snd := by
  induction events generalizing n n' with
  | nil => rfl
  | cons e events ih =>
    rw [course]
    cases hheeds : n.heeds e with
    | true =>
      have hnext := h.after e
      rw [if_pos rfl, List.map_cons, List.map_cons, agendas, ih hnext, hnext.agenda_eq]
    | false =>
      obtain ⟨raw, rfl, hplain⟩ := exists_frame_of_not_heeds hheeds
      rw [if_neg Bool.false_ne_true]
      exact ih (h.skip hplain)

/-- Minutes and frames do not disturb each other in a run. -/
structure Undisturbed (n : Node σ) (events : List Event) : Prop where
  /-- Without the minutes there are the same replies, but for the active index in lists of modes. -/
  replies_resemble : List.Forall₂ SameReply (n.replies events)
    (n.replies (events.filter fun e => !e.isTick))
  configuration_eq :
    (n.run (events.filter fun e => !e.isTick)).configuration = (n.run events).configuration
  cache_eq :
    (n.run (events.filter fun e => !e.isTick)).memory.cache = (n.run events).memory.cache
  /-- Without the frames for which no change of the configuration is repeated there are the same
  agendas, after every event that is left. -/
  agendas_eq : n.agendas ((n.course events).map Prod.fst) = (n.course events).map Prod.snd

theorem undisturbed [ReliableStore σ] [UniformStore σ] (n : Node σ) (events : List Event) :
    n.Undisturbed events := by
  obtain ⟨hreplies, last, hlast⟩ := n.replies_resemble n.agenda events
  have hmemory : (n.run (events.filter fun e => !e.isTick)).memory = (n.run events).memory := by
    have hmemories := congrArg Node.memory hlast
    exact hmemories
  exact ⟨hreplies, congrArg (fun mem : Memory σ => load mem.store) hmemory,
    congrArg Memory.cache hmemory, (Aligned.refl n).agendas_eq events⟩

/-- **Minutes and frames do not disturb each other.**  Take the minutes out of a run: the node
replies the same, but for the octet that points at the active mode in a list of modes and for the
checksum over it, and it is left with the same configuration and the same cache.  Take out the
frames for which the node did not repeat a change of its configuration: it goes through the same
modes, counts of cycles and minutes of reports. -/
theorem run_undisturbed (events : List Event) :
    (∀ n : Node MemoryStore, n.Undisturbed events) ∧
    (∀ n : Node FileStore, n.Undisturbed events) :=
  ⟨fun n => n.undisturbed events, fun n => n.undisturbed events⟩

end Node

end AcousticNode

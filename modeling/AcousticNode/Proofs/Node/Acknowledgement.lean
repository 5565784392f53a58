import AcousticNode.Proofs.Node.Reply
import AcousticNode.Proofs.Node.Run
import AcousticNode.Proofs.Store.Reliable

/-!
# Acknowledged changes

A node changes its configuration or its cache only for a request that it then repeats to the
sender.  Any other reply, and no reply at all, means that nothing was changed.  The repetition
is made after the change, so it must not fail: whatever was decoded fits a packet again.

* `Acknowledged` : what a request does to a node's memory, by the reply;
* `run_acknowledges` : every routine;
* `receive_acknowledged` : every frame in every state, over either store.
-/

set_option autoImplicit false

namespace AcousticNode

open Outcome
open ConfigurationStore (load save)

/-- Whether packets repeat a change. -/
def Opcode.isChange (op : Opcode) : Bool := op == .setConfiguration || op == .setHydrophone

variable {σ : Type} [ConfigurationStore σ]

/-! ## What a request does -/

/-- Neither the configuration that is loaded nor the cache has changed. -/
structure Unchanged (mem mem' : Memory σ) : Prop where
  load_eq : load mem'.store = load mem.store
  cache_eq : mem'.cache = mem.cache

/-- The configuration is the old one with the modules of the request, which the reply repeats. -/
structure Configured (mem : Memory σ) (request reply : Packet) (mem' : Memory σ) : Prop where
  opcode_eq : reply.opcode = .setConfiguration
  payload_eq : reply.payload = request.payload
  applied : ∃ records ms c updated, request.payload = .configurationChange records ∧
    records.modules = .ok ms ∧ load mem.store = .ok c ∧ c.withModules ms = .ok updated ∧
    load mem'.store = .ok updated
  cache_eq : mem'.cache = mem.cache

/-- The cache has taken over the aspects of the request, which the reply repeats. -/
structure Cached (mem : Memory σ) (request reply : Packet) (mem' : Memory σ) : Prop where
  opcode_eq : reply.opcode = .setHydrophone
  payload_eq : reply.payload = request.payload
  taken : ∃ update, request.payload = .hydrophoneChange update ∧
    mem'.cache = mem.cache.store update
  load_eq : load mem'.store = load mem.store

/-- What a request that is answered does. -/
inductive Acknowledged (mem : Memory σ) (request reply : Packet) (mem' : Memory σ) : Prop where
  | unchanged (same : Unchanged mem mem') (plain : reply.opcode.isChange = false)
  | configured (change : Configured mem request reply mem')
  | cached (change : Cached mem request reply mem')

/-- A routine that acknowledges what it does, and does nothing if it fails. -/
structure Acknowledges (mem : Memory σ) (request : Packet)
    (result : Except Fault Packet × Memory σ) : Prop where
  of_ok : ∀ reply, result.1 = .ok reply → Acknowledged mem request reply result.2
  of_error : ∀ e, result.1 = .error e → Unchanged mem result.2

theorem Unchanged.refl (mem : Memory σ) : Unchanged mem mem := ⟨rfl, rfl⟩

/-! ## Routines that only read -/

theorem Acknowledges.of_reading {r : Routine} {localAddress : Address} {mem : Memory σ}
    {request : Packet} {x : Except Fault Packet}
    (h : ∀ reply, x = .ok reply → r.Reply localAddress request reply)
    (hop : r.opcode.isChange = false) : Acknowledges mem request (x, mem) where
  of_ok reply hreply := .unchanged (.refl mem) (by rw [(h reply hreply).opcode_eq, hop])
  of_error _ _ := .refl mem

theorem Acknowledges.of_refusal {mem mem' : Memory σ} {request : Packet} (e : Fault)
    (h : Unchanged mem mem') : Acknowledges mem request (.error e, mem') where
  of_ok _ hreply := nomatch hreply
  of_error _ _ := h

/-! ## Routines that write -/

namespace Routine

theorem answerChange_acknowledges [ReliableStore σ] {raw : Bytes} {request : Packet}
    (hdecode : Packet.decode raw = .ok request) (ctx : Context) (mem : Memory σ) :
    Acknowledges mem request (answerChange ctx mem request) := by
  unfold answerChange
  split
  · rename_i records hpayload
    split
    · exact .of_refusal _ (.refl mem)
    · rename_i updated hupdated
      obtain ⟨ms, hms, hupdated⟩ := bind_eq_ok.mp hupdated
      obtain ⟨c, hc, hupdated⟩ := bind_eq_ok.mp hupdated
      split
      · rename_i e store hsave
        exact .of_refusal e ⟨ReliableStore.load_of_save_error hsave, rfl⟩
      · rename_i store hsave
        -- the repetition fits a packet because the request did
        have hecho : ∀ routing, Packet.make .setConfiguration routing
            (.configurationChange records) = .ok _ :=
          fun _ => Packet.make_payload_of_decode hdecode hpayload rfl
        rw [hecho]
        refine ⟨fun reply hreply => ?_, nofun⟩
        cases hreply
        exact .configured ⟨rfl, hpayload.symm, ⟨records, ms, c, updated, hpayload, hms, hc,
          hupdated, ReliableStore.load_of_save_ok hsave⟩, rfl⟩
  · exact .of_refusal _ (.refl mem)

theorem answerStore_acknowledges {raw : Bytes} {request : Packet}
    (hdecode : Packet.decode raw = .ok request) (ctx : Context) (mem : Memory σ) :
    Acknowledges mem request (answerStore ctx mem request) := by
  unfold answerStore
  split
  · rename_i update hpayload
    have hecho : ∀ routing, Packet.make .setHydrophone routing
        (.hydrophoneChange update) = .ok _ :=
      fun _ => Packet.make_payload_of_decode hdecode hpayload rfl
    rw [hecho]
    refine ⟨fun reply hreply => ?_, nofun⟩
    cases hreply
    exact .cached ⟨rfl, hpayload.symm, ⟨update, hpayload, rfl⟩, rfl⟩
  · exact .of_refusal _ (.refl mem)

theorem run_acknowledges [ReliableStore σ] {raw : Bytes} {request : Packet}
    (hdecode : Packet.decode raw = .ok request) (r : Routine) (ctx : Context) (mem : Memory σ) :
    Acknowledges mem request (r.run ctx mem (some request)) := by
  cases r with
  | basicStatus => exact .of_reading (fun _ => reply_of_answerBasicStatus) rfl
  | completeStatus => exact .of_reading (fun _ => reply_of_answerCompleteStatus) rfl
  | changeConfiguration => exact answerChange_acknowledges hdecode ctx mem
  | reportConfiguration => exact .of_reading (fun _ => reply_of_answerQuery) rfl
  | storeHydrophone => exact answerStore_acknowledges hdecode ctx mem
  | fetchHydrophone => exact .of_reading (fun _ => reply_of_answerFetch) rfl

end Routine

/-! ## Nodes -/

theorem Dispatcher.answer_acknowledged [ReliableStore σ] {raw : Bytes} {request : Packet}
    (hdecode : Packet.decode raw = .ok request) (d : Dispatcher) (ctx : Context)
    (mem : Memory σ) :
    Acknowledged mem request (d.answer ctx mem request).1 (d.answer ctx mem request).2 := by
  unfold answer
  split
  · exact .unchanged (.refl mem) rfl
  · rename_i r _
    have hrun := r.run_acknowledges hdecode ctx mem
    split
    · rename_i reply mem' heq
      rw [heq] at hrun
      exact hrun.of_ok reply rfl
    · rename_i e mem' heq
      rw [heq] at hrun
      exact .unchanged (hrun.of_error e rfl) rfl

theorem Acknowledged.of_plain {mem mem' : Memory σ} {request reply : Packet}
    (h : Acknowledged mem request reply mem') (hplain : reply.opcode.isChange = false) :
    Unchanged mem mem' := by
  cases h with
  | unchanged same _ => exact same
  | configured change =>
    rw [change.opcode_eq] at hplain
    cases hplain
  | cached change =>
    rw [change.opcode_eq] at hplain
    cases hplain

namespace Node

/-- What a frame does to a node, by the reply. -/
structure Received (n : Node σ) (raw : Bytes) (reply : Option Packet) (n' : Node σ) : Prop where
  agenda_eq : n'.agenda = n.agenda
  of_silence : reply = none → Unchanged n.memory n'.memory
  of_plain : ∀ p, reply = some p → p.opcode.isChange = false → Unchanged n.memory n'.memory
  of_reply : ∀ p, reply = some p →
    ∃ request, Packet.decode raw = .ok request ∧ Acknowledged n.memory request p n'.memory

theorem Received.silent (n : Node σ) (raw : Bytes) : Received n raw none n where
  agenda_eq := rfl
  of_silence _ := .refl n.memory
  of_plain p hp _ := by cases hp
  of_reply p hp := by cases hp

theorem Received.answered {n n' : Node σ} {raw : Bytes} {request reply : Packet}
    (hdecode : Packet.decode raw = .ok request) (hagenda : n'.agenda = n.agenda)
    (h : Acknowledged n.memory request reply n'.memory) : Received n raw (some reply) n' where
  agenda_eq := hagenda
  of_silence hnone := by cases hnone
  of_plain p hp hplain := by
    cases hp
    exact h.of_plain hplain
  of_reply p hp := by
    cases hp
    exact ⟨request, hdecode, h⟩

theorem received [ReliableStore σ] (n : Node σ) (raw : Bytes) :
    Received n raw (n.receive raw).1 (n.receive raw).2 := by
  rcases n.receive_cases raw with ⟨c, request, htakes, heq⟩ | ⟨_, heq⟩
  · rw [heq, ← n.dispatcher.snd_answer (n.context c.localAddress)]
    exact .answered htakes.decode_eq rfl
      (n.dispatcher.answer_acknowledged htakes.decode_eq _ n.memory)
  · rw [heq]
    exact .silent n raw

/-- **No change without acknowledgement.**  Whatever routines are there, whatever state the node
is in and whatever the octets are, the configuration that is loaded, the cache and the agenda
stay as they are unless the reply repeats a change, which has then been made as a whole.  The
repetition of a change that was received can be made for any routing, so no change is made
without it. -/
theorem receive_acknowledged (raw : Bytes) :
    (∀ n : Node MemoryStore, Received n raw (n.receive raw).1 (n.receive raw).2) ∧
    (∀ n : Node FileStore, Received n raw (n.receive raw).1 (n.receive raw).2) ∧
    ∀ request, Packet.decode raw = .ok request → ∀ routing,
      (∀ records, request.payload = .configurationChange records →
        ∃ echo, Packet.make .setConfiguration routing request.payload = .ok echo) ∧
      ∀ update, request.payload = .hydrophoneChange update →
        ∃ echo, Packet.make .setHydrophone routing request.payload = .ok echo := by
  refine ⟨fun n => n.received raw, fun n => n.received raw, fun request hdecode routing => ?_⟩
  refine ⟨fun records hpayload => ?_, fun update hpayload => ?_⟩
  · rw [hpayload]
    exact ⟨_, Packet.make_payload_of_decode hdecode hpayload rfl⟩
  · rw [hpayload]
    exact ⟨_, Packet.make_payload_of_decode hdecode hpayload rfl⟩

/-- A node whose configuration cannot be written still takes over what it is told of the
hydrophone, and repeats it. -/
theorem receive_hydrophoneStats :
    let update : HydrophoneUpdate := ⟨none, none, none, some ⟨1700000000, 1, 2, 3⟩⟩
    let request := Packet.sealed .setHydrophone (.toNode ⟨5⟩) (.hydrophoneChange update)
    let n : Node MemoryStore := ⟨⟨⟨77, .charging⟩, ⟨⟨0⟩, ⟨0⟩⟩, 0, ⟨0⟩⟩,
      ⟨⟨{ Configuration.default with localAddress := ⟨5⟩ }, true⟩, .empty⟩, .standard, ⟨0, 0, 0⟩⟩
    Packet.decode request.wire = .ok request ∧ ∃ reply, (n.receive request.wire).1 = some reply ∧
      Cached n.memory request reply (n.receive request.wire).2.memory ∧
      (n.receive request.wire).2.memory.cache = update := by
  intro update request n
  have hspells : Packet.Spells request.wire request update.encode :=
    Packet.spells_sealed rfl (by decide)
  have hdecode : Packet.decode request.wire = .ok request :=
    (Packet.Carried.of_spells hspells).decode_wire
  have hreply : (n.receive request.wire).1 =
      some (.sealed .setHydrophone (.toBackend ⟨5⟩) (.hydrophoneChange update)) := by
    rw [receive, Frame.ofBytes, hdecode]
    rfl
  obtain ⟨request', hrequest, hdone⟩ :=
    ((receive_acknowledged request.wire).1 n).of_reply _ hreply
  obtain rfl : request' = request := Except.ok.inj (hrequest.symm.trans hdecode)
  refine ⟨hdecode, _, hreply, ?_⟩
  cases hdone with
  | unchanged _ plain => cases plain
  | configured change => cases change.opcode_eq
  | cached change =>
    obtain ⟨_, hupdate, hcache⟩ := change.taken
    cases hupdate
    exact ⟨change, hcache⟩

end Node

end AcousticNode

import Mathlib.Logic.Function.Iterate
import AcousticNode.Proofs.Configuration.Update
import AcousticNode.Proofs.Node.Acknowledgement
import AcousticNode.Proofs.Node.Run

/-!
# Frames that come twice

A frame that a node gets again changes nothing more.  An update of the configuration or of the
cache is without effect where it has been made; an update that was refused is refused again, since
nothing has changed; a save that failed fails again.  A frame that has moved the node to another
address may be for somebody else when it comes back, and is ignored.

* `written_written` : what a routine writes, it writes once;
* `receive_again` : every frame in every state, over either store.
-/

set_option autoImplicit false

namespace AcousticNode

open Outcome
open ConfigurationStore (load save)

variable {σ : Type} [ConfigurationStore σ]

/-! ## Memory -/

theorem HydrophoneUpdate.store_store (cache update : HydrophoneUpdate) :
    (cache.store update).store update = cache.store update := by
  obtain ⟨status, logging, streaming, stats⟩ := update
  cases status <;> cases logging <;> cases streaming <;> cases stats <;> rfl

namespace Routine

theorem updatedConfiguration_again {store store' : σ} {records : RecordList}
    {updated : Configuration} (h : updatedConfiguration store records = .ok updated)
    (hload : load store' = .ok updated) : updatedConfiguration store' records = .ok updated := by
  obtain ⟨ms, hms, h⟩ := bind_eq_ok.mp h
  obtain ⟨c, _, h⟩ := bind_eq_ok.mp h
  exact bind_eq_ok.mpr ⟨ms, hms,
    bind_eq_ok.mpr ⟨updated, hload, Configuration.withModules_withModules h⟩⟩

theorem updatedConfiguration_congr {store store' : σ} (hload : load store' = load store)
    (records : RecordList) :
    updatedConfiguration store' records = updatedConfiguration store records := by
  rw [updatedConfiguration, updatedConfiguration, hload]

theorem written_written [ReliableStore σ] [SteadyStore σ] (r : Routine) (mem : Memory σ)
    (payload : Payload) :
    Unchanged (r.written mem payload) (r.written (r.written mem payload) payload) := by
  rcases r.written_cases σ payload with ⟨rfl, records, rfl⟩ | ⟨rfl, update, rfl⟩ | hsame
  · cases hupdated : updatedConfiguration mem.store records with
    | error e =>
      rw [written_of_not_updated hupdated, written_of_not_updated hupdated]
      exact .refl mem
    | ok updated =>
      rw [written_of_updated hupdated]
      cases hsave : save mem.store updated with
      | mk result store =>
        cases result with
        | error e =>
          have hload : load store = load mem.store := ReliableStore.load_of_save_error hsave
          have hagain : updatedConfiguration store records = .ok updated :=
            (updatedConfiguration_congr hload records).trans hupdated
          rw [written_of_updated hagain]
          exact ⟨congrArg (fun s => load s.2) (SteadyStore.save_again hsave), rfl⟩
        | ok _ =>
          have hload : load store = .ok updated := ReliableStore.load_of_save_ok hsave
          rw [written_of_updated (updatedConfiguration_again hupdated hload)]
          refine ⟨?_, rfl⟩
          -- the second save may fail or not: the configuration is there already
          cases hsave' : save store updated with
          | mk result' store' =>
            cases result' with
            | ok _ => exact (ReliableStore.load_of_save_ok hsave').trans hload.symm
            | error e => exact ReliableStore.load_of_save_error hsave'
  · exact ⟨rfl, mem.cache.store_store update⟩
  · rw [hsame, hsame]
    exact .refl mem

end Routine

theorem Dispatcher.written_written [ReliableStore σ] [SteadyStore σ] (d : Dispatcher)
    (mem : Memory σ) (request : Packet) :
    Unchanged (d.written mem request) (d.written (d.written mem request) request) := by
  unfold written
  cases d.routine? request.opcode with
  | none => exact .refl mem
  | some r => exact r.written_written mem request.payload

/-! ## Nodes -/

namespace Node

/-- The configuration that is loaded, the cache and the schedule are the same. -/
structure Alike (n n' : Node σ) : Prop where
  configuration_eq : n'.configuration = n.configuration
  cache_eq : n'.memory.cache = n.memory.cache
  agenda_eq : n'.agenda = n.agenda

theorem Alike.refl (n : Node σ) : Alike n n := ⟨rfl, rfl, rfl⟩

theorem Alike.trans {n n' n'' : Node σ} (h : Alike n n') (h' : Alike n' n'') : Alike n n'' :=
  ⟨h'.configuration_eq.trans h.configuration_eq, h'.cache_eq.trans h.cache_eq,
    h'.agenda_eq.trans h.agenda_eq⟩

theorem alike_receive_receive [ReliableStore σ] [SteadyStore σ] (n : Node σ) (raw : Bytes) :
    Alike (n.receive raw).2 ((n.receive raw).2.receive raw).2 := by
  rcases n.receive_cases raw with ⟨c, request, htakes, heq⟩ | ⟨_, heq⟩
  · rw [heq]
    generalize hfirst : ({ n with memory := n.dispatcher.written n.memory request } : Node σ) = first
    rcases first.receive_cases raw with ⟨c', request', htakes', heq'⟩ | ⟨_, heq'⟩
    · obtain rfl : request' = request :=
        Except.ok.inj (htakes'.decode_eq.symm.trans htakes.decode_eq)
      rw [heq', ← hfirst]
      have hsame := n.dispatcher.written_written n.memory request'
      exact ⟨hsame.load_eq, hsame.cache_eq, rfl⟩
    · rw [heq']
      exact .refl first
  · simp only [heq]
    exact .refl n

/-- However often a frame is delivered again, the node is as after the first time. -/
theorem alike_iterate [ReliableStore σ] [SteadyStore σ] (n : Node σ) (raw : Bytes) (times : Nat) :
    Alike (n.receive raw).2 ((fun m => (receive m raw).2)^[times + 1] n) := by
  induction times with
  | zero => exact .refl _
  | succ times ih =>
    have hstep := alike_receive_receive ((fun m => (receive m raw).2)^[times] n) raw
    rw [Function.iterate_succ_apply', Function.iterate_succ_apply']
    rw [Function.iterate_succ_apply'] at ih
    exact ih.trans hstep

/-- **Deliveries may be repeated.**  Whatever the state of a node and whatever the octets of a
frame, a second delivery leaves the configuration that is loaded, the cache and the schedule as
the first one did, and so do all deliveries after it. -/
theorem receive_again (raw : Bytes) :
    (∀ n : Node MemoryStore, Alike (n.receive raw).2 ((n.receive raw).2.receive raw).2 ∧
      ∀ times, Alike (n.receive raw).2 ((fun m => (receive m raw).2)^[times + 1] n)) ∧
    (∀ n : Node FileStore, Alike (n.receive raw).2 ((n.receive raw).2.receive raw).2 ∧
      ∀ times, Alike (n.receive raw).2 ((fun m => (receive m raw).2)^[times + 1] n)) :=
  ⟨fun n => ⟨n.alike_receive_receive raw, n.alike_iterate raw⟩,
    fun n => ⟨n.alike_receive_receive raw, n.alike_iterate raw⟩⟩

end Node

end AcousticNode

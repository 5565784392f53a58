import AcousticNode.Proofs.Configuration.Update
import AcousticNode.Proofs.Node.Run
import AcousticNode.Proofs.Store.Reliable

/-!
# The configuration stays valid

A node starts only from a valid configuration, and what it saves has passed the check as a whole
after the last module of an update.  So its store holds a valid configuration after every run,
with updates that are refused and saves that fail among the events.

* `written_configured` : what a routine writes;
* `run_configured` : every run of every node that started, over either store.
-/

set_option autoImplicit false

namespace AcousticNode

open Outcome
open ConfigurationStore (load save)

variable {σ : Type} [ConfigurationStore σ]

/-- The configuration that is loaded is valid. -/
def Memory.Configured (mem : Memory σ) : Prop := ∃ c, load mem.store = .ok c ∧ c.Valid

theorem Routine.valid_of_updatedConfiguration {store : σ} {records : RecordList}
    {updated : Configuration} (h : updatedConfiguration store records = .ok updated) :
    updated.Valid := by
  obtain ⟨ms, _, h⟩ := bind_eq_ok.mp h
  obtain ⟨c, _, h⟩ := bind_eq_ok.mp h
  have hcheck := (Configuration.withModules_eq_ok_iff.mp h).2
  exact (Configuration.validate_eq_ok_iff updated).mp (Configuration.check_eq_ok_iff.mp hcheck)

theorem Routine.written_configured [ReliableStore σ] (r : Routine) (mem : Memory σ)
    (payload : Payload) (h : mem.Configured) : (r.written mem payload).Configured := by
  obtain ⟨c, hload, hvalid⟩ := h
  rcases r.written_cases σ payload with ⟨rfl, records, rfl⟩ | ⟨rfl, update, rfl⟩ | hsame
  · cases hupdated : updatedConfiguration mem.store records with
    | error e =>
      rw [written_of_not_updated hupdated]
      exact ⟨c, hload, hvalid⟩
    | ok updated =>
      rw [written_of_updated hupdated]
      cases hsave : save mem.store updated with
      | mk result store =>
        cases result with
        | ok _ =>
          exact ⟨updated, ReliableStore.load_of_save_ok hsave, valid_of_updatedConfiguration hupdated⟩
        | error e => exact ⟨c, (ReliableStore.load_of_save_error hsave).trans hload, hvalid⟩
  · exact ⟨c, hload, hvalid⟩
  · rw [hsame]
    exact ⟨c, hload, hvalid⟩

namespace Node

theorem configured_of_start {peripherals : Peripherals} {store : σ} {d : Dispatcher} {n : Node σ}
    (h : start peripherals store d = .ok n) : n.memory.Configured := by
  obtain ⟨c, _, hload, hcheck, _, rfl⟩ := start_eq_ok_iff.mp h
  exact ⟨c, hload,
    (Configuration.validate_eq_ok_iff c).mp (Configuration.check_eq_ok_iff.mp hcheck)⟩

/-- A node that loads a valid configuration, with a mode to start in, and whose updates never find
a schedule in the place of another transport. -/
structure InOrder (n : Node σ) (c : Configuration) : Prop where
  configuration_eq : n.configuration = .ok c
  validate_eq : c.validate = .ok ()
  valid : c.Valid
  exists_first : ∃ mode, ModeGraph.first? c.graph = some mode
  update_ne : ∀ ms updated, c.applyAll ms = .ok updated →
    ∀ transport, updated.validate ≠ .error (.foreignSchedule transport)

theorem exists_inOrder {n : Node σ} (h : n.memory.Configured) : ∃ c, n.InOrder c := by
  obtain ⟨c, hload, hvalid⟩ := h
  refine ⟨c, hload, (Configuration.validate_eq_ok_iff c).mpr hvalid, hvalid, hvalid.exists_first?, ?_⟩
  intro ms updated hupdated
  exact (Configuration.placed_of_applyAll hvalid.toPlaced hupdated).validate_ne

theorem run_inOrder [ReliableStore σ] {peripherals : Peripherals} {store : σ} {d : Dispatcher}
    {n : Node σ} (h : start peripherals store d = .ok n) (events : List Event) :
    ∃ c, (n.run events).InOrder c :=
  exists_inOrder (run_keeps Routine.written_configured (configured_of_start h) events)

/-- **The configuration is valid at all times.**  Whatever a node has started from, and whatever
frames, drained links and minutes it has gone through since, its configuration can be loaded and
is valid. -/
theorem run_configured (peripherals : Peripherals) (d : Dispatcher) (events : List Event) :
    (∀ (store : MemoryStore) (n : Node MemoryStore), start peripherals store d = .ok n →
      ∃ c, (n.run events).InOrder c) ∧
    (∀ (store : FileStore) (n : Node FileStore), start peripherals store d = .ok n →
      ∃ c, (n.run events).InOrder c) :=
  ⟨fun _ _ h => run_inOrder h events, fun _ _ h => run_inOrder h events⟩

/-- A node starts from a file that is missing, is told to lead its only mode into another that
there is not, gets a link with noise on it drained, and goes on by an hour. -/
theorem run_configured_missing_file :
    let dangling := Packet.sealed .setConfiguration (.toNode .broadcast)
      (.configurationChange ⟨[0x47, 4, 0, 7, 0, 1], 1, by decide +kernel⟩)
    let noisy := (Link.ofMedium .serial).receive [0xde, 0xad]
    let events := [.frame dangling.wire, .drain noisy (fun _ => true), .tick 60]
    let n : Node FileStore := ⟨⟨⟨77, .charging⟩, ⟨⟨0⟩, ⟨0⟩⟩, 0, ⟨0⟩⟩, ⟨.ofPath "node.json", .empty⟩,
      .standard, ⟨0, 0, 0⟩⟩
    start n.peripherals (.ofPath "node.json") .standard = .ok n ∧ ∃ c, (n.run events).InOrder c := by
  intro dangling noisy events n
  have hload : (FileStore.ofPath "node.json").load = .ok .default := by decide +kernel
  have hstart : start n.peripherals (FileStore.ofPath "node.json") .standard = .ok n :=
    bind_eq_ok.mpr ⟨.default, hload, rfl⟩
  exact ⟨hstart, (run_configured n.peripherals .standard events).2 _ n hstart⟩

end Node

end AcousticNode

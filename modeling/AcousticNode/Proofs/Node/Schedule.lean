import AcousticNode.Proofs.Configuration.Document
import AcousticNode.Proofs.Node.ValidConfiguration
import AcousticNode.Proofs.Packet.RoundTrip

/-!
# The schedule

What a minute makes of the mode, of the cycles in it, and of the minute of the last report.  The
graph and the durations may have changed since the minute before.  A mode that the graph does not
know gives way to the lowest one before anything else, and no mode is left with more cycles than
the longest duration there is, so that the count of cycles never comes to its end.

* `tick_turn` : what a minute can do;
* `scheduled` : what holds after a minute, in a valid configuration;
* `run_scheduled` : every minute of every run, over either store.
-/

set_option autoImplicit false

namespace AcousticNode

open Outcome

/-! ## The lowest mode -/

/-- The mode that a node starts in. -/
structure ModeGraph.Lowest (g : ModeGraph) (mode : Mode) : Prop where
  known : g.contains mode = true
  le : ∀ mode', g.contains mode' = true → mode ≤ mode'

theorem ModeGraph.lowest_of_first? {g : ModeGraph} {mode : Mode} (h : first? g = some mode) :
    g.Lowest mode where
  known := g.contains_iff_mem_keys.mpr (List.mem_of_head? h)
  le _ hmode' := UInt8.le_iff_toNat_le.mpr (g.rank_head_keys_le h hmode')

/-! ## One minute -/

/-- What a minute makes of the mode and of the cycles in it.  A mode that has not lasted as long as
it should lasts for one cycle more; another gives way to the next one; and one that is unknown
gives way to the lowest. -/
inductive Turn (g : ModeGraph) (a a' : Agenda) : Prop where
  | lasts (t : Transition) (known : g.get? a.mode = some t)
      (lasting : a.cycles < t.duration.toNat) (mode_eq : a'.mode = a.mode)
      (cycles_eq : a'.cycles = a.cycles + 1)
  | follows (t : Transition) (known : g.get? a.mode = some t)
      (ended : t.duration.toNat ≤ a.cycles) (mode_eq : a'.mode = t.next)
      (cycles_eq : a'.cycles = 1)
  | restarts (unknown : g.get? a.mode = none) (lowest : g.Lowest a'.mode)
      (cycles_eq : a'.cycles = 1)

namespace Agenda

/-- A duration is a word, so the count of a mode that lasts is far from its end. -/
theorem cycles_countCycle {a : Agenda} (h : a.cycles ≤ 65535) :
    a.countCycle.cycles = a.cycles + 1 := by
  have hmax : maxCycles = 4294967295 := rfl
  rw [countCycle]
  exact Nat.min_eq_left (by omega)

theorem lastReport_note (a : Agenda) (entries : Table Mode ReportEntry) (minute : Nat) :
    (a.note entries minute).lastReport =
      if (a.due? entries minute).isSome then minute else a.lastReport := by
  unfold note
  cases a.due? entries minute <;> rfl

/-- Moving on keeps the minute of the last report. -/
theorem lastReport_advance (a : Agenda) (g : ModeGraph) :
    (a.advance g).lastReport = a.lastReport := by
  unfold advance
  split
  · split <;> rfl
  · split <;> rfl

/-- Whether a report is due is judged by the new mode and by the minute of the last report. -/
theorem due?_advance (a : Agenda) (g : ModeGraph) (entries : Table Mode ReportEntry)
    (minute : Nat) : (a.advance g).due? entries minute =
      due? { a with mode := (a.advance g).mode } entries minute := by
  rw [due?, due?, lastReport_advance]

end Agenda

theorem Turn.of_minute {g : ModeGraph} (hinhabited : ∃ mode, ModeGraph.first? g = some mode)
    (a : Agenda) (entries : Table Mode ReportEntry) (minute : Nat) :
    Turn g a ((a.advance g).note entries minute).countCycle := by
  have hmode : ((a.advance g).note entries minute).countCycle.mode = (a.advance g).mode := by simp
  have hcycles (h : (a.advance g).cycles ≤ 65535) :
      ((a.advance g).note entries minute).countCycle.cycles = (a.advance g).cycles + 1 := by
    rw [Agenda.cycles_countCycle (by simpa using h), Agenda.cycles_note]
  cases hknown : g.get? a.mode with
  | some t =>
    have hword : t.duration.toNat < 65536 := t.duration.toNat_lt
    rcases Nat.lt_or_ge a.cycles t.duration.toNat with hlasts | hover
    · rw [Agenda.advance_of_lasting hknown hlasts] at hmode hcycles ⊢
      exact .lasts t hknown hlasts hmode (hcycles (by omega))
    · rw [Agenda.advance_of_over hknown hover] at hmode hcycles ⊢
      exact .follows t hknown hover hmode (hcycles (Nat.zero_le _))
  | none =>
    obtain ⟨mode, hfirst⟩ := hinhabited
    rw [Agenda.advance_of_unknown hknown hfirst] at hmode hcycles ⊢
    refine .restarts hknown ?_ (hcycles (Nat.zero_le _))
    rw [hmode]
    exact ModeGraph.lowest_of_first? hfirst

namespace Turn

variable {g : ModeGraph} {a a' : Agenda}

/-- In a graph that no transition leads out of, every minute ends in a mode that the graph knows. -/
theorem known (h : Turn g a a')
    (hclosed : ∀ mode t, g.get? mode = some t → ∃ t', g.get? t.next = some t') :
    g.contains a'.mode = true := by
  cases h with
  | lasts t hknown _ hmode _ =>
    rw [hmode, Table.contains, hknown]
    rfl
  | follows t hknown _ hmode _ =>
    obtain ⟨t', ht'⟩ := hclosed _ t hknown
    rw [hmode, Table.contains, ht']
    rfl
  | restarts _ hlowest _ => exact hlowest.known

theorem one_le_cycles (h : Turn g a a') : 1 ≤ a'.cycles := by
  cases h with
  | lasts _ _ _ _ hcycles => omega
  | follows _ _ _ _ hcycles => omega
  | restarts _ _ hcycles => omega

theorem cycles_le (h : Turn g a a') : a'.cycles ≤ 65535 := by
  cases h with
  | lasts t _ hbefore _ hcycles =>
    have hword : t.duration.toNat < 65536 := t.duration.toNat_lt
    omega
  | follows _ _ _ _ hcycles => omega
  | restarts _ _ hcycles => omega

end Turn

/-- What a minute makes of an agenda. -/
structure Scheduled (c : Configuration) (minute : Nat) (a a' : Agenda) : Prop where
  known : c.graph.contains a'.mode = true
  one_le_cycles : 1 ≤ a'.cycles
  cycles_le : a'.cycles ≤ 65535
  turn : Turn c.graph a a'
  /-- Whether a report is due depends on the mode after the minute and on the minute of the last
  report before it, which a change of the mode keeps. -/
  lastReport_eq : a'.lastReport =
    if (Agenda.due? { a with mode := a'.mode } c.iridium.entries minute).isSome then minute
    else a.lastReport

/-! ## Nodes -/

namespace Node

variable {σ : Type} [ConfigurationStore σ] {n : Node σ} {c : Configuration}

theorem tick_turn (hc : n.configuration = .ok c)
    (hinhabited : ∃ mode, ModeGraph.first? c.graph = some mode) (minute : Nat) :
    Turn c.graph n.agenda (n.tick minute).2.agenda := by
  rw [snd_tick_of_loaded hc]
  exact .of_minute hinhabited n.agenda c.iridium.entries minute

theorem lastReport_tick (hc : n.configuration = .ok c) (minute : Nat) :
    (n.tick minute).2.agenda.lastReport =
      if (Agenda.due? { n.agenda with mode := (n.tick minute).2.agenda.mode } c.iridium.entries
        minute).isSome then minute else n.agenda.lastReport := by
  rw [snd_tick_of_loaded hc]
  simp only [Agenda.lastReport_countCycle, Agenda.lastReport_note, Agenda.mode_countCycle,
    Agenda.mode_note, Agenda.due?_advance, Agenda.lastReport_advance]

theorem scheduled (hc : n.configuration = .ok c) (hvalid : c.Valid) (minute : Nat) :
    Scheduled c minute n.agenda (n.tick minute).2.agenda := by
  have hturn := tick_turn hc hvalid.exists_first? minute
  exact ⟨hturn.known hvalid.closed, hturn.one_le_cycles, hturn.cycles_le, hturn,
    lastReport_tick hc minute⟩

/-- **The schedule keeps to the graph.**  After every minute whose configuration is loaded, the
mode is one that the graph knows and the count of its cycles is a word, whatever frames have made
of the graph and the durations since the minute before.  A node in memory has started and gone
through a run; a node with a file may be in any state, and anyone may have written the file. -/
theorem run_scheduled (peripherals : Peripherals) (d : Dispatcher) (minute : Nat) :
    (∀ (store : MemoryStore) (n : Node MemoryStore), start peripherals store d = .ok n →
      ∀ events c, (n.run events).configuration = .ok c →
        Scheduled c minute (n.run events).agenda ((n.run events).tick minute).2.agenda) ∧
    ∀ (n : Node FileStore) c, n.configuration = .ok c →
      Scheduled c minute n.agenda (n.tick minute).2.agenda := by
  constructor
  · intro store n h events c hc
    obtain ⟨c', hc', _, hvalid, _⟩ := run_inOrder h events
    obtain rfl : c' = c := Except.ok.inj (hc'.symm.trans hc)
    exact scheduled hc hvalid minute
  · intro n c hc
    exact scheduled hc (FileStore.valid_of_load hc) minute

/-- A node that has made a report in its first mode is told of a graph without this mode, and
starts again in the lowest mode of the new one, where no report is due yet. -/
theorem run_scheduled_regraphed :
    let c := { Configuration.default with
      graph := (Table.empty.insert 1 ⟨2, 4⟩).insert 2 ⟨1, 4⟩
      iridium := ⟨.iridium, (Table.empty.insert 1 ⟨5, .basic⟩).insert 7 ⟨60, .basic⟩⟩ }
    let graph := (Table.empty.insert 7 ⟨9, 3⟩).insert 9 ⟨7, 1⟩
    let regraph := Packet.sealed .setConfiguration (.toNode .broadcast)
      (.configurationChange ⟨[0x47, 8, 7, 9, 0, 3, 9, 7, 0, 1], 1, by decide +kernel⟩)
    let events := [.tick 5, .frame regraph.wire]
    let n : Node MemoryStore := ⟨⟨⟨77, .charging⟩, ⟨⟨0⟩, ⟨0⟩⟩, 0, ⟨0⟩⟩, ⟨⟨c, false⟩, .empty⟩,
      .standard, ⟨1, 0, 0⟩⟩
    start n.peripherals n.memory.store .standard = .ok n ∧
      (n.run events).configuration = .ok { c with graph := graph } ∧
      Turn graph (n.run events).agenda ((n.run events).tick 10).2.agenda ∧
      ((n.run events).tick 10).2.agenda = ⟨7, 1, 5⟩ := by
  intro c graph regraph events n
  have hstart : start n.peripherals n.memory.store .standard = .ok n := rfl
  have hdecode : Packet.decode regraph.wire = .ok regraph :=
    (Packet.Carried.of_spells (Packet.spells_sealed rfl (by decide))).decode_wire
  have htakes : (n.after (.tick 5)).Takes regraph.wire c regraph := ⟨hdecode, rfl, rfl⟩
  have hmodules : Module.decodeAll [0x47, 8, 7, 9, 0, 3, 9, 7, 0, 1] = .ok [.modeGraph graph] :=
    @Module.decodeAll_records [.modeGraph graph] (by decide)
  have hupdated : Routine.updatedConfiguration n.memory.store
      ⟨[0x47, 8, 7, 9, 0, 3, 9, 7, 0, 1], 1, by decide +kernel⟩ =
      .ok { c with graph := graph } :=
    bind_eq_ok.mpr ⟨_, hmodules, rfl⟩
  have hrun : n.run events = { n.after (.tick 5) with
      memory := ⟨⟨{ c with graph := graph }, false⟩, .empty⟩ } := by
    have hlast : n.run events = ((n.after (.tick 5)).receive regraph.wire).2 := rfl
    rw [hlast, receive_of_takes htakes]
    exact congrArg (fun memory => { n.after (.tick 5) with memory := memory })
      (Routine.written_of_updated hupdated)
  have hconfiguration : (n.run events).configuration = .ok { c with graph := graph } := by
    rw [hrun]
    rfl
  have hscheduled := (run_scheduled n.peripherals .standard 10).1 _ n hstart events _ hconfiguration
  refine ⟨hstart, hconfiguration, hscheduled.turn, ?_⟩
  rw [hrun]
  decide +kernel

end Node

end AcousticNode

import AcousticNode.Proofs.Node.Schedule

/-!
# The itinerary

While the mode graph stays as it is, the modes of a node are those of a way through the graph from
its lowest mode on.  Each mode that is entered lasts for its duration, and for one minute at least;
only the first mode, which is not entered, is left out if its duration is zero.

* `Turn.ahead_eq` : a minute takes one step on the way that lies ahead;
* `run_ahead` : any number of minutes, with anything else in between;
* `run_itinerary` : the mode of a node that has started, after every run.
-/

set_option autoImplicit false

namespace AcousticNode

/-! ## Ways through a graph -/

namespace ModeGraph

variable (g : ModeGraph)

/-- The mode that a mode leads to. -/
def next (mode : Mode) : Mode := (g.get? mode).elim mode (·.next)

/-- For how many cycles a mode lasts. -/
def duration (mode : Mode) : Nat := (g.get? mode).elim 0 (·.duration.toNat)

/-- The modes minute by minute, while `legs` modes are entered one after another. -/
def way : Nat → Mode → List Mode
  | 0, _ => []
  | legs + 1, mode => List.replicate (max 1 (g.duration mode)) mode ++ way legs (g.next mode)

/-- The modes minute by minute from the first one on, until `legs` modes have been entered. -/
def itinerary (first : Mode) (legs : Nat) : List Mode :=
  List.replicate (g.duration first) first ++ g.way legs (g.next first)

theorem le_length_way (legs : Nat) (mode : Mode) : legs ≤ (g.way legs mode).length := by
  induction legs generalizing mode with
  | zero => exact Nat.le_refl 0
  | succ legs ih =>
    have hrest := ih (g.next mode)
    rw [way, List.length_append, List.length_replicate]
    omega

theorem le_length_itinerary (first : Mode) (legs : Nat) :
    legs ≤ (g.itinerary first legs).length := by
  rw [itinerary, List.length_append]
  exact Nat.le_trans (g.le_length_way legs _) (Nat.le_add_left _ _)

variable {g} {mode : Mode} {t : Transition}

theorem next_of_known (h : g.get? mode = some t) : g.next mode = t.next := by
  rw [next, h]
  rfl

theorem duration_of_known (h : g.get? mode = some t) : g.duration mode = t.duration.toNat := by
  rw [duration, h]
  rfl

end ModeGraph

/-- The modes that lie ahead of a node: the rest of its mode, and `legs` modes that it enters. -/
def Agenda.ahead (a : Agenda) (g : ModeGraph) (legs : Nat) : List Mode :=
  List.replicate (g.duration a.mode - a.cycles) a.mode ++ g.way legs (g.next a.mode)

/-- A minute ends in the first mode that lay ahead, and the others still do. -/
theorem Turn.ahead_eq {g : ModeGraph} {a a' : Agenda} (h : Turn g a a')
    (hknown : g.contains a.mode = true) {legs : Nat} (hlen : 0 < (a.ahead g legs).length) :
    ∃ legs', a.ahead g legs = a'.mode :: a'.ahead g legs' := by
  cases h with
  | lasts t hget hbefore hmode hcycles =>
    have hrest : g.duration a.mode - a.cycles = g.duration a.mode - (a.cycles + 1) + 1 := by
      rw [ModeGraph.duration_of_known hget]
      omega
    refine ⟨legs, ?_⟩
    rw [Agenda.ahead, Agenda.ahead, hmode, hcycles, hrest, List.replicate_succ, List.cons_append]
  | follows t hget hover hmode hcycles =>
    have hnext := ModeGraph.next_of_known hget
    have hnone : g.duration a.mode - a.cycles = 0 := by
      rw [ModeGraph.duration_of_known hget]
      omega
    rw [Agenda.ahead, hnone, hnext, List.replicate_zero, List.nil_append] at hlen ⊢
    cases legs with
    | zero => exact absurd hlen (Nat.lt_irrefl 0)
    | succ legs =>
      -- the first of the minutes that the new mode lasts for is this one
      have hentered : max 1 (g.duration t.next) = g.duration t.next - 1 + 1 := by omega
      refine ⟨legs, ?_⟩
      rw [ModeGraph.way, Agenda.ahead, hmode, hcycles, hentered, List.replicate_succ,
        List.cons_append]
  | restarts hnone _ _ =>
    rw [Table.contains, hnone] at hknown
    cases hknown

/-! ## Runs -/

/-- How many minutes there are among events. -/
def ticks (events : List Event) : Nat := events.countP Event.isTick

namespace Node

variable {σ : Type} [ConfigurationStore σ]

/-- A node loads a graph. -/
def Loads (n : Node σ) (g : ModeGraph) : Prop := ∃ c, n.configuration = .ok c ∧ c.graph = g

/-- A node loads a graph whenever one of the events of a run comes, and after the last one. -/
def Keeps (n : Node σ) (g : ModeGraph) (events : List Event) : Prop :=
  ∀ before, before <+: events → (n.run before).Loads g

theorem keeps_nil_iff {n : Node σ} {g : ModeGraph} : n.Keeps g [] ↔ n.Loads g := by
  simp only [Keeps, List.prefix_nil, forall_eq]
  rfl

theorem keeps_cons_iff {n : Node σ} {g : ModeGraph} {e : Event} {events : List Event} :
    n.Keeps g (e :: events) ↔ n.Loads g ∧ (n.after e).Keeps g events := by
  constructor
  · intro h
    exact ⟨h [] List.nil_prefix, fun before hbefore =>
      h (e :: before) (List.cons_prefix_cons.mpr ⟨rfl, hbefore⟩)⟩
  · rintro ⟨hnow, hlater⟩ before hbefore
    rcases List.prefix_cons_iff.mp hbefore with rfl | ⟨rest, rfl, hrest⟩
    · exact hnow
    · exact hlater rest hrest

/-- After any number of minutes a node is in the mode that lay as far ahead. -/
theorem run_ahead {g : ModeGraph} (hinhabited : ∃ mode, ModeGraph.first? g = some mode)
    (hclosed : ∀ mode t, g.get? mode = some t → ∃ t', g.get? t.next = some t')
    (events : List Event) {n : Node σ} (hkeeps : n.Keeps g events)
    (hknown : g.contains n.agenda.mode = true) {legs : Nat}
    (hlen : ticks events ≤ (n.agenda.ahead g legs).length) :
    (n.agenda.mode :: n.agenda.ahead g legs)[ticks events]? = some (n.run events).agenda.mode := by
  induction events generalizing n legs with
  | nil => rfl
  | cons e events ih =>
    obtain ⟨hnow, hlater⟩ := keeps_cons_iff.mp hkeeps
    rcases n.after_cases e with ⟨minute, rfl⟩ | ⟨he, memory, hafter⟩
    · have hticks : ticks (.tick minute :: events) = ticks events + 1 := List.countP_cons_of_pos rfl
      obtain ⟨c, hc, rfl⟩ := hnow
      have hturn : Turn c.graph n.agenda (n.after (.tick minute)).agenda :=
        tick_turn hc hinhabited minute
      rw [hticks] at hlen ⊢
      obtain ⟨legs', hahead⟩ := hturn.ahead_eq hknown (Nat.zero_lt_of_lt hlen)
      rw [hahead] at hlen ⊢
      exact ih hlater (hturn.known hclosed) (Nat.le_of_succ_le_succ hlen)
    · have hticks : ticks (e :: events) = ticks events := List.countP_cons_of_neg (by simp [he])
      have hagenda : (n.after e).agenda = n.agenda := by rw [hafter]
      rw [hticks, ← hagenda] at hlen ⊢
      rw [← hagenda] at hknown
      exact ih hlater hknown hlen

/-- **The mode follows the graph.**  A node has started, and every load in a run gives the same
graph, whatever else comes between the minutes.  Then after the `m`-th minute the node is in the
`m`-th mode of the itinerary from the lowest mode on, which may be followed as far as one likes. -/
theorem run_itinerary {peripherals : Peripherals} {store : σ} {d : Dispatcher} {n : Node σ}
    (h : start peripherals store d = .ok n) {g : ModeGraph} {events : List Event}
    (hkeeps : n.Keeps g events) (hticks : 1 ≤ ticks events) :
    ∃ first, g.Lowest first ∧ ∀ legs, legs ≤ (g.itinerary first legs).length ∧
      (ticks events ≤ (g.itinerary first legs).length →
        (g.itinerary first legs)[ticks events - 1]? = some (n.run events).agenda.mode) := by
  obtain ⟨c, first, hload, _, hfirst, rfl⟩ := start_eq_ok_iff.mp h
  obtain ⟨c', hc', hvalid⟩ := configured_of_start h
  obtain rfl : c = c' := Except.ok.inj (hload.symm.trans hc')
  obtain ⟨c', hc', rfl⟩ := hkeeps [] List.nil_prefix
  obtain rfl : c = c' := Except.ok.inj (hload.symm.trans hc')
  have hlowest := ModeGraph.lowest_of_first? hfirst
  refine ⟨first, hlowest, fun legs => ⟨c.graph.le_length_itinerary first legs, fun hlen => ?_⟩⟩
  -- at the start, where no cycle has been spent, the whole itinerary lies ahead
  have hmode := run_ahead ⟨first, hfirst⟩ hvalid.closed events hkeeps hlowest.known hlen
  rwa [List.getElem?_cons, if_neg (Nat.ne_of_gt hticks)] at hmode

/-- A first mode that lasts for no cycle at all is left out at the start and lasts for one minute
when it is entered again; noise makes no difference. -/
theorem run_itinerary_cycle :
    let g := (Table.empty.insert 1 ⟨2, 0⟩).insert 2 ⟨1, 2⟩
    let noisy := (Link.ofMedium .serial).receive [0xde, 0xad]
    let events := [.tick 0, .frame [0xbe], .tick 7, .drain noisy (fun _ => true), .tick 8]
    let n : Node MemoryStore := ⟨⟨⟨77, .charging⟩, ⟨⟨0⟩, ⟨0⟩⟩, 0, ⟨0⟩⟩,
      ⟨⟨{ Configuration.default with graph := g }, true⟩, .empty⟩, .standard, ⟨1, 0, 0⟩⟩
    start n.peripherals n.memory.store .standard = .ok n ∧ n.Keeps g events ∧
      ModeGraph.itinerary g 1 3 = [2, 2, 1, 2, 2] ∧ (n.run events).agenda.mode = 1 := by
  intro g noisy events n
  have hstart : start n.peripherals n.memory.store .standard = .ok n := rfl
  have hkeeps : n.Keeps g events := by
    simp only [events, keeps_cons_iff, keeps_nil_iff]
    exact ⟨⟨_, rfl, rfl⟩, ⟨_, rfl, rfl⟩, ⟨_, rfl, rfl⟩, ⟨_, rfl, rfl⟩, ⟨_, rfl, rfl⟩, ⟨_, rfl, rfl⟩⟩
  obtain ⟨first, hlowest, hmodes⟩ := run_itinerary hstart hkeeps (by decide)
  have hfirst : first = 1 := by
    have hknown : first ∈ [1, 2] := (Table.contains_iff_mem_keys _).mp hlowest.known
    have hle : first ≤ 1 := hlowest.le 1 rfl
    rcases List.mem_pair.mp hknown with rfl | rfl
    · rfl
    · exact absurd hle (by decide)
  subst hfirst
  have hmode : ([2, 2, 1, 2, 2] : List Mode)[2]? = some (n.run events).agenda.mode :=
    (hmodes 3).2 (by decide)
  exact ⟨hstart, hkeeps, rfl, (Option.some.inj hmode).symm⟩

end Node

end AcousticNode

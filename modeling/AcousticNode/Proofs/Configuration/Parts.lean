import AcousticNode.Proofs.Configuration.Document
import AcousticNode.Proofs.Configuration.Update

/-!
# The parts of a configuration

A configuration has four parts: the addressing, the graph and a schedule for each transport.  Each
is described by one module, and the four modules tell the configuration.  An update takes every part
from the last module that describes it and leaves the others, and only the outcome is checked.

* `describe_injective` : a configuration is told by its parts;
* `describe_applyAll` : where the parts of an updated configuration come from;
* `withModules_eq_ok_iff_describe` : the updates that succeed, and what they give;
* `lastWins` : updates one after another, in one list, and in another order.
-/

set_option autoImplicit false

namespace AcousticNode

open Outcome

/-- What a configuration is made of. -/
inductive Part where
  | addressing
  | graph
  | schedule (transport : Transport)
  deriving DecidableEq

namespace Module

/-- The part that a module describes, if it is about the configuration. -/
def part? : Module → Option Part
  | network _ => some .addressing
  | modeGraph _ => some .graph
  | reporting r => some (.schedule r.transport)
  | _ => none

theorem isSome_part?_iff {m : Module} :
    m.part?.isSome ↔ m.code ∈ [ModuleCode.network, .modeGraph, .reporting] := by
  cases m <;> simp [part?, code]

/-- The last module of a list that describes a part. -/
def lastAbout (p : Part) (ms : List Module) : Option Module :=
  ms.reverse.find? fun m => m.part? = some p

theorem lastAbout_append (p : Part) (as bs : List Module) :
    lastAbout p (as ++ bs) = (lastAbout p bs).or (lastAbout p as) := by
  rw [lastAbout, List.reverse_append, List.find?_append]
  rfl

theorem lastAbout_singleton (p : Part) (m : Module) :
    lastAbout p [m] = if m.part? = some p then some m else none := by
  by_cases h : m.part? = some p <;> simp [lastAbout, h]

theorem lastAbout_eq_none_iff {p : Part} {ms : List Module} :
    lastAbout p ms = none ↔ ∀ m ∈ ms, m.part? ≠ some p := by
  simp [lastAbout]

/-- A module that describes a part takes the place of those before it. -/
theorem lastAbout_append_cons {p : Part} {m : Module} {before after : List Module}
    (h : ∃ m' ∈ after, m'.part? = m.part?) :
    lastAbout p (before ++ m :: after) = lastAbout p (before ++ after) := by
  obtain ⟨m', hm', hpart⟩ := h
  rw [← List.singleton_append, lastAbout_append, lastAbout_append, lastAbout_append,
    lastAbout_singleton]
  split
  · rename_i hm
    have hsome : lastAbout p after ≠ none := fun hnone =>
      lastAbout_eq_none_iff.mp hnone m' hm' (hpart.trans hm)
    obtain ⟨last, hlast⟩ := Option.ne_none_iff_exists'.mp hsome
    rw [hlast]
    rfl
  · rw [Option.or_none]

/-- No part is described by modules of both lists. -/
def Apart (as bs : List Module) : Prop :=
  ∀ a ∈ as, ∀ b ∈ bs, ∀ p, a.part? = some p → b.part? ≠ some p

theorem Apart.symm {as bs : List Module} (h : Apart as bs) : Apart bs as :=
  fun b hb a ha p hbp hap => h a ha b hb p hap hbp

theorem Apart.lastAbout_eq_none {as bs : List Module} (h : Apart as bs) (p : Part) :
    lastAbout p as = none ∨ lastAbout p bs = none := by
  rw [Classical.or_iff_not_imp_left, lastAbout_eq_none_iff, lastAbout_eq_none_iff]
  intro has b hb hbp
  refine has fun a ha hap => ?_
  exact h a ha b hb p hap hbp

theorem Apart.lastAbout_append_comm {as bs : List Module} (h : Apart as bs) (p : Part) :
    lastAbout p (as ++ bs) = lastAbout p (bs ++ as) := by
  rw [lastAbout_append, lastAbout_append]
  rcases h.lastAbout_eq_none p with hnone | hnone <;> rw [hnone, Option.or_none, Option.none_or]

end Module

namespace Settings

open AcousticNode.Module (lastAbout)

/-- The module that sets a part, if it is set. -/
def describe? (s : Settings) : Part → Option Module
  | .addressing => s.network.map .network
  | .graph => s.graph.map .modeGraph
  | .schedule .lora => s.lora.map .reporting
  | .schedule .iridium => s.iridium.map .reporting

theorem describe?_andThen (s t : Settings) (p : Part) :
    (s.andThen t).describe? p = (t.describe? p).or (s.describe? p) := by
  rcases p with _ | _ | _ | _ <;> exact Option.map_or

theorem exists_ofModule_iff {m : Module} : (∃ s, ofModule m = .ok s) ↔ m.part?.isSome := by
  cases m
  case network n => exact iff_of_true ⟨_, rfl⟩ rfl
  case modeGraph g => exact iff_of_true ⟨_, rfl⟩ rfl
  case reporting r =>
    refine iff_of_true ?_ rfl
    simp only [ofModule]
    cases r.transport <;> exact ⟨_, rfl⟩
  all_goals
    refine iff_of_false ?_ Bool.false_ne_true
    rintro ⟨s, h⟩
    cases h

theorem describe?_ofModule {m : Module} {s : Settings} (h : ofModule m = .ok s) (p : Part) :
    s.describe? p = lastAbout p [m] := by
  rw [Module.lastAbout_singleton]
  cases m
  case network n =>
    cases h
    rcases p with _ | _ | _ | _ <;> rfl
  case modeGraph g =>
    cases h
    rcases p with _ | _ | _ | _ <;> rfl
  case reporting r =>
    simp only [ofModule] at h
    split at h <;> rename_i htransport <;> cases h <;>
      rcases p with _ | _ | _ | _ <;> simp [Module.part?, describe?, empty, htransport]
  all_goals cases h

theorem exists_ofModules_iff {ms : List Module} :
    (∃ s, ofModules ms = .ok s) ↔ ∀ m ∈ ms, m.part?.isSome := by
  induction ms with
  | nil => exact iff_of_true ⟨empty, rfl⟩ (List.forall_mem_nil _)
  | cons m ms ih =>
    rw [List.forall_mem_cons, ← exists_ofModule_iff, ← ih]
    constructor
    · rintro ⟨_, h⟩
      obtain ⟨s, hs, h⟩ := bind_eq_ok.mp h
      obtain ⟨t, ht, _⟩ := bind_eq_ok.mp h
      exact ⟨⟨s, hs⟩, ⟨t, ht⟩⟩
    · rintro ⟨⟨s, hs⟩, ⟨t, ht⟩⟩
      exact ⟨s.andThen t, bind_eq_ok.mpr ⟨s, hs, bind_eq_ok.mpr ⟨t, ht, rfl⟩⟩⟩

theorem describe?_ofModules {ms : List Module} {s : Settings} (h : ofModules ms = .ok s)
    (p : Part) : s.describe? p = lastAbout p ms := by
  induction ms generalizing s with
  | nil =>
    cases h
    rcases p with _ | _ | _ | _ <;> rfl
  | cons m ms ih =>
    obtain ⟨first, hfirst, h⟩ := bind_eq_ok.mp h
    obtain ⟨rest, hrest, h⟩ := bind_eq_ok.mp h
    cases h
    rw [describe?_andThen, ih hrest, describe?_ofModule hfirst, ← Module.lastAbout_append,
      List.singleton_append]

end Settings

/-- A graph has a mode, and its transitions lead to its modes. -/
def ModeGraph.IsClosed (g : ModeGraph) : Prop :=
  g.entries ≠ [] ∧ ∀ mode t, g.get? mode = some t → ∃ t', g.get? t.next = some t'

namespace Configuration

open AcousticNode.Module (lastAbout)

/-- The module that describes a part of a configuration. -/
def describe (c : Configuration) : Part → Module
  | .addressing => .network c.network
  | .graph => .modeGraph c.graph
  | .schedule .lora => .reporting c.lora
  | .schedule .iridium => .reporting c.iridium

theorem describe_injective {c c' : Configuration} (h : ∀ p, c.describe p = c'.describe p) :
    c = c' := by
  obtain ⟨localAddress, routes, gateway, graph, lora, iridium⟩ := c
  obtain ⟨localAddress', routes', gateway', graph', lora', iridium'⟩ := c'
  have haddressing := Module.network.inj (h .addressing)
  have hgraph := Module.modeGraph.inj (h .graph)
  have hlora := Module.reporting.inj (h (.schedule .lora))
  have hiridium := Module.reporting.inj (h (.schedule .iridium))
  simp only [network, Network.mk.injEq] at haddressing
  simp only [mk.injEq]
  exact ⟨haddressing.1, haddressing.2.1, haddressing.2.2, hgraph, hlora, hiridium⟩

/-! ## Modules one by one -/

theorem describe_override (c : Configuration) (s : Settings) (p : Part) :
    (c.override s).describe p = (s.describe? p).getD (c.describe p) := by
  obtain ⟨network, graph, lora, iridium⟩ := s
  rcases p with _ | _ | _ | _
  · cases network <;> rfl
  · cases graph <;> rfl
  · cases lora <;> rfl
  · cases iridium <;> rfl

theorem exists_applyAll_iff {c : Configuration} {ms : List Module} :
    (∃ c', c.applyAll ms = .ok c') ↔ ∀ m ∈ ms, m.part?.isSome := by
  rw [applyAll_eq, exists_map_eq_ok]
  exact Settings.exists_ofModules_iff

theorem describe_applyAll {c c' : Configuration} {ms : List Module} (h : c.applyAll ms = .ok c')
    (p : Part) : c'.describe p = (lastAbout p ms).getD (c.describe p) := by
  rw [applyAll_eq] at h
  obtain ⟨s, hs, rfl⟩ := map_eq_ok.mp h
  rw [describe_override, Settings.describe?_ofModules hs]

theorem applyAll_append (c : Configuration) (as bs : List Module) :
    c.applyAll (as ++ bs) = c.applyAll as >>= (·.applyAll bs) := by
  induction as generalizing c with
  | nil => rfl
  | cons a as ih =>
    rw [List.cons_append, applyAll, applyAll]
    cases c.apply a with
    | error e => rfl
    | ok c₁ => exact ih c₁

/-! ## Updates -/

theorem Placed.check_eq_ok_iff {c : Configuration} (h : c.Placed) :
    c.check = .ok () ↔ ModeGraph.IsClosed c.graph := by
  rw [check, mapError_eq_ok, h.validate_eq, ModeGraph.validate_eq_ok_iff]
  rfl

/-- The updates of a configuration that succeed, and the configuration that each gives. -/
theorem withModules_eq_ok_iff_describe {c u : Configuration} (hc : c.Placed) {ms : List Module} :
    c.withModules ms = .ok u ↔ (∀ m ∈ ms, m.part?.isSome) ∧
      (∀ p, u.describe p = (lastAbout p ms).getD (c.describe p)) ∧ ModeGraph.IsClosed u.graph := by
  rw [withModules_eq_ok_iff]
  constructor
  · rintro ⟨happly, hcheck⟩
    exact ⟨exists_applyAll_iff.mp ⟨u, happly⟩, describe_applyAll happly,
      (placed_of_applyAll hc happly).check_eq_ok_iff.mp hcheck⟩
  · rintro ⟨hparts, hdescribe, hclosed⟩
    obtain ⟨u', happly⟩ := exists_applyAll_iff.mpr hparts
    obtain rfl : u' = u := describe_injective fun p =>
      (describe_applyAll happly p).trans (hdescribe p).symm
    exact ⟨happly, (placed_of_applyAll hc happly).check_eq_ok_iff.mpr hclosed⟩

theorem exists_withModules_iff {c : Configuration} (hc : c.Placed) {ms : List Module} :
    (∃ u, c.withModules ms = .ok u) ↔ (∀ m ∈ ms, m.part?.isSome) ∧
      ∃ g, (lastAbout .graph ms).getD (.modeGraph c.graph) = .modeGraph g ∧
        ModeGraph.IsClosed g := by
  constructor
  · rintro ⟨u, hu⟩
    obtain ⟨hparts, hdescribe, hclosed⟩ := (withModules_eq_ok_iff_describe hc).mp hu
    exact ⟨hparts, u.graph, (hdescribe .graph).symm, hclosed⟩
  · rintro ⟨hparts, g, hg, hclosed⟩
    obtain ⟨u, happly⟩ := exists_applyAll_iff.mpr hparts
    have hgraph : Module.modeGraph u.graph = .modeGraph g :=
      (describe_applyAll happly .graph).trans hg
    obtain rfl := Module.modeGraph.inj hgraph
    exact ⟨u, (withModules_eq_ok_iff_describe hc).mpr ⟨hparts, describe_applyAll happly, hclosed⟩⟩

theorem withModules_append {c c' : Configuration} {as : List Module}
    (h : c.withModules as = .ok c') (bs : List Module) :
    c.withModules (as ++ bs) = c'.withModules bs := by
  obtain ⟨happly, _⟩ := withModules_eq_ok_iff.mp h
  rw [withModules, applyAll_append, happly]
  rfl

theorem withModules_eq_ok_congr {c u : Configuration} (hc : c.Placed) {ms ms' : List Module}
    (hmem : (∀ m ∈ ms, m.part?.isSome) ↔ ∀ m ∈ ms', m.part?.isSome)
    (hlast : ∀ p, lastAbout p ms = lastAbout p ms') :
    c.withModules ms = .ok u ↔ c.withModules ms' = .ok u := by
  simp only [withModules_eq_ok_iff_describe hc, hmem, hlast]

theorem withModules_append_comm {c u : Configuration} (hc : c.Placed) {as bs : List Module}
    (h : Module.Apart as bs) :
    c.withModules (as ++ bs) = .ok u ↔ c.withModules (bs ++ as) = .ok u := by
  refine withModules_eq_ok_congr hc ?_ h.lastAbout_append_comm
  simp only [List.forall_mem_append, and_comm]

/-- With parts of its own, the first of two lists leaves a valid configuration if both together
do: the graph is described by the first, and then comes out of both, or is the old one. -/
theorem withModules_bind_eq_ok_iff {c u : Configuration} (hc : c.Valid) {as bs : List Module}
    (h : Module.Apart as bs) :
    (c.withModules as >>= (·.withModules bs)) = .ok u ↔ c.withModules (as ++ bs) = .ok u := by
  constructor
  · intro hu
    obtain ⟨c', has, hbs⟩ := bind_eq_ok.mp hu
    rw [withModules_append has, hbs]
  · intro hu
    obtain ⟨hparts, g, hg, hclosed⟩ := (exists_withModules_iff hc.toPlaced).mp ⟨u, hu⟩
    have hfirst : ∃ c', c.withModules as = .ok c' := by
      refine (exists_withModules_iff hc.toPlaced).mpr ⟨(List.forall_mem_append.mp hparts).1, ?_⟩
      rw [Module.lastAbout_append] at hg
      rcases h.lastAbout_eq_none .graph with hnone | hnone
      · rw [hnone]
        exact ⟨c.graph, rfl, hc.inhabited, hc.closed⟩
      · rw [hnone, Option.none_or] at hg
        exact ⟨g, hg, hclosed⟩
    obtain ⟨c', has⟩ := hfirst
    exact bind_eq_ok.mpr ⟨c', has, (withModules_append has bs).symm.trans hu⟩

/-- What the updates of a configuration make of its parts. -/
structure LastWins (c : Configuration) : Prop where
  /-- All modules are about the configuration, and the last graph, or the old one, is closed. -/
  exists_iff : ∀ ms, (∃ u, c.withModules ms = .ok u) ↔
    (∀ m ∈ ms, m.code ∈ [ModuleCode.network, .modeGraph, .reporting]) ∧
      ∃ g, (lastAbout .graph ms).getD (.modeGraph c.graph) = .modeGraph g ∧ ModeGraph.IsClosed g
  describe_eq : ∀ ms u, c.withModules ms = .ok u →
    ∀ p, u.describe p = (lastAbout p ms).getD (c.describe p)
  /-- What is overwritten later makes no difference, not even a graph that is not closed. -/
  overwritten : ∀ before m after, m.part?.isSome → (∃ m' ∈ after, m'.part? = m.part?) →
    ∀ u, c.withModules (before ++ m :: after) = .ok u ↔ c.withModules (before ++ after) = .ok u
  append : ∀ as bs c', c.withModules as = .ok c' → c.withModules (as ++ bs) = c'.withModules bs
  append_comm : ∀ as bs, Module.Apart as bs → ∀ u,
    c.withModules (as ++ bs) = .ok u ↔ c.withModules (bs ++ as) = .ok u
  bind_comm : ∀ as bs, Module.Apart as bs → ∀ u,
    (c.withModules as >>= (·.withModules bs)) = .ok u ↔
      (c.withModules bs >>= (·.withModules as)) = .ok u

/-- **Of several modules for one part the last one wins.**  A valid configuration is updated by
exactly those lists whose modules are all about the configuration and that leave a closed graph, and
each part comes from the last module about it.  So the modules before it do not matter, lists may
be put together or applied one after the other, and lists about different parts in any order. -/
theorem lastWins {c : Configuration} (hc : c.Valid) : c.LastWins where
  exists_iff ms := by
    simp only [exists_withModules_iff hc.toPlaced, Module.isSome_part?_iff]
  describe_eq ms u hu := ((withModules_eq_ok_iff_describe hc.toPlaced).mp hu).2.1
  overwritten before m after hm hafter u := by
    refine withModules_eq_ok_congr hc.toPlaced ?_ fun p => Module.lastAbout_append_cons hafter
    simp only [List.forall_mem_append, List.forall_mem_cons, hm, true_and]
  append as bs c' has := withModules_append has bs
  append_comm as bs h u := withModules_append_comm hc.toPlaced h
  bind_comm as bs h u := by
    rw [withModules_bind_eq_ok_iff hc h, withModules_append_comm hc.toPlaced h,
      withModules_bind_eq_ok_iff hc h.symm]

/-- A graph that leads nowhere is forgotten when another one follows, and the schedules that no
module is about stay as they were. -/
theorem lastWins_dangling :
    let dangling : ModeGraph := Table.empty.insert 0 ⟨9, 1⟩
    let loop : ModeGraph := Table.empty.insert 4 ⟨4, 2⟩
    let n : Network := ⟨⟨3⟩, Table.empty.insert ⟨9⟩ ⟨4⟩, .backend⟩
    default.Valid ∧ (∀ u, default.withModules [.modeGraph dangling] ≠ .ok u) ∧
      ∃ u, default.withModules [.modeGraph dangling, .network n, .modeGraph loop] = .ok u ∧
        u.network = n ∧ u.graph = loop ∧ u.lora = default.lora ∧ u.iridium = default.iridium := by
  intro dangling loop n
  have hvalid : default.Valid := (validate_eq_ok_iff default).mp rfl
  have hloop : ModeGraph.IsClosed loop := (ModeGraph.validate_eq_ok_iff loop).mp rfl
  have h := lastWins hvalid
  refine ⟨hvalid, fun u hu => ?_, ?_⟩
  · obtain ⟨_, g, hg, hclosed⟩ := (h.exists_iff [.modeGraph dangling]).mp ⟨u, hu⟩
    obtain rfl : dangling = g := Module.modeGraph.inj hg
    cases (ModeGraph.validate_eq_ok_iff dangling).mpr hclosed
  · obtain ⟨u, hu⟩ := (h.exists_iff [.modeGraph dangling, .network n, .modeGraph loop]).mpr
      ⟨by decide, loop, rfl, hloop⟩
    have hparts := h.describe_eq _ u hu
    exact ⟨u, hu, Module.network.inj (hparts .addressing), Module.modeGraph.inj (hparts .graph),
      Module.reporting.inj (hparts (.schedule .lora)),
      Module.reporting.inj (hparts (.schedule .iridium))⟩

end Configuration

end AcousticNode

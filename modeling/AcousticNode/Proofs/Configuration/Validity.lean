import AcousticNode.Configuration.Basic
import AcousticNode.Proofs.Outcome
import AcousticNode.Proofs.Table

/-!
# Valid configurations

What it means that the check of a configuration passes.

* `validate_eq_ok_iff` : the check passes exactly for valid configurations;
* `Placed.validate_ne` : which flaw it cannot find in schedules that are in their places;
* `Valid.exists_first?` : a valid configuration has a mode to start in.
-/

set_option autoImplicit false

namespace AcousticNode

namespace ModeGraph

theorem undefinedMode?_eq_none_iff (g : ModeGraph) :
    undefinedMode? g = none ↔
      ∀ mode t, g.get? mode = some t → ∃ t', g.get? t.next = some t' := by
  simp only [undefinedMode?, Option.map_eq_none_iff, List.find?_eq_none, Table.contains,
    Bool.not_eq_true', Bool.not_eq_false, Option.isSome_iff_exists]
  constructor
  · intro h mode t ht
    exact h (mode, t) ((Table.get?_eq_some_iff g).mp ht)
  · intro h e he
    exact h e.1 e.2 ((Table.get?_eq_some_iff g).mpr he)

theorem validate_eq_ok_iff (g : ModeGraph) :
    validate g = .ok () ↔ g.entries ≠ [] ∧
      ∀ mode t, g.get? mode = some t → ∃ t', g.get? t.next = some t' := by
  rw [← undefinedMode?_eq_none_iff, validate, Table.isEmpty]
  cases hentries : g.entries with
  | nil => simp
  | cons e es =>
    cases hmode : undefinedMode? g with
    | none => simp
    | some e => simp

theorem exists_first? {g : ModeGraph} (h : g.entries ≠ []) : ∃ mode, first? g = some mode := by
  unfold first? Table.keys
  cases hentries : g.entries with
  | nil => exact absurd hentries h
  | cons e es => exact ⟨e.1, rfl⟩

end ModeGraph

namespace Configuration

open Outcome

/-- Each schedule is for the transport that its place says. -/
structure Placed (c : Configuration) : Prop where
  lora_eq : c.lora.transport = .lora
  iridium_eq : c.iridium.transport = .iridium

/-- The graph has a mode, no transition leads out of it, and the schedules are in their
places. -/
structure Valid (c : Configuration) : Prop extends c.Placed where
  inhabited : c.graph.entries ≠ []
  closed : ∀ mode t, c.graph.get? mode = some t → ∃ t', c.graph.get? t.next = some t'

/-- A schedule in its place is not mistaken for a foreign one. -/
theorem Placed.validate_ne {c : Configuration} (h : c.Placed) (transport : Transport) :
    c.validate ≠ .error (.foreignSchedule transport) := by
  intro hvalidate
  rcases bind_eq_error.mp hvalidate with hgraph | ⟨_, _, hschedules⟩
  · unfold ModeGraph.validate at hgraph
    split at hgraph
    · cases hgraph
    · split at hgraph <;> cases hgraph
  · simp [h.lora_eq, h.iridium_eq] at hschedules

theorem validate_eq_ok_iff (c : Configuration) : c.validate = .ok () ↔ c.Valid := by
  constructor
  · intro h
    obtain ⟨_, hgraph, h⟩ := bind_eq_ok.mp h
    obtain ⟨hinhabited, hclosed⟩ := (ModeGraph.validate_eq_ok_iff c.graph).mp hgraph
    split at h
    · cases h
    · rename_i hlora
      split at h
      · cases h
      · rename_i hiridium
        exact ⟨⟨Classical.not_not.mp hlora, Classical.not_not.mp hiridium⟩, hinhabited, hclosed⟩
  · rintro ⟨⟨hlora, hiridium⟩, hinhabited, hclosed⟩
    refine bind_eq_ok.mpr ⟨(), (ModeGraph.validate_eq_ok_iff c.graph).mpr ⟨hinhabited, hclosed⟩, ?_⟩
    simp [hlora, hiridium]

theorem Valid.exists_first? {c : Configuration} (h : c.Valid) :
    ∃ mode, ModeGraph.first? c.graph = some mode := ModeGraph.exists_first? h.inhabited

end Configuration

end AcousticNode

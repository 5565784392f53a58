import AcousticNode.Proofs.Configuration.Validity

/-!
# Updates of a configuration

A list of modules sets some parts of a configuration and leaves the others.  Of several modules
for one part the last one counts, so the list is as good as one setting for each part, and to
make the same update again changes nothing.

* `applyAll_eq` : a list of modules as the parts that it sets;
* `withModules_withModules` : an update that was made can be made again, without effect;
* `placed_of_applyAll` : a schedule is only ever put in the place of its transport.
-/

set_option autoImplicit false

namespace AcousticNode

open Outcome

/-- Values for some parts of a configuration. -/
structure Settings where
  network : Option Network
  graph : Option ModeGraph
  lora : Option Reporting
  iridium : Option Reporting

namespace Settings

/-- No part. -/
def empty : Settings := ⟨none, none, none, none⟩

/-- The part that a module sets. -/
def ofModule : Module → Except Fault Settings
  | .network n => .ok { empty with network := some n }
  | .modeGraph g => .ok { empty with graph := some g }
  | .reporting r =>
    match r.transport with
    | .lora => .ok { empty with lora := some r }
    | .iridium => .ok { empty with iridium := some r }
  | other => .error (.payload (.notConfiguration other.code))

/-- The parts that are set first by `s` and then by `t`. -/
def andThen (s t : Settings) : Settings where
  network := t.network.or s.network
  graph := t.graph.or s.graph
  lora := t.lora.or s.lora
  iridium := t.iridium.or s.iridium

/-- The parts that a list of modules sets. -/
def ofModules : List Module → Except Fault Settings
  | [] => .ok empty
  | m :: ms => do
    let s ← ofModule m
    let t ← ofModules ms
    return s.andThen t

end Settings

namespace Configuration

/-- The configuration with some of its parts replaced. -/
def override (c : Configuration) (s : Settings) : Configuration :=
  let n := s.network.getD c.network
  ⟨n.localAddress, n.routes, n.gateway, s.graph.getD c.graph, s.lora.getD c.lora,
    s.iridium.getD c.iridium⟩

theorem override_override (c : Configuration) (s : Settings) :
    (c.override s).override s = c.override s := by
  obtain ⟨network, graph, lora, iridium⟩ := s
  cases network <;> cases graph <;> cases lora <;> cases iridium <;> rfl

theorem override_andThen (c : Configuration) (s t : Settings) :
    c.override (s.andThen t) = (c.override s).override t := by
  obtain ⟨network, graph, lora, iridium⟩ := t
  cases network <;> cases graph <;> cases lora <;> cases iridium <;> rfl

theorem apply_eq (c : Configuration) (m : Module) :
    c.apply m = (Settings.ofModule m).map c.override := by
  cases m
  case reporting r =>
    simp only [apply, Settings.ofModule]
    cases r.transport <;> rfl
  all_goals rfl

theorem applyAll_eq (c : Configuration) (ms : List Module) :
    c.applyAll ms = (Settings.ofModules ms).map c.override := by
  induction ms generalizing c with
  | nil => rfl
  | cons m ms ih =>
    rw [applyAll, apply_eq, Settings.ofModules]
    cases Settings.ofModule m with
    | error e => rfl
    | ok s =>
      have htail : (Except.ok s).map c.override >>= (applyAll · ms) =
          (Settings.ofModules ms).map (c.override s).override := ih (c.override s)
      rw [htail]
      cases Settings.ofModules ms with
      | error e => rfl
      | ok t => exact congrArg Except.ok (c.override_andThen s t).symm

theorem applyAll_applyAll {c updated : Configuration} {ms : List Module}
    (h : c.applyAll ms = .ok updated) : updated.applyAll ms = .ok updated := by
  rw [applyAll_eq] at h ⊢
  obtain ⟨s, hs, rfl⟩ := map_eq_ok.mp h
  rw [hs]
  exact congrArg Except.ok (c.override_override s)

theorem withModules_eq_ok_iff {c updated : Configuration} {ms : List Module} :
    c.withModules ms = .ok updated ↔ c.applyAll ms = .ok updated ∧ updated.check = .ok () := by
  constructor
  · intro h
    obtain ⟨_, happly, h⟩ := bind_eq_ok.mp h
    obtain ⟨_, hcheck, h⟩ := bind_eq_ok.mp h
    cases h
    exact ⟨happly, hcheck⟩
  · rintro ⟨happly, hcheck⟩
    exact bind_eq_ok.mpr ⟨updated, happly, bind_eq_ok.mpr ⟨(), hcheck, rfl⟩⟩

theorem withModules_withModules {c updated : Configuration} {ms : List Module}
    (h : c.withModules ms = .ok updated) : updated.withModules ms = .ok updated := by
  obtain ⟨happly, hcheck⟩ := withModules_eq_ok_iff.mp h
  exact withModules_eq_ok_iff.mpr ⟨applyAll_applyAll happly, hcheck⟩

theorem placed_of_apply {c updated : Configuration} {m : Module} (hc : c.Placed)
    (h : c.apply m = .ok updated) : updated.Placed := by
  cases m
  case network n =>
    cases h
    exact ⟨hc.lora_eq, hc.iridium_eq⟩
  case modeGraph g =>
    cases h
    exact ⟨hc.lora_eq, hc.iridium_eq⟩
  case reporting r =>
    simp only [apply] at h
    split at h
    · rename_i htransport
      cases h
      exact ⟨htransport, hc.iridium_eq⟩
    · rename_i htransport
      cases h
      exact ⟨hc.lora_eq, htransport⟩
  all_goals cases h

theorem placed_of_applyAll {c updated : Configuration} {ms : List Module} (hc : c.Placed)
    (h : c.applyAll ms = .ok updated) : updated.Placed := by
  induction ms generalizing c with
  | nil =>
    cases h
    exact hc
  | cons m ms ih =>
    obtain ⟨c', hc', h⟩ := bind_eq_ok.mp h
    exact ih (placed_of_apply hc hc') h

end Configuration

end AcousticNode

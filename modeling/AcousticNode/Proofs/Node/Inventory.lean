import Mathlib.Data.List.Forall2
import Mathlib.Data.List.Nodup
import Mathlib.Data.List.Perm.Subperm
import AcousticNode.Node.Routine
import AcousticNode.Proofs.HydrophoneCache
import AcousticNode.Proofs.Table

/-!
# What a node can tell

The modules that stand for a code, given what a node measures, how it is configured, which mode it
is in and what it knows of the hydrophone.

* `report_eq_ok_iff`, `reportAll_eq_ok_iff` : a node tells the modules that stand for the codes;
* `exists_tellsAll_iff` : it can do so if and only if it knows the aspects that they are made of.
-/

set_option autoImplicit false

namespace AcousticNode

open Outcome

/-! ## The list of modes -/

theorem ModeGraph.length_keys_le (g : ModeGraph) : g.keys.length ≤ 256 := by
  have hnodup : (g.keys.map UInt8.toNat).Nodup :=
    List.Nodup.map (fun _ _ h => UInt8.toNat_inj.mp h) g.nodup_keys
  have hsub : g.keys.map UInt8.toNat ⊆ List.range 256 := by
    intro n hn
    obtain ⟨mode, _, rfl⟩ := List.mem_map.mp hn
    exact List.mem_range.mpr mode.toNat_lt
  have hlen := (List.subperm_of_subset hnodup hsub).length_le
  rwa [List.length_map, List.length_range] at hlen

/-- The place of a mode in a list, or the first place. -/
theorem exists_place_of_mode {modes : List Mode} {first : Mode} (hfirst : modes.head? = some first)
    (mode : Mode) : ∃ h : (modes.idxOf? mode).getD 0 < modes.length,
      modes[(modes.idxOf? mode).getD 0] = if mode ∈ modes then mode else first := by
  cases hplace : modes.idxOf? mode with
  | none =>
    have hnot : mode ∉ modes := List.idxOf?_eq_none_iff.mp hplace
    cases modes with
    | nil => cases hfirst
    | cons m ms =>
      cases hfirst
      exact ⟨Nat.zero_lt_succ _, by simp [hnot]⟩
  | some i =>
    obtain ⟨hi, hget, _⟩ := List.idxOf?_eq_some_iff.mp hplace
    have hmem : mode ∈ modes := hget ▸ List.getElem_mem hi
    exact ⟨hi, by simp [hget, hmem]⟩

theorem ModeList.make_eq_ok_iff {modes : List Mode} {index : UInt8} {l : ModeList} :
    make modes index = .ok l ↔ l.modes = modes ∧ l.activeIndex = index := by
  obtain ⟨modes', index', hlt⟩ := l
  unfold make
  split
  · simp [eq_comm]
  · rename_i hnot
    refine iff_of_false nofun ?_
    rintro ⟨rfl, rfl⟩
    exact hnot hlt

/-- The index of a mode in the list of a graph's modes fits an octet. -/
theorem ModeGraph.makeModeList_eq_ok_iff {g : ModeGraph} {first : Mode}
    (hfirst : first? g = some first) (mode : Mode) {l : ModeList} :
    ModeList.make g.keys (UInt8.ofNat ((g.keys.idxOf? mode).getD 0)) = .ok l ↔
      l.modes = g.keys ∧ l.active = if g.contains mode then mode else first := by
  obtain ⟨hplace, hget⟩ := exists_place_of_mode hfirst mode
  simp only [← g.contains_iff_mem_keys] at hget
  generalize (g.keys.idxOf? mode).getD 0 = place at hplace hget
  have hoctet : (UInt8.ofNat place).toNat = place := by
    have hlen := g.length_keys_le
    rw [UInt8.toNat_ofNat']
    omega
  rw [ModeList.make_eq_ok_iff]
  refine and_congr_right fun hmodes => ?_
  obtain ⟨modes, index, hlt⟩ := l
  obtain rfl : modes = g.keys := hmodes
  -- no mode is listed twice, so the active one says which place is meant
  have hactive : ModeList.active ⟨g.keys, index, hlt⟩ = g.keys[index.toNat] := rfl
  rw [hactive, ← hget, List.Nodup.getElem_inj_iff g.nodup_keys]
  constructor
  · rintro rfl
    exact hoctet
  · intro heq
    exact UInt8.toNat_inj.mp (heq.trans hoctet.symm)

theorem ModeGraph.exists_makeModeList {g : ModeGraph} {first : Mode} (h : first? g = some first)
    (mode : Mode) :
    ∃ l, ModeList.make g.keys (UInt8.ofNat ((g.keys.idxOf? mode).getD 0)) = .ok l := by
  obtain ⟨hplace, _⟩ := exists_place_of_mode h mode
  have hlt := Nat.lt_of_le_of_lt (Nat.mod_le _ 256) hplace
  exact ⟨⟨g.keys, UInt8.ofNat _, hlt⟩, ModeList.make_eq_ok_iff.mpr ⟨rfl, rfl⟩⟩

/-! ## Codes and their modules -/

/-- The aspects of the hydrophone that the modules of a code are made of. -/
def ModuleCode.aspects : ModuleCode → List Aspect
  | acoustics => [.status, .logging, .streaming, .stats]
  | hydrophone => [.status, .logging, .streaming, .stats]
  | hydrophoneStatus => [.status]
  | hydrophoneLogging => [.logging]
  | hydrophoneStreaming => [.streaming]
  | hydrophoneStats => [.stats]
  | battery => []
  | location => []
  | network => []
  | modeList => []
  | modeGraph => []
  | reporting => []
  | clock => []
  | storage => []
  | ambient => []

namespace Context

/-- The modules that stand for a code.  A node without sensors for storage and surroundings tells
zeros; a node in a mode that its graph does not know tells the mode that it will start again in. -/
inductive Tells (ctx : Context) (c : Configuration) (cache : HydrophoneUpdate) :
    ModuleCode → List Module → Prop where
  | battery : Tells ctx c cache .battery [.battery ctx.peripherals.battery]
  | location : Tells ctx c cache .location [.location ctx.peripherals.location]
  | clock : Tells ctx c cache .clock [.clock ctx.peripherals.clock]
  | network : Tells ctx c cache .network [.network ⟨c.localAddress, c.routes, c.gateway⟩]
  | modeGraph : Tells ctx c cache .modeGraph [.modeGraph c.graph]
  | modeList {list : ModeList} {lowest : Mode} (modes_eq : list.modes = c.graph.keys)
      (lowest_eq : c.graph.keys.head? = some lowest)
      (active_eq : list.active =
        if c.graph.contains ctx.activeMode then ctx.activeMode else lowest) :
      Tells ctx c cache .modeList [.modeList list]
  | reporting : Tells ctx c cache .reporting [.reporting c.lora, .reporting c.iridium]
  | storage : Tells ctx c cache .storage [.storage ⟨0, 0⟩]
  | ambient : Tells ctx c cache .ambient [.ambient ⟨0, 0⟩]
  | acoustics {h : Hydrophone} (known : cache = h.update) :
      Tells ctx c cache .acoustics [.acoustics h.write]
  | hydrophone {h : Hydrophone} (known : cache = h.update) :
      Tells ctx c cache .hydrophone [.hydrophone h]
  | status {s : HydrophoneStatus} (known : cache.status = some s) :
      Tells ctx c cache .hydrophoneStatus [.hydrophoneStatus s]
  | logging {l : HydrophoneLogging} (known : cache.logging = some l) :
      Tells ctx c cache .hydrophoneLogging [.hydrophoneLogging l]
  | streaming {s : HydrophoneStreaming} (known : cache.streaming = some s) :
      Tells ctx c cache .hydrophoneStreaming [.hydrophoneStreaming s]
  | stats {s : HydrophoneStats} (known : cache.stats = some s) :
      Tells ctx c cache .hydrophoneStats [.hydrophoneStats s]

/-- The modules that stand for the codes of a list, in the order of the list. -/
def TellsAll (ctx : Context) (c : Configuration) (cache : HydrophoneUpdate)
    (codes : List ModuleCode) (ms : List Module) : Prop :=
  ∃ parts, List.Forall₂ (ctx.Tells c cache) codes parts ∧ parts.flatten = ms

variable {ctx : Context} {c : Configuration} {cache : HydrophoneUpdate}

theorem report_modeList_eq_ok_iff {ms : List Module} :
    ctx.report c cache .modeList = .ok ms ↔ ctx.Tells c cache .modeList ms := by
  rw [report, bind_eq_ok]
  constructor
  · rintro ⟨l, hl, h⟩
    cases h
    cases hfirst : ModeGraph.first? c.graph with
    | none =>
      -- without modes there is no place for the active one
      have hkeys : c.graph.keys = [] := List.head?_eq_none_iff.mp hfirst
      have hlt := l.active_lt
      rw [(ModeList.make_eq_ok_iff.mp hl).1, hkeys] at hlt
      exact absurd hlt (Nat.not_lt_zero _)
    | some lowest =>
      obtain ⟨hmodes, hactive⟩ := (ModeGraph.makeModeList_eq_ok_iff hfirst _).mp hl
      exact .modeList hmodes hfirst hactive
  · rintro ⟨⟩
    rename_i l lowest hmodes hfirst hactive
    exact ⟨l, (ModeGraph.makeModeList_eq_ok_iff hfirst _).mpr ⟨hmodes, hactive⟩, rfl⟩

theorem report_eq_ok_iff {code : ModuleCode} {ms : List Module} :
    ctx.report c cache code = .ok ms ↔ ctx.Tells c cache code ms := by
  cases code
  case modeList => exact report_modeList_eq_ok_iff
  all_goals rw [report]
  case battery => exact ⟨fun h => by cases h; exact .battery, fun h => by cases h; rfl⟩
  case location => exact ⟨fun h => by cases h; exact .location, fun h => by cases h; rfl⟩
  case clock => exact ⟨fun h => by cases h; exact .clock, fun h => by cases h; rfl⟩
  case network => exact ⟨fun h => by cases h; exact .network, fun h => by cases h; rfl⟩
  case modeGraph => exact ⟨fun h => by cases h; exact .modeGraph, fun h => by cases h; rfl⟩
  case reporting => exact ⟨fun h => by cases h; exact .reporting, fun h => by cases h; rfl⟩
  case storage => exact ⟨fun h => by cases h; exact .storage, fun h => by cases h; rfl⟩
  case ambient => exact ⟨fun h => by cases h; exact .ambient, fun h => by cases h; rfl⟩
  all_goals
    simp only [bind_eq_ok, HydrophoneUpdate.need_eq_ok_iff, HydrophoneUpdate.complete_eq_ok_iff]
    constructor
    · rintro ⟨_, hknown, h⟩
      cases h
      constructor
      exact hknown
    · rintro ⟨⟩
      rename_i hknown
      exact ⟨_, hknown, rfl⟩

theorem reportAll_eq_ok_iff {codes : List ModuleCode} {ms : List Module} :
    ctx.reportAll c cache codes = .ok ms ↔ ctx.TellsAll c cache codes ms := by
  induction codes generalizing ms with
  | nil =>
    constructor
    · intro h
      cases h
      exact ⟨[], .nil, rfl⟩
    · rintro ⟨_, ⟨⟩, rfl⟩
      rfl
  | cons code codes ih =>
    simp only [reportAll, bind_eq_ok, report_eq_ok_iff, ih]
    constructor
    · rintro ⟨first, hfirst, _, ⟨parts, hparts, rfl⟩, h⟩
      cases h
      exact ⟨first :: parts, .cons hfirst hparts, rfl⟩
    · rintro ⟨_, hall, rfl⟩
      cases hall with
      | cons hfirst hparts => exact ⟨_, hfirst, _, ⟨_, hparts, rfl⟩, rfl⟩

/-! ## What has to be known -/

theorem exists_tells_modeList {lowest : Mode} (h : ModeGraph.first? c.graph = some lowest) :
    ∃ ms, ctx.Tells c cache .modeList ms := by
  obtain ⟨list, hmake⟩ := ModeGraph.exists_makeModeList h ctx.activeMode
  obtain ⟨hmodes, hactive⟩ := (ModeGraph.makeModeList_eq_ok_iff h _).mp hmake
  exact ⟨_, .modeList hmodes h hactive⟩

variable (ctx) in
/-- Nothing but the hydrophone may be unknown to a node that has a mode. -/
theorem exists_tells_iff {lowest : Mode} (h : ModeGraph.first? c.graph = some lowest)
    (code : ModuleCode) :
    (∃ ms, ctx.Tells c cache code ms) ↔ ∀ a ∈ code.aspects, cache.holds a = true := by
  have hwhole : (∃ h : Hydrophone, cache = h.update) ↔
      ∀ a ∈ [Aspect.status, .logging, .streaming, .stats], cache.holds a = true := by
    refine HydrophoneUpdate.exists_update_iff.trans ⟨fun hall a _ => hall a, fun hall a => ?_⟩
    cases a <;> exact hall _ (by decide)
  cases code
  case modeList => exact iff_of_true (exists_tells_modeList h) (List.forall_mem_nil _)
  case battery => exact iff_of_true ⟨_, .battery⟩ (List.forall_mem_nil _)
  case location => exact iff_of_true ⟨_, .location⟩ (List.forall_mem_nil _)
  case clock => exact iff_of_true ⟨_, .clock⟩ (List.forall_mem_nil _)
  case network => exact iff_of_true ⟨_, .network⟩ (List.forall_mem_nil _)
  case modeGraph => exact iff_of_true ⟨_, .modeGraph⟩ (List.forall_mem_nil _)
  case reporting => exact iff_of_true ⟨_, .reporting⟩ (List.forall_mem_nil _)
  case storage => exact iff_of_true ⟨_, .storage⟩ (List.forall_mem_nil _)
  case ambient => exact iff_of_true ⟨_, .ambient⟩ (List.forall_mem_nil _)
  case acoustics =>
    refine .trans ?_ hwhole
    constructor
    · rintro ⟨_, ⟨⟩⟩
      rename_i hknown
      exact ⟨_, hknown⟩
    · rintro ⟨_, hknown⟩
      exact ⟨_, .acoustics hknown⟩
  case hydrophone =>
    refine .trans ?_ hwhole
    constructor
    · rintro ⟨_, ⟨⟩⟩
      rename_i hknown
      exact ⟨_, hknown⟩
    · rintro ⟨_, hknown⟩
      exact ⟨_, .hydrophone hknown⟩
  all_goals
    simp only [ModuleCode.aspects, List.mem_singleton, forall_eq, HydrophoneUpdate.holds,
      Option.isSome_iff_exists]
    constructor
    · rintro ⟨_, ⟨⟩⟩
      rename_i hknown
      exact ⟨_, hknown⟩
    · rintro ⟨_, hknown⟩
      exact ⟨_, by constructor; exact hknown⟩

theorem exists_tellsAll_iff {lowest : Mode} (h : ModeGraph.first? c.graph = some lowest)
    (codes : List ModuleCode) :
    (∃ ms, ctx.TellsAll c cache codes ms) ↔
      ∀ code ∈ codes, ∀ a ∈ code.aspects, cache.holds a = true := by
  simp only [← exists_tells_iff ctx h]
  constructor
  · rintro ⟨_, parts, hparts, rfl⟩
    induction hparts with
    | nil => nofun
    | cons hfirst _ ih => exact List.forall_mem_cons.mpr ⟨⟨_, hfirst⟩, ih⟩
  · intro hall
    induction codes with
    | nil => exact ⟨_, [], .nil, rfl⟩
    | cons code codes ih =>
      obtain ⟨⟨first, hfirst⟩, hrest⟩ := List.forall_mem_cons.mp hall
      obtain ⟨_, parts, hparts, _⟩ := ih hrest
      exact ⟨_, first :: parts, .cons hfirst hparts, rfl⟩

end Context

end AcousticNode

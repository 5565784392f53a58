import AcousticNode.HydrophoneCache
import AcousticNode.Proofs.Outcome

/-!
# What is taken out of the cache

The cache gives all four aspects, or those that a mask selects, if it has them, and fails
otherwise.

* `complete_eq_ok_iff`, `exists_update_iff` : the four aspects together;
* `select_eq_ok_iff` : the aspects that a mask selects, of which only the low four bits matter.
-/

set_option autoImplicit false

namespace AcousticNode

open Outcome

theorem Aspect.forall_iff {P : Aspect → Prop} :
    (∀ a, P a) ↔ P .status ∧ P .logging ∧ P .streaming ∧ P .stats := by
  constructor
  · intro h
    exact ⟨h .status, h .logging, h .streaming, h .stats⟩
  · rintro ⟨hstatus, hlogging, hstreaming, hstats⟩ a
    cases a <;> assumption

/-- The high half of a mask selects nothing. -/
theorem AspectMask.selects_low (m : AspectMask) (a : Aspect) : m.low.selects a = m.selects a := by
  have hbit : (0x0f : UInt8) &&& bit a = bit a := by cases a <;> decide
  simp only [selects, low, UInt8.and_assoc, hbit]

/-- Every aspect of a hydrophone. -/
def Hydrophone.update (h : Hydrophone) : HydrophoneUpdate :=
  ⟨some h.status, some h.logging, some h.streaming, some h.stats⟩

namespace HydrophoneUpdate

/-- Whether an aspect is there. -/
def holds (u : HydrophoneUpdate) : Aspect → Bool
  | .status => u.status.isSome
  | .logging => u.logging.isSome
  | .streaming => u.streaming.isSome
  | .stats => u.stats.isSome

/-- The aspects that a mask selects. -/
def only (u : HydrophoneUpdate) (m : AspectMask) : HydrophoneUpdate where
  status := if m.selects .status then u.status else none
  logging := if m.selects .logging then u.logging else none
  streaming := if m.selects .streaming then u.streaming else none
  stats := if m.selects .stats then u.stats else none

theorem only_low (u : HydrophoneUpdate) (m : AspectMask) : u.only m.low = u.only m := by
  simp only [only, AspectMask.selects_low]

theorem need_eq_ok_iff {α : Type} {aspect : Aspect} {held : Option α} {a : α} :
    need aspect held = .ok a ↔ held = some a := by
  cases held <;> simp [need]

theorem demand_eq_ok_iff {α : Type} {asked : Bool} {aspect : Aspect} {held taken : Option α} :
    demand asked aspect held = .ok taken ↔
      (asked = true → held.isSome = true) ∧ taken = if asked then held else none := by
  cases asked <;> cases held <;> simp [demand, eq_comm]

theorem complete_eq_ok_iff {cache : HydrophoneUpdate} {h : Hydrophone} :
    cache.complete = .ok h ↔ cache = h.update := by
  obtain ⟨status, logging, streaming, stats⟩ := cache
  obtain ⟨status', logging', streaming', stats'⟩ := h
  simp only [complete, bind_eq_ok, need_eq_ok_iff, Hydrophone.update, mk.injEq]
  constructor
  · rintro ⟨_, hstatus, _, hlogging, _, hstreaming, _, hstats, h⟩
    cases h
    exact ⟨hstatus, hlogging, hstreaming, hstats⟩
  · rintro ⟨hstatus, hlogging, hstreaming, hstats⟩
    exact ⟨_, hstatus, _, hlogging, _, hstreaming, _, hstats, rfl⟩

theorem exists_update_iff {cache : HydrophoneUpdate} :
    (∃ h : Hydrophone, cache = h.update) ↔ ∀ a, cache.holds a = true := by
  obtain ⟨status, logging, streaming, stats⟩ := cache
  simp only [Aspect.forall_iff, holds, Option.isSome_iff_exists]
  constructor
  · rintro ⟨h, heq⟩
    cases heq
    exact ⟨⟨_, rfl⟩, ⟨_, rfl⟩, ⟨_, rfl⟩, ⟨_, rfl⟩⟩
  · rintro ⟨⟨s, rfl⟩, ⟨l, rfl⟩, ⟨t, rfl⟩, ⟨r, rfl⟩⟩
    exact ⟨⟨s, l, t, r⟩, rfl⟩

theorem select_eq_ok_iff {cache u : HydrophoneUpdate} {m : AspectMask} :
    cache.select m = .ok u ↔
      (∀ a, m.selects a = true → cache.holds a = true) ∧ u = cache.only m := by
  simp only [select, bind_eq_ok, demand_eq_ok_iff, Aspect.forall_iff, holds]
  constructor
  · rintro ⟨_, ⟨hstatus, rfl⟩, _, ⟨hlogging, rfl⟩, _, ⟨hstreaming, rfl⟩, _, ⟨hstats, rfl⟩, h⟩
    cases h
    exact ⟨⟨hstatus, hlogging, hstreaming, hstats⟩, rfl⟩
  · rintro ⟨⟨hstatus, hlogging, hstreaming, hstats⟩, rfl⟩
    exact ⟨_, ⟨hstatus, rfl⟩, _, ⟨hlogging, rfl⟩, _, ⟨hstreaming, rfl⟩, _, ⟨hstats, rfl⟩, rfl⟩

end HydrophoneUpdate

end AcousticNode

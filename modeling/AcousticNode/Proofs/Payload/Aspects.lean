import AcousticNode.Payload.Basic
import AcousticNode.Proofs.Module.Encoding
import AcousticNode.Proofs.Module.Inverse

/-!
# Aspects in any order

The aspects of the hydrophone are read in any order, each at most once, and written in one
order.  What a list of modules makes of an update is therefore a matter of which modules are in
it: an update is read from a list if and only if the list is a permutation of its own modules.

* `placeAll_eq_ok_iff` : the same when some aspects are there before;
* `HydrophoneUpdate.decode_eq_ok_iff` : an update is decoded from the records of its aspects in
  any order, and from nothing else;
* `HydrophoneUpdate.size_of_decode` : the order does not change the length.
-/

set_option autoImplicit false

namespace AcousticNode

open Outcome

/-- The code of an aspect's record. -/
def Aspect.code : Aspect → ModuleCode
  | status => .hydrophoneStatus
  | logging => .hydrophoneLogging
  | streaming => .hydrophoneStreaming
  | stats => .hydrophoneStats

theorem length_framesOf (ms : List Module) :
    (framesOf ms).length = ms.foldr (fun m n => m.size + n) 0 :=
  Module.length_flatMap_frame ms

namespace HydrophoneUpdate

theorem mem_modules_status {u : HydrophoneUpdate} {s : HydrophoneStatus} :
    Module.hydrophoneStatus s ∈ u.modules ↔ u.status = some s := by
  simp [modules]

theorem mem_modules_logging {u : HydrophoneUpdate} {c : HydrophoneLogging} :
    Module.hydrophoneLogging c ∈ u.modules ↔ u.logging = some c := by
  simp [modules]

theorem mem_modules_streaming {u : HydrophoneUpdate} {c : HydrophoneStreaming} :
    Module.hydrophoneStreaming c ∈ u.modules ↔ u.streaming = some c := by
  simp [modules]

theorem mem_modules_stats {u : HydrophoneUpdate} {s : HydrophoneStats} :
    Module.hydrophoneStats s ∈ u.modules ↔ u.stats = some s := by
  simp [modules]

/-- The modules of an update say what the update is, in whatever order they come. -/
theorem eq_of_modules_perm {u v : HydrophoneUpdate} (h : u.modules.Perm v.modules) : u = v := by
  have hstatus : u.status = v.status := Option.ext fun s => by
    rw [← mem_modules_status, ← mem_modules_status, h.mem_iff]
  have hlogging : u.logging = v.logging := Option.ext fun c => by
    rw [← mem_modules_logging, ← mem_modules_logging, h.mem_iff]
  have hstreaming : u.streaming = v.streaming := Option.ext fun c => by
    rw [← mem_modules_streaming, ← mem_modules_streaming, h.mem_iff]
  have hstats : u.stats = v.stats := Option.ext fun s => by
    rw [← mem_modules_stats, ← mem_modules_stats, h.mem_iff]
  cases u
  cases v
  simp_all

/-! ## Taking in one aspect -/

theorem isAspect_of_mem {u : HydrophoneUpdate} {m : Module} (h : m ∈ u.modules) :
    ∃ a : Aspect, m.code = a.code := by
  simp only [modules, List.mem_append, Option.mem_toList, Option.map_eq_some_iff] at h
  rcases h with ((⟨s, _, rfl⟩ | ⟨c, _, rfl⟩) | ⟨c, _, rfl⟩) | ⟨s, _, rfl⟩
  · exact ⟨.status, rfl⟩
  · exact ⟨.logging, rfl⟩
  · exact ⟨.streaming, rfl⟩
  · exact ⟨.stats, rfl⟩

/-- No aspect is there twice. -/
theorem nodup_codes (u : HydrophoneUpdate) : (u.modules.map Module.code).Nodup := by
  obtain ⟨status, logging, streaming, stats⟩ := u
  cases status <;> cases logging <;> cases streaming <;> cases stats <;>
    simp [modules, Module.code]

theorem perm_of_place {v v' : HydrophoneUpdate} {m : Module} (h : v.place m = .ok v') :
    v'.modules.Perm (m :: v.modules) := by
  obtain ⟨status, logging, streaming, stats⟩ := v
  cases m <;> simp only [place] at h
  case hydrophoneStatus s =>
    split at h
    · cases h
    · rename_i hnone
      obtain rfl : status = none := by simpa using hnone
      cases h
      simp [modules]
  case hydrophoneLogging c =>
    split at h
    · cases h
    · rename_i hnone
      obtain rfl : logging = none := by simpa using hnone
      cases h
      simp [modules]
  case hydrophoneStreaming c =>
    split at h
    · cases h
    · rename_i hnone
      obtain rfl : streaming = none := by simpa using hnone
      cases h
      simp only [modules, Option.map_none, Option.toList_none, List.append_nil, List.append_assoc]
      simp only [← List.append_assoc]
      exact (List.perm_append_singleton _ _).append_right _
  case hydrophoneStats s =>
    split at h
    · cases h
    · rename_i hnone
      obtain rfl : stats = none := by simpa using hnone
      cases h
      simp only [modules, Option.map_none, Option.toList_none, List.append_nil]
      exact List.perm_append_singleton _ _
  all_goals cases h

theorem exists_place {v : HydrophoneUpdate} {m : Module} (haspect : ∃ a : Aspect, m.code = a.code)
    (hfresh : m.code ∉ v.modules.map Module.code) : ∃ v', v.place m = .ok v' := by
  obtain ⟨a, ha⟩ := haspect
  obtain ⟨status, logging, streaming, stats⟩ := v
  cases m <;> cases a <;> cases ha
  case hydrophoneStatus s =>
    cases status with
    | none => exact ⟨_, rfl⟩
    | some s' => simp [modules, Module.code] at hfresh
  case hydrophoneLogging c =>
    cases logging with
    | none => exact ⟨_, rfl⟩
    | some c' => simp [modules, Module.code] at hfresh
  case hydrophoneStreaming c =>
    cases streaming with
    | none => exact ⟨_, rfl⟩
    | some c' => simp [modules, Module.code] at hfresh
  case hydrophoneStats s =>
    cases stats with
    | none => exact ⟨_, rfl⟩
    | some s' => simp [modules, Module.code] at hfresh

/-- An aspect that is to be taken in first is not there yet, if in the end none is there twice. -/
theorem fresh_of_nodup {ms : List Module} {v : HydrophoneUpdate} {m : Module}
    (h : ((m :: ms ++ v.modules).map Module.code).Nodup) :
    m.code ∉ v.modules.map Module.code := by
  simp only [List.cons_append, List.map_cons, List.nodup_cons, List.map_append] at h
  exact fun hin => h.1 (List.mem_append_right _ hin)

/-! ## Taking in all of them -/

/-- A module may be moved behind the others, where the first step has put it. -/
theorem perm_append_of_place {v v' : HydrophoneUpdate} {m : Module} (h : v.place m = .ok v')
    (ms : List Module) : (ms ++ v'.modules).Perm (m :: ms ++ v.modules) :=
  ((perm_of_place h).append_left ms).trans List.perm_middle

theorem placeAll_eq_ok_iff {ms : List Module} {v u : HydrophoneUpdate} :
    v.placeAll ms = .ok u ↔ u.modules.Perm (ms ++ v.modules) := by
  induction ms generalizing v with
  | nil =>
    constructor
    · intro h
      cases h
      exact .refl _
    · intro h
      rw [eq_of_modules_perm h]
      rfl
  | cons m ms ih =>
    rw [placeAll, bind_eq_ok]
    constructor
    · rintro ⟨v', hv', h⟩
      exact (ih.mp h).trans (perm_append_of_place hv' ms)
    · intro h
      have hmem : m ∈ u.modules := h.mem_iff.mpr (by simp)
      have hnodup := (h.map Module.code).nodup_iff.mp u.nodup_codes
      obtain ⟨v', hv'⟩ := exists_place (isAspect_of_mem hmem) (fresh_of_nodup hnodup)
      exact ⟨v', hv', ih.mpr (h.trans (perm_append_of_place hv' ms).symm)⟩

theorem ofModules_eq_ok_iff {ms : List Module} {u : HydrophoneUpdate} :
    ofModules ms = .ok u ↔ u.modules.Perm ms := by
  rw [ofModules, placeAll_eq_ok_iff, show empty.modules = [] from rfl, List.append_nil]

/-! ## Their records -/

theorem fixedLength_of_isAspect {m : Module} (h : ∃ a : Aspect, m.code = a.code) :
    m.code.fixedLength?.isSome ∧ m.code.isRigid := by
  obtain ⟨a, ha⟩ := h
  rw [ha]
  cases a <;> exact ⟨rfl, rfl⟩

theorem decode_eq_ok_iff {data : Bytes} {u : HydrophoneUpdate} :
    decode data = .ok u ↔ ∃ ms, u.modules.Perm ms ∧ ms.flatMap Module.frame = data := by
  have hrecords : ∀ ms, u.modules.Perm ms →
      (Module.decodeAll data = .ok ms ↔ ms.flatMap Module.frame = data) := fun ms hperm =>
    Module.decodeAll_eq_ok_iff_of_fixed fun m hm =>
      fixedLength_of_isAspect (isAspect_of_mem (hperm.mem_iff.mpr hm))
  rw [decode, bind_eq_ok]
  constructor
  · rintro ⟨ms, hms, h⟩
    have hperm := ofModules_eq_ok_iff.mp h
    exact ⟨ms, hperm, (hrecords ms hperm).mp hms⟩
  · rintro ⟨ms, hperm, h⟩
    exact ⟨ms, (hrecords ms hperm).mpr h, ofModules_eq_ok_iff.mpr hperm⟩

theorem decode_encode (u : HydrophoneUpdate) : decode u.encode = .ok u :=
  decode_eq_ok_iff.mpr ⟨u.modules, .refl _, rfl⟩

theorem length_encode (u : HydrophoneUpdate) : u.encode.length = u.size :=
  length_framesOf u.modules

theorem size_of_decode {data : Bytes} {u : HydrophoneUpdate} (h : decode data = .ok u) :
    u.size = data.length := by
  obtain ⟨ms, hperm, rfl⟩ := decode_eq_ok_iff.mp h
  rw [← length_encode, encode, framesOf]
  exact (hperm.flatMap_right Module.frame).length_eq

end HydrophoneUpdate

end AcousticNode

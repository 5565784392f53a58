import AcousticNode.Proofs.Module.RoundTrip
import Mathlib.Data.List.Forall2

/-!
# What decoding a record accepts

A module carries the code that its value was decoded under.  A value of a code that sorts
nothing is written back as it was; only the values that hold tables may list them in another
order than they are written.

* `code_of_decode`, `value_of_decode` : what a decoded module says about the record;
* `decodeAll_eq_ok_iff` : a byte string decodes to modules if and only if it is cut into records
  that decode to them, one by one;
* `records_of_decodeAll` : modules that sort nothing are only decoded from their own records;
* `decodeAll_eq_ok_iff_of_fixed` : and from these they are decoded, if their length is fixed.
-/

set_option autoImplicit false

namespace AcousticNode

open Outcome

/-- Whether the values under a code have one spelling each.  Tables are read in any order. -/
def ModuleCode.isRigid : ModuleCode → Bool
  | network => false
  | modeGraph => false
  | reporting => false
  | _ => true

theorem ModeList.write_of_read {value : Bytes} {m : ModeList} (h : ModeList.read value = .ok m) :
    m.write = value := by
  unfold ModeList.read at h
  split at h
  · cases h
  · rename_i index hlast
    unfold ModeList.make at h
    split at h
    · cases h
      exact List.dropLast_append_getLast? index hlast
    · cases h

namespace Module

theorem code_of_decode {code : ModuleCode} {value : Bytes} {m : Module}
    (h : decode code value = .ok m) : m.code = code := by
  cases code <;> rw [decode] at h
  case acoustics =>
    cases h
    rfl
  case hydrophone =>
    split at h
    · cases h
      rfl
    · cases h
    · cases h
  all_goals
    obtain ⟨a, _, rfl⟩ := map_eq_ok.mp h
    rfl

/-- The hydrophone apart, whose value holds records itself. -/
theorem value_of_decode_of_ne {code : ModuleCode} {value : Bytes} {m : Module}
    (h : decode code value = .ok m) (hrigid : code.isRigid) (hne : code ≠ .hydrophone) :
    m.value = value := by
  cases code <;> rw [decode] at h
  case hydrophone => exact absurd rfl hne
  case network => cases hrigid
  case modeGraph => cases hrigid
  case reporting => cases hrigid
  case acoustics =>
    cases h
    rfl
  case modeList =>
    obtain ⟨l, hl, rfl⟩ := map_eq_ok.mp h
    exact ModeList.write_of_read hl
  all_goals
    obtain ⟨a, ha, rfl⟩ := map_eq_ok.mp h
    exact Layout.write_of_readValue _ ha

/-! ## Lists of records -/

/-- A record and the module that it decodes to. -/
def Decodes (r : Record) (m : Module) : Prop := decode r.code r.value = .ok m

theorem decodeAll_encode_append (r : Record) (rest : Bytes) :
    decodeAll (r.encode ++ rest) = (do
      let m ← decode r.code r.value
      let ms ← decodeAll rest
      return m :: ms) :=
  decodeAll_of_take (Record.take_encode_append r rest)

theorem decodeAll_flatMap_encode {rs : List Record} {ms : List Module}
    (h : List.Forall₂ Decodes rs ms) : decodeAll (rs.flatMap Record.encode) = .ok ms := by
  induction h with
  | nil => exact decodeAll_nil
  | @cons r m rs ms hm _ ih =>
    rw [List.flatMap_cons, decodeAll_encode_append, ih, hm]
    rfl

/-- Each step takes a record, so the induction is on the length of what is left. -/
theorem exists_records_of_decodeAll : ∀ (n : Nat) (bs : Bytes) (ms : List Module),
    bs.length ≤ n → decodeAll bs = .ok ms →
      ∃ rs : List Record, bs = rs.flatMap Record.encode ∧ List.Forall₂ Decodes rs ms
  | n, [], ms, _, h => by
    rw [decodeAll_nil] at h
    cases h
    exact ⟨[], rfl, .nil⟩
  | 0, _ :: _, _, hlen, _ => by simp at hlen
  | n + 1, b :: bs, ms, hlen, h => by
    rcases htake : Record.take (b :: bs) with ⟨e | r, rest⟩
    · rw [decodeAll_of_take_error (by simp) htake] at h
      cases h
    · rw [decodeAll_of_take htake] at h
      obtain ⟨m, hm, h⟩ := bind_eq_ok.mp h
      obtain ⟨ms', hms, h⟩ := bind_eq_ok.mp h
      cases h
      have hshort := Record.length_of_take htake
      simp only [Record.size, Limits.recordHeaderSize] at hshort
      obtain ⟨rs, hrs, hall⟩ := exists_records_of_decodeAll n rest ms' (by omega) hms
      refine ⟨r :: rs, ?_, .cons hm hall⟩
      rw [Record.eq_encode_append_of_take htake, hrs]
      rfl

theorem decodeAll_eq_ok_iff {bs : Bytes} {ms : List Module} :
    decodeAll bs = .ok ms ↔
      ∃ rs : List Record, bs = rs.flatMap Record.encode ∧ List.Forall₂ Decodes rs ms := by
  constructor
  · exact exists_records_of_decodeAll bs.length bs ms (Nat.le_refl _)
  · rintro ⟨rs, rfl, hall⟩
    exact decodeAll_flatMap_encode hall

/-- A record that sorts nothing is the record of its module. -/
theorem frame_of_decodes {r : Record} {m : Module} (h : Decodes r m) (hvalue : m.value = r.value) :
    m.frame = r.encode := by
  rw [frame, hvalue, code_of_decode h, Record.encode]

theorem flatMap_frame_of_forall₂ {rs : List Record} {ms : List Module}
    (h : List.Forall₂ Decodes rs ms)
    (hvalue : ∀ r m, Decodes r m → m ∈ ms → m.value = r.value) :
    ms.flatMap frame = rs.flatMap Record.encode := by
  induction h with
  | nil => rfl
  | @cons r m rs ms hm _ ih =>
    have hhead := frame_of_decodes hm (hvalue r m hm List.mem_cons_self)
    have htail := ih fun r' m' hd hmem => hvalue r' m' hd (List.mem_cons_of_mem _ hmem)
    rw [List.flatMap_cons, List.flatMap_cons, hhead, htail]

end Module

theorem Hydrophone.write_of_decodeAll {h : Hydrophone} {value : Bytes}
    (hdecode : Module.decodeAll value = .ok h.modules) : h.write = value := by
  obtain ⟨rs, rfl, hall⟩ := Module.decodeAll_eq_ok_iff.mp hdecode
  rw [h.write_eq_flatMap]
  refine Module.flatMap_frame_of_forall₂ hall fun r m hm hmem => ?_
  have hcode := Module.code_of_decode hm
  simp only [modules, List.mem_cons, List.not_mem_nil, or_false] at hmem
  have hne : r.1 ≠ .hydrophone := by
    rw [← hcode]
    rcases hmem with rfl | rfl | rfl | rfl <;> exact ModuleCode.noConfusion
  rcases hmem with rfl | rfl | rfl | rfl <;>
    exact Module.value_of_decode_of_ne hm (hcode ▸ rfl) hne

namespace Module

theorem value_of_decode {code : ModuleCode} {value : Bytes} {m : Module}
    (h : decode code value = .ok m) (hrigid : code.isRigid) : m.value = value := by
  by_cases hne : code = .hydrophone
  · subst hne
    rw [decode] at h
    split at h
    · rename_i status logging streaming stats hall
      cases h
      exact Hydrophone.write_of_decodeAll hall
    · cases h
    · cases h
  · exact value_of_decode_of_ne h hrigid hne

theorem records_of_decodeAll {bs : Bytes} {ms : List Module} (h : decodeAll bs = .ok ms)
    (hrigid : ∀ m ∈ ms, m.code.isRigid) : ms.flatMap frame = bs := by
  obtain ⟨rs, rfl, hall⟩ := decodeAll_eq_ok_iff.mp h
  refine flatMap_frame_of_forall₂ hall fun r m hm hmem => ?_
  have hcode := code_of_decode hm
  exact value_of_decode hm (hcode ▸ hrigid m hmem)

/-- Modules of fixed length that sort nothing are decoded from their own records only. -/
theorem decodeAll_eq_ok_iff_of_fixed {bs : Bytes} {ms : List Module}
    (h : ∀ m ∈ ms, m.code.fixedLength?.isSome ∧ m.code.isRigid) :
    decodeAll bs = .ok ms ↔ ms.flatMap frame = bs := by
  constructor
  · intro hms
    exact records_of_decodeAll hms fun m hm => (h m hm).2
  · rintro rfl
    exact decodeAll_records fun m hm => fits_of_fixedLength (h m hm).1

end Module

end AcousticNode

import AcousticNode.Payload.RecordList
import AcousticNode.Proofs.Module.Listing

/-!
# Lists of modules and their records

A list of modules is written as records back to back and read again as it was, unless a value is
too long for the one octet of a record's length.  The first module with such a value is then the
fault, so no length is ever cut off.

* `oversized_iff` : how many entries are too many for a record;
* `encodeAll_eq_ok_iff`, `encodeAll_eq_error_iff` : what the records of a list are, and its fault;
* `encodeAll_returned` : every list of modules.
-/

set_option autoImplicit false

namespace AcousticNode

open Outcome

namespace Module

/-! ## Values that are too long -/

/-- A module with more entries, modes or octets than a record has room for. -/
def Oversized : Module → Prop
  | network n => 126 < n.routes.size
  | modeList l => 254 < l.modes.length
  | modeGraph g => 63 < g.size
  | reporting r => 63 < r.entries.size
  | acoustics v => 255 < v.length
  | _ => False

theorem oversized_iff {m : Module} : m.Oversized ↔ Limits.maxRecordValue < m.value.length := by
  have hmax : Limits.maxRecordValue = 255 := rfl
  cases m
  case network n =>
    simp only [Oversized, value, Network.write, List.length_cons, List.length_append,
      List.length_nil, Network.length_writeRoutes, Table.size]
    omega
  case modeList l =>
    simp only [Oversized, value, ModeList.write, List.length_append, List.length_cons,
      List.length_nil]
    omega
  case modeGraph g =>
    simp only [Oversized, value, ModeGraph.write, ModeGraph.length_writeEntries, Table.size]
    omega
  case reporting r =>
    simp only [Oversized, value, Reporting.write, List.length_cons,
      Reporting.length_writeEntries, Table.size]
    omega
  case acoustics v => exact Iff.rfl
  -- the other values have a fixed length
  all_goals exact iff_of_false id (Nat.not_lt.mpr (fits_of_fixedLength rfl))

instance : DecidablePred Oversized := fun _ => decidable_of_iff _ oversized_iff.symm

theorem not_oversized_iff {m : Module} :
    ¬ m.Oversized ↔ m.value.length ≤ Limits.maxRecordValue := by
  rw [oversized_iff, Nat.not_lt]

/-! ## Records of modules -/

theorem toRecord_eq_ok_iff {m : Module} {r : Record} :
    m.toRecord = .ok r ↔ m.value.length ≤ Limits.maxRecordValue ∧ r.code = m.code ∧
      r.value = m.value := by
  obtain ⟨code, value, hfits⟩ := r
  unfold toRecord Record.make
  split
  · rename_i hlen
    simp [hlen, eq_comm]
  · rename_i hlen
    refine iff_of_false (fun h => ?_) fun h => hlen h.1
    cases h

theorem toRecord_of_fits {m : Module} (h : m.value.length ≤ Limits.maxRecordValue) :
    m.toRecord = .ok (m.record h) := toRecord_eq_ok_iff.mpr ⟨h, rfl, rfl⟩

theorem toRecord_eq_error_iff {m : Module} {e : Fault} :
    m.toRecord = .error e ↔ m.Oversized ∧ e = .valueTooLong m.value.length := by
  rw [oversized_iff]
  unfold toRecord Record.make
  split
  · rename_i hlen
    refine iff_of_false (fun h => ?_) fun h => Nat.not_lt.mpr hlen h.1
    cases h
  · rename_i hlen
    simp [Nat.lt_of_not_le hlen, eq_comm]

theorem encodeAll_eq_ok_iff {ms : List Module} {bs : Bytes} :
    encodeAll ms = .ok bs ↔
      (∀ m ∈ ms, m.value.length ≤ Limits.maxRecordValue) ∧ bs = ms.flatMap frame := by
  induction ms generalizing bs with
  | nil =>
    rw [encodeAll, List.flatMap_nil]
    constructor
    · intro h
      cases h
      exact ⟨List.forall_mem_nil _, rfl⟩
    · rintro ⟨_, rfl⟩
      rfl
  | cons m ms ih =>
    simp only [encodeAll, bind_eq_ok, toRecord_eq_ok_iff, ih, List.forall_mem_cons,
      List.flatMap_cons]
    constructor
    · rintro ⟨r, ⟨hlen, hcode, hvalue⟩, _, ⟨hrest, rfl⟩, h⟩
      cases h
      rw [Record.encode, hcode, hvalue]
      exact ⟨⟨hlen, hrest⟩, rfl⟩
    · rintro ⟨⟨hlen, hrest⟩, rfl⟩
      exact ⟨m.record hlen, ⟨hlen, rfl, rfl⟩, _, ⟨hrest, rfl⟩, rfl⟩

/-- A module that does not fit a record, behind modules that do. -/
structure FirstOversized (ms : List Module) (m : Module) : Prop where
  splits : ∃ before after, ms = before ++ m :: after ∧ ∀ m' ∈ before, ¬ m'.Oversized
  oversized : m.Oversized

theorem firstOversized_cons_iff {m m' : Module} {ms : List Module} :
    FirstOversized (m :: ms) m' ↔
      m.Oversized ∧ m' = m ∨ ¬ m.Oversized ∧ FirstOversized ms m' := by
  constructor
  · rintro ⟨⟨before, after, hsplit, hbefore⟩, hover⟩
    cases before with
    | nil =>
      cases hsplit
      exact .inl ⟨hover, rfl⟩
    | cons b before =>
      cases hsplit
      obtain ⟨hfirst, hrest⟩ := List.forall_mem_cons.mp hbefore
      exact .inr ⟨hfirst, ⟨before, after, rfl, hrest⟩, hover⟩
  · rintro (⟨hover, rfl⟩ | ⟨hfirst, ⟨before, after, rfl, hrest⟩, hover⟩)
    · exact ⟨⟨[], ms, rfl, List.forall_mem_nil _⟩, hover⟩
    · exact ⟨⟨m :: before, after, rfl, List.forall_mem_cons.mpr ⟨hfirst, hrest⟩⟩, hover⟩

theorem encodeAll_eq_error_iff {ms : List Module} {e : Fault} :
    encodeAll ms = .error e ↔ ∃ m, FirstOversized ms m ∧ e = .valueTooLong m.value.length := by
  induction ms with
  | nil =>
    refine iff_of_false nofun ?_
    rintro ⟨m, ⟨⟨before, after, hsplit, _⟩, _⟩, _⟩
    simp at hsplit
  | cons m ms ih =>
    simp only [encodeAll, bind_eq_error, toRecord_eq_error_iff, toRecord_eq_ok_iff, ih,
      firstOversized_cons_iff, ← not_oversized_iff]
    constructor
    · rintro (⟨hover, rfl⟩ | ⟨r, ⟨hfits, _, _⟩, ⟨m', hm', rfl⟩ | ⟨_, _, h⟩⟩)
      · exact ⟨m, .inl ⟨hover, rfl⟩, rfl⟩
      · exact ⟨m', .inr ⟨hfits, hm'⟩, rfl⟩
      · cases h
    · rintro ⟨m', ⟨hover, rfl⟩ | ⟨hfits, hm'⟩, rfl⟩
      · exact .inl ⟨hover, rfl⟩
      · exact .inr ⟨m.record (not_oversized_iff.mp hfits), ⟨hfits, rfl, rfl⟩, .inl ⟨m', hm', rfl⟩⟩

theorem length_flatMap_frame (ms : List Module) :
    (ms.flatMap frame).length = ms.foldr (fun m n => m.size + n) 0 := by
  induction ms with
  | nil => rfl
  | cons m ms ih =>
    rw [List.flatMap_cons, List.length_append, ih, List.foldr_cons]
    simp only [frame, Record.frame, List.length_cons, size, Limits.recordHeaderSize]
    omega

/-- **Lists of modules come back from their records.**  Writing a list fails exactly if one of its
values has more than 255 octets, and the fault tells the length of the first such value.  Otherwise
there are as many octets as the modules are long together, and they are read as the same modules,
floating-point numbers bit by bit. -/
theorem encodeAll_returned (ms : List Module) :
    (∀ m : Module, m.Oversized ↔ 255 < m.value.length) ∧
    ((∃ e, encodeAll ms = .error e) ↔ ∃ m ∈ ms, m.Oversized) ∧
    (∀ e, encodeAll ms = .error e ↔
      ∃ m, FirstOversized ms m ∧ e = .valueTooLong m.value.length) ∧
    ((∀ m ∈ ms, ¬ m.Oversized) → ∃ bs, encodeAll ms = .ok bs ∧
      bs.length = ms.foldr (fun m n => m.size + n) 0 ∧ decodeAll bs = .ok ms) := by
  have hok : (∀ m ∈ ms, ¬ m.Oversized) → ∃ bs, encodeAll ms = .ok bs ∧
      bs.length = ms.foldr (fun m n => m.size + n) 0 ∧ decodeAll bs = .ok ms := by
    intro h
    have hfits := fun m hm => not_oversized_iff.mp (h m hm)
    exact ⟨ms.flatMap frame, encodeAll_eq_ok_iff.mpr ⟨hfits, rfl⟩, length_flatMap_frame ms,
      decodeAll_records hfits⟩
  refine ⟨fun _ => oversized_iff, ⟨?_, ?_⟩, fun e => encodeAll_eq_error_iff, hok⟩
  · rintro ⟨e, he⟩
    obtain ⟨m, ⟨⟨before, after, rfl, _⟩, hover⟩, _⟩ := encodeAll_eq_error_iff.mp he
    exact ⟨m, by simp, hover⟩
  · rintro ⟨m, hm, hover⟩
    cases hencode : encodeAll ms with
    | error e => exact ⟨e, rfl⟩
    | ok bs =>
      have hfits := (encodeAll_eq_ok_iff.mp hencode).1 m hm
      exact absurd hover (not_oversized_iff.mpr hfits)

/-- Passive acoustics and the mode list behind them. -/
theorem encodeAll_returned_acoustics :
    let ms := [acoustics [7, 7, 7], modeList ⟨[1, 2], 1, by decide⟩]
    (∀ m ∈ ms, ¬ m.Oversized) ∧
      ∃ bs, encodeAll ms = .ok bs ∧ bs.length = 10 ∧ decodeAll bs = .ok ms := by
  intro ms
  have hfit : ∀ m ∈ ms, ¬ m.Oversized := by decide
  exact ⟨hfit, (encodeAll_returned ms).2.2.2 hfit⟩

end Module

/-! ## Lists of records -/

namespace RecordList

/-- The records of modules are checked and kept. -/
theorem map_bytes_ofModules (ms : List Module) :
    (ofModules ms).map (·.bytes) = Module.encodeAll ms := by
  unfold ofModules
  split <;> rename_i h <;> exact h.symm

theorem ofModules_eq_ok_iff {ms : List Module} {l : RecordList} :
    ofModules ms = .ok l ↔
      (∀ m ∈ ms, m.value.length ≤ Limits.maxRecordValue) ∧ l.bytes = ms.flatMap Module.frame := by
  rw [← Module.encodeAll_eq_ok_iff, ← map_bytes_ofModules, map_eq_ok]
  constructor
  · intro h
    exact ⟨l, h, rfl⟩
  · rintro ⟨l', h, hbytes⟩
    cases l'
    cases l
    cases hbytes
    exact h

end RecordList

end AcousticNode

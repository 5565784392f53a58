import AcousticNode.Proofs.Payload.Aspects

/-!
# Payloads survive their octets

Each kind of payload is decoded from the octets that it is encoded to.  For all kinds but the
aspects of the hydrophone these are the only octets that it is decoded from.

* `decode_encode` : a payload that fits an operation code and a routing is decoded for them;
* `decode_cases` : what a payload is decoded from;
* `size_of_decode` : a decoded payload is as long as what it was decoded from.
-/

set_option autoImplicit false

namespace AcousticNode

open Outcome

theorem expectLength_eq_ok_iff {data : Bytes} {size : Nat} :
    expectLength data size = .ok () ↔ data.length = size := by
  unfold expectLength
  constructor
  · intro h
    split at h
    · cases h
    · split at h
      · cases h
      · omega
  · intro h
    rw [if_neg (by omega), if_neg (by omega)]

/-! ## Canonical payloads -/

theorem ErrorCode.decode_eq_ok_iff {data : Bytes} {c : ErrorCode} :
    ErrorCode.decode data = .ok c ↔ c.encode = data := by
  rw [ErrorCode.decode, bind_eq_ok]
  constructor
  · rintro ⟨_, hlen, h⟩
    exact Layout.write_of_read _ data c (expectLength_eq_ok_iff.mp hlen) h
  · rintro rfl
    exact ⟨(), rfl, (Layout.enumerated ErrorCode .errorCode).read_write c⟩

theorem AspectMask.decode_eq_ok_iff {data : Bytes} {m : AspectMask} :
    AspectMask.decode data = .ok m ↔ m.encode = data := by
  rw [AspectMask.decode, bind_eq_ok]
  constructor
  · rintro ⟨_, hlen, h⟩
    cases h
    obtain ⟨b, rfl⟩ := List.length_eq_one_iff.mp (expectLength_eq_ok_iff.mp hlen)
    rfl
  · rintro rfl
    exact ⟨(), rfl, rfl⟩

theorem decodeCodes_eq_ok_iff {data : Bytes} {codes : List ModuleCode} :
    decodeCodes data = .ok codes ↔ codes.map ModuleCode.byte = data := by
  induction data generalizing codes with
  | nil =>
    rw [decodeCodes, List.map_eq_nil_iff]
    constructor
    · intro h
      cases h
      rfl
    · rintro rfl
      rfl
  | cons b bs ih =>
    rw [decodeCodes]
    constructor
    · intro h
      split at h
      · cases h
      · rename_i c hc
        obtain ⟨cs, hcs, rfl⟩ := map_eq_ok.mp h
        rw [List.map_cons, ih.mp hcs]
        exact congrArg (· :: bs) (Enumeration.byte_of_ofByte? hc)
    · intro h
      cases codes with
      | nil => cases h
      | cons c cs =>
        obtain ⟨hb, hbs⟩ := List.cons.inj h
        have hc : Enumeration.ofByte? b = some c := Enumeration.ofByte?_eq_some_iff.mpr hb
        simp only [hc, ih.mpr hbs, Except.map]

theorem RecordList.ofBytes_eq_ok_iff {data : Bytes} {l : RecordList} :
    RecordList.ofBytes data = .ok l ↔ l.bytes = data := by
  unfold RecordList.ofBytes
  constructor
  · intro h
    split at h
    · cases h
      rfl
    · cases h
  · rintro rfl
    obtain ⟨bytes, n, hn⟩ := l
    split
    · rfl
    · rename_i e he
      rw [hn] at he
      cases he

/-! ## Status reports -/

/-- The length of the record of a module with a fixed layout. -/
theorem Module.size_of_fixedLength {m : Module} {n : Nat} (h : m.code.fixedLength? = some n) :
    m.size = Limits.recordHeaderSize + n := by
  rw [Module.size, length_value h]

namespace BasicReport

theorem length_encode (r : BasicReport) : r.encode.length = size := by
  rw [encode, length_framesOf]
  simp only [modules, List.foldr_cons, List.foldr_nil]
  rw [Module.size_of_fixedLength (m := .battery r.battery) rfl,
    Module.size_of_fixedLength (m := .location r.location) rfl,
    Module.size_of_fixedLength (m := .clock r.clock) rfl]
  rfl

theorem decode_eq_ok_iff {data : Bytes} {r : BasicReport} :
    decode data = .ok r ↔ r.encode = data := by
  have hfixed : ∀ m ∈ r.modules, m.code.fixedLength?.isSome ∧ m.code.isRigid := by
    intro m hm
    simp only [modules, List.mem_cons, List.not_mem_nil, or_false] at hm
    rcases hm with rfl | rfl | rfl <;> exact ⟨rfl, rfl⟩
  have hrecords := @Module.decodeAll_eq_ok_iff_of_fixed data r.modules hfixed
  rw [decode, bind_eq_ok]
  constructor
  · rintro ⟨_, _, h⟩
    obtain ⟨ms, hms, h⟩ := bind_eq_ok.mp h
    split at h
    · cases h
      exact hrecords.mp hms
    · cases h
  · intro h
    have hlen : expectLength data size = .ok () :=
      expectLength_eq_ok_iff.mpr (h ▸ r.length_encode)
    exact ⟨(), hlen, bind_eq_ok.mpr ⟨r.modules, hrecords.mpr h, rfl⟩⟩

end BasicReport

namespace CompleteReport

theorem length_encode (r : CompleteReport) : r.encode.length = size := by
  rw [encode, length_framesOf]
  simp only [modules, List.foldr_cons, List.foldr_nil]
  rw [Module.size_of_fixedLength (m := .battery r.battery) rfl,
    Module.size_of_fixedLength (m := .ambient r.ambient) rfl,
    Module.size_of_fixedLength (m := .location r.location) rfl,
    Module.size_of_fixedLength (m := .storage r.storage) rfl,
    Module.size_of_fixedLength (m := .hydrophone r.hydrophone) rfl]
  rfl

theorem decode_eq_ok_iff {data : Bytes} {r : CompleteReport} :
    decode data = .ok r ↔ r.encode = data := by
  have hfixed : ∀ m ∈ r.modules, m.code.fixedLength?.isSome ∧ m.code.isRigid := by
    intro m hm
    simp only [modules, List.mem_cons, List.not_mem_nil, or_false] at hm
    rcases hm with rfl | rfl | rfl | rfl | rfl <;> exact ⟨rfl, rfl⟩
  have hrecords := @Module.decodeAll_eq_ok_iff_of_fixed data r.modules hfixed
  rw [decode, bind_eq_ok]
  constructor
  · rintro ⟨_, _, h⟩
    obtain ⟨ms, hms, h⟩ := bind_eq_ok.mp h
    split at h
    · cases h
      exact hrecords.mp hms
    · cases h
  · intro h
    have hlen : expectLength data size = .ok () :=
      expectLength_eq_ok_iff.mpr (h ▸ r.length_encode)
    exact ⟨(), hlen, bind_eq_ok.mpr ⟨r.modules, hrecords.mpr h, rfl⟩⟩

end CompleteReport

/-! ## All payloads -/

namespace Payload

theorem decode_encode {p : Payload} {op : Opcode} {routing : Routing}
    (h : p.fits op routing = true) : decode op routing p.encode = .ok p := by
  cases p with
  | empty =>
    cases op <;> cases h
    · rfl
    · rfl
  | error c =>
    cases op <;> cases h
    have hc : ErrorCode.decode c.encode = .ok c := ErrorCode.decode_eq_ok_iff.mpr rfl
    simp only [decode, encode, hc, Except.map]
  | basicReport r =>
    cases op <;> cases h
    have hne : r.encode.isEmpty = false := by
      rw [List.isEmpty_eq_false_iff, ← List.length_pos_iff, r.length_encode]
      decide
    have hr : BasicReport.decode r.encode = .ok r := BasicReport.decode_eq_ok_iff.mpr rfl
    simp only [decode, encode, hne, hr, Except.map, Bool.false_eq_true, if_false]
  | completeReport r =>
    cases op <;> cases h
    have hne : r.encode.isEmpty = false := by
      rw [List.isEmpty_eq_false_iff, ← List.length_pos_iff, r.length_encode]
      decide
    have hr : CompleteReport.decode r.encode = .ok r := CompleteReport.decode_eq_ok_iff.mpr rfl
    simp only [decode, encode, hne, hr, Except.map, Bool.false_eq_true, if_false]
  | configurationQuery codes =>
    cases op <;> simp [fits] at h
    have hcodes : decodeCodes (codes.map ModuleCode.byte) = .ok codes :=
      decodeCodes_eq_ok_iff.mpr rfl
    simp only [decode, encode, h, hcodes, Except.map, Bool.false_eq_true, if_false]
  | configurationChange l =>
    cases op <;> cases h
    have hl : RecordList.ofBytes l.bytes = .ok l := RecordList.ofBytes_eq_ok_iff.mpr rfl
    simp only [decode, encode, hl, Except.map]
  | configurationAnswer l =>
    cases op <;> simp [fits] at h
    have hl : RecordList.ofBytes l.bytes = .ok l := RecordList.ofBytes_eq_ok_iff.mpr rfl
    simp only [decode, encode, h, hl, Except.map, if_true]
  | hydrophoneQuery m =>
    cases op <;> simp [fits] at h
    have hm : AspectMask.decode m.encode = .ok m := AspectMask.decode_eq_ok_iff.mpr rfl
    simp only [decode, encode, h, hm, Except.map, Bool.false_eq_true, if_false]
  | hydrophoneChange u =>
    cases op <;> cases h
    simp only [decode, encode, u.decode_encode, Except.map]
  | hydrophoneAnswer u =>
    cases op <;> simp [fits] at h
    simp only [decode, encode, h, u.decode_encode, Except.map, if_true]

theorem length_encode (p : Payload) : p.encode.length = p.size := by
  cases p with
  | basicReport r => exact r.length_encode
  | completeReport r => exact r.length_encode
  | configurationQuery codes => exact List.length_map _
  | hydrophoneChange u => exact u.length_encode
  | hydrophoneAnswer u => exact u.length_encode
  | _ => rfl

/-- The aspects of the hydrophone that a payload carries. -/
def update? : Payload → Option HydrophoneUpdate
  | hydrophoneChange u => some u
  | hydrophoneAnswer u => some u
  | _ => none

/-- A payload has one spelling, unless it carries aspects. -/
theorem decode_cases {op : Opcode} {routing : Routing} {data : Bytes} {p : Payload}
    (h : decode op routing data = .ok p) :
    p.update? = none ∧ p.encode = data ∨
      ∃ u, p.update? = some u ∧ p.encode = u.encode ∧ HydrophoneUpdate.decode data = .ok u := by
  cases op <;> simp only [decode] at h
  case errorReport =>
    obtain ⟨c, hc, rfl⟩ := map_eq_ok.mp h
    exact .inl ⟨rfl, ErrorCode.decode_eq_ok_iff.mp hc⟩
  case basicStatus =>
    split at h
    · rename_i hempty
      cases h
      exact .inl ⟨rfl, (List.isEmpty_iff.mp hempty).symm⟩
    · obtain ⟨r, hr, rfl⟩ := map_eq_ok.mp h
      exact .inl ⟨rfl, BasicReport.decode_eq_ok_iff.mp hr⟩
  case completeStatus =>
    split at h
    · rename_i hempty
      cases h
      exact .inl ⟨rfl, (List.isEmpty_iff.mp hempty).symm⟩
    · obtain ⟨r, hr, rfl⟩ := map_eq_ok.mp h
      exact .inl ⟨rfl, CompleteReport.decode_eq_ok_iff.mp hr⟩
  case setConfiguration =>
    obtain ⟨l, hl, rfl⟩ := map_eq_ok.mp h
    exact .inl ⟨rfl, RecordList.ofBytes_eq_ok_iff.mp hl⟩
  case getConfiguration =>
    split at h
    · obtain ⟨l, hl, rfl⟩ := map_eq_ok.mp h
      exact .inl ⟨rfl, RecordList.ofBytes_eq_ok_iff.mp hl⟩
    · obtain ⟨codes, hcodes, rfl⟩ := map_eq_ok.mp h
      exact .inl ⟨rfl, decodeCodes_eq_ok_iff.mp hcodes⟩
  case getHydrophone =>
    split at h
    · obtain ⟨u, hu, rfl⟩ := map_eq_ok.mp h
      exact .inr ⟨u, rfl, rfl, hu⟩
    · obtain ⟨m, hm, rfl⟩ := map_eq_ok.mp h
      exact .inl ⟨rfl, AspectMask.decode_eq_ok_iff.mp hm⟩
  case setHydrophone =>
    obtain ⟨u, hu, rfl⟩ := map_eq_ok.mp h
    exact .inr ⟨u, rfl, rfl, hu⟩

theorem size_of_decode {op : Opcode} {routing : Routing} {data : Bytes} {p : Payload}
    (h : decode op routing data = .ok p) : p.size = data.length := by
  rw [← length_encode]
  rcases decode_cases h with ⟨_, hencode⟩ | ⟨u, _, hencode, hu⟩
  · rw [hencode]
  · rw [hencode, u.length_encode, u.size_of_decode hu]

end Payload

end AcousticNode

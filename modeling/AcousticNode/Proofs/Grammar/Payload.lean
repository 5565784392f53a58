import AcousticNode.Proofs.Grammar.Image
import AcousticNode.Proofs.Payload.RoundTrip

/-!
# Payloads are decoded from their language

For every kind of payload, the octets from which some payload of the kind is decoded are a
language of the grammar: no other octets are accepted and none of these are refused.

* `Record.count_eq_ok_iff` : the record lists of a given length;
* `HydrophoneUpdate.exists_decode_iff` : the aspects of the hydrophone, in any order and
  without repetition;
* `Payload.exists_decode_iff` : the payloads of any operation code in either direction.
-/

set_option autoImplicit false

namespace AcousticNode

open Outcome Grammar
open scoped Computability

/-! ## Record lists -/

namespace Grammar

theorem mem_anyRecord {bs : Bytes} :
    bs ∈ anyRecord ↔ ∃ tag len : UInt8, ∃ value : Bytes,
      len.toNat = value.length ∧ bs = tag :: len :: value := by
  constructor
  · rintro ⟨tag, len, value, _, hlen, rfl⟩
    exact ⟨tag, len, value, hlen, rfl⟩
  · rintro ⟨tag, len, value, hlen, rfl⟩
    exact ⟨tag, len, value, trivial, hlen, rfl⟩

end Grammar

theorem Record.mem_of_count {bs : Bytes} {n : Nat} (h : Record.count bs = .ok n) :
    bs ∈ anyRecord ^ n := by
  induction bs using Record.count.induct generalizing n with
  | case1 =>
    rw [count] at h
    cases h
    exact Language.nil_mem_one
  | case2 b =>
    rw [count] at h
    cases h
  | case3 tag len rest hle ih =>
    rw [count, if_pos hle] at h
    obtain ⟨m, hm, rfl⟩ := map_eq_ok.mp h
    rw [pow_succ', Language.mem_mul]
    refine ⟨tag :: len :: rest.take len.toNat, ?_, rest.drop len.toNat, ih hm, ?_⟩
    · exact mem_anyRecord.mpr ⟨tag, len, _, by rw [List.length_take]; omega, rfl⟩
    · rw [List.cons_append, List.cons_append, List.take_append_drop]
  | case4 tag len rest hle =>
    rw [count, if_neg hle] at h
    cases h

theorem Record.count_of_mem {bs : Bytes} {n : Nat} (h : bs ∈ anyRecord ^ n) :
    Record.count bs = .ok n := by
  induction n generalizing bs with
  | zero =>
    obtain rfl : bs = [] := h
    rw [count]
  | succ n ih =>
    rw [pow_succ', Language.mem_mul] at h
    obtain ⟨_, hfirst, rest, hrest, rfl⟩ := h
    obtain ⟨tag, len, value, hlen, rfl⟩ := mem_anyRecord.mp hfirst
    have hframe : tag :: len :: value = Record.frame tag value := by
      rw [Record.frame, ← hlen, UInt8.ofNat_toNat]
    have hfits : value.length ≤ Limits.maxRecordValue := by
      have hlt := len.toNat_lt
      rw [Limits.maxRecordValue]
      omega
    rw [hframe, count_frame_append tag hfits, ih hrest]
    rfl

theorem Record.count_eq_ok_iff {bs : Bytes} {n : Nat} :
    Record.count bs = .ok n ↔ bs ∈ anyRecord ^ n :=
  ⟨Record.mem_of_count, Record.count_of_mem⟩

theorem RecordList.exists_ofBytes_iff {data : Bytes} :
    (∃ l, RecordList.ofBytes data = .ok l) ↔ data ∈ anyRecord∗ := by
  rw [Language.kstar_eq_iSup_pow, Language.mem_iSup]
  constructor
  · rintro ⟨l, hl⟩
    obtain rfl := RecordList.ofBytes_eq_ok_iff.mp hl
    obtain ⟨n, hn⟩ := l.framed
    exact ⟨n, Record.count_eq_ok_iff.mp hn⟩
  · rintro ⟨n, hn⟩
    exact ⟨⟨data, n, Record.count_eq_ok_iff.mpr hn⟩, RecordList.ofBytes_eq_ok_iff.mpr rfl⟩

theorem exists_codes_iff {data : Bytes} :
    (∃ codes, decodeCodes data = .ok codes) ↔ data ∈ (oneOf tags)∗ := by
  have htags : tags = (Enumeration.all : List ModuleCode).map Enumeration.byte := rfl
  rw [Language.mem_kstar]
  constructor
  · rintro ⟨codes, h⟩
    obtain rfl := decodeCodes_eq_ok_iff.mp h
    refine ⟨codes.map fun c => [ModuleCode.byte c], ?_, ?_⟩
    · induction codes with
      | nil => rfl
      | cons c cs ih =>
        rw [List.map_cons, List.map_cons, List.flatten_cons, ← ih (decodeCodes_eq_ok_iff.mpr rfl)]
        rfl
    · intro y hy
      obtain ⟨c, _, rfl⟩ := List.mem_map.mp hy
      exact ⟨c.byte, htags ▸ List.mem_map_of_mem (Enumeration.mem_all c), rfl⟩
  · rintro ⟨words, rfl, h⟩
    induction words with
    | nil => exact ⟨[], rfl⟩
    | cons word words ih =>
      obtain ⟨codes, hcodes⟩ := ih fun y hy => h y (List.mem_cons_of_mem _ hy)
      obtain ⟨b, hb, rfl⟩ := h word List.mem_cons_self
      obtain ⟨c, _, rfl⟩ := List.mem_map.mp (htags ▸ hb)
      refine ⟨c :: codes, decodeCodes_eq_ok_iff.mpr ?_⟩
      rw [List.map_cons, decodeCodes_eq_ok_iff.mp hcodes]
      rfl

/-! ## Status reports -/

theorem BasicReport.exists_decode_iff {data : Bytes} :
    (∃ r, BasicReport.decode data = .ok r) ↔ data ∈ basicReport := by
  simp only [BasicReport.decode_eq_ok_iff, basicReport, ← image_frame_battery,
    ← image_frame_location, ← image_frame_clock, Language.mem_mul, mem_image]
  constructor
  · rintro ⟨r, rfl⟩
    refine ⟨_, ⟨r.battery, rfl⟩, _, ⟨_, ⟨r.location, rfl⟩, _, ⟨r.clock, rfl⟩, rfl⟩, ?_⟩
    simp only [encode, framesOf, modules, List.flatMap_cons, List.flatMap_nil, List.append_nil]
  · rintro ⟨_, ⟨battery, rfl⟩, _, ⟨_, ⟨location, rfl⟩, _, ⟨clock, rfl⟩, rfl⟩, rfl⟩
    refine ⟨⟨battery, location, clock⟩, ?_⟩
    simp only [encode, framesOf, modules, List.flatMap_cons, List.flatMap_nil, List.append_nil]

theorem CompleteReport.exists_decode_iff {data : Bytes} :
    (∃ r, CompleteReport.decode data = .ok r) ↔ data ∈ completeReport := by
  simp only [CompleteReport.decode_eq_ok_iff, completeReport, ← image_frame_battery,
    ← image_frame_ambient, ← image_frame_location, ← image_frame_storage,
    ← image_frame_hydrophone, Language.mem_mul, mem_image]
  constructor
  · rintro ⟨r, rfl⟩
    refine ⟨_, ⟨r.battery, rfl⟩, _, ⟨_, ⟨r.ambient, rfl⟩, _, ⟨_, ⟨r.location, rfl⟩, _,
      ⟨_, ⟨r.storage, rfl⟩, _, ⟨r.hydrophone, rfl⟩, rfl⟩, rfl⟩, rfl⟩, ?_⟩
    simp only [encode, framesOf, modules, List.flatMap_cons, List.flatMap_nil, List.append_nil]
  · rintro ⟨_, ⟨battery, rfl⟩, _, ⟨_, ⟨ambient, rfl⟩, _, ⟨_, ⟨location, rfl⟩, _,
      ⟨_, ⟨storage, rfl⟩, _, ⟨hydrophone, rfl⟩, rfl⟩, rfl⟩, rfl⟩, rfl⟩
    refine ⟨⟨battery, ambient, location, storage, hydrophone⟩, ?_⟩
    simp only [encode, framesOf, modules, List.flatMap_cons, List.flatMap_nil, List.append_nil]

theorem Grammar.length_of_mem_basicReport {data : Bytes} (h : data ∈ basicReport) :
    data.length = 24 := by
  obtain ⟨r, hr⟩ := BasicReport.exists_decode_iff.mpr h
  rw [← BasicReport.decode_eq_ok_iff.mp hr]
  exact r.length_encode

theorem Grammar.length_of_mem_completeReport {data : Bytes} (h : data ∈ completeReport) :
    data.length = 120 := by
  obtain ⟨r, hr⟩ := CompleteReport.exists_decode_iff.mpr h
  rw [← CompleteReport.decode_eq_ok_iff.mp hr]
  exact r.length_encode

/-! ## Aspects of the hydrophone -/

theorem Aspect.code_injective : Function.Injective Aspect.code := by
  intro a b h
  cases a <;> cases b <;> first | rfl | cases h

namespace HydrophoneUpdate

theorem exists_placeAll {ms : List Module} {v : HydrophoneUpdate}
    (haspect : ∀ m ∈ ms, ∃ a : Aspect, m.code = a.code)
    (hnodup : ((ms ++ v.modules).map Module.code).Nodup) : ∃ u, v.placeAll ms = .ok u := by
  induction ms generalizing v with
  | nil => exact ⟨v, rfl⟩
  | cons m ms ih =>
    obtain ⟨v', hv'⟩ := exists_place (haspect m List.mem_cons_self) (fresh_of_nodup hnodup)
    have hperm := perm_append_of_place hv' ms
    obtain ⟨u, hu⟩ := ih (fun m' hm => haspect m' (List.mem_cons_of_mem _ hm))
      ((hperm.map Module.code).nodup_iff.mpr hnodup)
    exact ⟨u, bind_eq_ok.mpr ⟨v', hv', hu⟩⟩

end HydrophoneUpdate

theorem Grammar.mem_prod_aspect {order : List Aspect} {bs : Bytes} :
    bs ∈ (order.map aspect).prod ↔
      ∃ ms : List Module, ms.map Module.code = order.map Aspect.code ∧
        ms.flatMap Module.frame = bs := by
  induction order generalizing bs with
  | nil =>
    constructor
    · intro h
      exact ⟨[], rfl, (Language.mem_one _).mp h |>.symm⟩
    · rintro ⟨ms, hcodes, rfl⟩
      rw [List.map_eq_nil_iff.mp hcodes]
      exact Language.nil_mem_one
  | cons a order ih =>
    rw [List.map_cons, List.prod_cons, Language.mem_mul]
    constructor
    · rintro ⟨_, hfirst, _, hrest, rfl⟩
      obtain ⟨m, hm, rfl⟩ := mem_aspect.mp hfirst
      obtain ⟨ms, hms, rfl⟩ := ih.mp hrest
      exact ⟨m :: ms, by rw [List.map_cons, List.map_cons, hm, hms], rfl⟩
    · rintro ⟨ms, hcodes, rfl⟩
      cases ms with
      | nil => cases hcodes
      | cons m ms =>
        obtain ⟨hm, hms⟩ := List.cons.inj hcodes
        exact ⟨m.frame, mem_aspect.mpr ⟨m, hm, rfl⟩, ms.flatMap Module.frame,
          ih.mpr ⟨ms, hms, rfl⟩, rfl⟩

theorem HydrophoneUpdate.exists_decode_iff {data : Bytes} :
    (∃ u, HydrophoneUpdate.decode data = .ok u) ↔ data ∈ aspects := by
  constructor
  · rintro ⟨u, hu⟩
    obtain ⟨ms, hperm, rfl⟩ := decode_eq_ok_iff.mp hu
    have hrange : ms.map Module.code ∈ Set.range (List.map Aspect.code) := by
      rw [Set.range_list_map]
      intro c hc
      obtain ⟨m, hm, rfl⟩ := List.mem_map.mp hc
      obtain ⟨a, ha⟩ := isAspect_of_mem (hperm.mem_iff.mpr hm)
      exact ⟨a, ha.symm⟩
    obtain ⟨order, horder⟩ := hrange
    refine ⟨order, ?_, mem_prod_aspect.mpr ⟨ms, horder.symm, rfl⟩⟩
    have hnodup := (hperm.map Module.code).nodup_iff.mp u.nodup_codes
    rw [← horder] at hnodup
    exact hnodup.of_map
  · rintro ⟨order, hnodup, hmem⟩
    obtain ⟨ms, hcodes, rfl⟩ := mem_prod_aspect.mp hmem
    have haspect : ∀ m ∈ ms, ∃ a : Aspect, m.code = a.code := by
      intro m hm
      have hin : m.code ∈ order.map Aspect.code := hcodes ▸ List.mem_map_of_mem hm
      obtain ⟨a, _, ha⟩ := List.mem_map.mp hin
      exact ⟨a, ha.symm⟩
    obtain ⟨u, hu⟩ := exists_placeAll (v := empty) haspect (by
      rw [show empty.modules = [] from rfl, List.append_nil, hcodes]
      exact hnodup.map Aspect.code_injective)
    exact ⟨u, decode_eq_ok_iff.mpr ⟨ms, ofModules_eq_ok_iff.mp hu, rfl⟩⟩

/-! ## All payloads -/

theorem ErrorCode.exists_decode_iff {data : Bytes} :
    (∃ c, ErrorCode.decode data = .ok c) ↔ data ∈ oneOf [1, 2, 3, 4, 5, 6] := by
  simp only [ErrorCode.decode_eq_ok_iff]
  exact Set.ext_iff.mp (image_enumerated ErrorCode .errorCode) data

theorem AspectMask.exists_decode_iff {data : Bytes} :
    (∃ m, AspectMask.decode data = .ok m) ↔ data ∈ octets 1 := by
  simp only [AspectMask.decode_eq_ok_iff, mem_octets, List.length_eq_one_iff]
  constructor
  · rintro ⟨m, rfl⟩
    exact ⟨m.octet, rfl⟩
  · rintro ⟨b, rfl⟩
    exact ⟨⟨b⟩, rfl⟩

theorem Routing.isUplink_iff {routing : Routing} :
    routing.isUplink = true ↔ routing.receiver.value = 0 := by
  obtain ⟨sender, ⟨receiver⟩, ttl⟩ := routing
  simp [isUplink, Address.isBackend, Address.backend]

/-- An empty payload is a request and asks for a report; anything else has to be the report. -/
theorem exists_report_iff {α : Type} {data : Bytes} {read : Bytes → Except Fault α}
    {wrap : α → Payload} {l : Language UInt8} (h : (∃ r, read data = .ok r) ↔ data ∈ l) :
    (∃ p, (if data.isEmpty then .ok .empty else (read data).map wrap) = .ok p) ↔
      data ∈ 1 + l := by
  rw [Language.mem_add, Language.mem_one, ← List.isEmpty_iff, ← h]
  cases data.isEmpty with
  | true => exact iff_of_true ⟨_, rfl⟩ (.inl rfl)
  | false => exact exists_map_eq_ok.trans ⟨.inr, fun hd => hd.resolve_left Bool.false_ne_true⟩

theorem Payload.exists_decode_iff {op : Opcode} {routing : Routing} {data : Bytes} :
    (∃ p, Payload.decode op routing data = .ok p) ↔
      data ∈ language op routing.receiver.value := by
  cases op <;> simp only [Payload.decode, language]
  case errorReport => rw [exists_map_eq_ok, ErrorCode.exists_decode_iff]
  case basicStatus => exact exists_report_iff BasicReport.exists_decode_iff
  case completeStatus => exact exists_report_iff CompleteReport.exists_decode_iff
  case setConfiguration => rw [exists_map_eq_ok, RecordList.exists_ofBytes_iff]
  case getConfiguration =>
    by_cases h : routing.receiver.value = 0
    · rw [if_pos h, if_pos (Routing.isUplink_iff.mpr h), exists_map_eq_ok,
        RecordList.exists_ofBytes_iff]
    · rw [if_neg h, if_neg (mt Routing.isUplink_iff.mp h), exists_map_eq_ok, exists_codes_iff]
  case getHydrophone =>
    by_cases h : routing.receiver.value = 0
    · rw [if_pos h, if_pos (Routing.isUplink_iff.mpr h), exists_map_eq_ok,
        HydrophoneUpdate.exists_decode_iff]
    · rw [if_neg h, if_neg (mt Routing.isUplink_iff.mp h), exists_map_eq_ok,
        AspectMask.exists_decode_iff]
  case setHydrophone => rw [exists_map_eq_ok, HydrophoneUpdate.exists_decode_iff]

end AcousticNode

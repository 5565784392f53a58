import AcousticNode.Proofs.Module.Inverse
import Mathlib.Data.List.Forall2

/-!
# Framing and decoding agree

Octets are cut into records twice: the framing is checked by going from one length to the next, and
modules are decoded by taking one record after another, also within the value of a hydrophone.  Both
cut at the same places, whatever the octets, and decoding tells the first record that is wrong.

* `AnyRecord.induction` : octets are records back to back, and maybe one that is cut short;
* `count_eq_ok_iff_flatMap`, `count_eq_error_iff` : what the framing check says of them;
* `decodeAll_eq_ok_iff_decodes`, `decodeAll_eq_error_iff` : what decoding says of them;
* `walk_eq`, `read_eq` : both as loops that read octets by their places;
* `cutAlike` : how the framing check and decoding agree.
-/

set_option autoImplicit false

namespace AcousticNode

open Outcome

/-! ## Records with any tag -/

/-- A tag, known or not, and a value that fits a one-octet length. -/
structure AnyRecord where
  tag : UInt8
  value : Bytes
  fits : value.length ≤ Limits.maxRecordValue

/-- Octets that end within the record that they begin, and what is missing. -/
inductive CutShort : Bytes → Fault → Prop where
  | header (tag : UInt8) : CutShort [tag] (.insufficient Limits.recordHeaderSize 1)
  | value (tag len : UInt8) (rest : Bytes) (h : rest.length < len.toNat) :
    CutShort (tag :: len :: rest)
      (.insufficient (Limits.recordHeaderSize + len.toNat) (rest.length + 2))

namespace AnyRecord

/-- The octets of a record. -/
def encode (r : AnyRecord) : Bytes := Record.frame r.tag r.value

/-- The module that a record stands for, if its tag is known. -/
def decode (r : AnyRecord) : Except Fault Module :=
  match (Enumeration.ofByte? r.tag : Option ModuleCode) with
  | none => .error (.unknownModule r.tag)
  | some code => Module.decode code r.value

theorem decode_eq_ok_iff {r : AnyRecord} {m : Module} :
    r.decode = .ok m ↔
      ∃ code, Enumeration.ofByte? r.tag = some code ∧ Module.decode code r.value = .ok m := by
  unfold decode
  cases (Enumeration.ofByte? r.tag : Option ModuleCode) with
  | none => simp
  | some code => simp

theorem encode_eq_of_code {code : ModuleCode} (r : AnyRecord)
    (h : Enumeration.ofByte? r.tag = some code) :
    r.encode = Record.encode ⟨code, r.value, r.fits⟩ := by
  rw [encode, Record.encode, ModuleCode.byte, Enumeration.byte_of_ofByte? h]

theorem exists_encode_append (tag : UInt8) {len : UInt8} {rest : Bytes}
    (h : len.toNat ≤ rest.length) :
    ∃ r : AnyRecord, r.tag = tag ∧ r.value = rest.take len.toNat ∧
      tag :: len :: rest = r.encode ++ rest.drop len.toNat := by
  have hlt := len.toNat_lt
  have hlen : (rest.take len.toNat).length = len.toNat := by
    rw [List.length_take]
    omega
  have hfits : (rest.take len.toNat).length ≤ Limits.maxRecordValue := by
    rw [hlen, Limits.maxRecordValue]
    omega
  have hframe : Record.frame tag (rest.take len.toNat) = tag :: len :: rest.take len.toNat := by
    rw [Record.frame, hlen, UInt8.ofNat_toNat]
  refine ⟨⟨tag, rest.take len.toNat, hfits⟩, rfl, rfl, ?_⟩
  rw [encode, hframe, List.cons_append, List.cons_append, List.take_append_drop]

/-- Octets are records back to back, behind which there is nothing or a record cut short. -/
@[elab_as_elim]
theorem induction {P : Bytes → Prop} (nil : P [])
    (record : ∀ (r : AnyRecord) (rest : Bytes), P rest → P (r.encode ++ rest))
    (cut : ∀ bs e, CutShort bs e → P bs) (bs : Bytes) : P bs := by
  induction bs using Record.count.induct with
  | case1 => exact nil
  | case2 tag => exact cut _ _ (.header tag)
  | case3 tag len rest hle ih =>
    obtain ⟨r, _, _, hsplit⟩ := exists_encode_append tag hle
    rw [hsplit]
    exact record r _ ih
  | case4 tag len rest hlt => exact cut _ _ (.value tag len rest (Nat.lt_of_not_le hlt))

end AnyRecord

/-! ## The framing check -/

namespace Record

theorem count_encode_append (r : AnyRecord) (rest : Bytes) :
    count (r.encode ++ rest) = (count rest).map (· + 1) :=
  count_frame_append r.tag r.fits rest

theorem count_of_cutShort {bs : Bytes} {e : Fault} (h : CutShort bs e) : count bs = .error e := by
  cases h with
  | header tag => rw [count]
  | value tag len rest hlt => rw [count, if_neg (Nat.not_le.mpr hlt)]

theorem count_flatMap_append (rs : List AnyRecord) (rest : Bytes) :
    count (rs.flatMap AnyRecord.encode ++ rest) = (count rest).map (· + rs.length) := by
  induction rs with
  | nil => cases h : count rest <;> simp [h, Except.map]
  | cons r rs ih =>
    rw [List.flatMap_cons, List.append_assoc, count_encode_append, ih]
    cases count rest <;> simp [Except.map, Nat.add_assoc]

theorem count_eq_ok_iff_flatMap {bs : Bytes} {n : Nat} :
    count bs = .ok n ↔ ∃ rs : List AnyRecord, rs.length = n ∧ bs = rs.flatMap AnyRecord.encode := by
  constructor
  · intro h
    induction bs using AnyRecord.induction generalizing n with
    | nil =>
      rw [count] at h
      cases h
      exact ⟨[], rfl, rfl⟩
    | record r rest ih =>
      rw [count_encode_append] at h
      obtain ⟨k, hk, rfl⟩ := map_eq_ok.mp h
      obtain ⟨rs, rfl, hrs⟩ := ih hk
      exact ⟨r :: rs, rfl, by rw [List.flatMap_cons, ← hrs]⟩
    | cut bs e hcut =>
      rw [count_of_cutShort hcut] at h
      cases h
  · rintro ⟨rs, rfl, rfl⟩
    have hcount := count_flatMap_append rs []
    rw [List.append_nil, count] at hcount
    simpa [Except.map] using hcount

theorem count_eq_error_iff {bs : Bytes} {e : Fault} :
    count bs = .error e ↔
      ∃ (rs : List AnyRecord) (rest : Bytes),
        bs = rs.flatMap AnyRecord.encode ++ rest ∧ CutShort rest e := by
  constructor
  · intro h
    induction bs using AnyRecord.induction with
    | nil =>
      rw [count] at h
      cases h
    | record r rest ih =>
      rw [count_encode_append] at h
      obtain ⟨rs, tail, hrs, hcut⟩ := ih (map_eq_error.mp h)
      exact ⟨r :: rs, tail, by rw [List.flatMap_cons, List.append_assoc, ← hrs], hcut⟩
    | cut bs e' hcut =>
      rw [count_of_cutShort hcut] at h
      cases h
      exact ⟨[], bs, rfl, hcut⟩
  · rintro ⟨rs, rest, rfl, hcut⟩
    rw [count_flatMap_append, count_of_cutShort hcut]
    rfl

end Record

/-! ## Decoding -/

/-- What is wrong with the record that octets begin.  The tag is looked at before the length, and
the value only when all of it is there. -/
inductive FrontFault : Bytes → Fault → Prop where
  | header (tag : UInt8) : FrontFault [tag] (.insufficient Limits.recordHeaderSize 1)
  | unknown (tag len : UInt8) (rest : Bytes)
    (h : (Enumeration.ofByte? tag : Option ModuleCode) = none) :
    FrontFault (tag :: len :: rest) (.unknownModule tag)
  | value (code : ModuleCode) (len : UInt8) (rest : Bytes) (h : rest.length < len.toNat) :
    FrontFault (code.byte :: len :: rest)
      (.insufficient (Limits.recordHeaderSize + len.toNat) (rest.length + 2))
  | undecodable (r : Record) (rest : Bytes) (e : Fault)
    (h : Module.decode r.code r.value = .error e) : FrontFault (r.encode ++ rest) e

namespace Module

theorem decodeAll_any_append (r : AnyRecord) (rest : Bytes) :
    decodeAll (r.encode ++ rest) = (do
      let m ← r.decode
      let ms ← decodeAll rest
      return m :: ms) := by
  unfold AnyRecord.decode
  cases htag : (Enumeration.ofByte? r.tag : Option ModuleCode) with
  | none =>
    have htake : Record.take (r.encode ++ rest) =
        (.error (.unknownModule r.tag), r.encode ++ rest) := by
      simp only [AnyRecord.encode, Record.frame, List.cons_append, Record.take, htag]
    exact decodeAll_of_take_error (List.cons_ne_nil _ _) htake
  | some code =>
    rw [r.encode_eq_of_code htag, decodeAll_encode_append]

theorem decodeAll_of_frontFault {bs : Bytes} {e : Fault} (h : FrontFault bs e) :
    decodeAll bs = .error e := by
  cases h with
  | header tag => exact decodeAll_of_take_error (List.cons_ne_nil _ _) rfl
  | unknown tag len rest htag =>
    have htake : Record.take (tag :: len :: rest) =
        (.error (.unknownModule tag), tag :: len :: rest) := by
      rw [Record.take, htag]
    exact decodeAll_of_take_error (List.cons_ne_nil _ _) htake
  | value code len rest hlt =>
    have htake : Record.take (code.byte :: len :: rest) =
        (.error (.insufficient (Limits.recordHeaderSize + len.toNat) (rest.length + 2)),
          code.byte :: len :: rest) := by
      rw [Record.take, Enumeration.ofByte?_byte]
      exact if_neg (Nat.not_le.mpr hlt)
    exact decodeAll_of_take_error (List.cons_ne_nil _ _) htake
  | undecodable r rest e hdecode =>
    rw [decodeAll_encode_append, hdecode]
    rfl

theorem exists_frontFault_of_cutShort {bs : Bytes} {e : Fault} (h : CutShort bs e) :
    ∃ e', FrontFault bs e' := by
  cases h with
  | header tag => exact ⟨_, .header tag⟩
  | value tag len rest hlt =>
    cases htag : (Enumeration.ofByte? tag : Option ModuleCode) with
    | none => exact ⟨_, .unknown tag len rest htag⟩
    | some code =>
      obtain rfl := Enumeration.byte_of_ofByte? htag
      exact ⟨_, .value code len rest hlt⟩

theorem frontFault_of_decode_error {r : AnyRecord} {e : Fault} (h : r.decode = .error e)
    (rest : Bytes) : FrontFault (r.encode ++ rest) e := by
  unfold AnyRecord.decode at h
  cases htag : (Enumeration.ofByte? r.tag : Option ModuleCode) with
  | none =>
    rw [htag] at h
    cases h
    exact .unknown r.tag _ _ htag
  | some code =>
    rw [htag] at h
    rw [r.encode_eq_of_code htag]
    exact .undecodable _ rest e h

/-- Records that decode, behind which there is nothing or a faulty record. -/
theorem exists_decoded_prefix (bs : Bytes) :
    ∃ (rs : List AnyRecord) (ms : List Module) (rest : Bytes),
      bs = rs.flatMap AnyRecord.encode ++ rest ∧
        List.Forall₂ (fun r m => r.decode = .ok m) rs ms ∧
          (rest = [] ∨ ∃ e, FrontFault rest e) := by
  induction bs using AnyRecord.induction with
  | nil => exact ⟨[], [], [], rfl, .nil, .inl rfl⟩
  | cut bs e hcut => exact ⟨[], [], bs, rfl, .nil, .inr (exists_frontFault_of_cutShort hcut)⟩
  | record r tail ih =>
    cases hdecode : r.decode with
    | error e =>
      exact ⟨[], [], r.encode ++ tail, rfl, .nil, .inr ⟨e, frontFault_of_decode_error hdecode tail⟩⟩
    | ok m =>
      obtain ⟨rs, ms, rest, rfl, hall, hrest⟩ := ih
      refine ⟨r :: rs, m :: ms, rest, ?_, .cons hdecode hall, hrest⟩
      rw [List.flatMap_cons, List.append_assoc]

theorem decodeAll_flatMap_append {rs : List AnyRecord} {ms : List Module}
    (h : List.Forall₂ (fun r m => r.decode = .ok m) rs ms) (rest : Bytes) :
    decodeAll (rs.flatMap AnyRecord.encode ++ rest) = (decodeAll rest).map (ms ++ ·) := by
  induction h with
  | nil =>
    rw [List.flatMap_nil, List.nil_append]
    cases decodeAll rest <;> rfl
  | cons hm _ ih =>
    rw [List.flatMap_cons, List.append_assoc, decodeAll_any_append, hm, ih]
    cases decodeAll rest <;> rfl

theorem decodeAll_flatMap_eq_ok_iff {rs : List AnyRecord} {ms : List Module} :
    decodeAll (rs.flatMap AnyRecord.encode) = .ok ms ↔
      List.Forall₂ (fun r m => r.decode = .ok m) rs ms := by
  constructor
  · intro h
    induction rs generalizing ms with
    | nil =>
      rw [List.flatMap_nil, decodeAll_nil] at h
      cases h
      exact .nil
    | cons r rs ih =>
      rw [List.flatMap_cons, decodeAll_any_append] at h
      obtain ⟨m, hm, h⟩ := bind_eq_ok.mp h
      obtain ⟨ms', hms, h⟩ := bind_eq_ok.mp h
      cases h
      exact .cons hm (ih hms)
  · intro h
    have hdecode := decodeAll_flatMap_append h []
    rw [List.append_nil, decodeAll_nil] at hdecode
    simpa [Except.map] using hdecode

theorem decodeAll_eq_ok_iff_decodes {bs : Bytes} {ms : List Module} :
    decodeAll bs = .ok ms ↔
      ∃ rs : List AnyRecord, bs = rs.flatMap AnyRecord.encode ∧
        List.Forall₂ (fun r m => r.decode = .ok m) rs ms := by
  constructor
  · intro h
    obtain ⟨rs, ms', rest, rfl, hall, rfl | ⟨e, hfault⟩⟩ := exists_decoded_prefix bs
    · rw [List.append_nil] at h ⊢
      exact ⟨rs, rfl, decodeAll_flatMap_eq_ok_iff.mp h⟩
    · rw [decodeAll_flatMap_append hall, decodeAll_of_frontFault hfault] at h
      cases h
  · rintro ⟨rs, rfl, hall⟩
    exact decodeAll_flatMap_eq_ok_iff.mpr hall

theorem decodeAll_eq_error_iff {bs : Bytes} {e : Fault} :
    decodeAll bs = .error e ↔
      ∃ (rs : List AnyRecord) (ms : List Module) (rest : Bytes),
        bs = rs.flatMap AnyRecord.encode ++ rest ∧
          List.Forall₂ (fun r m => r.decode = .ok m) rs ms ∧ FrontFault rest e := by
  constructor
  · intro h
    obtain ⟨rs, ms, rest, rfl, hall, rfl | ⟨e', hfault⟩⟩ := exists_decoded_prefix bs
    · rw [decodeAll_flatMap_append hall, decodeAll_nil] at h
      cases h
    · have hfail := decodeAll_of_frontFault hfault
      rw [decodeAll_flatMap_append hall, hfail] at h
      cases h
      exact ⟨rs, ms, rest, rfl, hall, hfault⟩
  · rintro ⟨rs, ms, rest, rfl, hall, hfault⟩
    rw [decodeAll_flatMap_append hall, decodeAll_of_frontFault hfault]
    rfl

theorem exists_forall₂_decode_iff {rs : List AnyRecord} :
    (∃ ms, List.Forall₂ (fun (r : AnyRecord) (m : Module) => r.decode = .ok m) rs ms) ↔
      ∀ r ∈ rs, ∃ m, r.decode = .ok m := by
  induction rs with
  | nil => simp
  | cons r rs ih =>
    rw [List.forall_mem_cons, ← ih]
    constructor
    · rintro ⟨_, h⟩
      obtain ⟨m, ms, hm, hms, rfl⟩ := List.forall₂_cons_left_iff.mp h
      exact ⟨⟨m, hm⟩, ⟨ms, hms⟩⟩
    · rintro ⟨⟨m, hm⟩, ⟨ms, hms⟩⟩
      exact ⟨m :: ms, .cons hm hms⟩

theorem exists_decodeAll_iff {bs : Bytes} :
    (∃ ms, decodeAll bs = .ok ms) ↔
      ∃ rs : List AnyRecord, bs = rs.flatMap AnyRecord.encode ∧
        ∀ r ∈ rs, ∃ code m,
          Enumeration.ofByte? r.tag = some code ∧ decode code r.value = .ok m := by
  constructor
  · rintro ⟨ms, h⟩
    obtain ⟨rs, hrs, hall⟩ := decodeAll_eq_ok_iff_decodes.mp h
    refine ⟨rs, hrs, fun r hr => ?_⟩
    obtain ⟨m, hm⟩ := exists_forall₂_decode_iff.mp ⟨ms, hall⟩ r hr
    obtain ⟨code, htag, hvalue⟩ := AnyRecord.decode_eq_ok_iff.mp hm
    exact ⟨code, m, htag, hvalue⟩
  · rintro ⟨rs, rfl, hall⟩
    have hdecode : ∀ r ∈ rs, ∃ m, r.decode = .ok m := fun r hr => by
      obtain ⟨code, m, htag, hvalue⟩ := hall r hr
      exact ⟨m, AnyRecord.decode_eq_ok_iff.mpr ⟨code, htag, hvalue⟩⟩
    obtain ⟨ms, hms⟩ := exists_forall₂_decode_iff.mpr hdecode
    exact ⟨ms, decodeAll_flatMap_eq_ok_iff.mpr hms⟩

theorem count_of_decodeAll {bs : Bytes} {ms : List Module} (h : decodeAll bs = .ok ms) :
    Record.count bs = .ok ms.length := by
  obtain ⟨rs, hrs, hall⟩ := decodeAll_eq_ok_iff_decodes.mp h
  exact Record.count_eq_ok_iff_flatMap.mpr ⟨rs, hall.length_eq, hrs⟩

theorem exists_error_of_count_error {bs : Bytes} {e : Fault} (h : Record.count bs = .error e) :
    ∃ e', decodeAll bs = .error e' := by
  cases hdecode : decodeAll bs with
  | error e' => exact ⟨e', rfl⟩
  | ok ms =>
    rw [count_of_decodeAll hdecode] at h
    cases h

end Module

/-! ## As loops over places

Here an octet is looked up only at a place that has one, and a loop goes only so many rounds:
`none` is a place outside of the octets, or a loop that has not stopped. -/

namespace Record

/-- Where the record at a place ends. -/
def endOf? (bs : Bytes) (place : Nat) : Option (Except Fault Nat) :=
  let remaining := bs.length - place
  if remaining < Limits.recordHeaderSize then
    some (.error (.insufficient Limits.recordHeaderSize remaining))
  else
    bs[place + 1]?.map fun len =>
      let size := Limits.recordHeaderSize + len.toNat
      if remaining < size then .error (.insufficient size remaining) else .ok (place + size)

/-- Goes from the end of one record to the end of the next and counts them. -/
def walk (bs : Bytes) (rounds place found : Nat) : Option (Except Fault Nat) :=
  if place < bs.length then
    match rounds with
    | 0 => none
    | rounds + 1 =>
      match endOf? bs place with
      | none => none
      | some (.error e) => some (.error e)
      | some (.ok next) => walk bs rounds next (found + 1)
  else some (.ok found)

theorem remaining_of_drop {bs left : Bytes} {place : Nat} (h : bs.drop place = left) :
    bs.length - place = left.length := by
  rw [← List.length_drop, h]

theorem endOf?_of_drop {bs rest : Bytes} {place : Nat} {tag len : UInt8}
    (h : bs.drop place = tag :: len :: rest) :
    endOf? bs place = some (if len.toNat ≤ rest.length
      then .ok (place + (Limits.recordHeaderSize + len.toNat))
      else .error (.insufficient (Limits.recordHeaderSize + len.toNat) (rest.length + 2))) := by
  have hremaining : bs.length - place = rest.length + 2 := remaining_of_drop h
  have hlen : bs[place + 1]? = some len := by
    rw [← List.getElem?_drop, h]
    rfl
  simp only [endOf?, hremaining, hlen, Limits.recordHeaderSize, Option.map_some]
  rw [if_neg (by omega)]
  by_cases hle : len.toNat ≤ rest.length
  · rw [if_pos hle, if_neg (by omega)]
  · rw [if_neg hle, if_pos (by omega)]

/-- Each round goes on by a record, which is two octets or more. -/
theorem walk_eq {bs : Bytes} {rounds place found : Nat} (hplace : place ≤ bs.length)
    (hrounds : bs.length - place ≤ 2 * rounds) :
    walk bs rounds place found = some ((count (bs.drop place)).map (found + ·)) := by
  induction rounds generalizing place found with
  | zero =>
    have hend : bs.length ≤ place := by omega
    rw [walk, if_neg (Nat.not_lt.mpr hend), List.drop_eq_nil_of_le hend, count]
    rfl
  | succ rounds ih =>
    rcases hdrop : bs.drop place with _ | ⟨tag, _ | ⟨len, rest⟩⟩
    · have hend := List.drop_eq_nil_iff.mp hdrop
      rw [walk, if_neg (Nat.not_lt.mpr hend), count]
      rfl
    · have hremaining : bs.length - place = 1 := remaining_of_drop hdrop
      have hend : endOf? bs place = some (.error (.insufficient Limits.recordHeaderSize 1)) := by
        simp [endOf?, hremaining, Limits.recordHeaderSize]
      rw [walk, if_pos (by omega), count]
      simp only [hend]
      rfl
    · have hremaining : bs.length - place = rest.length + 2 := remaining_of_drop hdrop
      rw [walk, if_pos (by omega), count]
      simp only [endOf?_of_drop hdrop]
      by_cases hle : len.toNat ≤ rest.length
      · -- the octets behind the record are those that the recursion goes on with
        have hnext : bs.drop (place + (Limits.recordHeaderSize + len.toNat)) =
            rest.drop len.toNat := by
          rw [← List.drop_drop, hdrop, Limits.recordHeaderSize, Nat.add_comm 2]
          rfl
        simp only [if_pos hle]
        rw [ih (by simp only [Limits.recordHeaderSize]; omega)
          (by simp only [Limits.recordHeaderSize]; omega), hnext]
        cases count (rest.drop len.toNat) with
        | error e => rfl
        | ok n => simp [Except.map, Nat.add_comm, Nat.add_left_comm]
      · simp only [if_neg hle]
        rfl

theorem le_of_endOf? {bs : Bytes} {place next : Nat} (h : endOf? bs place = some (.ok next)) :
    place + 2 ≤ next ∧ next ≤ bs.length := by
  have hheader : Limits.recordHeaderSize = 2 := rfl
  simp only [endOf?] at h
  split at h
  · cases h
  · obtain ⟨len, _, hlen⟩ := Option.map_eq_some_iff.mp h
    split at hlen
    · cases hlen
    · cases hlen
      omega

/-- The first octets and the others, if there are as many. -/
def split? (n : Nat) (bs : Bytes) : Option (Bytes × Bytes) :=
  if n ≤ bs.length then some (bs.take n, bs.drop n) else none

/-- Takes the code and the value of a record off the front, by looking at one octet after another.
On failure everything stays. -/
def cut? (bs : Bytes) : Option (Except Fault (ModuleCode × Bytes) × Bytes) :=
  if bs.length < Limits.recordHeaderSize then
    some (.error (.insufficient Limits.recordHeaderSize bs.length), bs)
  else do
    let tag ← bs[0]?
    match (Enumeration.ofByte? tag : Option ModuleCode) with
    | none => some (.error (.unknownModule tag), bs)
    | some code =>
      let len ← bs[1]?
      let size := Limits.recordHeaderSize + len.toNat
      if bs.length < size then some (.error (.insufficient size bs.length), bs)
      else do
        let (_, body) ← split? Limits.recordHeaderSize bs
        let (value, rest) ← split? len.toNat body
        return (.ok (code, value), rest)

theorem cut?_eq (bs : Bytes) :
    cut? bs = some ((take bs).1.map fun r => (r.code, r.value), (take bs).2) := by
  match bs with
  | [] => rfl
  | [tag] => rfl
  | tag :: len :: rest =>
    unfold cut? take
    rw [if_neg (by simp [Limits.recordHeaderSize])]
    simp only [List.getElem?_cons_zero, List.getElem?_cons_succ, Option.bind_eq_bind,
      Option.bind_some]
    cases (Enumeration.ofByte? tag : Option ModuleCode) with
    | none => rfl
    | some code =>
      by_cases hle : len.toNat ≤ rest.length
      · have hsize : ¬(tag :: len :: rest).length < Limits.recordHeaderSize + len.toNat := by
          simp only [List.length_cons, Limits.recordHeaderSize]
          omega
        simp only [if_neg hsize, if_pos hle]
        simp [split?, Limits.recordHeaderSize, hle, Except.map]
      · have hsize : (tag :: len :: rest).length < Limits.recordHeaderSize + len.toNat := by
          simp only [List.length_cons, Limits.recordHeaderSize]
          omega
        simp only [if_pos hsize, if_neg hle]
        rfl

theorem length_of_cut? {bs value rest : Bytes} {code : ModuleCode}
    (h : cut? bs = some (.ok (code, value), rest)) :
    rest.length + 2 ≤ bs.length ∧ value.length + 2 ≤ bs.length := by
  rw [cut?_eq] at h
  rcases htake : take bs with ⟨outcome, left⟩
  rw [htake] at h
  obtain ⟨hvalue, hrest⟩ := Prod.mk.inj (Option.some.inj h)
  obtain ⟨r, rfl, hparts⟩ := map_eq_ok.mp hvalue
  obtain rfl : left = rest := hrest
  cases hparts
  have hlength := length_of_take htake
  simp only [size, Limits.recordHeaderSize] at hlength
  omega

end Record

namespace Module

/-- A hydrophone of its four aspects in order. -/
def ofAspects : List Module → Except Fault Module
  | [hydrophoneStatus status, hydrophoneLogging logging, hydrophoneStreaming streaming,
      hydrophoneStats stats] => .ok (hydrophone ⟨status, logging, streaming, stats⟩)
  | _ => .error (.payload .hydrophoneShape)

theorem decode_hydrophone (value : Bytes) :
    decode .hydrophone value = decodeAll value >>= ofAspects := by
  rw [decode]
  cases decodeAll value with
  | error e => rfl
  | ok ms =>
    show _ = ofAspects ms
    split
    · rename_i hms
      cases hms
      rfl
    · rename_i hshape hms
      cases hms
      unfold ofAspects
      split
      · exact absurd rfl (hshape _ _ _ _)
      · rfl
    · rename_i hms
      cases hms

/-- Decodes a value under a code, where `inner` reads the records within a hydrophone. -/
def decodeWith (inner : Bytes → Option (Except Fault (List Module))) (code : ModuleCode)
    (value : Bytes) : Option (Except Fault Module) :=
  match code with
  | .hydrophone => (inner value).map (· >>= ofAspects)
  | code => some (decode code value)

theorem decodeWith_eq {inner : Bytes → Option (Except Fault (List Module))} {value : Bytes}
    (h : inner value = some (decodeAll value)) (code : ModuleCode) :
    decodeWith inner code value = some (decode code value) := by
  cases code
  case hydrophone => rw [decodeWith, h, decode_hydrophone, Option.map_some]
  all_goals rfl

/-- Takes record after record off the front and keeps the modules.  The records within the value
of a hydrophone are read by the same loop. -/
def read (rounds : Nat) (found : List Module) (bs : Bytes) :
    Option (Except Fault (List Module)) :=
  if bs.isEmpty then some (.ok found)
  else
    match rounds with
    | 0 => none
    | rounds + 1 =>
      match Record.cut? bs with
      | none => none
      | some (.error e, _) => some (.error e)
      | some (.ok (code, value), rest) =>
        match decodeWith (read rounds []) code value with
        | none => none
        | some (.error e) => some (.error e)
        | some (.ok m) => read rounds (found ++ [m]) rest

/-- Both the value and the rest are shorter than the octets by the two of the header. -/
theorem read_eq {rounds : Nat} {found : List Module} {bs : Bytes}
    (h : bs.length ≤ 2 * rounds) :
    read rounds found bs = some ((decodeAll bs).map (found ++ ·)) := by
  induction rounds generalizing found bs with
  | zero =>
    obtain rfl : bs = [] := List.eq_nil_of_length_eq_zero (by omega)
    rw [read, decodeAll_nil]
    simp [Except.map]
  | succ rounds ih =>
    by_cases hnil : bs = []
    · subst hnil
      rw [read, decodeAll_nil]
      simp [Except.map]
    rw [read, if_neg (by simpa using hnil)]
    simp only [Record.cut?_eq]
    rcases htake : Record.take bs with ⟨e | r, rest⟩
    · rw [decodeAll_of_take_error hnil htake]
      rfl
    · have hlength := Record.length_of_take htake
      simp only [Record.size, Limits.recordHeaderSize] at hlength
      have hinner : read rounds [] r.value = some (decodeAll r.value) := by
        rw [ih (by omega)]
        cases decodeAll r.value <;> rfl
      rw [decodeAll_of_take htake]
      simp only [Except.map, decodeWith_eq hinner]
      cases decode r.code r.value with
      | error e => rfl
      | ok m =>
        show read rounds (found ++ [m]) rest = _
        rw [ih (by omega)]
        cases decodeAll rest with
        | error e => rfl
        | ok ms => simp [Except.map, bind, Except.bind, pure, Except.pure]

/-- Three hydrophones, each within the value of the one before, take a round each. -/
example : read 3 [] [0x69, 4, 0x69, 2, 0x69, 0] = some (.error (.payload .hydrophoneShape)) := rfl

end Module

/-! ## Agreement -/

/-- The framing check and decoding cut octets at the same places. -/
structure CutAlike (bs : Bytes) : Prop where
  /-- The framing check counts the records that the octets are made of. -/
  counted : ∀ n, Record.count bs = .ok n ↔
    ∃ rs : List AnyRecord, rs.length = n ∧ bs = rs.flatMap AnyRecord.encode
  /-- The framing check tells what is missing of the record that is cut short. -/
  broken : ∀ e, Record.count bs = .error e ↔
    ∃ (rs : List AnyRecord) (rest : Bytes),
      bs = rs.flatMap AnyRecord.encode ++ rest ∧ CutShort rest e
  /-- Decoding succeeds on records that have known tags and values that decode. -/
  accepted : (∃ ms, Module.decodeAll bs = .ok ms) ↔
    ∃ rs : List AnyRecord, bs = rs.flatMap AnyRecord.encode ∧
      ∀ r ∈ rs, ∃ code m,
        Enumeration.ofByte? r.tag = some code ∧ Module.decode code r.value = .ok m
  /-- There are as many modules as the framing check counts. -/
  sameCount : ∀ ms, Module.decodeAll bs = .ok ms → Record.count bs = .ok ms.length
  /-- Each module is decoded from the record at its place. -/
  inOrder : ∀ (rs : List AnyRecord) ms, bs = rs.flatMap AnyRecord.encode →
    (Module.decodeAll bs = .ok ms ↔ List.Forall₂ (fun r m => r.decode = .ok m) rs ms)
  /-- Octets with broken framing are not decoded. -/
  refused : ∀ e, Record.count bs = .error e → ∃ e', Module.decodeAll bs = .error e'
  /-- Decoding tells what is wrong with the first faulty record. -/
  firstFault : ∀ e, Module.decodeAll bs = .error e ↔
    ∃ (rs : List AnyRecord) (ms : List Module) (rest : Bytes),
      bs = rs.flatMap AnyRecord.encode ++ rest ∧
        List.Forall₂ (fun r m => r.decode = .ok m) rs ms ∧ FrontFault rest e
  /-- A round of the framing check goes on by two octets or more and stays within the octets. -/
  walkOn : ∀ place next, Record.endOf? bs place = some (.ok next) →
    place + 2 ≤ next ∧ next ≤ bs.length
  /-- A round of decoding leaves two octets less, and the value too is shorter by two. -/
  readOn : ∀ code value rest, Record.cut? bs = some (.ok (code, value), rest) →
    rest.length + 2 ≤ bs.length ∧ value.length + 2 ≤ bs.length
  /-- Both loops stop after a round for every two octets, with every octet looked up in range. -/
  stops : ∀ rounds, bs.length ≤ 2 * rounds →
    Record.walk bs rounds 0 0 = some (Record.count bs) ∧
      Module.read rounds [] bs = some (Module.decodeAll bs)

theorem cutAlike (bs : Bytes) : CutAlike bs where
  counted _ := Record.count_eq_ok_iff_flatMap
  broken _ := Record.count_eq_error_iff
  accepted := Module.exists_decodeAll_iff
  sameCount _ := Module.count_of_decodeAll
  inOrder rs ms := by
    rintro rfl
    exact Module.decodeAll_flatMap_eq_ok_iff
  refused _ := Module.exists_error_of_count_error
  firstFault _ := Module.decodeAll_eq_error_iff
  walkOn _ _ := Record.le_of_endOf?
  readOn _ _ _ := Record.length_of_cut?
  stops rounds h := by
    constructor
    · rw [Record.walk_eq (Nat.zero_le _) h, List.drop_zero]
      cases Record.count bs <;> simp [Except.map]
    · rw [Module.read_eq h]
      cases Module.decodeAll bs <;> rfl

end AcousticNode

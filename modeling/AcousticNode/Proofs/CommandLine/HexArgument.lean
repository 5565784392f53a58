import AcousticNode.CommandLine.HexArgument
import AcousticNode.Proofs.Outcome
import Mathlib.Data.List.Forall2

/-!
# Hexadecimal arguments are read back

What was printed in hexadecimal may be typed in again with white space and colons anywhere and with
each digit in either letter case.  These texts are read as the octets that were printed, and no
others are.

* `toList_toUTF8` : the octets of a text, character by character;
* `Hex.decode_eq_ok_iff` : the octets that spell a byte string have the values of its digits;
* `Hex.spells_iff` : the texts that spell the same digits;
* `readHexArgument_eq_ok_iff` : these are the texts that are read as one byte string.
-/

set_option autoImplicit false

namespace AcousticNode

open Outcome

/-! ## The octets of a text -/

theorem toList_loop_octets (octets : ByteArray) (i : Nat) (seen : Bytes) :
    ByteArray.toList.loop octets i seen = seen.reverse ++ octets.data.toList.drop i := by
  fun_induction ByteArray.toList.loop octets i seen with
  | case1 i seen h ih =>
    have hi : i < octets.data.toList.length := by simpa using h
    rw [ih, List.drop_eq_getElem_cons hi]
    simp [ByteArray.get!, h]
  | case2 i seen h =>
    rw [List.drop_eq_nil_of_le (by simpa using Nat.le_of_not_lt h), List.append_nil]

theorem toList_octets (octets : ByteArray) : octets.toList = octets.data.toList := by
  rw [ByteArray.toList, toList_loop_octets]
  rfl

theorem toList_toUTF8 (text : List Char) :
    (String.ofList text).toUTF8.toList = text.flatMap String.utf8EncodeChar := by
  rw [toList_octets, String.toUTF8_eq_toByteArray, String.toByteArray_ofList, List.utf8Encode,
    List.data_toByteArray]

theorem utf8EncodeChar_of_lt {c : Char} (h : c.toNat < 128) :
    String.utf8EncodeChar c = [Hex.octet c] :=
  if_pos (Nat.le_of_lt_succ h)

/-- The last octet of a character beyond 127 holds six bits behind a marker. -/
theorem exists_octet_of_le {c : Char} (h : 128 ≤ c.toNat) :
    ∃ b ∈ String.utf8EncodeChar c, 128 ≤ b.toNat := by
  have hlong : ¬ c.val.toNat ≤ 127 := Nat.not_le.mpr h
  refine ⟨UInt8.ofNat (c.val.toNat % 64 + 128), ?_, ?_⟩
  · rw [String.utf8EncodeChar, if_neg hlong]
    split
    · simp
    · split <;> simp
  · rw [UInt8.toNat_ofNat']
    omega

namespace Hex

/-! ## Digits in either letter case -/

/-- A character is the digit of a value, in lower or in upper case. -/
def Denotes (c : Char) (n : Fin 16) : Prop := c = digit n ∨ c = (digit n).toUpper

theorem Denotes.lt {c : Char} {n : Fin 16} (h : Denotes c n) : c.toNat < 128 := by
  rcases h with rfl | rfl <;> revert n <;> decide

theorem Denotes.not_separator {c : Char} {n : Fin 16} (h : Denotes c n) :
    isSeparator c = false := by
  rcases h with rfl | rfl <;> revert n <;> decide

theorem Denotes.value?_octet {c : Char} {n : Fin 16} (h : Denotes c n) :
    value? (octet c) = some n.val := by
  rcases h with rfl | rfl <;> revert n <;> decide

theorem denotes_of_value? : ∀ (m : Fin 128) (n : Fin 16),
    value? (UInt8.ofNat m) = some n.val →
      Char.ofNat m = digit n ∨ Char.ofNat m = (digit n).toUpper := by
  decide

theorem denotes_iff {c : Char} (h : c.toNat < 128) (n : Fin 16) :
    Denotes c n ↔ value? (octet c) = some n.val := by
  refine ⟨Denotes.value?_octet, fun hvalue => ?_⟩
  have hc := denotes_of_value? ⟨c.toNat, h⟩ n hvalue
  rwa [Char.ofNat_toNat] at hc

theorem lt_of_value? {b : UInt8} {n : Nat} (h : value? b = some n) : n < 16 ∧ b.toNat < 128 := by
  simp only [value?] at h
  split at h
  · cases h
    omega
  · split at h
    · cases h
      omega
    · split at h
      · cases h
        omega
      · cases h

theorem high_lt (b : UInt8) : b.toNat / 16 < 16 := by
  have hb : b.toNat < 256 := b.toNat_lt
  omega

theorem low_lt (b : UInt8) : b.toNat % 16 < 16 := Nat.mod_lt _ (by decide)

/-- The values of the digits of a byte string. -/
def values : Bytes → List (Fin 16)
  | [] => []
  | b :: bs => ⟨b.toNat / 16, high_lt b⟩ :: ⟨b.toNat % 16, low_lt b⟩ :: values bs

theorem encodeChars_eq (bs : Bytes) :
    encodeChars bs = (values bs).map fun n : Fin 16 => digit n := by
  induction bs with
  | nil => rfl
  | cons b bs ih => rw [encodeChars, ih, values, List.map_cons, List.map_cons]

theorem length_values (bs : Bytes) : (values bs).length = 2 * bs.length := by
  rw [← length_encodeChars, encodeChars_eq, List.length_map]

/-- An octet of text is the digit of a value. -/
def Spell (b : UInt8) (n : Fin 16) : Prop := value? b = some n.val

theorem decodePairs_of_forall₂ {octets bs : Bytes}
    (h : List.Forall₂ Spell octets (values bs)) (i : Nat) : decodePairs i octets = .ok bs := by
  induction bs generalizing octets i with
  | nil =>
    cases h
    rfl
  | cons b bs ih =>
    rcases h with _ | ⟨hhigh, _ | ⟨hlow, hrest⟩⟩
    rw [Spell] at hhigh hlow
    simp only [decodePairs, hhigh, hlow, ih hrest, Except.map]
    rw [Nat.div_add_mod, UInt8.ofNat_toNat]

theorem forall₂_of_decodePairs {octets bs : Bytes} {i : Nat} (h : decodePairs i octets = .ok bs) :
    List.Forall₂ Spell octets (values bs) := by
  fun_induction decodePairs i octets generalizing bs with
  | case1 =>
    cases h
    exact .nil
  | case2 => cases h
  | case3 => cases h
  | case4 => cases h
  | case5 i hi lo rest high low hlow hhigh ih =>
    obtain ⟨bs, hbs, rfl⟩ := map_eq_ok.mp h
    have hhigh' := (lt_of_value? hhigh).1
    have hlow' := (lt_of_value? hlow).1
    have hbyte : (UInt8.ofNat (16 * high + low)).toNat = 16 * high + low := by
      rw [UInt8.toNat_ofNat']
      omega
    refine .cons ?_ (.cons ?_ (ih hbs))
    · rw [Spell, hhigh]
      exact congrArg some (by simp only [hbyte]; omega)
    · rw [Spell, hlow]
      exact congrArg some (by simp only [hbyte]; omega)

theorem decode_eq_ok_iff {octets bs : Bytes} :
    decode octets = .ok bs ↔ List.Forall₂ Spell octets (values bs) := by
  constructor
  · intro h
    rw [decode] at h
    split at h
    · exact forall₂_of_decodePairs h
    · cases h
  · intro h
    have heven : octets.length % 2 = 0 := by rw [h.length_eq, length_values, Nat.mul_mod_right]
    rw [decode, if_pos heven, decodePairs_of_forall₂ h]

/-- No character beyond 127 has the octets of digits. -/
theorem forall₂_spell_iff {text : List Char} {ns : List (Fin 16)} :
    List.Forall₂ Spell (text.flatMap String.utf8EncodeChar) ns ↔ List.Forall₂ Denotes text ns := by
  have hshort : (∀ c ∈ text, c.toNat < 128) →
      text.flatMap String.utf8EncodeChar = text.map octet := fun h => by
    rw [List.map_eq_flatMap]
    exact List.flatMap_congr fun c hc => utf8EncodeChar_of_lt (h c hc)
  constructor
  · intro h
    have hoctets : ∀ b ∈ text.flatMap String.utf8EncodeChar, b.toNat < 128 :=
      ((List.forall₂_and_left _ _).mp (h.imp fun _ _ hb => ⟨(lt_of_value? hb).2, hb⟩)).1
    have hlt : ∀ c ∈ text, c.toNat < 128 := fun c hc => by
      by_contra hlong
      obtain ⟨b, hb, hle⟩ := exists_octet_of_le (Nat.not_lt.mp hlong)
      exact absurd (hoctets b (List.mem_flatMap.mpr ⟨c, hc, hb⟩)) (Nat.not_lt.mpr hle)
    rw [hshort hlt, List.forall₂_map_left_iff] at h
    exact ((List.forall₂_and_left _ _).mpr ⟨hlt, h⟩).imp fun c n hc =>
      (denotes_iff hc.1 n).mpr hc.2
  · intro h
    have hlt : ∀ c ∈ text, c.toNat < 128 :=
      ((List.forall₂_and_left _ _).mp (h.imp fun _ _ hc => ⟨hc.lt, hc⟩)).1
    rw [hshort hlt, List.forall₂_map_left_iff]
    exact h.imp fun _ _ hc => hc.value?_octet

/-! ## Separators -/

/-- Text that spells digits: they come in order, each in either letter case, and white space and
colons stand anywhere. -/
inductive Spells : List Char → List Char → Prop where
  | nil : Spells [] []
  | separator {c : Char} {text digits : List Char} (hc : isWhiteSpace c = true ∨ c = ':')
    (h : Spells text digits) : Spells (c :: text) digits
  | digit {c d : Char} {text digits : List Char} (hc : c = d ∨ c = d.toUpper)
    (h : Spells text digits) : Spells (c :: text) (d :: digits)

theorem isSeparator_iff {c : Char} : isSeparator c = true ↔ isWhiteSpace c = true ∨ c = ':' := by
  rw [isSeparator, Bool.or_eq_true, beq_iff_eq]

theorem Spells.denotes {text : List Char} {ns : List (Fin 16)}
    (h : Spells text (ns.map fun n : Fin 16 => Hex.digit n)) :
    List.Forall₂ Denotes (text.filter fun c => !isSeparator c) ns := by
  generalize hdigits : ns.map (fun n : Fin 16 => Hex.digit n) = digits at h
  induction h generalizing ns with
  | nil =>
    obtain rfl := List.map_eq_nil_iff.mp hdigits
    exact .nil
  | separator hc _ ih =>
    rw [List.filter_cons_of_neg (by simp [isSeparator_iff.mpr hc])]
    exact ih hdigits
  | digit hc _ ih =>
    obtain ⟨n, ns, rfl, rfl, hrest⟩ := List.map_eq_cons_iff.mp hdigits
    have hn : Denotes _ n := hc
    rw [List.filter_cons_of_pos (by simp [hn.not_separator])]
    exact .cons hn (ih hrest)

theorem spells_of_denotes {text : List Char} {ns : List (Fin 16)}
    (h : List.Forall₂ Denotes (text.filter fun c => !isSeparator c) ns) :
    Spells text (ns.map fun n : Fin 16 => Hex.digit n) := by
  induction text generalizing ns with
  | nil =>
    cases h
    exact .nil
  | cons c text ih =>
    by_cases hc : isSeparator c = true
    · rw [List.filter_cons_of_neg (by simp [hc])] at h
      exact .separator (isSeparator_iff.mp hc) (ih h)
    · rw [List.filter_cons_of_pos (by simp [hc])] at h
      rcases h with _ | ⟨hn, hrest⟩
      exact .digit hn (ih hrest)

theorem spells_iff {text : List Char} {ns : List (Fin 16)} :
    Spells text (ns.map fun n : Fin 16 => Hex.digit n) ↔
      List.Forall₂ Denotes (text.filter fun c => !isSeparator c) ns :=
  ⟨Spells.denotes, spells_of_denotes⟩

end Hex

/-- **Arguments are read whatever their separators and letter case**, and nothing else is read. -/
theorem readHexArgument_eq_ok_iff {argument : String} {bs : Bytes} :
    readHexArgument argument = .ok bs ↔
      Hex.Spells argument.toList (Hex.encode bs).toList := by
  rw [readHexArgument, compactHex, toList_toUTF8, Hex.decode_eq_ok_iff, Hex.forall₂_spell_iff,
    Hex.encode, String.toList_ofList, Hex.encodeChars_eq, Hex.spells_iff]

end AcousticNode

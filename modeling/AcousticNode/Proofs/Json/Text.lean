import AcousticNode.Json.Reader
import AcousticNode.Json.Writer

/-!
# Strings and numbers in JSON texts

A string is read back from its quoted form, whatever characters it has, and a natural number
from its digits, unless what follows carries the number on.

* `stringRest_quoted` : strings;
* `number_toDigits` : natural numbers.
-/

set_option autoImplicit false

namespace AcousticNode.Json

/-! ## Pieces of strings -/

variable {c e : Char} {ps : List Piece} {t s : List Char}

theorem pieces_plain (hquote : c ≠ '"') (hslash : c ≠ '\\') (hcontrol : ¬ c.toNat < 32)
    (h : pieces t = some (ps, s)) : pieces (c :: t) = some (.char c :: ps, s) := by
  rw [pieces.eq_def]
  split
  · rename_i heq
    cases heq
  · rename_i heq
    exact absurd (List.cons.inj heq).1 hquote
  · rename_i heq
    exact absurd (List.cons.inj heq).1 hslash
  · rename_i heq
    exact absurd (List.cons.inj heq).1 hslash
  · rename_i heq
    obtain ⟨rfl, rfl⟩ := List.cons.inj heq
    rw [if_neg (not_or.mpr ⟨hslash, hcontrol⟩), h]
    rfl

theorem pieces_simple (hunit : e ≠ 'u') (hescape : simpleEscape? e = some c)
    (h : pieces t = some (ps, s)) : pieces ('\\' :: e :: t) = some (.char c :: ps, s) := by
  rw [pieces, hescape, h]
  · rfl
  · intro a b c d rest heq _
    exact hunit heq

theorem pieces_unit {a b c d : Char} {n : Nat} (hunit : hexUnit? a b c d = some n)
    (h : pieces t = some (ps, s)) :
    pieces ('\\' :: 'u' :: a :: b :: c :: d :: t) = some (.unit n :: ps, s) := by
  rw [pieces, hunit, h]
  rfl

/-- Code units outside the surrogates stand for characters of their own. -/
theorem assemble_unit {n : Nat} (hlead : isLeading n = false) (htrail : isTrailing n = false)
    (ps : List Piece) :
    assemble (.unit n :: ps) = (assemble ps).map (Char.ofNat n :: ·) := by
  cases ps with
  | nil => simp [assemble, hlead, htrail]
  | cons p ps =>
    cases p with
    | char c => simp [assemble, hlead, htrail]
    | unit m => simp [assemble, hlead, htrail]

/-! ## Strings -/

theorem hexValue?_digit : ∀ n : Fin 16, hexValue? (Hex.digit n.val) = some n.val := by decide

theorem hexUnit?_digits {n : Nat} (h : n < 32) :
    hexUnit? '0' '0' (Hex.digit (n / 16 % 16)) (Hex.digit (n % 16)) = some n := by
  have hhigh : hexValue? (Hex.digit (n / 16 % 16)) = some (n / 16 % 16) :=
    hexValue?_digit ⟨n / 16 % 16, Nat.mod_lt _ (by decide)⟩
  have hlow : hexValue? (Hex.digit (n % 16)) = some (n % 16) :=
    hexValue?_digit ⟨n % 16, Nat.mod_lt _ (by decide)⟩
  have hzero : hexValue? '0' = some 0 := by decide
  simp only [hexUnit?, hhigh, hlow, hzero, bind, Option.bind, pure, Option.some.injEq]
  omega

/-- Every character is written as one piece, and the piece stands for the character. -/
theorem exists_piece (c : Char) :
    ∃ p, (∀ {t ps s}, pieces t = some (ps, s) → pieces (escape c ++ t) = some (p :: ps, s)) ∧
      ∀ ps, assemble (p :: ps) = (assemble ps).map (c :: ·) := by
  have hchar : ∀ ps, assemble (.char c :: ps) = (assemble ps).map (c :: ·) := fun _ => by
    rw [assemble]
  unfold escape
  split
  · subst_vars
    exact ⟨_, pieces_simple (by decide) rfl, hchar⟩
  split
  · subst_vars
    exact ⟨_, pieces_simple (by decide) rfl, hchar⟩
  split
  · subst_vars
    exact ⟨_, pieces_simple (by decide) rfl, hchar⟩
  split
  · subst_vars
    exact ⟨_, pieces_simple (by decide) rfl, hchar⟩
  split
  · subst_vars
    exact ⟨_, pieces_simple (by decide) rfl, hchar⟩
  split
  · rename_i height
    obtain rfl : c = Char.ofNat 8 := by rw [← height, Char.ofNat_toNat]
    exact ⟨_, pieces_simple (by decide) rfl, hchar⟩
  split
  · rename_i htwelve
    obtain rfl : c = Char.ofNat 12 := by rw [← htwelve, Char.ofNat_toNat]
    exact ⟨_, pieces_simple (by decide) rfl, hchar⟩
  split
  · rename_i hcontrol
    have hdigits : Hex.digits 4 c.toNat =
        ['0', '0', Hex.digit (c.toNat / 16 % 16), Hex.digit (c.toNat % 16)] := by
      have hthird : c.toNat / 16 / 16 % 16 = 0 := by omega
      have hfourth : c.toNat / 16 / 16 / 16 % 16 = 0 := by omega
      simp only [Hex.digits, hthird, hfourth, List.nil_append, List.cons_append]
      rfl
    have hlead : isLeading c.toNat = false := by
      simp only [isLeading, Bool.and_eq_false_imp, decide_eq_true_iff, decide_eq_false_iff_not]
      omega
    have htrail : isTrailing c.toNat = false := by
      simp only [isTrailing, Bool.and_eq_false_imp, decide_eq_true_iff, decide_eq_false_iff_not]
      omega
    rw [hdigits]
    refine ⟨_, pieces_unit (hexUnit?_digits hcontrol), fun ps => ?_⟩
    rw [assemble_unit hlead htrail, Char.ofNat_toNat]
  · rename_i hquote hslash _ _ _ _ _ hcontrol
    exact ⟨_, pieces_plain hquote hslash hcontrol, hchar⟩

theorem exists_pieces (cs rest : List Char) :
    ∃ ps, pieces (cs.flatMap escape ++ '"' :: rest) = some (ps, rest) ∧ assemble ps = some cs := by
  induction cs with
  | nil => exact ⟨[], by rw [List.flatMap_nil, List.nil_append, pieces], by rw [assemble]⟩
  | cons c cs ih =>
    obtain ⟨ps, hpieces, hassemble⟩ := ih
    obtain ⟨p, hfirst, hstands⟩ := exists_piece c
    refine ⟨p :: ps, ?_, ?_⟩
    · rw [List.flatMap_cons, List.append_assoc]
      exact hfirst hpieces
    · rw [hstands, hassemble]
      rfl

theorem stringRest_quoted (str : String) (rest : List Char) :
    stringRest (str.toList.flatMap escape ++ '"' :: rest) = some (some str, rest) := by
  obtain ⟨ps, hpieces, hassemble⟩ := exists_pieces str.toList rest
  simp only [stringRest, hpieces, hassemble, bind, Option.bind, pure, Option.map_some,
    String.ofList_toList]

/-! ## Natural numbers -/

/-- Whether a character carries a number on. -/
def carriesOn (c : Char) : Bool := c.isDigit || c == '.' || c == 'e' || c == 'E'

/-- What may follow a number. -/
def Stops (rest : List Char) : Prop := ∀ c ∈ rest.head?, carriesOn c = false

theorem stops_nil : Stops [] := nofun

theorem stops_cons (h : carriesOn c = false) (rest : List Char) : Stops (c :: rest) := by
  intro d hd
  cases hd
  exact h

theorem digits1_append {ds rest : List Char} (hne : ds ≠ []) (hds : ∀ c ∈ ds, c.isDigit = true)
    (hrest : Stops rest) : digits1 (ds ++ rest) = some (ds, rest) := by
  have hstop : rest.takeWhile Char.isDigit = [] ∧ rest.dropWhile Char.isDigit = rest := by
    cases rest with
    | nil => exact ⟨rfl, rfl⟩
    | cons c rest =>
      have hc : c.isDigit = false := by
        have := hrest c rfl
        simp only [carriesOn, Bool.or_eq_false_iff] at this
        exact this.1.1.1
      exact ⟨List.takeWhile_cons_of_neg (by simp [hc]), List.dropWhile_cons_of_neg (by simp [hc])⟩
  have htake : (ds ++ rest).takeWhile Char.isDigit = ds := by
    rw [List.takeWhile_append_of_pos hds, hstop.1, List.append_nil]
  have hdrop : (ds ++ rest).dropWhile Char.isDigit = rest := by
    rw [List.dropWhile_append_of_pos hds, hstop.2]
  simp only [digits1, htake, hdrop]
  rw [if_neg (by simpa using hne)]

theorem isDigit_of_mem_toDigits {n : Nat} (h : c ∈ Nat.toDigits 10 n) : c.isDigit = true :=
  Nat.isDigit_of_mem_toDigits (by decide) (by decide) h

/-- The digits of a number do not start with a zero, unless the number is zero. -/
theorem head_toDigits_ne_zero {n : Nat} (hpos : 0 < n) :
    ∃ d ds, Nat.toDigits 10 n = d :: ds ∧ d ≠ '0' := by
  induction n using Nat.strongRecOn with
  | ind n ih =>
    by_cases hsmall : n < 10
    · have hdigit : ∀ k : Fin 10, 0 < k.val → Nat.digitChar k.val ≠ '0' := by decide
      exact ⟨_, [], Nat.toDigits_of_lt_base hsmall, hdigit ⟨n, hsmall⟩ hpos⟩
    · obtain ⟨d, ds, hds, hd⟩ := ih (n / 10) (by omega) (by omega)
      refine ⟨d, ds ++ [Nat.digitChar (n % 10)], ?_, hd⟩
      rw [Nat.toDigits_of_base_le (by decide) (by omega), hds]
      rfl

theorem integerPart_toDigits (n : Nat) {rest : List Char} (hrest : Stops rest) :
    integerPart (Nat.toDigits 10 n ++ rest) = some (Nat.toDigits 10 n, rest) := by
  rcases Nat.eq_zero_or_pos n with rfl | hpos
  · rfl
  · have hdigits :=
      digits1_append (@Nat.toDigits_ne_nil n 10) (fun _ => isDigit_of_mem_toDigits) hrest
    obtain ⟨d, ds, hds, hd⟩ := head_toDigits_ne_zero hpos
    rw [hds] at hdigits ⊢
    rw [← hdigits]
    unfold integerPart
    split
    · rename_i heq
      exact absurd (List.cons.inj heq).1 hd
    · rfl

theorem decimal_toDigits (n : Nat) : decimal (Nat.toDigits 10 n) = n :=
  Nat.ofDigitChars_ten_toDigits

theorem unsigned_toDigits (n : Nat) {rest : List Char} (hrest : Stops rest) :
    unsigned (Nat.toDigits 10 n ++ rest) = some (natural n, rest) := by
  have hfraction : fraction rest = some (false, rest) := by
    unfold fraction
    split
    · exact absurd (hrest '.' rfl) (by decide)
    · rfl
  have hexponent : exponent rest = some (false, rest) := by
    unfold exponent
    split
    · rename_i c rest
      have hc := hrest c rfl
      rw [if_neg]
      rintro (rfl | rfl)
      · exact absurd hc (by decide)
      · exact absurd hc (by decide)
    · rfl
  simp only [unsigned, integerPart_toDigits n hrest, hfraction, hexponent, bind, Option.bind,
    pure, decimal_toDigits, Bool.or_false, Bool.false_eq_true, if_false]

theorem number_toDigits (n : Nat) {rest : List Char} (hrest : Stops rest) :
    number (Nat.toDigits 10 n ++ rest) = some (natural n, rest) := by
  unfold number
  split
  · rename_i tail heq
    cases hdigits : Nat.toDigits 10 n with
    | nil => exact absurd hdigits Nat.toDigits_ne_nil
    | cons d ds =>
      rw [hdigits] at heq
      have hd : d.isDigit = true := isDigit_of_mem_toDigits (hdigits ▸ List.mem_cons_self)
      rw [(List.cons.inj heq).1] at hd
      exact absurd hd (by decide)
  · exact unsigned_toDigits n hrest

end AcousticNode.Json

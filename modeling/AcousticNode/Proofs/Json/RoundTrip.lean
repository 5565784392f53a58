import AcousticNode.Proofs.Json.Text

/-!
# JSON values survive their texts

A value that keeps everything it was read from is read back from its text over several lines.

* `readBack_of_faithful` : at any depth, and whatever follows that stops a number;
* `readFront_pretty` : the whole text of a value.
-/

set_option autoImplicit false

namespace AcousticNode.Json

/-- A value whose text says all of it: no number but natural ones, no broken strings. -/
inductive Faithful : Json → Prop where
  | null : Faithful null
  | bool (b : Bool) : Faithful (bool b)
  | natural (n : Nat) : Faithful (natural n)
  | text (s : String) : Faithful (text s)
  | array {js : List Json} (h : ∀ j ∈ js, Faithful j) : Faithful (array js)
  | object {ms : List (Option String × Json)} (names : ∀ m ∈ ms, m.1.isSome)
      (h : ∀ m ∈ ms, Faithful m.2) : Faithful (object ms)

/-! ## Blanks -/

/-- A text that starts with something other than a blank or a closing bracket. -/
def Opens (s : List Char) : Prop :=
  ∃ c t, s = c :: t ∧ isBlank c = false ∧ c ≠ ']' ∧ c ≠ '\x7d'

theorem opens_of_isDigit {c : Char} (h : c.isDigit = true) (t : List Char) : Opens (c :: t) := by
  refine ⟨c, t, rfl, ?_, ?_, ?_⟩
  · simp only [isBlank, Bool.or_eq_false_iff, decide_eq_false_iff_not]
    refine ⟨⟨⟨?_, ?_⟩, ?_⟩, ?_⟩ <;> (rintro rfl; revert h; decide)
  · rintro rfl
    exact absurd h (by decide)
  · rintro rfl
    exact absurd h (by decide)

theorem opens_pretty (depth : Nat) (j : Json) : Opens (prettyChars depth j) := by
  cases j with
  | null => exact ⟨'n', _, rfl, by decide, by decide, by decide⟩
  | bool b =>
    cases b
    · exact ⟨'f', _, rfl, by decide, by decide, by decide⟩
    · exact ⟨'t', _, rfl, by decide, by decide, by decide⟩
  | natural n =>
    have hchars : prettyChars depth (.natural n) = Nat.toDigits 10 n := by
      simp only [prettyChars, scalarChars]
    cases hdigits : Nat.toDigits 10 n with
    | nil => exact absurd hdigits Nat.toDigits_ne_nil
    | cons d ds =>
      rw [hchars, hdigits]
      exact opens_of_isDigit (isDigit_of_mem_toDigits (hdigits ▸ List.mem_cons_self)) ds
  | otherNumber => exact ⟨'-', _, rfl, by decide, by decide, by decide⟩
  | text s => exact ⟨'"', _, rfl, by decide, by decide, by decide⟩
  | brokenText => exact ⟨'"', _, rfl, by decide, by decide, by decide⟩
  | array js =>
    cases js <;> simp only [prettyChars] <;> exact ⟨'[', _, rfl, by decide, by decide, by decide⟩
  | object ms =>
    cases ms <;> simp only [prettyChars] <;>
      exact ⟨'\x7b', _, rfl, by decide, by decide, by decide⟩

theorem skipBlanks_of_opens {s : List Char} (h : Opens s) (rest : List Char) :
    skipBlanks (s ++ rest) = s ++ rest := by
  obtain ⟨c, t, rfl, hblank, _⟩ := h
  exact List.dropWhile_cons_of_neg (by simp [hblank])

theorem skipBlanks_newline (depth : Nat) (s : List Char) :
    skipBlanks (newline depth ++ s) = skipBlanks s := by
  refine List.dropWhile_append_of_pos fun c hc => ?_
  simp only [newline, List.mem_cons, List.mem_replicate] at hc
  rcases hc with rfl | ⟨_, rfl⟩ <;> decide

theorem skipBlanks_skipBlanks (s : List Char) : skipBlanks (skipBlanks s) = skipBlanks s := by
  induction s with
  | nil => rfl
  | cons c s ih =>
    unfold skipBlanks at *
    rw [List.dropWhile_cons]
    split
    · exact ih
    · rename_i hc
      exact List.dropWhile_cons_of_neg hc

theorem stops_newline (depth : Nat) (s : List Char) : Stops (newline depth ++ s) :=
  stops_cons (by decide) _

/-! ## Items -/

/-- A value is read back, whatever follows and however deep it stands. -/
def ReadBack (j : Json) : Prop :=
  ∀ (fuel depth : Nat) (rest : List Char), Stops rest → (prettyChars depth j).length ≤ fuel →
    value fuel (prettyChars depth j ++ rest) = some (j, rest)

theorem items_skipBlanks (fuel : Nat) (s : List Char) :
    items fuel (skipBlanks s) = items fuel s := by
  cases fuel with
  | zero => rfl
  | succ fuel => rw [items, items, skipBlanks_skipBlanks]

theorem members_skipBlanks (fuel : Nat) (s : List Char) :
    members fuel (skipBlanks s) = members fuel s := by
  cases fuel with
  | zero => rfl
  | succ fuel => rw [members, members, skipBlanks_skipBlanks]

theorem prettyItems_cons_cons (depth : Nat) (j k : Json) (ks : List Json) :
    prettyItems depth (j :: k :: ks) =
      newline depth ++ prettyChars depth j ++ ',' :: prettyItems depth (k :: ks) := by
  rw [prettyItems]
  exact nofun

theorem exists_prettyItems (depth : Nat) (j : Json) (js : List Json) :
    ∃ tail, prettyItems depth (j :: js) = newline depth ++ (prettyChars depth j ++ tail) := by
  cases js with
  | nil => exact ⟨[], by rw [prettyItems, List.append_nil]⟩
  | cons k ks => exact ⟨_, by rw [prettyItems_cons_cons, List.append_assoc]⟩

/-- What follows an item is a comma or the end of the array, and neither carries a number on. -/
theorem items_pretty {js : List Json} (hne : js ≠ []) (hback : ∀ j ∈ js, ReadBack j)
    {fuel depth : Nat} (outer : Nat) (rest : List Char)
    (hfuel : (prettyItems depth js).length ≤ fuel) :
    items fuel (prettyItems depth js ++ (newline outer ++ ']' :: rest)) = some (js, rest) := by
  induction js generalizing fuel with
  | nil => exact absurd rfl hne
  | cons j js ih =>
    have hj : ReadBack j := hback j List.mem_cons_self
    have hlong : 0 < (newline depth).length := Nat.succ_pos _
    cases fuel with
    | zero => cases js <;> simp [prettyItems, newline] at hfuel
    | succ fuel =>
      cases js with
      | nil =>
        simp only [prettyItems, List.length_append] at hfuel
        have hvalue := hj fuel depth (newline outer ++ ']' :: rest) (stops_newline _ _) (by omega)
        rw [items, prettyItems, List.append_assoc, skipBlanks_newline,
          skipBlanks_of_opens (opens_pretty depth j), hvalue]
        simp only [bind, Option.bind, skipBlanks_newline]
        rfl
      | cons k ks =>
        simp only [prettyItems_cons_cons, List.length_append, List.length_cons] at hfuel
        have hvalue := hj fuel depth
          (',' :: (prettyItems depth (k :: ks) ++ (newline outer ++ ']' :: rest)))
          (stops_cons (by decide) _) (by omega)
        have hitems : items fuel (prettyItems depth (k :: ks) ++ (newline outer ++ ']' :: rest)) =
            some (k :: ks, rest) :=
          ih (by simp) (fun i hi => hback i (List.mem_cons_of_mem _ hi)) (by omega)
        rw [items, prettyItems_cons_cons, List.append_assoc, List.append_assoc,
          skipBlanks_newline, List.cons_append, skipBlanks_of_opens (opens_pretty depth j), hvalue]
        have hcomma : ∀ t, skipBlanks (',' :: t) = ',' :: t := fun _ => rfl
        simp only [bind, Option.bind, hcomma, hitems]
        rfl

/-! ## Members -/

theorem prettyMembers_cons_cons (depth : Nat) (name : String) (j : Json)
    (m : Option String × Json) (ms : List (Option String × Json)) :
    prettyMembers depth ((some name, j) :: m :: ms) =
      newline depth ++ quoted name.toList ++ ':' :: ' ' :: (prettyChars depth j ++
        ',' :: prettyMembers depth (m :: ms)) := by
  rw [prettyMembers, nameChars]
  exact nofun

theorem prettyMembers_singleton (depth : Nat) (name : String) (j : Json) :
    prettyMembers depth [(some name, j)] =
      newline depth ++ quoted name.toList ++ ':' :: ' ' :: prettyChars depth j := by
  rw [prettyMembers, nameChars]

theorem exists_prettyMembers (depth : Nat) (m : Option String × Json)
    (ms : List (Option String × Json)) :
    ∃ tail, prettyMembers depth (m :: ms) = newline depth ++ '"' :: tail := by
  obtain ⟨name, j⟩ := m
  have hname : ∃ t, nameChars name = '"' :: t := by
    cases name with
    | none => exact ⟨_, rfl⟩
    | some s => exact ⟨_, rfl⟩
  obtain ⟨t, ht⟩ := hname
  cases ms with
  | nil => exact ⟨_, by rw [prettyMembers, ht, List.append_assoc, List.cons_append]⟩
  | cons k ks =>
    refine ⟨t ++ ':' :: ' ' :: (prettyChars depth j ++ ',' :: prettyMembers depth (k :: ks)), ?_⟩
    rw [prettyMembers, ht, List.append_assoc, List.cons_append]
    exact nofun

/-- One member of an object, up to what follows its value. -/
theorem members_succ {fuel depth : Nat} {name : String} {j : Json} (hj : ReadBack j)
    {rest : List Char} (hrest : Stops rest) (hfuel : (prettyChars depth j).length ≤ fuel) :
    members (fuel + 1)
        (newline depth ++ (quoted name.toList ++ ':' :: ' ' :: (prettyChars depth j ++ rest))) =
      match skipBlanks rest with
      | ',' :: rest => do
        let (ms, rest) ← members fuel rest
        return ((some name, j) :: ms, rest)
      | '\x7d' :: rest => return ([(some name, j)], rest)
      | _ => none := by
  have hquote : ∀ t, skipBlanks ('"' :: t) = '"' :: t := fun _ => rfl
  have hcolon : ∀ t, skipBlanks (':' :: t) = ':' :: t := fun _ => rfl
  have hspace : ∀ t, skipBlanks (' ' :: t) = skipBlanks t := fun _ => rfl
  have hname := stringRest_quoted name (':' :: ' ' :: (prettyChars depth j ++ rest))
  have hvalue := hj fuel depth rest hrest hfuel
  rw [members, skipBlanks_newline, quoted, List.cons_append, hquote, List.append_assoc,
    List.singleton_append]
  simp only [hname, bind, Option.bind, hcolon, hspace, skipBlanks_of_opens (opens_pretty depth j)]
  exact hvalue ▸ rfl

theorem members_pretty {ms : List (Option String × Json)} (hne : ms ≠ [])
    (hnames : ∀ m ∈ ms, m.1.isSome) (hback : ∀ m ∈ ms, ReadBack m.2)
    {fuel depth : Nat} (outer : Nat) (rest : List Char)
    (hfuel : (prettyMembers depth ms).length ≤ fuel) :
    members fuel (prettyMembers depth ms ++ (newline outer ++ '\x7d' :: rest)) =
      some (ms, rest) := by
  induction ms generalizing fuel with
  | nil => exact absurd rfl hne
  | cons m ms ih =>
    obtain ⟨name, j⟩ := m
    obtain ⟨name, rfl⟩ := Option.isSome_iff_exists.mp (hnames _ List.mem_cons_self)
    have hj : ReadBack j := hback _ List.mem_cons_self
    cases fuel with
    | zero => cases ms <;> simp [prettyMembers, newline] at hfuel
    | succ fuel =>
      cases ms with
      | nil =>
        simp only [prettyMembers_singleton, List.length_append, List.length_cons] at hfuel
        simp only [prettyMembers_singleton, List.append_assoc, List.cons_append]
        rw [members_succ hj (stops_newline _ _) (by omega), skipBlanks_newline]
        rfl
      | cons k ks =>
        simp only [prettyMembers_cons_cons, List.length_append, List.length_cons] at hfuel
        have hmembers : members fuel
            (prettyMembers depth (k :: ks) ++ (newline outer ++ '\x7d' :: rest)) =
              some (k :: ks, rest) :=
          ih (by simp) (fun m hm => hnames m (List.mem_cons_of_mem _ hm))
            (fun m hm => hback m (List.mem_cons_of_mem _ hm)) (by omega)
        have hcomma : ∀ t, skipBlanks (',' :: t) = ',' :: t := fun _ => rfl
        simp only [prettyMembers_cons_cons, List.append_assoc, List.cons_append]
        rw [members_succ hj (stops_cons (by decide) _) (by omega), hcomma]
        simp only [hmembers]
        rfl

/-! ## Values -/

theorem value_of_isDigit {c : Char} (h : c.isDigit = true) (fuel : Nat) (s : List Char) :
    value (fuel + 1) (c :: s) = number (c :: s) := by
  rw [value]
  · exact nofun
  all_goals
    intro rest heq
    cases heq
    exact absurd h (by decide)

theorem readBack_natural (n : Nat) : ReadBack (natural n) := by
  intro fuel depth rest hrest hfuel
  have hchars : prettyChars depth (natural n) = Nat.toDigits 10 n := by
    simp only [prettyChars, scalarChars]
  rw [hchars] at hfuel ⊢
  cases hdigits : Nat.toDigits 10 n with
  | nil => exact absurd hdigits Nat.toDigits_ne_nil
  | cons d ds =>
    have hd : d.isDigit = true := isDigit_of_mem_toDigits (hdigits ▸ List.mem_cons_self)
    cases fuel with
    | zero => simp [hdigits] at hfuel
    | succ fuel =>
      rw [List.cons_append, value_of_isDigit hd, ← List.cons_append, ← hdigits]
      exact number_toDigits n hrest

theorem value_array {fuel : Nat} {s : List Char} (h : (skipBlanks s).head? ≠ some ']') :
    value (fuel + 1) ('[' :: s) = (items fuel s).map fun (js, rest) => (array js, rest) := by
  rw [value, ← items_skipBlanks]
  split
  · rename_i heq
    rw [heq] at h
    exact absurd rfl h
  · rfl

theorem value_object {fuel : Nat} {s : List Char} (h : (skipBlanks s).head? ≠ some '\x7d') :
    value (fuel + 1) ('\x7b' :: s) = (members fuel s).map fun (ms, rest) => (object ms, rest) := by
  rw [value, ← members_skipBlanks]
  split
  · rename_i heq
    rw [heq] at h
    exact absurd rfl h
  · rfl

theorem readBack_array {js : List Json} (hback : ∀ j ∈ js, ReadBack j) : ReadBack (array js) := by
  intro fuel depth rest hrest hfuel
  cases fuel with
  | zero => cases js <;> simp [prettyChars] at hfuel
  | succ fuel =>
    cases js with
    | nil => rfl
    | cons j js =>
      have hchars : prettyChars depth (array (j :: js)) =
          '[' :: (prettyItems (depth + 1) (j :: js) ++ newline depth ++ [']']) := by
        rw [prettyChars]
        exact nofun
      rw [hchars] at hfuel ⊢
      simp only [List.length_cons, List.length_append] at hfuel
      have hitems := items_pretty (by simp) hback depth rest
        (show (prettyItems (depth + 1) (j :: js)).length ≤ fuel by omega)
      have hopens : (skipBlanks (prettyItems (depth + 1) (j :: js) ++
          (newline depth ++ ']' :: rest))).head? ≠ some ']' := by
        obtain ⟨tail, htail⟩ := exists_prettyItems (depth + 1) j js
        rw [htail, List.append_assoc, skipBlanks_newline, List.append_assoc,
          skipBlanks_of_opens (opens_pretty _ j)]
        obtain ⟨c, t, hc, _, hsquare, _⟩ := opens_pretty (depth + 1) j
        rw [hc]
        exact fun heq => hsquare (Option.some.inj heq)
      simp only [List.cons_append, List.append_assoc, List.nil_append]
      rw [value_array hopens, hitems]
      rfl

theorem readBack_object {ms : List (Option String × Json)} (hnames : ∀ m ∈ ms, m.1.isSome)
    (hback : ∀ m ∈ ms, ReadBack m.2) : ReadBack (object ms) := by
  intro fuel depth rest hrest hfuel
  cases fuel with
  | zero => cases ms <;> simp [prettyChars] at hfuel
  | succ fuel =>
    cases ms with
    | nil => rfl
    | cons m ms =>
      have hchars : prettyChars depth (object (m :: ms)) =
          '\x7b' :: (prettyMembers (depth + 1) (m :: ms) ++ newline depth ++ ['\x7d']) := by
        rw [prettyChars]
        exact nofun
      rw [hchars] at hfuel ⊢
      simp only [List.length_cons, List.length_append] at hfuel
      have hmembers := members_pretty (by simp) hnames hback depth rest
        (show (prettyMembers (depth + 1) (m :: ms)).length ≤ fuel by omega)
      have hopens : (skipBlanks (prettyMembers (depth + 1) (m :: ms) ++
          (newline depth ++ '\x7d' :: rest))).head? ≠ some '\x7d' := by
        obtain ⟨tail, htail⟩ := exists_prettyMembers (depth + 1) m ms
        rw [htail, List.append_assoc, skipBlanks_newline]
        exact fun heq => absurd (Option.some.inj heq) (by decide)
      simp only [List.cons_append, List.append_assoc, List.nil_append]
      rw [value_object hopens, hmembers]
      rfl

theorem readBack_text (s : String) : ReadBack (text s) := by
  intro fuel depth rest _ hfuel
  have hchars : prettyChars depth (text s) = quoted s.toList := by
    simp only [prettyChars, scalarChars]
  rw [hchars] at hfuel ⊢
  cases fuel with
  | zero => simp [quoted] at hfuel
  | succ fuel =>
    have hstring := stringRest_quoted s rest
    simp only [quoted, List.cons_append, List.append_assoc, List.nil_append]
    rw [value, hstring]
    rfl

theorem readBack_null : ReadBack null := by
  intro fuel depth rest _ hfuel
  cases fuel with
  | zero => simp [prettyChars, scalarChars] at hfuel
  | succ fuel => rfl

theorem readBack_bool (b : Bool) : ReadBack (bool b) := by
  intro fuel depth rest _ hfuel
  cases fuel with
  | zero => cases b <;> simp [prettyChars, scalarChars] at hfuel
  | succ fuel => cases b <;> rfl

theorem readBack_of_faithful {j : Json} (h : Faithful j) : ReadBack j := by
  induction h with
  | null => exact readBack_null
  | bool b => exact readBack_bool b
  | natural n => exact readBack_natural n
  | text s => exact readBack_text s
  | array h ih => exact readBack_array ih
  | object names h ih => exact readBack_object names ih

theorem readFront_pretty {j : Json} (h : Faithful j) :
    readFront j.pretty.toList = some (j, []) := by
  have hvalue := readBack_of_faithful h (2 * (prettyChars 0 j).length + 2) 0 [] stops_nil (by omega)
  have hblanks := skipBlanks_of_opens (opens_pretty 0 j) []
  rw [List.append_nil] at hvalue hblanks
  rw [readFront, pretty, String.toList_ofList, hblanks, hvalue]

end AcousticNode.Json

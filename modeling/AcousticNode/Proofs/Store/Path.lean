import AcousticNode.Store.Walk

/-!
# Staging paths

The pieces of a path are its names between slashes, and a path is staged under another name in
the same folder.

* `pieces_join` : joining pieces undoes cutting;
* `stem_append_ne` : the name of the staging file is not the name of the target;
* `pieces_staging` : nothing else of the path is changed.
-/

set_option autoImplicit false

namespace AcousticNode.Path

/-! ## Pieces -/

theorem pieces_of_not_mem {p : List Char} (h : '/' ∉ p) : pieces p = [p] := by
  induction p with
  | nil => rfl
  | cons c p ih =>
    rw [List.mem_cons, not_or] at h
    rw [pieces, if_neg (Ne.symm h.1), ih h.2]

theorem pieces_append_slash {p : List Char} (h : '/' ∉ p) (rest : List Char) :
    pieces (p ++ '/' :: rest) = p :: pieces rest := by
  induction p with
  | nil => rw [List.nil_append, pieces, if_pos rfl]
  | cons c p ih =>
    rw [List.mem_cons, not_or] at h
    rw [List.cons_append, pieces, if_neg (Ne.symm h.1), ih h.2]

theorem not_mem_of_mem_pieces {cs p : List Char} (h : p ∈ pieces cs) : '/' ∉ p := by
  induction cs generalizing p with
  | nil =>
    rw [pieces, List.mem_singleton] at h
    subst h
    exact List.not_mem_nil
  | cons c cs ih =>
    rw [pieces] at h
    split at h
    · rcases List.mem_cons.mp h with rfl | h
      · exact List.not_mem_nil
      · exact ih h
    · rename_i hc
      split at h
      · rename_i hnil
        exact absurd hnil (pieces_ne_nil cs)
      · rename_i q qs hqs
        rw [hqs] at ih
        rcases List.mem_cons.mp h with rfl | h
        · rw [List.mem_cons, not_or]
          exact ⟨Ne.symm hc, ih List.mem_cons_self⟩
        · exact ih (List.mem_cons_of_mem _ h)

theorem pieces_join {ps : List (List Char)} (hne : ps ≠ []) (h : ∀ p ∈ ps, '/' ∉ p) :
    pieces (join ps) = ps := by
  induction ps with
  | nil => exact absurd rfl hne
  | cons p ps ih =>
    have hp : '/' ∉ p := h p List.mem_cons_self
    cases ps with
    | nil => exact pieces_of_not_mem hp
    | cons q qs =>
      rw [join, pieces_append_slash hp]
      · rw [ih (by simp) fun r hr => h r (List.mem_cons_of_mem _ hr)]
      · exact List.cons_ne_nil q qs

/-- Whether a path starts at the outermost folder is a matter of what stands before its names. -/
theorem head?_join_append {p q : List Char} (hp : '/' ∉ p) (hq : '/' ∉ q) (hp' : p ≠ [])
    (hq' : q ≠ []) (ps rest rest' : List (List Char)) :
    ((join (ps ++ p :: rest)).head? == some '/') =
      ((join (ps ++ q :: rest')).head? == some '/') := by
  have hbare : ∀ (r : List Char) (rs : List (List Char)), '/' ∉ r → r ≠ [] →
      ((join (r :: rs)).head? == some '/') = false := by
    intro r rs hslash hne
    cases r with
    | nil => exact absurd rfl hne
    | cons c r =>
      rw [List.mem_cons, not_or] at hslash
      have hhead : (join ((c :: r) :: rs)).head? = some c := by cases rs <;> rfl
      rw [hhead]
      exact beq_eq_false_iff_ne.mpr fun heq => hslash.1 (Option.some.inj heq).symm
  cases ps with
  | nil => rw [List.nil_append, List.nil_append, hbare p rest hp hp', hbare q rest' hq hq']
  | cons r rs =>
    have hjoin : ∀ xs : List (List Char), xs ≠ [] → ∃ tail, join (r :: xs) = r ++ '/' :: tail :=
      fun xs hxs => ⟨join xs, by rw [join]; exact hxs⟩
    obtain ⟨_, hleft⟩ := hjoin (rs ++ p :: rest) (by simp)
    obtain ⟨_, hright⟩ := hjoin (rs ++ q :: rest') (by simp)
    rw [List.cons_append, List.cons_append, hleft, hright]
    cases r <;> rfl

/-! ## Names -/

/-- What is dropped from the end of a list. -/
theorem exists_dropped {α : Type} (p : α → Bool) (l : List α) :
    ∃ tail, (∀ a ∈ tail, p a = true) ∧ l = (l.reverse.dropWhile p).reverse ++ tail := by
  refine ⟨(l.reverse.takeWhile p).reverse, fun a ha => ?_, ?_⟩
  · have hall := List.all_takeWhile (p := p) (l := l.reverse)
    exact List.all_eq_true.mp hall a (List.mem_reverse.mp ha)
  · rw [← List.reverse_append, List.takeWhile_append_dropWhile, List.reverse_reverse]

theorem head_of_dropWhile {α : Type} {p : α → Bool} {l : List α} {a : α} {as : List α}
    (h : l.dropWhile p = a :: as) : p a = false := by
  have hhead := List.head?_dropWhile_not p l
  rwa [h] at hhead

/-- A name is its stem, or its stem and an extension without dots. -/
theorem eq_stem_or (name : List Char) :
    stem name = name ∨ ∃ extension, '.' ∉ extension ∧ name = stem name ++ '.' :: extension := by
  unfold stem
  obtain ⟨extension, hextension, hname⟩ := exists_dropped (fun c => decide (c ≠ '.')) name
  cases hdrop : name.reverse.dropWhile fun c => decide (c ≠ '.') with
  | nil => exact .inl rfl
  | cons c before =>
    simp only [List.drop_one, List.tail_cons]
    split
    · exact .inl rfl
    · refine .inr ⟨extension, ?_, ?_⟩
      · exact fun hdot => by simpa using hextension '.' hdot
      · have hdot : c = '.' := by simpa using head_of_dropWhile hdrop
        rw [hdrop, hdot] at hname
        simpa using hname

theorem mem_of_mem_stem {name : List Char} {c : Char} (h : c ∈ stem name) : c ∈ name := by
  rcases eq_stem_or name with heq | ⟨extension, _, heq⟩
  · rwa [heq] at h
  · rw [heq]
    exact List.mem_append_left _ h

/-- The extension that the staging file gets has a dot of its own. -/
theorem stem_append_ne (name : List Char) : stem name ++ ".json.tmp".toList ≠ name := by
  rcases eq_stem_or name with heq | ⟨extension, hdot, heq⟩
  · intro h
    have hlen := congrArg List.length h
    rw [heq, List.length_append] at hlen
    have hlong : 0 < ".json.tmp".toList.length := by decide
    omega
  · intro h
    have htail := List.append_cancel_left (h.trans heq)
    have hextension : "json.tmp".toList = extension := (List.cons.inj htail).2
    exact hdot (hextension ▸ by decide)

theorem stagingName_ne_nil (name : List Char) (bare : Bool) : stagingName name bare ≠ [] := by
  unfold stagingName
  split
  · exact List.cons_ne_nil _ _
  · exact List.append_ne_nil_of_right_ne_nil _ (by decide)

theorem not_mem_stagingName {name : List Char} (h : '/' ∉ name) (bare : Bool) :
    '/' ∉ stagingName name bare := by
  unfold stagingName
  split
  · decide
  · rw [List.mem_append, not_or]
    exact ⟨fun hmem => h (mem_of_mem_stem hmem), by decide⟩

/-! ## Staging -/

/-- The staging path has a name like the path itself, or leads to a folder: the path has no name,
or it ends in a step to the folder outside. -/
theorem pieces_staging (path : String) :
    (staging path = path ∧ ∃ before stills, (∀ p ∈ stills, isStill p = true) ∧
      pieces path.toList = before ++ stills ∧ ∀ p ∈ before.getLast?, isUp p = true) ∨
    ∃ before name stills bare, (∀ p ∈ stills, isStill p = true) ∧
      isStill name = false ∧ isUp name = false ∧
      pieces path.toList = before ++ name :: stills ∧
      pieces (staging path).toList = before ++ [stagingName name bare] ∧
      start (staging path) = start path := by
  obtain ⟨stills, hstills, hpieces⟩ := exists_dropped isStill (pieces path.toList)
  have hslash : ∀ p ∈ pieces path.toList, '/' ∉ p := fun p => not_mem_of_mem_pieces
  cases hdrop : (pieces path.toList).reverse.dropWhile isStill with
  | nil =>
    rw [hdrop] at hpieces
    refine .inl ⟨?_, [], stills, hstills, hpieces, nofun⟩
    simp only [staging, hdrop]
  | cons name before =>
    rw [hdrop, List.reverse_cons] at hpieces
    cases hup : isUp name with
    | true =>
      refine .inl ⟨?_, before.reverse ++ [name], stills, hstills, hpieces, fun p hp => ?_⟩
      · simp only [staging, hdrop, hup, if_true]
      · rw [List.getLast?_concat] at hp
        cases hp
        exact hup
    | false =>
      have hbefore : ∀ p ∈ before.reverse, '/' ∉ p := fun p hp =>
        hslash p (hpieces ▸ List.mem_append_left _ (List.mem_append_left _ hp))
      have hname : '/' ∉ name :=
        hslash name (hpieces ▸ List.mem_append_left _ (by simp))
      obtain ⟨bare, hstaging⟩ : ∃ bare,
          (staging path).toList = join (before.reverse ++ [stagingName name bare]) := by
        refine ⟨before.length + 1 == (pieces path.toList).length, ?_⟩
        simp only [staging, hdrop, hup, Bool.false_eq_true, if_false, String.toList_ofList,
          List.reverse_cons]
      have hnew := not_mem_stagingName hname bare
      refine .inr ⟨before.reverse, name, stills, bare, hstills, head_of_dropWhile hdrop, hup, ?_,
        ?_, ?_⟩
      · rw [hpieces, List.append_assoc, List.singleton_append]
      · rw [hstaging, pieces_join (by simp)]
        intro p hp
        rcases List.mem_append.mp hp with hp | hp
        · exact hbefore p hp
        · rw [List.mem_singleton.mp hp]
          exact hnew
      · have hne : name ≠ [] := by
          rintro rfl
          exact absurd (head_of_dropWhile hdrop) (by decide)
        have hpath : path.toList = join (before.reverse ++ name :: stills) := by
          rw [← join_pieces path.toList, hpieces, List.append_assoc, List.singleton_append]
        have hhead := head?_join_append hnew hname (stagingName_ne_nil name bare) hne
          before.reverse [] stills
        rw [start, start, isAbsolute, isAbsolute, hstaging, hpath, hhead]

end AcousticNode.Path

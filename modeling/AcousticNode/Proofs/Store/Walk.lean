import AcousticNode.Proofs.Store.Path

/-!
# Where paths lead

Whatever a path leads to stands in folders all the way down, since every piece of the path is
looked up in a folder.  So a path that ends in a step to the folder outside leads to a folder,
and a path and its staging path lead to different places in one folder.

* `rooted_of_walk` : what walking reaches;
* `exists_beside` : the staging file stands beside the target;
* `find?_erase_file` : a file that is taken away leads no path elsewhere.
-/

set_option autoImplicit false

namespace AcousticNode.FileTree

open AcousticNode.Path (isStill isUp)

variable {t : FileTree}

/-- Two names in two folders are the same spot only if both are the same. -/
theorem child_inj {folder folder' : Spot} {name name' : String} :
    folder.child name = folder'.child name' ↔ folder = folder' ∧ name = name' := by
  constructor
  · obtain ⟨base, names⟩ := folder
    obtain ⟨base', names'⟩ := folder'
    intro h
    cases h
    exact ⟨rfl, rfl⟩
  · rintro ⟨rfl, rfl⟩
    rfl

/-! ## Folders all the way down -/

/-- A spot such that every spot on the way to it is a folder. -/
inductive Rooted (t : FileTree) : Spot → Prop where
  | base (b : Base) : Rooted t ⟨b, []⟩
  | child {s : Spot} (name : String) (rooted : Rooted t s) (folder : t.isFolder s = true) :
      Rooted t (s.child name)

theorem isFolder_base (b : Base) : t.isFolder ⟨b, []⟩ = true := rfl

theorem Rooted.parent {s : Spot} (h : Rooted t s) :
    Rooted t s.parent ∧ t.isFolder s.parent = true := by
  cases h with
  | base b => exact ⟨.base b.outside, isFolder_base b.outside⟩
  | child name rooted folder => exact ⟨rooted, folder⟩

theorem rooted_start (path : String) : Rooted t (Path.start path) := by
  unfold Path.start
  split
  · exact .base .root
  · exact .base (.above 0)

theorem rooted_of_walk {ps : List (List Char)} {s d : Spot} (h : Rooted t s)
    (hwalk : t.walk s ps = some d) : Rooted t d := by
  induction ps generalizing s with
  | nil =>
    cases hwalk
    exact h
  | cons p ps ih =>
    rw [walk] at hwalk
    split at hwalk
    · cases hwalk
    · rename_i hfolder
      have hfolder : t.isFolder s = true := by simpa using hfolder
      split at hwalk
      · exact ih h hwalk
      · split at hwalk
        · exact ih h.parent.1 hwalk
        · split at hwalk
          · exact ih (.child _ h hfolder) hwalk
          · cases hwalk

theorem walk_append (s : Spot) (ps qs : List (List Char)) :
    t.walk s (ps ++ qs) = (t.walk s ps).bind fun d => t.walk d qs := by
  induction ps generalizing s with
  | nil => rfl
  | cons p ps ih =>
    simp only [List.cons_append, walk, ih]
    split
    · rfl
    · split
      · rfl
      · split
        · rfl
        · split <;> rfl

theorem walk_eq_append {s d : Spot} {ps qs : List (List Char)}
    (h : t.walk s (ps ++ qs) = some d) : ∃ e, t.walk s ps = some e ∧ t.walk e qs = some d := by
  rw [walk_append] at h
  exact Option.bind_eq_some_iff.mp h

/-! ## Single pieces -/

theorem isFolder_of_walk_cons {s d : Spot} {p : List Char} {ps : List (List Char)}
    (h : t.walk s (p :: ps) = some d) : t.isFolder s = true := by
  rw [walk] at h
  split at h
  · cases h
  · rename_i hfolder
    simpa using hfolder

theorem walk_stills {s d : Spot} {ps : List (List Char)} (hps : ∀ p ∈ ps, isStill p = true)
    (h : t.walk s ps = some d) : d = s := by
  induction ps with
  | nil =>
    cases h
    rfl
  | cons p ps ih =>
    rw [walk, isFolder_of_walk_cons h, hps p List.mem_cons_self] at h
    exact ih (fun q hq => hps q (List.mem_cons_of_mem _ hq)) h

/-- A last piece that is no name leads to a folder. -/
theorem isFolder_of_walk_singleton {s d : Spot} {p : List Char} (hs : Rooted t s)
    (hp : isStill p = true ∨ isUp p = true) (h : t.walk s [p] = some d) :
    t.isFolder d = true := by
  have hfolder := isFolder_of_walk_cons h
  rw [walk, hfolder] at h
  split at h
  · contradiction
  · split at h
    · cases h
      exact hfolder
    · rename_i hstill
      rw [if_pos (hp.resolve_left hstill)] at h
      cases h
      exact hs.parent.2

theorem eq_child_of_walk_singleton {s d : Spot} {p : List Char} (hstill : isStill p = false)
    (hup : isUp p = false) (h : t.walk s [p] = some d) : d = s.child (String.ofList p) := by
  rw [walk, isFolder_of_walk_cons h, hstill, hup] at h
  simp only [Bool.not_true, Bool.false_eq_true, if_false] at h
  split at h
  · cases h
    rfl
  · cases h

/-- A last piece that leads to a file is its name. -/
theorem eq_child_of_not_folder {s d : Spot} {p : List Char} (hs : Rooted t s)
    (hfile : t.isFolder d = false) (h : t.walk s [p] = some d) :
    isUp p = false ∧ d = s.child (String.ofList p) := by
  have hname : ¬ (isStill p = true ∨ isUp p = true) := by
    intro hp
    rw [isFolder_of_walk_singleton hs hp h] at hfile
    cases hfile
  rw [not_or, Bool.not_eq_true, Bool.not_eq_true] at hname
  exact ⟨hname.2, eq_child_of_walk_singleton hname.1 hname.2 h⟩

/-! ## Staging -/

theorem walk_of_find? {path : String} {d : Spot} (h : t.find? path = some d) :
    t.walk (Path.start path) (Path.pieces path.toList) = some d := by
  unfold find? at h
  split at h
  · exact h
  · cases h

/-- A path without a name, or one that ends in a step to the folder outside, names a folder. -/
theorem isFolder_of_find?_up {path : String} {d : Spot} {before stills : List (List Char)}
    (hstills : ∀ p ∈ stills, isStill p = true)
    (hpieces : Path.pieces path.toList = before ++ stills)
    (hup : ∀ p ∈ before.getLast?, isUp p = true) (h : t.find? path = some d) :
    t.isFolder d = true := by
  have hwalk := walk_of_find? h
  rw [hpieces] at hwalk
  obtain ⟨e, hbefore, hrest⟩ := walk_eq_append hwalk
  obtain rfl := walk_stills hstills hrest
  rcases List.eq_nil_or_concat before with rfl | ⟨outer, p, rfl⟩
  · cases hbefore
    unfold Path.start
    split <;> exact isFolder_base _
  · rw [List.concat_eq_append] at hbefore hup
    obtain ⟨f, hf, hlast⟩ := walk_eq_append hbefore
    have hp : isUp p = true := hup p (Option.mem_def.mpr List.getLast?_concat)
    exact isFolder_of_walk_singleton (rooted_of_walk (rooted_start path) hf) (.inr hp) hlast

theorem stagingName_ne {name : List Char} {bare : Bool}
    (h : isUp (Path.stagingName name bare) = false) : Path.stagingName name bare ≠ name := by
  unfold Path.stagingName at *
  split
  · rename_i hdots
    rw [if_pos hdots] at h
    exact absurd h (by decide)
  · exact Path.stem_append_ne name

/-- A file is staged in the folder of its target, under another name. -/
theorem exists_beside {path : String} {s d : Spot}
    (hs : t.find? (Path.staging path) = some s) (hfile : t.isFolder s = false)
    (hd : t.find? path = some d) :
    ∃ (folder : Spot) (name staged : String),
      d = folder.child name ∧ s = folder.child staged ∧ staged ≠ name := by
  rcases Path.pieces_staging path with ⟨hsame, before, stills, hstills, hpieces, hup⟩ |
    ⟨before, name, stills, bare, hstills, hstill, hup, hpieces, hstaging, hstart⟩
  · rw [hsame] at hs
    rw [isFolder_of_find?_up hstills hpieces hup hs] at hfile
    cases hfile
  · have htarget := walk_of_find? hd
    have hstaged := walk_of_find? hs
    have hsplit : before ++ name :: stills = (before ++ [name]) ++ stills := by simp
    rw [hpieces, hsplit] at htarget
    rw [hstaging, hstart] at hstaged
    -- what stands behind the name leads no further
    obtain ⟨e, htarget, hrest⟩ := walk_eq_append htarget
    obtain rfl := walk_stills hstills hrest
    obtain ⟨folder, hfolder, hlast⟩ := walk_eq_append htarget
    obtain ⟨folder', hfolder', hnew⟩ := walk_eq_append hstaged
    obtain rfl : folder' = folder := Option.some.inj (hfolder'.symm.trans hfolder)
    obtain ⟨hnewup, hs⟩ :=
      eq_child_of_not_folder (rooted_of_walk (rooted_start path) hfolder) hfile hnew
    refine ⟨folder', String.ofList name, _, eq_child_of_walk_singleton hstill hup hlast, hs, ?_⟩
    exact fun heq => stagingName_ne hnewup (String.ofList_injective heq)

theorem ne_of_find?_staging {path : String} {s d : Spot}
    (hs : t.find? (Path.staging path) = some s) (hfile : t.isFolder s = false)
    (hd : t.find? path = some d) : d ≠ s := by
  obtain ⟨folder, name, staged, rfl, rfl, hne⟩ := exists_beside hs hfile hd
  intro heq
  exact hne (child_inj.mp heq).2.symm

/-! ## Files that are taken away -/

theorem isFolder_erase_file {s : Spot} (h : t.isFolder s = false) (other : Spot) :
    (t.erase s).isFolder other = t.isFolder other := by
  have hs := names_ne_nil_of_not_folder h
  by_cases ho : other = s
  · subst ho
    rw [h]
    simp [isFolder, get?_erase t other hs]
  · simp [isFolder, get?_erase t other hs, ho]

theorem find?_erase_file {s : Spot} (h : t.isFolder s = false) (path : String) :
    (t.erase s).find? path = t.find? path := by
  have hwalk : ∀ ps start, (t.erase s).walk start ps = t.walk start ps := by
    intro ps
    induction ps with
    | nil => exact fun _ => rfl
    | cons p ps ih => intro start; simp only [walk, isFolder_erase_file h, ih]
  simp only [find?, front_erase, hwalk]

end AcousticNode.FileTree

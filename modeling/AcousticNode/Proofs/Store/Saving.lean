import AcousticNode.Proofs.Store.Working

/-!
# All or nothing

A save succeeds, and then the file holds the whole document and nothing is left of the staging file;
or it fails, and then whatever is under the path stays as it is, be it a file, a folder with all
that is in it, or nothing.  This is so in whatever state saves before it and others have left the
files.  A file is written here with all of its content or not at all; a save that is stopped in the
middle of its document is a case of its own, and touches the staging file only.

* `attempt` : the ways a save can go, and the tree that each leaves;
* `saved_of_save_ok` : every spot after a save that succeeds;
* `untouched_of_save_error`, `untouched_interrupted` : the path after a save that fails, or is
  stopped in the middle of the staging file;
* `run_holds` : what was saved stays until others change the file;
* `run_allOrNothing` : all of it, after any history.
-/

set_option autoImplicit false

namespace AcousticNode

/-! ## Spots within a folder -/

/-- A spot is another one, or is somewhere below it. -/
def Spot.Within (s outer : Spot) : Prop := s.base = outer.base ∧ outer.names <:+ s.names

theorem Spot.not_within_of_ne {folder : Spot} {name other : String} (h : other ≠ name) :
    ¬ (folder.child other).Within (folder.child name) := by
  rintro ⟨_, hsuffix⟩
  have hlist : name :: folder.names = other :: folder.names :=
    hsuffix.eq_of_length (by simp [child])
  exact h (List.cons.inj hlist).1.symm

namespace FileTree

variable {t : FileTree} {path : String}

theorem write?_of_not_offers (h : ¬ t.Offers path) (content : ByteArray) :
    t.write? path content = none := by
  cases hwrite : t.write? path content with
  | none => rfl
  | some t' =>
    obtain ⟨s, hs, hfile, _⟩ := write?_eq_some hwrite
    exact absurd ⟨s, hs, hfile⟩ h

theorem move?_of_not_offers (h : ¬ t.Offers path) (source : String) :
    t.move? source path = none := by
  cases hmove : t.move? source path with
  | none => rfl
  | some t' =>
    obtain ⟨_, d, _, _, hd, _, hfile, _⟩ := move?_eq_some hmove
    exact absurd ⟨d, hd, hfile⟩ h

/-- The tree with an entry that was put at one spot and moved to another. -/
def putThrough (t : FileTree) (through s : Spot) (e : Entry) : FileTree :=
  ((t.put through e).erase through).put s e

theorem get?_putThrough (t : FileTree) {through s : Spot} (other : Spot) (e : Entry)
    (hthrough : through.names.isEmpty = false) (hs : s.names.isEmpty = false) :
    (t.putThrough through s e).get? other =
      if other = s then some e else if other = through then none else t.get? other := by
  rw [putThrough, get?_put _ _ _ hs, get?_erase _ _ hthrough, get?_put _ _ _ hthrough]
  split
  · rfl
  · split <;> rfl

/-- A file that comes and goes, and one that comes, lead no path elsewhere. -/
theorem find?_putThrough {through s : Spot} (content : ByteArray)
    (hthrough : t.isFolder through = false) (hs : t.isFolder s = false) (path : String) :
    (t.putThrough through s (.file content)).find? path = t.find? path := by
  have hput := fun other => isFolder_put_file t content other hthrough
  have hthrough' : (t.put through (.file content)).isFolder through = false := by
    rw [hput, hthrough]
  have hs' : ((t.put through (.file content)).erase through).isFolder s = false := by
    rw [isFolder_erase_file hthrough', hput, hs]
  rw [putThrough, find?_put_file _ _ hs', find?_erase_file hthrough', find?_put_file _ _ hthrough]

end FileTree

namespace FileStore

/-! ## The ways a save can go -/

/-- Places for a file and its staging file, beside each other. -/
structure Places (s : FileStore) (folder : Spot) (name staged : String) : Prop where
  target : s.tree.find? s.path = some (folder.child name)
  staging : s.tree.find? (Path.staging s.path) = some (folder.child staged)
  target_free : s.tree.isFolder (folder.child name) = false
  staging_free : s.tree.isFolder (folder.child staged) = false
  ne : staged ≠ name

theorem Working.exists_places {s : FileStore} (h : s.Working) :
    ∃ folder name staged, s.Places folder name staged := by
  obtain ⟨d, hd, htarget⟩ := h.target
  obtain ⟨spot, hspot, hstaging⟩ := h.staging
  obtain ⟨folder, name, staged, rfl, rfl, hne⟩ := FileTree.exists_beside hspot hstaging hd
  exact ⟨folder, name, staged, hd, hspot, htarget, hstaging, hne⟩

/-- The document of a configuration, as the content of a file. -/
def document (c : Configuration) : Entry := .file c.toText.toUTF8

/-- How a save goes, and what it leaves.  It stops before a file is touched, or between the two
files, or nowhere. -/
inductive Attempt (s : FileStore) (c : Configuration) : Except Fault Unit × FileStore → Prop where
  | invalid (e : Fault) (h : ¬ c.Valid) : Attempt s c (.error e, s)
  | unstaged (hc : c.Valid) (h : ¬ s.tree.Offers (Path.staging s.path)) :
    Attempt s c (.error .storage, s)
  | unmoved (hc : c.Valid) (spot : Spot) (hspot : s.tree.find? (Path.staging s.path) = some spot)
    (hfree : s.tree.isFolder spot = false) (h : ¬ s.tree.Offers s.path) :
    Attempt s c (.error .storage, { s with tree := s.tree.put spot (document c) })
  | saved (hc : c.Valid) (folder : Spot) (name staged : String)
    (h : s.Places folder name staged) :
    Attempt s c (.ok (), { s with
      tree := s.tree.putThrough (folder.child staged) (folder.child name) (document c) })

theorem attempt (s : FileStore) (c : Configuration) : s.Attempt c (s.save c) := by
  by_cases hc : c.Valid
  · have hcheck : c.check = .ok () :=
      Configuration.check_eq_ok_iff.mpr ((Configuration.validate_eq_ok_iff c).mpr hc)
    by_cases hstaging : s.tree.Offers (Path.staging s.path)
    · have hstaging' := hstaging
      obtain ⟨spot, hspot, hfree⟩ := hstaging'
      have hwrite : s.tree.write? (Path.staging s.path) c.toText.toUTF8 =
          some (s.tree.put spot (document c)) := FileTree.write?_of_find? hspot hfree _
      by_cases htarget : s.tree.Offers s.path
      · obtain ⟨folder, name, staged, h⟩ := Working.exists_places ⟨htarget, hstaging⟩
        obtain rfl : spot = folder.child staged := Option.some.inj (hspot.symm.trans h.staging)
        have hmove : (s.tree.put (folder.child staged) (document c)).move?
            (Path.staging s.path) s.path = some (s.tree.putThrough (folder.child staged)
              (folder.child name) (document c)) := by
          apply FileTree.move?_of_find?
          · rw [document, FileTree.find?_put_file _ _ hfree, h.staging]
          · rw [document, FileTree.find?_put_file _ _ hfree, h.target]
          · rw [FileTree.get?_put _ _ _ (FileTree.names_ne_nil_of_not_folder hfree), if_pos rfl]
            rfl
          · rw [document, FileTree.isFolder_put_file _ _ _ hfree, h.target_free]
        simp only [save, hcheck, hwrite, hmove]
        exact .saved hc folder name staged h
      · have hmove : (s.tree.put spot (document c)).move? (Path.staging s.path) s.path = none :=
          FileTree.move?_of_not_offers (mt (FileTree.offers_put _ hfree).mp htarget) _
        simp only [save, hcheck, hwrite, hmove]
        exact .unmoved hc spot hspot hfree htarget
    · simp only [save, hcheck, FileTree.write?_of_not_offers hstaging]
      exact .unstaged hc hstaging
  · cases hcheck : c.check with
    | ok u =>
      exact absurd ((Configuration.validate_eq_ok_iff c).mp
        (Configuration.check_eq_ok_iff.mp hcheck)) hc
    | error e =>
      simp only [save, hcheck]
      exact .invalid e hc

/-! ## Saves that succeed -/

/-- The file holds the document of a configuration. -/
structure Holds (s : FileStore) (c : Configuration) : Prop where
  valid : c.Valid
  text_eq : s.text? = some c.toText
  load_eq : s.load = .ok c

theorem holds_of_look? {s : FileStore} {c : Configuration} (hc : c.Valid)
    (h : s.look? = some (document c)) : s.Holds c where
  valid := hc
  text_eq := by simp only [text?, h, document, fromUTF8?_toUTF8]
  load_eq := by
    simp only [load, h, document, fromUTF8?_toUTF8]
    exact Configuration.ofText_toText_of_valid ((Configuration.validate_eq_ok_iff c).mpr hc)

/-- What a save leaves that succeeds: the document in the file, no staging file, and all else as it
was. -/
structure Saved (s : FileStore) (c : Configuration) (s' : FileStore) : Prop where
  holds : s'.Holds c
  unstaged : s'.tree.look? (Path.staging s.path) = none
  spots : ∃ folder name staged, s.Places folder name staged ∧
    ∀ spot, s'.tree.get? spot =
      if spot = folder.child name then some (document c)
      else if spot = folder.child staged then none else s.tree.get? spot

theorem saved_of_save_ok {s s' : FileStore} {c : Configuration} (h : s.save c = (.ok (), s')) :
    s.Saved c s' := by
  have hattempt := s.attempt c
  rw [h] at hattempt
  cases hattempt with
  | saved hc folder name staged places =>
    have hspots := fun spot => s.tree.get?_putThrough spot (document c)
      (FileTree.names_ne_nil_of_not_folder places.staging_free)
      (FileTree.names_ne_nil_of_not_folder places.target_free)
    have hfind : ∀ path, (s.tree.putThrough (folder.child staged) (folder.child name)
        (document c)).find? path = s.tree.find? path :=
      s.tree.find?_putThrough c.toText.toUTF8 places.staging_free places.target_free
    have hne : folder.child staged ≠ folder.child name := fun heq =>
      places.ne (FileTree.child_inj.mp heq).2
    refine ⟨holds_of_look? hc ?_, ?_, folder, name, staged, places, hspots⟩
    · rw [look?, FileTree.look?, hfind, places.target, Option.bind_some, hspots, if_pos rfl]
    · rw [FileTree.look?, hfind, places.staging, Option.bind_some, hspots, if_neg hne, if_pos rfl]

theorem save_eq_ok_iff (s : FileStore) (c : Configuration) :
    (s.save c).1 = .ok () ↔ c.Valid ∧ s.Working := by
  constructor
  · intro h
    have hsave : s.save c = (.ok (), (s.save c).2) := Prod.ext h rfl
    exact ⟨(saved_of_save_ok hsave).holds.valid, working_of_save_ok hsave⟩
  · rintro ⟨hc, h⟩
    exact (working_iff s).mp h c hc

/-! ## Saves that fail -/

/-- What is under the path has stayed as it was, with all that is in it. -/
structure Untouched (s s' : FileStore) : Prop where
  look_eq : s'.look? = s.look?
  load_eq : s'.load = s.load
  within : ∀ target, s.tree.find? s.path = some target →
    ∀ spot : Spot, spot.Within target → s'.tree.get? spot = s.tree.get? spot

theorem Untouched.refl (s : FileStore) : Untouched s s := ⟨rfl, rfl, fun _ _ _ _ => rfl⟩

/-- Whatever is written to the staging file, be it a whole document or the first part of one, the
path stays as it was. -/
theorem untouched_of_write?_staging {s : FileStore} {content : ByteArray} {staged : FileTree}
    (h : s.tree.write? (Path.staging s.path) content = some staged) :
    Untouched s { s with tree := staged } := by
  refine ⟨FileTree.look?_of_write?_staging h, load_of_write?_staging h, ?_⟩
  intro target hfind inner hinner
  obtain ⟨spot, hspot, hfree, rfl⟩ := FileTree.write?_eq_some h
  obtain ⟨folder, name, staged, rfl, rfl, hne⟩ := FileTree.exists_beside hspot hfree hfind
  rw [FileTree.get?_put _ _ _ (FileTree.names_ne_nil_of_not_folder hfree), if_neg]
  rintro rfl
  exact Spot.not_within_of_ne hne hinner

theorem untouched_of_save_error {s s' : FileStore} {c : Configuration} {e : Fault}
    (h : s.save c = (.error e, s')) : Untouched s s' := by
  have hattempt := s.attempt c
  rw [h] at hattempt
  cases hattempt with
  | invalid => exact .refl s
  | unstaged => exact .refl s
  | unmoved _ spot hspot hfree =>
    exact untouched_of_write?_staging (FileTree.write?_of_find? hspot hfree c.toText.toUTF8)

/-- What a save leaves that fails or is stopped while it stages a document: some content in the
staging file, if there is a place for one. -/
def interrupted (s : FileStore) (content : ByteArray) : FileStore :=
  (s.changed (s.tree.write? (Path.staging s.path) content)).2

theorem untouched_interrupted (s : FileStore) (content : ByteArray) :
    Untouched s (s.interrupted content) := by
  unfold interrupted
  cases h : s.tree.write? (Path.staging s.path) content with
  | none => exact .refl s
  | some staged => exact untouched_of_write?_staging h

theorem Holds.of_untouched {s s' : FileStore} {c : Configuration} (h : s.Holds c)
    (huntouched : Untouched s s') : s'.Holds c where
  valid := h.valid
  text_eq := by
    rw [text?, huntouched.look_eq]
    exact h.text_eq
  load_eq := huntouched.load_eq.trans h.load_eq

/-! ## Histories -/

/-- What is asked of a store, what may stop it, and what others do to its file. -/
inductive FileTask where
  | save (c : Configuration)
  /-- A save that fails or is stopped while it stages a document. -/
  | interrupt (content : ByteArray)
  | load
  | write (content : ByteArray)
  | remove
  | makeFolder

/-- The store after a task, whether it took place or not. -/
def after (s : FileStore) : FileTask → FileStore
  | .save c => (s.save c).2
  | .interrupt content => s.interrupted content
  | .load => s
  | .write content => (s.write content).2
  | .remove => s.remove.2
  | .makeFolder => s.makeFolder.2

/-- The store after one task after another. -/
def run (s : FileStore) (tasks : List FileTask) : FileStore := tasks.foldl after s

/-- The configuration that is known to be in the file behind a task, if one was known before: the
one that was saved last, unless others have had the file since. -/
def known (s : FileStore) (before : Option Configuration) : FileTask → Option Configuration
  | .save c =>
    match (s.save c).1 with
    | .ok () => some c
    | .error _ => before
  | .interrupt _ => before
  | .load => before
  | .write _ => none
  | .remove => none
  | .makeFolder => none

/-- The configuration that is known to be in the file behind many tasks. -/
def standing (s : FileStore) (before : Option Configuration) : List FileTask → Option Configuration
  | [] => before
  | task :: rest => (s.after task).standing (s.known before task) rest

/-- A step keeps what is known true. -/
theorem after_holds {s : FileStore} {before : Option Configuration}
    (h : ∀ c, before = some c → s.Holds c) (task : FileTask) :
    ∀ c, s.known before task = some c → (s.after task).Holds c := by
  intro c hknown
  cases task with
  | save d =>
    cases hsave : s.save d with
    | mk result s' =>
      rw [known, hsave] at hknown
      rw [after, hsave]
      cases result with
      | ok _ =>
        cases hknown
        exact (saved_of_save_ok hsave).holds
      | error e => exact (h c hknown).of_untouched (untouched_of_save_error hsave)
  | interrupt content => exact (h c hknown).of_untouched (s.untouched_interrupted content)
  | load => exact h c hknown
  | write content => cases hknown
  | remove => cases hknown
  | makeFolder => cases hknown

theorem run_holds {s : FileStore} {before : Option Configuration}
    (h : ∀ c, before = some c → s.Holds c) (tasks : List FileTask) :
    ∀ c, s.standing before tasks = some c → (s.run tasks).Holds c := by
  induction tasks generalizing s before with
  | nil => exact h
  | cons task rest ih => exact ih (after_holds h task)

/-- What saving to a file comes to in the state that a history leaves. -/
structure AllOrNothing (s : FileStore) (tasks : List FileTask) : Prop where
  /-- A valid configuration is saved wherever there is place for both files, and no other is. -/
  saves_iff : ∀ c, ((s.run tasks).save c).1 = .ok () ↔ c.Valid ∧ (s.run tasks).Working
  saved : ∀ c s', (s.run tasks).save c = (.ok (), s') → (s.run tasks).Saved c s'
  untouched : ∀ c e s', (s.run tasks).save c = (.error e, s') → Untouched (s.run tasks) s'
  interrupted : ∀ content, Untouched (s.run tasks) ((s.run tasks).interrupted content)
  /-- What was saved is in the file and is loaded until others change the file or another save
  succeeds. -/
  stands : ∀ c, s.standing none tasks = some c → (s.run tasks).Holds c

/-- **Saving is all or nothing.**  Whatever has been saved and loaded, and whatever others have done
to the file, in any file tree: a save that succeeds is of a valid configuration, puts its whole
document under the path and leaves no staging file; and it is loaded from then on.  A save that
fails, or is stopped halfway through the document, leaves what is under the path. -/
theorem run_allOrNothing (s : FileStore) (tasks : List FileTask) : s.AllOrNothing tasks where
  saves_iff := (s.run tasks).save_eq_ok_iff
  saved _ _ := saved_of_save_ok
  untouched _ _ _ := untouched_of_save_error
  interrupted := (s.run tasks).untouched_interrupted
  stands := run_holds (fun _ hnone => by cases hnone) tasks

/-- Text that others have left is replaced, and a folder that they make replaces what is known. -/
example : (ofPath "config.json").standing none [.write "\x7b".toUTF8, .save .default, .load] =
    some .default := rfl

end FileStore

end AcousticNode

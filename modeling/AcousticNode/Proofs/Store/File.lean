import AcousticNode.Proofs.Configuration.Document
import AcousticNode.Proofs.Store.Walk
import AcousticNode.Store.File

/-!
# Saving to a file

A save takes place as a whole or not at all, as far as loading is concerned: the target holds the
new document, or what it held before.

* `load_of_save_ok` : a configuration that was saved is loaded;
* `load_of_save_error` : a save that fails leaves a staging file behind at most;
* `save_save_of_error` : it fails again in the same way;
* `valid_of_load` : what is loaded is valid, whoever has written the file.
-/

set_option autoImplicit false

namespace AcousticNode

theorem Configuration.check_eq_ok_iff {c : Configuration} :
    c.check = .ok () ↔ c.validate = .ok () := by
  rw [check]
  cases c.validate with
  | ok u => exact iff_of_true rfl rfl
  | error flaw => exact iff_of_false nofun nofun

theorem fromUTF8?_toUTF8 (s : String) : String.fromUTF8? s.toUTF8 = some s := by
  have hvalid : s.toUTF8.IsValidUTF8 := s.isValidUTF8
  unfold String.fromUTF8?
  split
  · rfl
  · contradiction

namespace FileTree

variable {t staged saved : FileTree}

/-- What writing a file says about the spot. -/
theorem write?_eq_some {path : String} {content : ByteArray}
    (h : t.write? path content = some staged) :
    ∃ s, t.find? path = some s ∧ t.isFolder s = false ∧ staged = t.put s (.file content) := by
  obtain ⟨s, hs, hput⟩ := Option.bind_eq_some_iff.mp h
  split at hput
  · cases hput
  · rename_i hfolder
    cases hput
    exact ⟨s, hs, by simpa using hfolder, rfl⟩

/-- What moving a file over another says about both spots. -/
theorem move?_eq_some {source target : String} (h : t.move? source target = some saved) :
    ∃ s d content, t.find? source = some s ∧ t.find? target = some d ∧
      t.get? s = some (.file content) ∧ t.isFolder d = false ∧
      saved = (t.erase s).put d (.file content) := by
  obtain ⟨s, hs, h⟩ := Option.bind_eq_some_iff.mp h
  obtain ⟨d, hd, h⟩ := Option.bind_eq_some_iff.mp h
  split at h
  · rename_i content hcontent
    split at h
    · cases h
    · rename_i hfolder
      cases h
      exact ⟨s, d, content, hs, hd, hcontent, by simpa using hfolder, rfl⟩
  · cases h

/-- A staged document does not show under the path itself. -/
theorem look?_of_write?_staging {path : String} {content : ByteArray}
    (h : t.write? (Path.staging path) content = some staged) :
    staged.look? path = t.look? path := by
  obtain ⟨s, hs, hfile, rfl⟩ := write?_eq_some h
  rw [look?, look?, find?_put_file t content hfile]
  cases hd : t.find? path with
  | none => rfl
  | some d =>
    have hne : d ≠ s := ne_of_find?_staging hs hfile hd
    rw [Option.bind_some, Option.bind_some,
      get?_put t d (.file content) (names_ne_nil_of_not_folder hfile), if_neg hne]

theorem look?_of_move?_staging {path : String} {content : ByteArray}
    (h : t.write? (Path.staging path) content = some staged)
    (hmove : staged.move? (Path.staging path) path = some saved) :
    saved.look? path = some (.file content) := by
  obtain ⟨s, hs, hfile, rfl⟩ := write?_eq_some h
  obtain ⟨s', d, content', hs', hd, hget, hfolder, rfl⟩ := move?_eq_some hmove
  have hnames := names_ne_nil_of_not_folder hfile
  rw [find?_put_file t content hfile] at hs' hd
  obtain rfl : s' = s := Option.some.inj (hs'.symm.trans hs)
  rw [get?_put t s' (.file content) hnames, if_pos rfl] at hget
  obtain rfl : content' = content := by
    cases hget
    rfl
  have hstaged : (t.put s' (.file content')).isFolder s' = false := by
    rw [isFolder_put_file t content' s' hfile, hfile]
  have hd' : ((t.put s' (.file content')).erase s').isFolder d = false := by
    rw [isFolder_erase_file hstaged, hfolder]
  rw [look?, find?_put_file _ content' hd', find?_erase_file hstaged,
    find?_put_file t content' hfile, hd, Option.bind_some,
    get?_put _ d (.file content') (names_ne_nil_of_not_folder hd'), if_pos rfl]

theorem put_put (t : FileTree) (s : Spot) (e : Entry) : (t.put s e).put s e = t.put s e := by
  simp [put, erase]

/-- To write a file again changes nothing. -/
theorem write?_write? {t t' : FileTree} {path : String} {content : ByteArray}
    (h : t.write? path content = some t') : t'.write? path content = some t' := by
  obtain ⟨s, hs, hfile, rfl⟩ := write?_eq_some h
  have hfind : (t.put s (.file content)).find? path = some s := by
    rw [find?_put_file t content hfile, hs]
  have hfolder : (t.put s (.file content)).isFolder s = false := by
    rw [isFolder_put_file t content s hfile, hfile]
  rw [write?_of_find? hfind hfolder, put_put]

end FileTree

namespace FileStore

theorem load_of_save_ok {s s' : FileStore} {c : Configuration} (h : s.save c = (.ok (), s')) :
    s'.load = .ok c := by
  unfold save at h
  split at h
  · cases h
  · rename_i hcheck
    simp only at h
    split at h
    · cases h
    · rename_i staged hwrite
      split at h
      · cases h
      · rename_i saved hmove
        cases h
        have hlook := FileTree.look?_of_move?_staging hwrite hmove
        simp only [load, look?, hlook, fromUTF8?_toUTF8]
        exact Configuration.ofText_toText_of_valid (Configuration.check_eq_ok_iff.mp hcheck)

/-- Whatever is in the staging file, it is not loaded. -/
theorem load_of_write?_staging {s : FileStore} {content : ByteArray} {staged : FileTree}
    (h : s.tree.write? (Path.staging s.path) content = some staged) :
    load { s with tree := staged } = s.load := by
  simp only [load, look?, FileTree.look?_of_write?_staging h]

theorem load_of_save_error {s s' : FileStore} {c : Configuration} {e : Fault}
    (h : s.save c = (.error e, s')) : s'.load = s.load := by
  unfold save at h
  split at h
  · cases h
    rfl
  · simp only at h
    split at h
    · cases h
      rfl
    · rename_i staged hwrite
      split at h
      · cases h
        exact load_of_write?_staging hwrite
      · cases h

/-- Whatever is in the file, it is loaded as a valid configuration or not at all. -/
theorem valid_of_load {s : FileStore} {c : Configuration} (h : s.load = .ok c) : c.Valid := by
  unfold load at h
  split at h
  · cases h
    exact (Configuration.validate_eq_ok_iff .default).mp rfl
  · cases h
  · split at h
    · cases h
    · exact Configuration.valid_of_ofText h

/-- A save that failed leaves the same obstacle behind. -/
theorem save_save_of_error {s s' : FileStore} {c : Configuration} {e : Fault}
    (h : s.save c = (.error e, s')) : s'.save c = (.error e, s') := by
  unfold save at h ⊢
  cases hcheck : c.check with
  | error flaw =>
    rw [hcheck] at h
    cases h
    rfl
  | ok _ =>
    rw [hcheck] at h
    simp only at h ⊢
    cases hwrite : s.tree.write? (Path.staging s.path) c.toText.toUTF8 with
    | none =>
      rw [hwrite] at h
      cases h
      rw [hwrite]
    | some staged =>
      rw [hwrite] at h
      simp only at h
      cases hmove : staged.move? (Path.staging s.path) s.path with
      | none =>
        rw [hmove] at h
        cases h
        simp only [FileTree.write?_write? hwrite, hmove]
      | some saved =>
        rw [hmove] at h
        cases h

end FileStore

end AcousticNode

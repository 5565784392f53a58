import AcousticNode.Proofs.Store.Reliable

/-!
# File systems that work

A file can be saved to if its path and its staging path both lead to places for files.  Saving
does not change where paths lead, so a file that can be saved to once can be saved to again.

* `exists_save` : a valid configuration is saved;
* `working_of_save_ok` : nowhere else does a save succeed;
* `UniformStore` : whether a save succeeds is not a matter of the saves before it;
* `Mirroring.of_file` : a file that can be saved to does what a store in memory does;
* `Mirroring.of_switched` : a store that is switched on does what the store in it does.
-/

set_option autoImplicit false

namespace AcousticNode

open ConfigurationStore (load save)

/-! ## Places for files -/

namespace FileTree

variable {t : FileTree} {path : String}

/-- A path leads to a file, or to a place in a folder where there can be one. -/
def Offers (t : FileTree) (path : String) : Prop :=
  ∃ s, t.find? path = some s ∧ t.isFolder s = false

theorem offers_put {s : Spot} (content : ByteArray) (h : t.isFolder s = false) :
    (t.put s (.file content)).Offers path ↔ t.Offers path := by
  simp only [Offers, find?_put_file t content h, isFolder_put_file t content _ h]

theorem offers_erase {s : Spot} (h : t.isFolder s = false) :
    (t.erase s).Offers path ↔ t.Offers path := by
  simp only [Offers, find?_erase_file h, isFolder_erase_file h]

/-- A file is written, and every path leads where it has led. -/
theorem exists_write? (h : t.Offers path) (content : ByteArray) :
    ∃ t', t.write? path content = some t' ∧ t'.look? path = some (.file content) ∧
      ∀ other, t'.Offers other ↔ t.Offers other := by
  obtain ⟨s, hs, hfile⟩ := h
  have hwrite := write?_of_find? hs hfile content
  exact ⟨_, hwrite, look?_of_write? hwrite, fun other => offers_put content hfile⟩

/-- A file is moved, and every path leads where it has led. -/
theorem exists_move? {source target : String} {content : ByteArray}
    (hsource : t.look? source = some (.file content)) (htarget : t.Offers target) :
    ∃ t', t.move? source target = some t' ∧ ∀ other, t'.Offers other ↔ t.Offers other := by
  obtain ⟨s, hs, hcontent⟩ := Option.bind_eq_some_iff.mp hsource
  obtain ⟨d, hd, hfile⟩ := htarget
  have hmove := move?_of_find? hs hd hcontent hfile
  have hs' : t.isFolder s = false := by rw [isFolder, hcontent]
  have hd' : (t.erase s).isFolder d = false := by rw [isFolder_erase_file hs', hfile]
  exact ⟨_, hmove, fun other => (offers_put content hd').trans (offers_erase hs')⟩

end FileTree

/-! ## Saving -/

namespace FileStore

variable {s s' : FileStore} {c : Configuration}

/-- The path of the file and the path beside it lead to places for files. -/
structure Working (s : FileStore) : Prop where
  target : s.tree.Offers s.path
  staging : s.tree.Offers (Path.staging s.path)

theorem exists_save (h : s.Working) (hc : c.Valid) :
    ∃ s', s.save c = (.ok (), s') ∧ s'.Working := by
  have hcheck : c.check = .ok () :=
    Configuration.check_eq_ok_iff.mpr ((Configuration.validate_eq_ok_iff c).mpr hc)
  obtain ⟨staged, hwrite, hlook, hstaged⟩ := FileTree.exists_write? h.staging c.toText.toUTF8
  obtain ⟨saved, hmove, hsaved⟩ := FileTree.exists_move? hlook ((hstaged _).mpr h.target)
  refine ⟨{ s with tree := saved }, ?_, ?_, ?_⟩
  · simp only [save, hcheck, hwrite, hmove]
  · exact (hsaved _).mpr ((hstaged _).mpr h.target)
  · exact (hsaved _).mpr ((hstaged _).mpr h.staging)

theorem working_of_save_ok (h : s.save c = (.ok (), s')) : s.Working := by
  unfold save at h
  split at h
  · cases h
  · simp only at h
    split at h
    · cases h
    · rename_i staged hwrite
      split at h
      · cases h
      · rename_i saved hmove
        obtain ⟨spot, hspot, hfile, rfl⟩ := FileTree.write?_eq_some hwrite
        obtain ⟨_, d, _, _, hd, _, hfolder, _⟩ := FileTree.move?_eq_some hmove
        exact ⟨(FileTree.offers_put _ hfile).mp ⟨d, hd, hfolder⟩, ⟨spot, hspot, hfile⟩⟩

/-- A file can be saved to exactly if its file system works. -/
theorem working_iff (s : FileStore) :
    s.Working ↔ ∀ c : Configuration, c.Valid → (s.save c).1 = .ok () := by
  constructor
  · intro h c hc
    obtain ⟨s', hsave, _⟩ := exists_save h hc
    rw [hsave]
  · intro h
    have hdefault : Configuration.default.Valid :=
      (Configuration.validate_eq_ok_iff .default).mp rfl
    exact working_of_save_ok (Prod.ext (h .default hdefault) rfl)

theorem fst_save_of_not_working (h : ¬ s.Working) (hc : c.Valid) :
    (s.save c).1 = .error .storage := by
  have hcheck : c.check = .ok () :=
    Configuration.check_eq_ok_iff.mpr ((Configuration.validate_eq_ok_iff c).mpr hc)
  cases hsave : s.save c with
  | mk result s' =>
    cases result with
    | ok _ => exact absurd (working_of_save_ok hsave) h
    | error e =>
      unfold save at hsave
      simp only [hcheck] at hsave
      split at hsave
      · cases hsave
        rfl
      · split at hsave
        · cases hsave
          rfl
        · cases hsave

/-- A save that fails leaves a file system that does not work. -/
theorem working_save_iff (hc : c.Valid) : (s.save c).2.Working ↔ s.Working := by
  constructor
  · intro h
    cases hsave : s.save c with
    | mk result s' =>
      rw [hsave] at h
      cases result with
      | ok _ => exact working_of_save_ok hsave
      | error e =>
        obtain ⟨s'', hagain, _⟩ := exists_save h hc
        rw [save_save_of_error hsave] at hagain
        cases hagain
  · intro h
    obtain ⟨s', hsave, hworking⟩ := exists_save h hc
    rwa [hsave]

end FileStore

/-! ## Saving again and again -/

/-- A store in which a save has the outcome that it would have without the saves before it. -/
class UniformStore (σ : Type) [ConfigurationStore σ] : Prop where
  fst_save_save : ∀ {s : σ} {c d : Configuration}, c.Valid → d.Valid →
    (save (save s c).2 d).1 = (save s d).1

instance : UniformStore MemoryStore where
  fst_save_save := by
    rintro ⟨config, readOnly⟩ c d _ _
    cases readOnly <;> rfl

instance : UniformStore FileStore where
  fst_save_save := by
    intro s c d hc hd
    have hsave : ∀ f : FileStore, f.Working → (FileStore.save f d).1 = .ok () := fun f hf =>
      (FileStore.working_iff f).mp hf d hd
    by_cases h : s.Working
    · exact (hsave _ ((FileStore.working_save_iff hc).mpr h)).trans (hsave _ h).symm
    · have h' : ¬ (s.save c).2.Working := mt (FileStore.working_save_iff hc).mp h
      exact (FileStore.fst_save_of_not_working h' hd).trans
        (FileStore.fst_save_of_not_working h hd).symm

/-! ## Stores that do the same -/

variable {σ τ : Type} [ConfigurationStore σ] [ConfigurationStore τ]

/-- Stores in a relation cannot be told apart by what is loaded and by what is saved, if that is
valid. -/
structure Mirroring (R : σ → τ → Prop) : Prop where
  load_eq : ∀ {s : σ} {t : τ}, R s t → load t = load s
  save_eq : ∀ {s : σ} {t : τ} {c : Configuration}, R s t → c.Valid →
    (save t c).1 = (save s c).1 ∧ R (save s c).2 (save t c).2

/-- A store that is switched on cannot be told from the one in it. -/
theorem Mirroring.of_switched :
    Mirroring fun (s : σ) (t : SwitchedStore σ) => t = ⟨s, false, false⟩ where
  load_eq := by
    rintro s _ rfl
    rfl
  save_eq := by
    rintro s _ c rfl _
    exact ⟨rfl, rfl⟩

/-- A file that can be saved to and a store in memory that can be written, with the same
configuration. -/
structure FileStore.Mirrors (s : MemoryStore) (f : FileStore) : Prop where
  writable : s.readOnly = false
  load_eq : f.load = .ok s.config
  working : f.Working

theorem Mirroring.of_file : Mirroring FileStore.Mirrors where
  load_eq h := h.load_eq
  save_eq := by
    intro s f c h hc
    obtain ⟨f', hsave, hworking⟩ := FileStore.exists_save h.working hc
    have hmemory : save s c = (.ok (), { s with config := c }) := if_neg (by simp [h.writable])
    have hfile : save f c = (.ok (), f') := hsave
    rw [hmemory, hfile]
    exact ⟨rfl, h.writable, FileStore.load_of_save_ok hsave, hworking⟩

end AcousticNode

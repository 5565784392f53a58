import AcousticNode.Proofs.Store.Saving
import Mathlib.Data.Set.Insert

/-!
# What a failed save leaves behind

A save that fails before it has staged the document leaves every name in every folder.  If it fails
when the staged document is to be moved, because a folder is in the way, the staging file stays.
Here a document is staged as a whole or not at all: a save that is stopped in the middle of it can
leave a staging file too.

* `mem_names_iff` : the names in the working folder, spot by spot;
* `remains_of_save_error` : when a failed save adds a name, and which;
* `save_onFolder` : a save that adds one.
-/

set_option autoImplicit false

namespace AcousticNode

namespace FileTree

/-- The names in the folder at a spot. -/
def namesIn (t : FileTree) (folder : Spot) : Set String :=
  { name | (t.get? (folder.child name)).isSome }

theorem mem_names_iff (t : FileTree) (name : String) : name ∈ t.names ↔ name ∈ t.namesIn .home := by
  have hlookup : name ∈ t.namesIn .home ↔ ∃ e ∈ t.entries, e.1 = Spot.home.child name := by
    rw [namesIn, Set.mem_ofPred_eq, get?, if_neg (by simp [Spot.child]), List.lookup_isSome_iff]
    simp only [beq_iff_eq]
    exact exists_congr fun e => and_congr_right fun _ => eq_comm
  rw [names, List.mem_mergeSort, List.mem_filterMap, hlookup]
  constructor
  · rintro ⟨⟨spot, entry⟩, he, hname⟩
    refine ⟨_, he, ?_⟩
    split at hname
    · rename_i found hspot
      cases hname
      exact hspot
    · cases hname
  · rintro ⟨⟨spot, entry⟩, he, hspot⟩
    refine ⟨_, he, ?_⟩
    rw [show spot = Spot.home.child name from hspot]
    rfl

theorem namesIn_put_of_some {t : FileTree} {s : Spot} {old : Entry} (hs : s.names.isEmpty = false)
    (hold : t.get? s = some old) (e : Entry) (folder : Spot) :
    (t.put s e).namesIn folder = t.namesIn folder := by
  ext name
  rw [namesIn, namesIn, Set.mem_ofPred_eq, Set.mem_ofPred_eq, get?_put _ _ _ hs]
  split
  · rename_i heq
    rw [heq, hold]
    exact iff_of_true rfl rfl
  · rfl

theorem namesIn_put_child (t : FileTree) (folder : Spot) (name : String) (e : Entry) :
    (t.put (folder.child name) e).namesIn folder = insert name (t.namesIn folder) := by
  ext other
  rw [namesIn, Set.mem_ofPred_eq, get?_put _ _ _ rfl, Set.mem_insert_iff]
  by_cases h : other = name
  · subst h
    simp
  · have hne : folder.child other ≠ folder.child name := fun heq =>
      h (List.cons.inj (Spot.mk.inj heq).2).1
    rw [if_neg hne]
    exact (or_iff_right h).symm

theorem namesIn_put_other (t : FileTree) {folder other : Spot} (name : String) (e : Entry)
    (h : other ≠ folder) : (t.put (folder.child name) e).namesIn other = t.namesIn other := by
  ext inner
  have hne : other.child inner ≠ folder.child name := fun heq => h (child_inj.mp heq).1
  rw [namesIn, namesIn, Set.mem_ofPred_eq, Set.mem_ofPred_eq, get?_put _ _ _ rfl, if_neg hne]

end FileTree

namespace FileStore

/-- A valid configuration can be staged where there was no staging file before, and the staged
document cannot be moved to its place. -/
structure Strands (s : FileStore) (c : Configuration) (folder : Spot) (staged : String) : Prop where
  valid : c.Valid
  staging : s.tree.find? (Path.staging s.path) = some (folder.child staged)
  absent : s.tree.get? (folder.child staged) = none
  blocked : ¬ s.tree.Offers s.path

/-- The names that a failed save leaves: those there were, and one more just if it strands a staging
file. -/
structure Remains (s : FileStore) (c : Configuration) (s' : FileStore) : Prop where
  clean_iff : (∀ folder, s'.tree.namesIn folder = s.tree.namesIn folder) ↔
    ∀ folder staged, ¬ s.Strands c folder staged
  stranded : ∀ folder staged, s.Strands c folder staged →
    s'.tree.namesIn folder = insert staged (s.tree.namesIn folder) ∧
      ∀ other, other ≠ folder → s'.tree.namesIn other = s.tree.namesIn other

theorem save_of_strands {s : FileStore} {c : Configuration} {folder : Spot} {staged : String}
    (h : s.Strands c folder staged) : s.save c =
      (.error .storage, { s with tree := s.tree.put (folder.child staged) (document c) }) := by
  have hattempt := s.attempt c
  generalize s.save c = result at hattempt ⊢
  cases hattempt with
  | invalid _ hc => exact absurd h.valid hc
  | unstaged _ hstaging =>
    refine absurd ⟨_, h.staging, ?_⟩ hstaging
    rw [FileTree.isFolder, h.absent]
  | unmoved _ spot hspot =>
    obtain rfl : spot = folder.child staged := Option.some.inj (hspot.symm.trans h.staging)
    rfl
  | saved _ folder' name _ places => exact absurd ⟨_, places.target, places.target_free⟩ h.blocked

theorem Remains.of_strands {s : FileStore} {c : Configuration} {folder : Spot} {staged : String}
    (h : s.Strands c folder staged) :
    s.Remains c { s with tree := s.tree.put (folder.child staged) (document c) } := by
  have hadded := s.tree.namesIn_put_child folder staged (document c)
  constructor
  · refine iff_of_false (fun hclean => ?_) fun hnone => hnone folder staged h
    have hmem : staged ∈ s.tree.namesIn folder := by
      rw [← hclean folder, hadded]
      exact Set.mem_insert staged _
    rw [FileTree.namesIn, Set.mem_ofPred_eq, h.absent] at hmem
    cases hmem
  · intro folder' staged' h'
    obtain ⟨rfl, rfl⟩ := FileTree.child_inj.mp (Option.some.inj (h.staging.symm.trans h'.staging))
    exact ⟨hadded, fun other hne => s.tree.namesIn_put_other staged (document c) hne⟩

/-- A staging file that was left before is overwritten, and no other name comes in. -/
theorem namesIn_of_save_error {s s' : FileStore} {c : Configuration} {e : Fault}
    (h : s.save c = (.error e, s')) (hnone : ∀ folder staged, ¬ s.Strands c folder staged)
    (folder : Spot) : s'.tree.namesIn folder = s.tree.namesIn folder := by
  have hattempt := s.attempt c
  rw [h] at hattempt
  cases hattempt with
  | invalid => rfl
  | unstaged => rfl
  | unmoved hc spot hspot hfree htarget =>
    have hspots : spot.names.isEmpty = false := FileTree.names_ne_nil_of_not_folder hfree
    cases hold : s.tree.get? spot with
    | some old => exact FileTree.namesIn_put_of_some hspots hold _ folder
    | none =>
      obtain ⟨base, _ | ⟨staged, names⟩⟩ := spot
      · cases hspots
      · exact absurd ⟨hc, hspot, hold, htarget⟩ (hnone ⟨base, names⟩ staged)

/-- **A failed save leaves every name as it was, unless it strands a staging file**, where files
are written as a whole or not at all. -/
theorem remains_of_save_error {s s' : FileStore} {c : Configuration} {e : Fault}
    (h : s.save c = (.error e, s')) : s.Remains c s' := by
  by_cases hstrands : ∃ folder staged, s.Strands c folder staged
  · obtain ⟨folder, staged, hstrands⟩ := hstrands
    rw [save_of_strands hstrands] at h
    cases h
    exact .of_strands hstrands
  · have hnone : ∀ folder staged, ¬ s.Strands c folder staged := fun folder staged hs =>
      hstrands ⟨folder, staged, hs⟩
    exact ⟨iff_of_true (namesIn_of_save_error h hnone) hnone,
      fun folder staged hs => absurd hs (hnone folder staged)⟩

/-- Someone has made a folder where the configuration goes. -/
def onFolder : FileStore := (ofPath "config.json").makeFolder.2

theorem onFolder_strands : onFolder.Strands .default .home "config.json.tmp" where
  valid := (Configuration.validate_eq_ok_iff _).mp rfl
  staging := rfl
  absent := rfl
  blocked := by
    rintro ⟨spot, hspot, hfree⟩
    cases hspot
    cases hfree

theorem remains_onFolder :
    onFolder.save .default = (.error .storage, (onFolder.save .default).2) ∧
      onFolder.Remains .default (onFolder.save .default).2 := by
  have hsave : onFolder.save .default = (.error .storage, (onFolder.save .default).2) := by
    rw [save_of_strands onFolder_strands]
  exact ⟨hsave, remains_of_save_error hsave⟩

/-- **A failed save can leave a staging file where there was none.** -/
theorem save_onFolder :
    (onFolder.save .default).1 = .error .storage ∧
      "config.json.tmp" ∉ onFolder.names ∧
      "config.json.tmp" ∈ (onFolder.save .default).2.names := by
  rw [save_of_strands onFolder_strands]
  refine ⟨rfl, fun hmem => ?_, ?_⟩
  · have hsome := (FileTree.mem_names_iff _ _).mp hmem
    cases hsome
  · refine (FileTree.mem_names_iff _ _).mpr ?_
    rw [FileTree.namesIn_put_child]
    exact Set.mem_insert _ _

end FileStore

end AcousticNode

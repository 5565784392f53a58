/-!
# File trees

A file system as a value: at every spot a file with its content, a folder, or nothing.  Spots
are found from the outermost folder or from the working folder and those around it; these are
there without being entered.

* `get?_put`, `get?_erase` : an entry is put at one spot and taken from one spot.
-/

set_option autoImplicit false

namespace AcousticNode

/-- A folder that is there whatever else is. -/
inductive Base where
  /-- So many folders outside the working folder. -/
  | above (levels : Nat)
  /-- The outermost folder. -/
  | root
  deriving DecidableEq, Repr

/-- The folder around a base. -/
def Base.outside : Base → Base
  | above levels => above (levels + 1)
  | root => root

/-- A place in a file tree: a base, and the names that lead there from it, the last one
first. -/
structure Spot where
  base : Base
  names : List String
  deriving DecidableEq, Repr

namespace Spot

/-- The working folder. -/
def home : Spot := ⟨.above 0, []⟩

/-- The spot with a name in the folder at a spot. -/
def child (s : Spot) (name : String) : Spot := ⟨s.base, name :: s.names⟩

/-- The spot of the folder around. -/
def parent (s : Spot) : Spot :=
  match s.names with
  | [] => ⟨s.base.outside, []⟩
  | _ :: names => ⟨s.base, names⟩

end Spot

/-- What is at a spot. -/
inductive Entry where
  | file (content : ByteArray)
  | folder

/-- Entries at different spots. -/
structure FileTree where
  entries : List (Spot × Entry)
  /-- The octets of the working folder's path, with the slash behind it, that are put in front of a
  path before it is looked up; none if paths are looked up as they are. -/
  front : Nat

namespace FileTree

/-- Nothing but the folders that are always there. -/
def empty (front : Nat) : FileTree := ⟨[], front⟩

/-- The entry at a spot. -/
def get? (t : FileTree) (s : Spot) : Option Entry :=
  if s.names.isEmpty then some .folder else t.entries.lookup s

def isFolder (t : FileTree) (s : Spot) : Bool :=
  match t.get? s with
  | some .folder => true
  | _ => false

/-- The tree without what is at a spot. -/
def erase (t : FileTree) (s : Spot) : FileTree :=
  { t with entries := t.entries.filter fun e => e.1 != s }

/-- The tree with an entry at a spot, in place of what was there. -/
def put (t : FileTree) (s : Spot) (e : Entry) : FileTree :=
  { t with entries := (s, e) :: (t.erase s).entries }

@[simp] theorem front_erase (t : FileTree) (s : Spot) : (t.erase s).front = t.front := rfl

@[simp] theorem front_put (t : FileTree) (s : Spot) (e : Entry) : (t.put s e).front = t.front := rfl

/-- The names in the working folder, sorted. -/
def names (t : FileTree) : List String :=
  let inHome := t.entries.filterMap fun e =>
    match e.1 with
    | ⟨.above 0, [name]⟩ => some name
    | _ => none
  inHome.mergeSort (· ≤ ·)

theorem lookup_erase (t : FileTree) (s other : Spot) :
    (t.erase s).entries.lookup other = if other = s then none else t.entries.lookup other := by
  unfold erase
  induction t.entries with
  | nil => simp
  | cons e es ih =>
    obtain ⟨key, value⟩ := e
    by_cases hkey : key = s
    · subst hkey
      simp only [bne_self_eq_false, Bool.false_eq_true, not_false_eq_true, List.filter_cons_of_neg,
        ih, List.lookup_cons]
      by_cases ho : other = key
      · simp [ho]
      · simp [ho, beq_eq_false_iff_ne.mpr ho]
    · rw [List.filter_cons_of_pos (by simpa using hkey), List.lookup_cons, List.lookup_cons, ih]
      by_cases ho : other = key
      · subst ho
        simp [hkey]
      · simp [beq_eq_false_iff_ne.mpr ho]

theorem get?_erase (t : FileTree) {s : Spot} (other : Spot) (h : s.names.isEmpty = false) :
    (t.erase s).get? other = if other = s then none else t.get? other := by
  unfold get?
  rw [lookup_erase]
  by_cases ho : other = s
  · simp [ho, h]
  · simp [ho]

theorem get?_put (t : FileTree) {s : Spot} (other : Spot) (e : Entry)
    (h : s.names.isEmpty = false) :
    (t.put s e).get? other = if other = s then some e else t.get? other := by
  have hl := lookup_erase t s other
  unfold get?
  simp only [put, List.lookup_cons, hl]
  by_cases ho : other = s
  · simp [ho, h]
  · simp [ho, beq_eq_false_iff_ne.mpr ho]

theorem names_ne_nil_of_not_folder {t : FileTree} {s : Spot} (h : t.isFolder s = false) :
    s.names.isEmpty = false := by
  cases hs : s.names.isEmpty with
  | false => rfl
  | true => simp [isFolder, get?, hs] at h

end FileTree

end AcousticNode

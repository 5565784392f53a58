import AcousticNode.Store.Path
import AcousticNode.Store.Tree

/-!
# Walking a file tree

The spot that a path leads to, and what is done to a tree at a path.  Every piece of a path is
looked up in a folder, so a path through a file or through nothing leads nowhere, and slashes
behind the name of a file do so too.

* `look?_of_write?` : what was written to a path is found there;
* `find?_put_file` : a file that is new or new in content leads no path elsewhere.
-/

set_option autoImplicit false

namespace AcousticNode

namespace Path

/-- Octets that a name may have. -/
def maxName : Nat := 255

/-- Octets that a whole path may have. -/
def maxLength : Nat := 4095

/-- Whether a path starts at the outermost folder. -/
def isAbsolute (path : String) : Bool := path.toList.head? == some '/'

/-- Octets of the path that is looked up, if so many are put in front of one that does not start
at the outermost folder. -/
def wholeLength (front : Nat) (path : String) : Nat :=
  if isAbsolute path then path.utf8ByteSize else front + path.utf8ByteSize

/-- Whether a path can be looked up at all.  The empty path names something only with the path of a
folder in front. -/
def isUsable (front : Nat) (path : String) : Bool :=
  !path.toList.contains '\x00' && 0 < wholeLength front path && wholeLength front path ≤ maxLength

/-- Whether a piece of a path can be the name of something. -/
def fitsName (piece : List Char) : Bool := (String.ofList piece).utf8ByteSize ≤ maxName

/-- Where a path starts. -/
def start (path : String) : Spot := if isAbsolute path then ⟨.root, []⟩ else .home

end Path

namespace FileTree

/-- Where the pieces of a path lead from a spot. -/
def walk (t : FileTree) : Spot → List (List Char) → Option Spot
  | s, [] => some s
  | s, p :: ps =>
    if !t.isFolder s then none
    else if Path.isStill p then walk t s ps
    else if Path.isUp p then walk t s.parent ps
    else if Path.fitsName p then walk t (s.child (String.ofList p)) ps
    else none

/-- The spot that a path leads to; what it names there may be missing. -/
def find? (t : FileTree) (path : String) : Option Spot :=
  if Path.isUsable t.front path then t.walk (Path.start path) (Path.pieces path.toList) else none

/-- What a path leads to. -/
def look? (t : FileTree) (path : String) : Option Entry := (t.find? path).bind t.get?

/-- Writes a file, with all of its content or not at all: storage does not run out in the middle.
A folder is in the way. -/
def write? (t : FileTree) (path : String) (content : ByteArray) : Option FileTree := do
  let s ← t.find? path
  if t.isFolder s then none else some (t.put s (.file content))

/-- Removes a file. -/
def remove? (t : FileTree) (path : String) : Option FileTree := do
  let s ← t.find? path
  match t.get? s with
  | some (.file _) => some (t.erase s)
  | _ => none

/-- Moves a file over another in one step.  A folder is in the way. -/
def move? (t : FileTree) (source target : String) : Option FileTree := do
  let s ← t.find? source
  let d ← t.find? target
  match t.get? s with
  | some (.file content) =>
    if t.isFolder d then none else some ((t.erase s).put d (.file content))
  | _ => none

/-- Makes the folders that the pieces of a path go through from a spot, and says whether all of
them are there at the end.  A name that only steps to itself follow is not made. -/
def makeAlong (t : FileTree) : Spot → List (List Char) → Bool × FileTree
  | _, [] => (true, t)
  | s, p :: ps =>
    if Path.isStill p then makeAlong t s ps
    else if Path.isUp p then makeAlong t s.parent ps
    else if Path.fitsName p then
      let inner := s.child (String.ofList p)
      match t.get? inner with
      | some .folder => makeAlong t inner ps
      | some (.file _) => (false, t)
      | none =>
        if ps.all Path.isStill && !ps.all List.isEmpty then (false, t)
        else makeAlong (t.put inner .folder) inner ps
    else (false, t)

/-- Makes the folder that a path names and those on the way, as far as that is possible. -/
def makeFolders (t : FileTree) (path : String) : Bool × FileTree :=
  if Path.isUsable t.front path then t.makeAlong (Path.start path) (Path.pieces path.toList)
  else (false, t)

theorem isFolder_put_file (t : FileTree) {s : Spot} (content : ByteArray) (other : Spot)
    (h : t.isFolder s = false) : (t.put s (.file content)).isFolder other = t.isFolder other := by
  have hs := names_ne_nil_of_not_folder h
  by_cases ho : other = s
  · subst ho
    rw [h]
    simp [isFolder, get?_put t other (.file content) hs]
  · simp [isFolder, get?_put t other (.file content) hs, ho]

theorem walk_put_file (t : FileTree) {s : Spot} (content : ByteArray) (h : t.isFolder s = false)
    (start : Spot) (ps : List (List Char)) :
    (t.put s (.file content)).walk start ps = t.walk start ps := by
  induction ps generalizing start with
  | nil => rfl
  | cons p ps ih => simp only [walk, isFolder_put_file t content start h, ih]

theorem find?_put_file (t : FileTree) {s : Spot} (content : ByteArray) (h : t.isFolder s = false)
    (path : String) : (t.put s (.file content)).find? path = t.find? path := by
  simp only [find?, front_put, walk_put_file t content h]

theorem write?_of_find? {t : FileTree} {path : String} {s : Spot} (h : t.find? path = some s)
    (hs : t.isFolder s = false) (content : ByteArray) :
    t.write? path content = some (t.put s (.file content)) := by
  simp [write?, h, hs]

theorem move?_of_find? {t : FileTree} {source target : String} {s d : Spot} {content : ByteArray}
    (hs : t.find? source = some s) (hd : t.find? target = some d)
    (hcontent : t.get? s = some (.file content)) (hfree : t.isFolder d = false) :
    t.move? source target = some ((t.erase s).put d (.file content)) := by
  simp [move?, hs, hd, hcontent, hfree]

theorem look?_of_write? {t t' : FileTree} {path : String} {content : ByteArray}
    (h : t.write? path content = some t') : t'.look? path = some (.file content) := by
  cases hs : t.find? path with
  | none => simp [write?, hs] at h
  | some s =>
    cases hf : t.isFolder s with
    | true => simp [write?, hs, hf] at h
    | false =>
      rw [write?_of_find? hs hf] at h
      cases h
      simp [look?, find?_put_file t content hf, hs, get?_put t s (.file content)
        (names_ne_nil_of_not_folder hf)]

end FileTree

end AcousticNode

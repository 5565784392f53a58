import AcousticNode.Configuration.Document
import AcousticNode.Store.Basic
import AcousticNode.Store.Walk

/-!
# The file store

A configuration document in a file.  A save writes the whole document to a staging file beside
the target and moves it over the target, so that the target never holds half a document.
-/

set_option autoImplicit false

namespace AcousticNode

/-- A configuration in a file. -/
structure FileStore where
  tree : FileTree
  path : String

namespace FileStore

/-- A file that is not there yet, in an empty working folder.  Unless said otherwise, the path of a
new temporary folder is put in front of its path: fifteen octets and a slash. -/
def ofPath (path : String) (front : Nat := 16) : FileStore := ⟨.empty front, path⟩

/-- What is under the path. -/
def look? (s : FileStore) : Option Entry := s.tree.look? s.path

/-- The text of the file. -/
def text? (s : FileStore) : Option String :=
  match s.look? with
  | some (.file content) => String.fromUTF8? content
  | _ => none

/-- A file that is missing stands for the default configuration. -/
def load (s : FileStore) : Except Fault Configuration :=
  match s.look? with
  | none => .ok .default
  | some .folder => .error .storage
  | some (.file content) =>
    match String.fromUTF8? content with
    | none => .error .storage
    | some text => Configuration.ofText text

/-- Writes a valid configuration to the staging file and moves that over the target.  The document
is staged as a whole or not at all. -/
def save (s : FileStore) (c : Configuration) : Except Fault Unit × FileStore :=
  match c.check with
  | .error e => (.error e, s)
  | .ok () =>
    let staging := Path.staging s.path
    match s.tree.write? staging c.toText.toUTF8 with
    | none => (.error .storage, s)
    | some staged =>
      match staged.move? staging s.path with
      | none => (.error .storage, { s with tree := staged })
      | some saved => (.ok (), { s with tree := saved })

instance : ConfigurationStore FileStore := ⟨load, save⟩

/-! ## Changes from outside -/

/-- The store after a change that took place, or did not. -/
def changed (s : FileStore) : Option FileTree → Bool × FileStore
  | some t => (true, { s with tree := t })
  | none => (false, s)

/-- Writes the file, and says whether that was possible. -/
def write (s : FileStore) (content : ByteArray) : Bool × FileStore :=
  s.changed (s.tree.write? s.path content)

/-- Removes the file, and says whether there was one. -/
def remove (s : FileStore) : Bool × FileStore := s.changed (s.tree.remove? s.path)

/-- Makes a folder under the path, and says whether it is there. -/
def makeFolder (s : FileStore) : Bool × FileStore :=
  let (done, tree) := s.tree.makeFolders s.path
  (done, { s with tree := tree })

/-- The names in the working folder. -/
def names (s : FileStore) : List String := s.tree.names

end FileStore

end AcousticNode

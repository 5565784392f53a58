/-!
# Paths

A path as pieces between slashes, and the path beside it under which a document is staged.

* `join_pieces` : the pieces make up the path.
-/

set_option autoImplicit false

namespace AcousticNode.Path

/-- The pieces of a path between slashes. -/
def pieces : List Char → List (List Char)
  | [] => [[]]
  | c :: cs =>
    if c = '/' then [] :: pieces cs
    else
      match pieces cs with
      | [] => [[c]]
      | p :: ps => (c :: p) :: ps

/-- The path with the given pieces. -/
def join : List (List Char) → List Char
  | [] => []
  | [p] => p
  | p :: ps => p ++ '/' :: join ps

/-- Whether a piece leads from a folder to itself. -/
def isStill (piece : List Char) : Bool := piece == [] || piece == ['.']

/-- Whether a piece leads to the folder outside. -/
def isUp (piece : List Char) : Bool := piece == ['.', '.']

/-- A file name without its extension.  A dot in front starts no extension. -/
def stem (name : List Char) : List Char :=
  let before := ((name.reverse.dropWhile (· ≠ '.')).drop 1).reverse
  if before.isEmpty then name else before

/-- The name under which a file is staged.  The old extension is cut off before the new one is
put on, and nothing is put on two dots, which name the folder outside. -/
def stagingName (name : List Char) (bare : Bool) : List Char :=
  if bare && stem name == ['.'] then ['.', '.'] else stem name ++ ".json.tmp".toList

/-- Where the file of a path is staged: beside it, with another extension.  What stands behind
the name is left out.  A path that ends in a step to the folder outside stays as it is, and so
does one without a name. -/
def staging (path : String) : String :=
  let ps := pieces path.toList
  match ps.reverse.dropWhile isStill with
  | [] => path
  | name :: before =>
    if isUp name then path
    else
      let bare := before.length + 1 == ps.length
      String.ofList (join (stagingName name bare :: before).reverse)

theorem pieces_ne_nil (cs : List Char) : pieces cs ≠ [] := by
  cases cs with
  | nil => simp [pieces]
  | cons c cs =>
    rw [pieces]
    split
    · simp
    · split <;> simp

theorem join_pieces (cs : List Char) : join (pieces cs) = cs := by
  induction cs with
  | nil => rfl
  | cons c cs ih =>
    have hne := pieces_ne_nil cs
    rw [pieces]
    cases hps : pieces cs with
    | nil => exact absurd hps hne
    | cons p ps =>
      rw [hps] at ih
      split
      · rename_i hc
        simp [join, ih, hc]
      · cases ps with
        | nil => simpa [join] using ih
        | cons q qs => simpa [join] using ih

end AcousticNode.Path

/-! # Source paths

Two path texts name the same file when they have the same components. Repeated separators and
inner `.` components do not count; a leading `.` does. What a text leads to in a file system can
still depend on how it is written: with a separator at its end it only leads to a directory.

`Path.ofText` reads the components of a text, `Path.parent?` and `Path.joinText` go up and down.
-/

namespace TraceWeave.Source

/-- The pieces of a path between separators, where `seen` holds the current piece backwards. -/
def pathPieces (seen : List Char) : List Char → List (List Char)
  | [] => [seen.reverse]
  | c :: cs => if c = '/' then seen.reverse :: pathPieces [] cs else pathPieces (c :: seen) cs

/-- A path by its components. -/
structure Path where
  rooted : Bool
  components : List String
  deriving DecidableEq, Repr, Inhabited

namespace Path

/-- Whether a piece past the first one is a component. -/
def counts (piece : String) : Bool := piece ≠ "" && piece ≠ "."

/-- The components of a path text. -/
def ofText (text : String) : Path :=
  match (pathPieces [] text.toList).map String.ofList with
  | [] => ⟨false, []⟩
  | "" :: [] => ⟨false, []⟩
  | "" :: rest => ⟨true, rest.filter counts⟩
  | first :: rest => ⟨false, first :: rest.filter counts⟩

/-- A path as text. -/
def text (path : Path) : String :=
  (if path.rooted then "/" else "") ++ "/".intercalate path.components

/-- The directory that holds a path, if the path has a last component. -/
def parent? (path : Path) : Option Path :=
  if path.components.isEmpty then none else some ⟨path.rooted, path.components.dropLast⟩

/-- A path text as seen from a directory; a rooted one stays as it is. -/
def joinText (root path : String) : String :=
  if root.isEmpty || path.toList.head? = some '/' then path
  else if root.toList.getLast? = some '/' then root ++ path
  else root ++ "/" ++ path

end Path

end TraceWeave.Source

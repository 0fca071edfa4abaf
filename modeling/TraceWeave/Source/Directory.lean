import TraceWeave.Source.Path

/-! # Directories in memory

A tree of files below a directory, and what a path text means in it. Directories exist where files
lie below them. Nothing above or outside of the directory can be seen.

A `Directory` holds its files by their components, `Directory.read?` reads what a path text leads
to, and `Directory.walk?` follows one component after the other.
-/

namespace TraceWeave.Source

/-- Files by the components of their paths. -/
structure Directory where
  files : List (List String × String)
  deriving Repr, Inhabited

namespace Directory

/-- The directory with the given files by path; the last text of a path counts. -/
def ofTexts (texts : List (String × String)) : Directory :=
  ⟨(texts.map fun (path, text) =>
    ((Path.ofText path).components.filter Path.counts, text)).reverse⟩

/-- Whether a directory stands at a place: the top one, or one with files below it. -/
def hasDirectory (d : Directory) (place : List String) : Bool :=
  place.isEmpty || d.files.any fun (path, _) => path.length > place.length && place.isPrefixOf path

/-- The place that components lead to from a directory. A step leads out of a directory only. -/
def walk? (d : Directory) (place : List String) : List String → Option (List String)
  | [] => some place
  | step :: steps =>
    if d.hasDirectory place then
      if step = "." then d.walk? place steps
      else if step = ".." then
        if place.isEmpty then none else d.walk? place.dropLast steps
      else d.walk? (place ++ [step]) steps
    else none

/-- Whether a path text can only name a directory. -/
def namesDirectory (text : String) : Bool :=
  match text.toList.reverse with
  | [] => true
  | '/' :: _ => true
  | ['.'] => true
  | '.' :: '/' :: _ => true
  | _ => false

/-- The text of the file that a path text names. -/
def read? (d : Directory) (text : String) : Option String :=
  let path := Path.ofText text
  if path.rooted || namesDirectory text then none
  else (d.walk? [] path.components).bind fun place => d.files.lookup place

end Directory

end TraceWeave.Source

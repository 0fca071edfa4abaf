import TraceWeave.Json.Basic

/-! # Tables of a TOML document

A document defines a tree of tables, by headers and by dotted names. A table can be defined only
once: the rules follow from how each table came to be.

A `Node` remembers its `Origin`. `define` puts a value under a dotted name, `openTable` and
`openElement` open what a header names, and `Node.toJson` gives the finished tree.
-/

namespace TraceWeave.Toml

/-- How a table came to be. -/
inductive Origin where
  /-- It stands on the way to the table of a header. -/
  | implied
  /-- A dotted name leads through it. -/
  | dotted
  /-- A header defines it. -/
  | header
  deriving DecidableEq, Repr, Inhabited

/-- What a name stands for. -/
inductive Node where
  | value (value : Json)
  | table (origin : Origin) (entries : List (String × Node))
  /-- An array of tables, the last one first. -/
  | tables (elements : List (List (String × Node)))
  deriving Inhabited

/-- The entries of a table. -/
abbrev Entries := List (String × Node)

/-- Changes what a name stands for, or adds the name. -/
def alter (name : String) (change : Option Node → Option Node) : Entries → Option Entries
  | [] => (change none).map fun node => [(name, node)]
  | (n, node) :: rest =>
    if n = name then (change (some node)).map fun node => (n, node) :: rest
    else (alter name change rest).map ((n, node) :: ·)

/-- Changes the table at a path by `act`, which is told how that table came to be. Tables that are
missing on the way are added. A dotted name does not lead into a table that a header defines. -/
def descend (dotted : Bool) (act : Origin → Entries → Option Entries) :
    List String → Origin → Entries → Option Entries
  | [], origin, entries => act origin entries
  | name :: path, _, entries =>
    alter name (fun
      | none =>
        let origin := if dotted then Origin.dotted else .implied
        (descend dotted act path origin []).map (.table origin)
      | some (.value _) => none
      | some (.table origin inner) =>
        if dotted && origin == .header then none
        else (descend dotted act path origin inner).map (.table origin)
      | some (.tables []) => none
      | some (.tables (last :: others)) =>
        (descend dotted act path .header last).map fun last => .tables (last :: others)) entries

/-- A value that stands under a new name. -/
def addValue (name : String) (value : Json) : Entries → Option Entries :=
  alter name fun
    | none => some (.value value)
    | some _ => none

/-- Gives a dotted name a value. The table that it leads to must have come from a dotted name,
unless the name has one part only. -/
def define (path : List String) (value : Json) (entries : Entries) : Option Entries :=
  match path.getLast? with
  | none => none
  | some name =>
    let way := path.dropLast
    descend true (fun origin inner =>
      if (origin == .dotted) == way.isEmpty then none else addValue name value inner)
      way .header entries

/-- Opens the table of a header, which must be new or implied. -/
def openTable (path : List String) (root : Entries) : Option Entries :=
  match path.getLast? with
  | none => none
  | some name =>
    descend false (fun _ =>
      alter name fun
        | none => some (.table .header [])
        | some (.table .implied inner) => some (.table .header inner)
        | some _ => none) path.dropLast .header root

/-- Adds a table to the array of tables of a header. -/
def openElement (path : List String) (root : Entries) : Option Entries :=
  match path.getLast? with
  | none => none
  | some name =>
    descend false (fun _ =>
      alter name fun
        | none => some (.tables [[]])
        | some (.tables elements) => some (.tables ([] :: elements))
        | some _ => none) path.dropLast .header root

/-- Gives a dotted name a value in the table of a header. -/
def defineIn (header path : List String) (value : Json) (root : Entries) : Option Entries :=
  descend false (fun _ => define path value) header .header root

/-- An item of an array. A table whose only entry is empty can stand for a name alone, which in
JSON is a field that is `null`. -/
def asItem : Json → Json
  | .obj [(name, .obj [])] => .obj [(name, .null)]
  | .obj [(name, .arr [])] => .obj [(name, .null)]
  | j => j

mutual

/-- A node as JSON. -/
def Node.toJson : Node → Json
  | .value v => v
  | .table _ entries => .obj (entriesToJson entries)
  | .tables elements => .arr (elementsToJson elements).reverse

def entriesToJson : List (String × Node) → List (String × Json)
  | [] => []
  | (name, node) :: rest => (name, node.toJson) :: entriesToJson rest

def elementsToJson : List (List (String × Node)) → List Json
  | [] => []
  | entries :: rest => asItem (.obj (entriesToJson entries)) :: elementsToJson rest

end

end TraceWeave.Toml

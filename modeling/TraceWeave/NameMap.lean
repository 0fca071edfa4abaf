/-! # Maps by name

Values under names, kept sorted by name.

`NameMap.insert` puts a value in its place or over the old one, `NameMap.get?` reads one, and
`NameMap.getOrInsert` gives the value that is there or the one that it puts there.
-/

namespace TraceWeave

/-- Values under names, sorted by name. -/
abbrev NameMap (α : Type) := List (String × α)

namespace NameMap

variable {α : Type}

/-- Puts a value under a name; a value that is there already is replaced. -/
def insert (name : String) (value : α) : NameMap α → NameMap α
  | [] => [(name, value)]
  | (n, v) :: rest =>
    if name < n then (name, value) :: (n, v) :: rest
    else if name = n then (name, value) :: rest
    else (n, v) :: insert name value rest

def get? (m : NameMap α) (name : String) : Option α := m.lookup name

def contains (m : NameMap α) (name : String) : Bool := (m.get? name).isSome

/-- The value under a name, which is put there first if there is none. -/
def getOrInsert (m : NameMap α) (name : String) (value : α) : α × NameMap α :=
  match m.get? name with
  | some found => (found, m)
  | none => (value, m.insert name value)

/-- The map of pairs; of those with the same name the last one counts. -/
def ofPairs (pairs : List (String × α)) : NameMap α :=
  pairs.foldl (fun m (name, value) => insert name value m) []

end NameMap

end TraceWeave

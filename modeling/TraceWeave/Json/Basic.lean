/-! # JSON values

Numbers are kept apart by form: an integer within 64 bits, or any other number. Object fields
keep their order and their repetitions. What a text may hold only where nobody looks is a value of
its own, which can be passed over but has no content.

`Json` is the type of values and `Json.field?` looks a field up. `Json.depth` bounds the recursion
of readers; `Json.dropOverridden` keeps the last of several fields of one name.
-/

namespace TraceWeave

/-- A JSON value. -/
inductive Json where
  | null
  | bool (value : Bool)
  /-- An integer that fits into 64 bits. -/
  | int (value : Int)
  /-- A number with a fraction or an exponent, or beyond 64 bits. -/
  | decimal (text : String)
  | str (value : String)
  | arr (items : List Json)
  | obj (fields : List (String × Json))
  /-- A value that keeps to the grammar but cannot be read: a string with half of a surrogate
  pair, an object with such a name, or brackets below the nesting that a reader takes. -/
  | unreadable
  deriving Inhabited

namespace Json

mutual

/-- How many arrays and objects are nested in a value. -/
def depth : Json → Nat
  | .arr items => depthItems items + 1
  | .obj fields => depthFields fields + 1
  | _ => 0

def depthItems : List Json → Nat
  | [] => 0
  | item :: items => max (depth item) (depthItems items)

def depthFields : List (String × Json) → Nat
  | [] => 0
  | (_, value) :: fields => max (depth value) (depthFields fields)

end

mutual

/-- Keeps the last of the fields that share a name, everywhere in a value. -/
def dropOverridden : Json → Json
  | .arr items => .arr (dropOverriddenItems items)
  | .obj fields => .obj (dropOverriddenFields fields)
  | j => j

def dropOverriddenItems : List Json → List Json
  | [] => []
  | item :: items => dropOverridden item :: dropOverriddenItems items

def dropOverriddenFields : List (String × Json) → List (String × Json)
  | [] => []
  | (name, value) :: fields =>
    if fields.any (·.1 == name) then dropOverriddenFields fields
    else (name, dropOverridden value) :: dropOverriddenFields fields

end

/-- The field of an object, if the value is an object that has it. -/
def field? (name : String) : Json → Option Json
  | .obj fields => fields.lookup name
  | _ => none

end Json

end TraceWeave

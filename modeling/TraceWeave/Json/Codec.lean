import TraceWeave.Json.Basic

/-! # Records, choices and numbers as JSON

The conventions by which a record, a choice between variants, an optional value and a number of
a fixed width are written as JSON and read back. A record is an object, or an array that lists
its first fields in order; a variant without data is its name, one with data is an object with
one field. Formats differ in how freely they take arrays for records.

`Json.Format` says how freely a format takes one form for another, and `Json.Fault` tells a wrong
form from contents that do not fit. `Json.record?` reads the fields of a record and `Json.choice?`
a choice; `Json.required`, `Json.withDefault` and `Json.nullable?` read one field.
-/

namespace TraceWeave.Json

/-- Why JSON cannot be read. -/
inductive Fault where
  /-- It has none of the forms of what is to be read. -/
  | form
  /-- It has such a form, but a number or a record inside does not fit. -/
  | content
  deriving DecidableEq, Repr, Inhabited

namespace Fault

/-- What must be there for the form to be right. -/
def unlessForm {α : Type} : Option α → Except Fault α
  | some a => .ok a
  | none => .error .form

/-- What must fit into a form that is right. -/
def unlessContent {α : Type} : Option α → Except Fault α
  | some a => .ok a
  | none => .error .content

end Fault

/-- How freely a format takes arrays for records. -/
structure Format where
  /-- Whether an array may go on behind the last field of a record. -/
  surplus : Bool
  /-- Whether the named fields of a variant may be an array. -/
  listedVariants : Bool
  deriving DecidableEq, Repr, Inhabited

namespace Format

/-- Values that are at hand as a whole. -/
def value : Format := { surplus := false, listedVariants := false }

/-- Texts of JSON. -/
def text : Format := { surplus := false, listedVariants := true }

/-- Texts of TOML. -/
def toml : Format := { surplus := true, listedVariants := true }

end Format

/-- The fields of a record: from an object in which no known field stands twice, or from an array
that lists them in order. -/
def record? (names : List String) : Json → Option (List (String × Json))
  | .obj fields =>
    if names.all fun name => (fields.filter (·.1 == name)).length ≤ 1 then some fields else none
  | .arr items => if items.length ≤ names.length then some (names.zip items) else none
  | _ => none

/-- The fields of a record in a format. -/
def recordIn? (format : Format) (names : List String) : Json → Option (List (String × Json))
  | .arr items =>
    record? names (.arr (if format.surplus then items.take names.length else items))
  | j => record? names j

/-- The named fields of a variant in a format. -/
def variantFields? (format : Format) (names : List String) : Json → Option (List (String × Json))
  | .arr items => if format.listedVariants then recordIn? format names (.arr items) else none
  | j => record? names j

/-- A field that must be there. -/
def required {α : Type} (fields : List (String × Json)) (name : String)
    (read : Json → Option α) : Option α :=
  (fields.lookup name).bind read

/-- A field that has a default when it is missing. -/
def withDefault {α : Type} (fields : List (String × Json)) (name : String) (default : α)
    (read : Json → Option α) : Option α :=
  match fields.lookup name with
  | none => some default
  | some j => read j

/-- A value that may be `null`. -/
def nullable? {α : Type} (read : Json → Option α) : Json → Option (Option α)
  | .null => some none
  | j => (read j).map some

def ofNullable {α : Type} (write : α → Json) : Option α → Json
  | none => .null
  | some a => write a

/-- A list of values. -/
def list? {α : Type} (read : Json → Option α) : Json → Option (List α)
  | .arr items => items.mapM read
  | _ => none

/-- The items of an array, as they are. -/
def items? : Json → Option (List Json)
  | .arr items => some items
  | _ => none

def ofList {α : Type} (write : α → Json) (items : List α) : Json := .arr (items.map write)

/-- A pair, written as an array of two. -/
def pair? {α β : Type} (first : Json → Option α) (second : Json → Option β) :
    Json → Option (α × β)
  | .arr [a, b] => do some (← first a, ← second b)
  | _ => none

/-- The name of a variant, and its data if there is any. -/
def variant? : Json → Option (String × Option Json)
  | .str name => some (name, none)
  | .obj [(name, data)] => some (name, some data)
  | _ => none

/-- A variant without data; `null` counts as none. -/
def bare? {α : Type} (value : α) : Option Json → Option α
  | none => some value
  | some .null => some value
  | some _ => none

/-- A variant with data. -/
def data? {α : Type} (read : Json → Option α) : Option Json → Option α
  | none => none
  | some j => read j

/-- One of a list of variants without data, by name. -/
def choice? {α : Type} (choices : List (String × α)) (j : Json) : Option α := do
  let (name, data) ← variant? j
  let value ← choices.lookup name
  bare? value data

/-- A variant with data. -/
def ofVariant (name : String) (data : Json) : Json := .obj [(name, data)]

def str? : Json → Option String
  | .str s => some s
  | _ => none

def bool? : Json → Option Bool
  | .bool b => some b
  | _ => none

def uint32? : Json → Option UInt32
  | .int n => if 0 ≤ n ∧ n < UInt32.size then some (UInt32.ofNat n.toNat) else none
  | _ => none

def int32? : Json → Option Int32
  | .int n =>
    if Int32.minValue.toInt ≤ n ∧ n ≤ Int32.maxValue.toInt then some (Int32.ofInt n) else none
  | _ => none

def int64? : Json → Option Int64
  | .int n =>
    if Int64.minValue.toInt ≤ n ∧ n ≤ Int64.maxValue.toInt then some (Int64.ofInt n) else none
  | _ => none

def ofUInt32 (n : UInt32) : Json := .int n.toNat

def ofInt32 (n : Int32) : Json := .int n.toInt

def ofInt64 (n : Int64) : Json := .int n.toInt

end TraceWeave.Json

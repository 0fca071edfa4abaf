import TraceWeave.Text.Blank
import TraceWeave.Error

/-! # Trace types

The eight kinds of trace hook and sets of them.

`TraceType` lists the kinds and `TraceType.parse` reads one by name. A `TraceSet` is given by the
kinds that it has; `TraceSet.union` and `TraceSet.inter` act kind by kind (`TraceSet.has_union`,
`TraceSet.has_inter`).
-/

namespace TraceWeave

/-- A kind of trace hook. -/
inductive TraceType where
  | spanEnter | spanLeave | functionEnter | functionLeave | beforeCall | afterCall
  | suspensionPoint | event
  deriving DecidableEq, Repr, Inhabited

namespace TraceType

/-- All trace types, in their fixed order. -/
def all : List TraceType :=
  [.spanEnter, .spanLeave, .functionEnter, .functionLeave, .beforeCall, .afterCall,
    .suspensionPoint, .event]

def name : TraceType → String
  | .spanEnter => "span-enter"
  | .spanLeave => "span-leave"
  | .functionEnter => "function-enter"
  | .functionLeave => "function-leave"
  | .beforeCall => "before-call"
  | .afterCall => "after-call"
  | .suspensionPoint => "suspension-point"
  | .event => "event"

/-- The types that a user writes by hand and that removal may strip. -/
def isUserCall : TraceType → Bool
  | .spanEnter | .spanLeave | .event => true
  | _ => false

/-- The type whose name is exactly `text`. -/
def ofName? (text : String) : Option TraceType := all.find? (·.name == text)

/-- Ignores blanks at the ends and ASCII case, and takes an underscore for a hyphen. -/
def normalize (text : String) : String :=
  (Text.trimBlank text).map fun c => if c == '_' then '-' else c.toLower

/-- The type that `text` names, up to `normalize`. -/
def parse (text : String) : Except Error TraceType :=
  match ofName? (normalize text) with
  | some ty => .ok ty
  | none => .error (.config s!"unknown trace type `{text}`")

theorem mem_all (ty : TraceType) : ty ∈ all := by cases ty <;> decide

theorem ofName?_name (ty : TraceType) : ofName? ty.name = some ty := by cases ty <;> decide

end TraceType

/-- A set of trace types. -/
structure TraceSet where
  has : TraceType → Bool

namespace TraceSet

instance : Inhabited TraceSet := ⟨⟨fun _ => false⟩⟩

def empty : TraceSet := ⟨fun _ => false⟩

def full : TraceSet := ⟨fun _ => true⟩

def ofList (types : List TraceType) : TraceSet := ⟨fun ty => types.contains ty⟩

def union (a b : TraceSet) : TraceSet := ⟨fun ty => a.has ty || b.has ty⟩

def inter (a b : TraceSet) : TraceSet := ⟨fun ty => a.has ty && b.has ty⟩

/-- The members, in the fixed order of the trace types. -/
def types (s : TraceSet) : List TraceType := TraceType.all.filter s.has

/-- The set as a number: each member contributes the bit of its place in the fixed order. -/
def bits (s : TraceSet) : Nat :=
  TraceType.all.zipIdx.foldr (fun (ty, i) n => if s.has ty then 1 <<< i + n else n) 0

/-- Sets are written as the names of their members in brackets. -/
def text (s : TraceSet) : String :=
  "[" ++ ", ".intercalate (s.types.map TraceType.name) ++ "]"

@[simp] theorem has_union (a b : TraceSet) (ty : TraceType) :
    (a.union b).has ty = (a.has ty || b.has ty) := rfl

@[simp] theorem has_inter (a b : TraceSet) (ty : TraceType) :
    (a.inter b).has ty = (a.has ty && b.has ty) := rfl

theorem mem_types (s : TraceSet) (ty : TraceType) : ty ∈ s.types ↔ s.has ty = true := by
  simp [types, TraceType.mem_all]

end TraceSet

end TraceWeave

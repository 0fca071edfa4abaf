import TraceWeave.Descriptor.Handle
import TraceWeave.NameMap

/-! # Annotations of a descriptor

The uses of annotations on a declaration, grouped by annotation type in the order in which the
types first occur.

`AnnotationMap.push` adds one use to its group, or starts a group; `AnnotationMap.get` and
`AnnotationMap.len` read the map. `AnnotationValue.depth` is how deep lists are nested in a value.
-/

namespace TraceWeave

/-- The value of an argument; lists nest without limit. -/
inductive AnnotationValue where
  | null
  | boolean (value : Bool)
  | int (value : Int32)
  | long (value : Int64)
  | string (value : String)
  | type (handle : Handle .typeInfo)
  | list (items : List AnnotationValue)
  deriving Inhabited

namespace AnnotationValue

mutual

/-- How deep lists are nested; a scalar has depth zero. -/
def depth : AnnotationValue → Nat
  | .list items => depths items + 1
  | _ => 0

/-- The largest depth of a list of values. -/
def depths : List AnnotationValue → Nat
  | [] => 0
  | item :: items => max (depth item) (depths items)

end

end AnnotationValue

/-- One use of an annotation. -/
structure AnnotationUsage where
  location : Handle .location
  annotationType : Handle .typeInfo
  arguments : NameMap AnnotationValue
  deriving Inhabited

/-- Uses of annotations by annotation type. -/
structure AnnotationMap where
  entries : List (Handle .typeInfo × List AnnotationUsage) := []
  deriving Inhabited

namespace AnnotationMap

/-- Adds a use to the group of its type, or opens a group at the end. -/
def pushTo (usage : AnnotationUsage) :
    List (Handle .typeInfo × List AnnotationUsage) → List (Handle .typeInfo × List AnnotationUsage)
  | [] => [(usage.annotationType, [usage])]
  | (ty, usages) :: rest =>
    if ty = usage.annotationType then (ty, usages ++ [usage]) :: rest
    else (ty, usages) :: pushTo usage rest

def push (m : AnnotationMap) (usage : AnnotationUsage) : AnnotationMap := ⟨pushTo usage m.entries⟩

/-- The uses of a type, in the order of their adding. -/
def get (m : AnnotationMap) (ty : Handle .typeInfo) : List AnnotationUsage :=
  (m.entries.lookup ty).getD []

/-- The number of distinct annotation types. -/
def len (m : AnnotationMap) : Nat := m.entries.length

end AnnotationMap

end TraceWeave

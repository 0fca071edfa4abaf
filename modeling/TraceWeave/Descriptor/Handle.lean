/-! # Handles

A descriptor is known by its kind and by its place among the descriptors of that kind.

`DescriptorKind` lists the kinds, `Handle` is a place among those of a kind that is known from the
context, and `DescriptorRef` carries both. A handle and its reference say the same
(`Handle.toRef_injective`).
-/

namespace TraceWeave

/-- The kinds of descriptor. -/
inductive DescriptorKind where
  | location | typeInfo | classInfo | functionInfo | propertyInfo | fieldInfo | localInfo
  | parameterInfo
  deriving DecidableEq, Repr, Inhabited

/-- The place of a descriptor of kind `k`. -/
structure Handle (k : DescriptorKind) where
  index : UInt32
  deriving DecidableEq, Repr, Inhabited

/-- A reference from a program to a descriptor of any kind. -/
structure DescriptorRef where
  kind : DescriptorKind
  index : UInt32
  deriving DecidableEq, Repr, Inhabited

namespace DescriptorKind

def name : DescriptorKind → String
  | .location => "location"
  | .typeInfo => "type"
  | .classInfo => "class"
  | .functionInfo => "function"
  | .propertyInfo => "property"
  | .fieldInfo => "field"
  | .localInfo => "local"
  | .parameterInfo => "parameter"

/-- The runtime class that descriptors of a kind are instances of. -/
def runtimeClass : DescriptorKind → String
  | .location => "spyglass.SourceLocation"
  | .typeInfo => "spyglass.TypeInfo"
  | .classInfo => "spyglass.ClassInfo"
  | .functionInfo => "spyglass.FunctionInfo"
  | .propertyInfo => "spyglass.PropertyInfo"
  | .fieldInfo => "spyglass.FieldInfo"
  | .localInfo => "spyglass.LocalInfo"
  | .parameterInfo => "spyglass.ParameterInfo"

end DescriptorKind

/-- The reference to a descriptor. -/
def Handle.toRef {k : DescriptorKind} (h : Handle k) : DescriptorRef := ⟨k, h.index⟩

theorem Handle.toRef_injective {k : DescriptorKind} {a b : Handle k} (h : a.toRef = b.toRef) :
    a = b := by
  cases a
  cases b
  simp_all [Handle.toRef]

end TraceWeave

import TraceWeave.Descriptor.Arena
import TraceWeave.Descriptor.Annotations
import TraceWeave.Descriptor.Keys
import TraceWeave.Source.Cache

/-! # Descriptors and their store

What is recorded about locations, types, classes, functions, properties, fields, locals and
parameters, and one arena for each of them.

`Store` holds the eight arenas. Each of them is a `Part` of the store (`Store.classesPart`,
`Store.functionsPart` and so on), so builders of one kind run on the whole store.
`Store.describe?` gives what a handle of any kind stands for; `ClassInfo.structuralHash` and
`FunctionInfo.structuralHash` are the hashes that programs can ask for.
-/

namespace TraceWeave

/-- A position in a file of a module; it is its own key. -/
structure SourceLocation where
  moduleName : String
  file : String
  position : Source.Position
  deriving DecidableEq, Inhabited

namespace SourceLocation

def text (l : SourceLocation) : String := s!"{l.moduleName}/{l.file}:{l.position.text}"

end SourceLocation

structure TypeInfo where
  ty : Ty
  qualifiedName : String
  simpleName : String
  location : Handle .location
  deriving Inhabited

structure ClassInfo where
  location : Handle .location
  qualifiedName : String
  simpleName : String
  typeParameters : List String := []
  companions : List (Handle .classInfo) := []
  functions : List (Handle .functionInfo) := []
  properties : List (Handle .propertyInfo) := []
  isInterface : Bool := false
  isObject : Bool := false
  isCompanion : Bool := false
  visibility : Visibility := .isPublic
  modality : Modality := .isFinal
  structuralKind : Option StructuralKind := none
  annotations : AnnotationMap := {}
  deriving Inhabited

structure FunctionInfo where
  key : FunctionKey
  location : Handle .location
  qualifiedName : String
  simpleName : String
  typeParameters : List String
  returnType : Handle .typeInfo
  parameters : List (Handle .parameterInfo)
  visibility : Visibility
  modality : Modality
  locals : List (Handle .localInfo)
  isExpect : Bool
  isSuspend : Bool
  declaringClass : Option (Handle .classInfo)
  annotations : AnnotationMap
  deriving Inhabited

/-- A property. Its type comes from the getter, the setter or the backing field. -/
structure PropertyInfo where
  key : PropertyKey
  location : Handle .location
  qualifiedName : String
  simpleName : String
  mutable : Bool
  visibility : Visibility
  modality : Modality
  getter : Option (Handle .functionInfo)
  setter : Option (Handle .functionInfo)
  backing : Option (Handle .fieldInfo)
  annotations : AnnotationMap
  deriving Inhabited

structure FieldInfo where
  location : Handle .location
  qualifiedName : String
  simpleName : String
  ty : Handle .typeInfo
  isStatic : Bool
  isExternal : Bool
  isFinal : Bool
  annotations : AnnotationMap
  deriving Inhabited

structure LocalInfo where
  location : Handle .location
  qualifiedName : String
  simpleName : String
  ty : Handle .typeInfo
  mutable : Bool
  annotations : AnnotationMap
  deriving Inhabited

structure ParameterInfo where
  location : Handle .location
  qualifiedName : String
  simpleName : String
  ty : Handle .typeInfo
  index : Nat
  annotations : AnnotationMap
  deriving Inhabited

/-- All descriptors, and the source texts that their locations come from. -/
structure Store where
  locations : Arena .location SourceLocation SourceLocation := {}
  types : Arena .typeInfo Ty TypeInfo := {}
  classes : Arena .classInfo String ClassInfo := {}
  functions : Arena .functionInfo FunctionKey FunctionInfo := {}
  properties : Arena .propertyInfo PropertyKey PropertyInfo := {}
  fields : Arena .fieldInfo FieldKey FieldInfo := {}
  locals : Arena .localInfo VariableKey LocalInfo := {}
  parameters : Arena .parameterInfo VariableKey ParameterInfo := {}
  /-- The source texts that were read so far. -/
  texts : Source.Cache := {}
  deriving Inhabited

namespace Store

def locationsPart : Part Store (Arena .location SourceLocation SourceLocation) :=
  ⟨Store.locations, fun a s => { s with locations := a }⟩

def typesPart : Part Store (Arena .typeInfo Ty TypeInfo) :=
  ⟨Store.types, fun a s => { s with types := a }⟩

def classesPart : Part Store (Arena .classInfo String ClassInfo) :=
  ⟨Store.classes, fun a s => { s with classes := a }⟩

def functionsPart : Part Store (Arena .functionInfo FunctionKey FunctionInfo) :=
  ⟨Store.functions, fun a s => { s with functions := a }⟩

def propertiesPart : Part Store (Arena .propertyInfo PropertyKey PropertyInfo) :=
  ⟨Store.properties, fun a s => { s with properties := a }⟩

def fieldsPart : Part Store (Arena .fieldInfo FieldKey FieldInfo) :=
  ⟨Store.fields, fun a s => { s with fields := a }⟩

def localsPart : Part Store (Arena .localInfo VariableKey LocalInfo) :=
  ⟨Store.locals, fun a s => { s with locals := a }⟩

def parametersPart : Part Store (Arena .parameterInfo VariableKey ParameterInfo) :=
  ⟨Store.parameters, fun a s => { s with parameters := a }⟩

/-- One line about the descriptor that a reference names. -/
def describe? (s : Store) (r : DescriptorRef) : Option String :=
  match r.kind with
  | .location => (s.locations.get? ⟨r.index⟩).map SourceLocation.text
  | .typeInfo => (s.types.get? ⟨r.index⟩).map fun i => s!"type {i.qualifiedName}"
  | .classInfo => (s.classes.get? ⟨r.index⟩).map fun i => s!"class {i.qualifiedName}"
  | .functionInfo => (s.functions.get? ⟨r.index⟩).map fun i => s!"function {i.qualifiedName}"
  | .propertyInfo => (s.properties.get? ⟨r.index⟩).map fun i => s!"property {i.qualifiedName}"
  | .fieldInfo => (s.fields.get? ⟨r.index⟩).map fun i => s!"field {i.qualifiedName}"
  | .localInfo => (s.locals.get? ⟨r.index⟩).map fun i => s!"local {i.qualifiedName}"
  | .parameterInfo => (s.parameters.get? ⟨r.index⟩).map fun i => s!"parameter {i.qualifiedName}"

end Store

namespace ClassInfo

/-- The hash that stands for a class in a running program. -/
def structuralHash (i : ClassInfo) : Int32 :=
  foldHash (Hash.sip (Stream.ofString i.qualifiedName))

end ClassInfo

namespace FunctionInfo

/-- The hash that stands for a function in a running program. -/
def structuralHash (i : FunctionInfo) : Int32 := foldHash i.key.hash

end FunctionInfo

namespace PropertyInfo

/-- The type of a property: what its getter returns, else what its setter takes last, else the
type of its backing field. -/
def ty? (i : PropertyInfo) (s : Store) : Option (Handle .typeInfo) :=
  match i.getter.bind s.functions.get? with
  | some getter => some getter.returnType
  | none =>
    match i.setter.bind s.functions.get? with
    | some setter => do
      let value ← setter.parameters.getLast?
      (s.parameters.get? value).map ParameterInfo.ty
    | none => (i.backing.bind s.fields.get?).map FieldInfo.ty

end PropertyInfo

end TraceWeave

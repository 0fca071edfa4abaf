import TraceWeave.Descriptor.Store
import TraceWeave.Program.Symbols
import TraceWeave.Scope
import TraceWeave.Source.Cache

/-! # Descriptors of locations, types and annotations

The part of descriptor building that never leads from one declaration to another. Asking twice
for the same thing gives the same handle.

A `Factory` is what builders read: the symbols, the source texts and the name of the module.
`Factory.location`, `Factory.typeInfo`, `Factory.annotations`, `Factory.parameterInfo`,
`Factory.localInfo` and `Factory.fieldInfo` ask for one descriptor each; a `VariableSite` is the
place at which a parameter or local is described.
-/

namespace TraceWeave

/-- What descriptors are built from. -/
structure Factory where
  symbols : SymbolTable
  sources : Source.Provider
  /-- The module name in source locations. -/
  moduleName : String

namespace Factory

/-- The path of a file, or nothing if the file is unknown. -/
def filePath (f : Factory) (file : FileId) : String :=
  match f.symbols.file? file with
  | some info => info.path
  | none => ""

/-- The position of a span in its file, which is read unless it was before. -/
def position (f : Factory) (span : Span) : Build Store Source.Position := fun s =>
  let (position, texts) :=
    s.texts.resolve f.sources (f.filePath span.file) span.start span.stop
  (.ok position, { s with texts })

/-- The descriptor of a location. -/
def ofLocation (l : SourceLocation) : Build Store (Handle .location) :=
  Arena.getOrCreate Store.locationsPart l fun _ => pure l

def locationAt (f : Factory) (file : FileId) (position : Source.Position) :
    Build Store (Handle .location) :=
  ofLocation ⟨f.moduleName, f.filePath file, position⟩

/-- The location of a span. -/
def location (f : Factory) (span : Span) : Build Store (Handle .location) := do
  f.locationAt span.file (← f.position span)

/-- The location of what has no declaration. -/
def undefinedLocation (f : Factory) : Build Store (Handle .location) :=
  ofLocation ⟨f.moduleName, "", .undefined⟩

/-- The location of a declaration; what is inherited or comes from a library has no position. -/
def declLocation (f : Factory) (s : Symbol) : Build Store (Handle .location) :=
  match s.head.origin with
  | .fakeOverride => f.locationAt s.file .fakeOverride
  | .library => f.locationAt s.file .undefined
  | .source | .synthetic => f.location s.head.span

/-- The class declaration that a type names. -/
def classOfType? (f : Factory) (ty : Ty) : Option DeclId :=
  ty.className?.bind f.symbols.lookupClass?

def typeInfo (f : Factory) (ty : Ty) : Build Store (Handle .typeInfo) :=
  Arena.getOrCreate Store.typesPart ty fun _ => do
    let location ← match (f.classOfType? ty).bind f.symbols.get? with
      | some s => f.declLocation s
      | none => f.undefinedLocation
    return { ty, qualifiedName := ty.qualifiedName, simpleName := ty.simpleName, location }

mutual

/-- The value of an argument of an annotation. -/
def annotationValue (f : Factory) : AnnotationArg → Build Store AnnotationValue
  | .const .null | .const .unit => pure .null
  | .const (.boolean b) => pure (.boolean b)
  | .const (.int n) => pure (.int n)
  | .const (.long n) => pure (.long n)
  | .const (.string s) => pure (.string s)
  | .type ty => do return .type (← f.typeInfo ty)
  | .array items => do return .list (← f.annotationValues items)

def annotationValues (f : Factory) : List AnnotationArg → Build Store (List AnnotationValue)
  | [] => pure []
  | item :: items => do
    let value ← f.annotationValue item
    let values ← f.annotationValues items
    return value :: values

end

/-- The arguments of a use, sorted by name; of equal names the last one counts. -/
def usageArguments (f : Factory) :
    List AnnotationArgument → NameMap AnnotationValue → Build Store (NameMap AnnotationValue)
  | [], found => pure found
  | a :: as, found => do
    let value ← f.annotationValue a.value
    f.usageArguments as (found.insert a.name value)

/-- Adds uses to a map one after the other. -/
def addAnnotations (f : Factory) : List AnnotationUse → AnnotationMap → Build Store AnnotationMap
  | [], m => pure m
  | use :: uses, m => do
    let arguments ← f.usageArguments use.arguments []
    let location ← f.location use.span
    let annotationType ← f.typeInfo use.ty
    f.addAnnotations uses (m.push { location, annotationType, arguments })

/-- The annotations of a declaration. -/
def annotations (f : Factory) (uses : List AnnotationUse) : Build Store AnnotationMap :=
  f.addAnnotations uses {}

/-- The hash of what encloses a declaration: its parent, or its file at top level. -/
def enclosingHash (f : Factory) (s : Symbol) : UInt64 :=
  let path := f.filePath s.file
  match s.parent.bind f.symbols.get? with
  | some parent =>
    Hash.sip (Stream.ofString parent.fqName ++ Stream.ofString path ++
      Stream.ofInt32 parent.head.span.start)
  | none => Hash.sip (Stream.ofString path ++ Stream.ofUInt32 s.file.val)

/-- The class that declares a function as a member, also through a property. -/
def declaringOf : List Symbol → Option DeclId
  | [] => none
  | s :: rest =>
    match s.kind with
    | .classSymbol _ => some s.id
    | .property _ => declaringOf rest
    | _ => none

def declaringClass? (f : Factory) (id : DeclId) : Option DeclId :=
  declaringOf (f.symbols.ancestors id)

/-- A variable as its descriptor needs it. -/
structure VariableSite where
  name : String
  ty : Ty
  span : Span
  mutable : Bool
  annotations : List AnnotationUse := []

def VariableSite.ofVisible (v : VisibleLocal) : VariableSite :=
  { name := v.name, ty := v.ty, span := v.span, mutable := v.mutable }

def VariableSite.ofVar (v : VarHead) : VariableSite :=
  { name := v.name, ty := v.ty, span := v.span, mutable := v.mutable, annotations := v.annotations }

def parameterInfo (f : Factory) (owner : UInt64) (ownerName : String) (index : Nat)
    (p : ParamHead) : Build Store (Handle .parameterInfo) :=
  Arena.getOrCreate Store.parametersPart ⟨owner, p.name, p.ty, p.span.start⟩ fun _ => do
    let location ← f.location p.span
    let ty ← f.typeInfo p.ty
    let annotations ← f.annotations p.annotations
    return { location, qualifiedName := s!"{ownerName}.{p.name}", simpleName := p.name, ty, index,
             annotations }

def localInfo (f : Factory) (owner : UInt64) (ownerName : String) (v : VariableSite) :
    Build Store (Handle .localInfo) :=
  Arena.getOrCreate Store.localsPart ⟨owner, v.name, v.ty, v.span.start⟩ fun _ => do
    let location ← f.location v.span
    let ty ← f.typeInfo v.ty
    let annotations ← f.annotations v.annotations
    return { location, qualifiedName := s!"{ownerName}.{v.name}", simpleName := v.name, ty,
             mutable := v.mutable, annotations }

/-- The error for a declaration of another kind than the one that is asked for. -/
def notA (id : DeclId) (what : String) : Error :=
  .invalidState s!"declaration {id.text} is not a {what}"

def fieldInfo (f : Factory) (id : DeclId) : Build Store (Handle .fieldInfo) := do
  let (s, field) ← Build.require (f.symbols.fieldOf? id) (notA id "field")
  Arena.getOrCreate Store.fieldsPart ⟨s.fqName, field.ty, f.enclosingHash s⟩ fun _ => do
    let location ← f.declLocation s
    let ty ← f.typeInfo field.ty
    let annotations ← f.annotations s.head.annotations
    return { location, qualifiedName := s.fqName, simpleName := s.name, ty,
             isStatic := field.isStatic, isExternal := field.isExternal, isFinal := field.isFinal,
             annotations }

/-- The key of a function. Lambdas share a name, so their position counts too. -/
def functionKeyOf (f : Factory) (s : Symbol) (info : FunctionSymbol) : FunctionKey :=
  let outer := f.enclosingHash s
  let enclosing :=
    if info.head.kind = .lambda then
      Hash.sip (Stream.ofUInt64 outer ++ Stream.ofInt32 s.head.span.start)
    else outer
  { qualifiedName := s.fqName, returnType := info.head.returnTy,
    parameterTypes := info.params.map (·.head.ty), enclosing }

def functionKey (f : Factory) (id : DeclId) : Except Error FunctionKey :=
  match f.symbols.function? id with
  | some (s, info) => .ok (f.functionKeyOf s info)
  | none => .error (notA id "function")

end Factory

end TraceWeave

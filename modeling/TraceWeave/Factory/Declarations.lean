import TraceWeave.Factory.Basic

/-! # Descriptors of classes, functions and properties

A class lists the functions it declares and a function names its class, so builders of these
three kinds call each other. The arenas give out handles that are still under construction, and a
bound on the number of builders inside each other makes the recursion visible.

`Factory.classInfo`, `Factory.functionInfo` and `Factory.propertyInfo` are the requests, with the
bound `Factory.bound`; `Factory.classInfoForType` describes a class by its type and
`Factory.frameCapture` the variables that can be seen from a point.
-/

namespace TraceWeave.Factory

/-- The descriptor of a member that its class lists. -/
inductive MemberHandle where
  | companion (h : Handle .classInfo)
  | function (h : Handle .functionInfo)
  | property (h : Handle .propertyInfo)
  | unlisted

namespace MemberHandle

def companion? : MemberHandle → Option (Handle .classInfo)
  | .companion h => some h
  | _ => none

def function? : MemberHandle → Option (Handle .functionInfo)
  | .function h => some h
  | _ => none

def property? : MemberHandle → Option (Handle .propertyInfo)
  | .property h => some h
  | _ => none

end MemberHandle

/-- Runs a step on a value if there is one. -/
def onSome {σ α β : Type} (step : α → Build σ β) : Option α → Build σ (Option β)
  | none => pure none
  | some a => do return some (← step a)

/-- The error when builders are nested deeper than declarations allow. -/
def nestedTooDeep : Error := .invalidState "descriptors nest deeper than declarations"

mutual

/-- The descriptor of a class, with at most `fuel` builders inside each other. -/
def classInfoWithin (f : Factory) : Nat → DeclId → Build Store (Handle .classInfo)
  | 0, _ => Build.fail nestedTooDeep
  | fuel + 1, id => do
    let (s, info) ← Build.require (f.symbols.class? id) (notA id "class")
    Arena.getOrCreate Store.classesPart s.fqName fun _ => do
      let members ← info.members.mapM fun member => memberInfoWithin f fuel member
      let location ← f.declLocation s
      let annotations ← f.annotations s.head.annotations
      return {
        location
        qualifiedName := s.fqName
        simpleName := s.name
        typeParameters := info.head.typeParams
        companions := members.filterMap MemberHandle.companion?
        functions := members.filterMap MemberHandle.function?
        properties := members.filterMap MemberHandle.property?
        isInterface := info.head.kind == .interface
        isObject := info.head.kind == .object || info.head.kind == .anonymousObject
        isCompanion := info.head.isCompanion
        visibility := info.head.visibility
        modality := info.head.modality
        structuralKind := info.head.structural
        annotations }

/-- The descriptor of a member of a class, if the class lists it. -/
def memberInfoWithin (f : Factory) : Nat → DeclId → Build Store MemberHandle
  | 0, _ => Build.fail nestedTooDeep
  | fuel + 1, id =>
    match (f.symbols.get? id).map Symbol.kind with
    | some (.classSymbol nested) =>
      if nested.head.isCompanion then do return .companion (← classInfoWithin f fuel id)
      else pure .unlisted
    | some (.function _) => do return .function (← functionInfoWithin f fuel id)
    | some (.property _) => do return .property (← propertyInfoWithin f fuel id)
    | _ => pure .unlisted

/-- The descriptor of a function, with at most `fuel` builders inside each other. -/
def functionInfoWithin (f : Factory) : Nat → DeclId → Build Store (Handle .functionInfo)
  | 0, _ => Build.fail nestedTooDeep
  | fuel + 1, id => do
    let (s, info) ← Build.require (f.symbols.function? id) (notA id "function")
    let key := f.functionKeyOf s info
    Arena.getOrCreate Store.functionsPart key fun _ => do
      let owner := key.hash
      let parameters ← info.params.zipIdx.mapM fun (p, i) => f.parameterInfo owner s.fqName i p.head
      let locals ← info.locals.mapM fun v => f.localInfo owner s.fqName (.ofVar v)
      let declaringClass ← onSome (fun c => classInfoWithin f fuel c) (f.declaringClass? id)
      let location ← f.declLocation s
      let returnType ← f.typeInfo info.head.returnTy
      let annotations ← f.annotations s.head.annotations
      return {
        key
        location
        qualifiedName := s.fqName
        simpleName := s.name
        typeParameters := info.head.typeParams
        returnType
        parameters
        visibility := info.head.visibility
        modality := info.head.modality
        locals
        isExpect := info.head.isExpect
        isSuspend := info.head.isSuspend
        declaringClass
        annotations }

/-- The descriptor of a property, with at most `fuel` builders inside each other. -/
def propertyInfoWithin (f : Factory) : Nat → DeclId → Build Store (Handle .propertyInfo)
  | 0, _ => Build.fail nestedTooDeep
  | fuel + 1, id => do
    let (s, info) ← Build.require (f.symbols.property? id) (notA id "property")
    let key : PropertyKey := ⟨s.fqName, f.enclosingHash s⟩
    Arena.getOrCreate Store.propertiesPart key fun _ => do
      if info.getter.isNone && info.setter.isNone && info.backing.isNone then
        Build.fail (.invalidState
          s!"property {s.fqName} has neither accessors nor a backing field")
      let location ← f.declLocation s
      let getter ← onSome (fun g => functionInfoWithin f fuel g) info.getter
      let setter ← onSome (fun g => functionInfoWithin f fuel g) info.setter
      let backing ← onSome f.fieldInfo info.backing
      let annotations ← f.annotations s.head.annotations
      return {
        key
        location
        qualifiedName := s.fqName
        simpleName := s.name
        mutable := info.head.mutable
        visibility := info.head.visibility
        modality := info.head.modality
        getter
        setter
        backing
        annotations }

end

/-- How many builders can stand inside each other: each has a key of its own, and a class goes
through a step for each member. -/
def bound (f : Factory) : Nat := 2 * f.symbols.newest.length + 2

def classInfo (f : Factory) (id : DeclId) : Build Store (Handle .classInfo) :=
  classInfoWithin f f.bound id

def functionInfo (f : Factory) (id : DeclId) : Build Store (Handle .functionInfo) :=
  functionInfoWithin f f.bound id

def propertyInfo (f : Factory) (id : DeclId) : Build Store (Handle .propertyInfo) :=
  propertyInfoWithin f f.bound id

/-- The class descriptor of a type. A type without a class declaration gets one without
members. -/
def classInfoForType (f : Factory) (ty : Ty) : Build Store (Handle .classInfo) :=
  match f.classOfType? ty with
  | some id => f.classInfo id
  | none =>
    Arena.getOrCreate Store.classesPart ty.qualifiedName fun _ => do
      let location ← f.undefinedLocation
      return { location, qualifiedName := ty.qualifiedName, simpleName := ty.simpleName }

/-- The descriptor of the primary constructor of a class. -/
def primaryConstructorInfo (f : Factory) (id : DeclId) : Build Store (Handle .functionInfo) := do
  let (s, info) ← Build.require (f.symbols.class? id) (notA id "class")
  let constructor ← Build.require info.primaryConstructor
    (.invalidState s!"class {s.fqName} has no primary constructor")
  f.functionInfo constructor

/-- The function descriptor of an executable. An initializer counts as the primary constructor of
its class. -/
def executableInfo (f : Factory) : Executable → Build Store (Handle .functionInfo)
  | .function id => f.functionInfo id
  | .initializer _ (some inClass) => f.primaryConstructorInfo inClass
  | .initializer id none =>
    Build.fail (.invalidState s!"initializer {id.text} does not belong to a class")

/-- The hash and the name of the executable that owns variables. -/
def variableOwner (f : Factory) : Executable → Except Error (UInt64 × String)
  | .function id => do
    let key ← f.functionKey id
    return (key.hash, key.qualifiedName)
  | .initializer id _ =>
    match f.symbols.get? id with
    | some s =>
      .ok (Hash.sip (Stream.ofString s.fqName ++ Stream.ofInt32 s.head.span.start), s.fqName)
    | none => .error (.invalidState s!"unknown initializer {id.text}")

/-- The capture of variables that an executable owns, at a span. -/
def frameCapture (f : Factory) (executable : Executable) (locals : List VisibleLocal)
    (span : Span) : Build Store FrameCapture := do
  let (owner, ownerName) ← Build.ofExcept (f.variableOwner executable)
  let entries ← locals.mapM fun v => do
    let info ← f.localInfo owner ownerName (.ofVisible v)
    return (⟨info, v.var⟩ : CapturedLocal)
  let location ← f.location span
  return { location, entries }

end TraceWeave.Factory

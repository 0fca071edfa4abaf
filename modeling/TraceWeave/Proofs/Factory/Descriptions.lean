import Mathlib.Data.List.Forall2
import TraceWeave.Factory.Declarations
import TraceWeave.Proofs.Factory.Renaming
import TraceWeave.Proofs.Descriptor.Builders
import TraceWeave.Proofs.Source.Offsets

/-! # What descriptors contain

The content of a descriptor, read off the index of declarations. A handle inside it is the one that
the store gives to the key of what is meant, so the content depends on the store only through the
handles of keys and the positions in source texts. Two stores that agree on positions therefore
hold the same content under the same key, up to the renaming of handles, as long as a key stands
for one declaration.

`Factory.Describes` says what the descriptor of a key contains, `Factory.AnswerIs` what a request
is answered with, under `Factory.KeysApart`. `Factory.Joins` is the renaming; it carries contents
(`Factory.Joins.info`) and answers (`Factory.Joins.answer`).
-/

namespace TraceWeave

/-- Whether a key leads to a handle. -/
def Store.Finds (s : Store) (k : DescriptorKind) (key : k.Key) (h : Handle k) : Prop :=
  (key, h) ∈ (s.arena k).index

namespace Factory

/-! ## Requests -/

/-- A request for a descriptor or for the capture of a frame. -/
inductive Request where
  | location (span : Span)
  | typeInfo (ty : Ty)
  | classInfo (id : DeclId)
  | classInfoForType (ty : Ty)
  | functionInfo (id : DeclId)
  | executableInfo (executable : Executable)
  | propertyInfo (id : DeclId)
  | fieldInfo (id : DeclId)
  | frameCapture (executable : Executable) (locals : List VisibleLocal) (span : Span)

/-- What a request is answered with. -/
inductive Answer where
  | descriptor (ref : DescriptorRef)
  | capture (capture : FrameCapture)

namespace Answer

def ofHandle {k : DescriptorKind} (h : Handle k) : Answer := .descriptor h.toRef

def refs : Answer → List DescriptorRef
  | .descriptor ref => [ref]
  | .capture c => c.refs

def rename (ρ : Renaming) : Answer → Answer
  | .descriptor r => .descriptor (ρ.ref r)
  | .capture c => .capture (c.rename ρ)

end Answer

/-- Serves a request. -/
def serve (f : Factory) : Request → Build Store Answer
  | .location span => do return .ofHandle (← f.location span)
  | .typeInfo ty => do return .ofHandle (← f.typeInfo ty)
  | .classInfo id => do return .ofHandle (← f.classInfo id)
  | .classInfoForType ty => do return .ofHandle (← f.classInfoForType ty)
  | .functionInfo id => do return .ofHandle (← f.functionInfo id)
  | .executableInfo executable => do return .ofHandle (← f.executableInfo executable)
  | .propertyInfo id => do return .ofHandle (← f.propertyInfo id)
  | .fieldInfo id => do return .ofHandle (← f.fieldInfo id)
  | .frameCapture executable locals span => do
    return .capture (← f.frameCapture executable locals span)

section

variable (f : Factory) (asked : Request → Prop) (u : Store)

/-! ## Handles of what is meant -/

/-- Whether a position is the one of a span in the source texts that a store has read. -/
def Places (span : Span) (position : Source.Position) : Prop :=
  if span.start < 0 ∨ span.stop < 0 then position = .resolve [] span.start span.stop
  else ∃ lines, u.texts.files.lookup (.ofText (f.filePath span.file)) = some lines ∧
    position = .resolve lines span.start span.stop

def LocationAt (span : Span) (h : Handle .location) : Prop :=
  ∃ position, f.Places u span position ∧
    u.Finds .location ⟨f.moduleName, f.filePath span.file, position⟩ h

def UndefinedAt (h : Handle .location) : Prop := u.Finds .location ⟨f.moduleName, "", .undefined⟩ h

def DeclLocationAt (s : Symbol) (h : Handle .location) : Prop :=
  match s.head.origin with
  | .fakeOverride => u.Finds .location ⟨f.moduleName, f.filePath s.file, .fakeOverride⟩ h
  | .library => u.Finds .location ⟨f.moduleName, f.filePath s.file, .undefined⟩ h
  | .source | .synthetic => f.LocationAt u s.head.span h

/-- A type is where its class is declared. -/
def TypeLocationAt (ty : Ty) (h : Handle .location) : Prop :=
  match (f.classOfType? ty).bind f.symbols.get? with
  | some s => f.DeclLocationAt u s h
  | none => f.UndefinedAt u h

/-- The handle of a declaration that the index knows. -/
def DeclaredAt (k : DescriptorKind) {α : Type} (known : Option (Symbol × α))
    (key : Symbol → α → k.Key) (h : Handle k) : Prop :=
  ∃ s info, known = some (s, info) ∧ u.Finds k (key s info) h

def ClassAt (id : DeclId) (h : Handle .classInfo) : Prop :=
  DeclaredAt u .classInfo (f.symbols.class? id) (fun s _ => s.fqName) h

def FunctionAt (id : DeclId) (h : Handle .functionInfo) : Prop :=
  DeclaredAt u .functionInfo (f.symbols.function? id) f.functionKeyOf h

/-- The key of a property. -/
def propertyKeyOf (s : Symbol) : PropertyKey := ⟨s.fqName, f.enclosingHash s⟩

def PropertyAt (id : DeclId) (h : Handle .propertyInfo) : Prop :=
  DeclaredAt u .propertyInfo (f.symbols.property? id) (fun s _ => f.propertyKeyOf s) h

/-- The key of a field. -/
def fieldKeyOf (s : Symbol) (head : FieldHead) : FieldKey := ⟨s.fqName, head.ty, f.enclosingHash s⟩

def FieldAt (id : DeclId) (h : Handle .fieldInfo) : Prop :=
  DeclaredAt u .fieldInfo (f.symbols.fieldOf? id) f.fieldKeyOf h

/-- The member of a class as the class lists it. -/
def MemberAt (id : DeclId) (m : MemberHandle) : Prop :=
  match (f.symbols.get? id).map Symbol.kind with
  | some (.classSymbol nested) =>
    if nested.head.isCompanion then ∃ h, f.ClassAt u id h ∧ m = .companion h else m = .unlisted
  | some (.function _) => ∃ h, f.FunctionAt u id h ∧ m = .function h
  | some (.property _) => ∃ h, f.PropertyAt u id h ∧ m = .property h
  | _ => m = .unlisted

/-! ## Annotations -/

/-- The value of a constant. -/
def constValue : Const → AnnotationValue
  | .null | .unit => .null
  | .boolean b => .boolean b
  | .int n => .int n
  | .long n => .long n
  | .string s => .string s

mutual

/-- The value of an argument of an annotation. -/
inductive ValueIs : AnnotationArg → AnnotationValue → Prop
  | const (c : Const) : ValueIs (.const c) (constValue c)
  | type {ty : Ty} {h : Handle .typeInfo} (hty : u.Finds .typeInfo ty h) :
      ValueIs (.type ty) (.type h)
  | array {items : List AnnotationArg} {values : List AnnotationValue}
      (hitems : ValuesAre items values) : ValueIs (.array items) (.list values)

inductive ValuesAre : List AnnotationArg → List AnnotationValue → Prop
  | nil : ValuesAre [] []
  | cons {item : AnnotationArg} {items : List AnnotationArg} {value : AnnotationValue}
      {values : List AnnotationValue} (hitem : ValueIs item value)
      (hitems : ValuesAre items values) : ValuesAre (item :: items) (value :: values)

end

/-- The arguments of a use, put into those that are there. -/
inductive ArgumentsAre :
    List AnnotationArgument → NameMap AnnotationValue → NameMap AnnotationValue → Prop
  | nil (found : NameMap AnnotationValue) : ArgumentsAre [] found found
  | cons {a : AnnotationArgument} {as : List AnnotationArgument} {value : AnnotationValue}
      {found all : NameMap AnnotationValue} (hvalue : ValueIs u a.value value)
      (hrest : ArgumentsAre as (found.insert a.name value) all) : ArgumentsAre (a :: as) found all

/-- One use of an annotation. -/
structure UsageIs (use : AnnotationUse) (usage : AnnotationUsage) : Prop where
  arguments : ArgumentsAre u use.arguments [] usage.arguments
  location : f.LocationAt u use.span usage.location
  annotationType : u.Finds .typeInfo use.ty usage.annotationType

/-- The uses of annotations, put into a map. -/
inductive AnnotationsAre : List AnnotationUse → AnnotationMap → AnnotationMap → Prop
  | nil (m : AnnotationMap) : AnnotationsAre [] m m
  | cons {use : AnnotationUse} {uses : List AnnotationUse} {usage : AnnotationUsage}
      {m all : AnnotationMap} (husage : f.UsageIs u use usage)
      (hrest : AnnotationsAre uses (m.push usage) all) : AnnotationsAre (use :: uses) m all

/-! ## The content of descriptors -/

inductive TypeIs (ty : Ty) : TypeInfo → Prop
  | mk {location : Handle .location} (hlocation : f.TypeLocationAt u ty location) :
      TypeIs ty { ty, qualifiedName := ty.qualifiedName, simpleName := ty.simpleName, location }

/-- The content of a class descriptor: that of a declaration, or that of a type without one. -/
inductive ClassIs (name : String) : ClassInfo → Prop
  | declared {id : DeclId} {s : Symbol} {c : ClassSymbol} {members : List MemberHandle}
      {location : Handle .location} {annotations : AnnotationMap}
      (hid : f.symbols.class? id = some (s, c)) (hname : name = s.fqName)
      (hmembers : List.Forall₂ (f.MemberAt u) c.members members)
      (hlocation : f.DeclLocationAt u s location)
      (hannotations : f.AnnotationsAre u s.head.annotations {} annotations) :
      ClassIs name {
        location
        qualifiedName := s.fqName
        simpleName := s.name
        typeParameters := c.head.typeParams
        companions := members.filterMap MemberHandle.companion?
        functions := members.filterMap MemberHandle.function?
        properties := members.filterMap MemberHandle.property?
        isInterface := c.head.kind == .interface
        isObject := c.head.kind == .object || c.head.kind == .anonymousObject
        isCompanion := c.head.isCompanion
        visibility := c.head.visibility
        modality := c.head.modality
        structuralKind := c.head.structural
        annotations }
  | bare {ty : Ty} {location : Handle .location} (hasked : asked (.classInfoForType ty))
      (hnone : f.classOfType? ty = none) (hname : name = ty.qualifiedName)
      (hlocation : f.UndefinedAt u location) :
      ClassIs name { location, qualifiedName := ty.qualifiedName, simpleName := ty.simpleName }

/-- The parameters of functions, with the hash and the name of the function. -/
inductive OwnsParameter : UInt64 → String → Nat → ParamHead → Prop
  | declared {id : DeclId} {s : Symbol} {g : FunctionSymbol} {p : ParamSymbol} {i : Nat}
      (hid : f.symbols.function? id = some (s, g)) (hp : (p, i) ∈ g.params.zipIdx) :
      OwnsParameter (f.functionKeyOf s g).hash s.fqName i p.head

/-- The variables of functions and those of frame captures, with the hash and the name of what
owns them. -/
inductive OwnsLocal : UInt64 → String → VariableSite → Prop
  | declared {id : DeclId} {s : Symbol} {g : FunctionSymbol} {v : VarHead}
      (hid : f.symbols.function? id = some (s, g)) (hv : v ∈ g.locals) :
      OwnsLocal (f.functionKeyOf s g).hash s.fqName (.ofVar v)
  | captured {executable : Executable} {locals : List VisibleLocal} {span : Span} {v : VisibleLocal}
      {owner : UInt64} {ownerName : String}
      (hasked : asked (.frameCapture executable locals span))
      (howner : f.variableOwner executable = .ok (owner, ownerName)) (hv : v ∈ locals) :
      OwnsLocal owner ownerName (.ofVisible v)

/-- The key of a parameter. -/
def parameterKey (owner : UInt64) (p : ParamHead) : VariableKey :=
  ⟨owner, p.name, p.ty, p.span.start⟩

/-- The key of a variable. -/
def VariableSite.key (owner : UInt64) (v : VariableSite) : VariableKey :=
  ⟨owner, v.name, v.ty, v.span.start⟩

inductive ParameterIs (key : VariableKey) : ParameterInfo → Prop
  | mk {owner : UInt64} {ownerName : String} {index : Nat} {p : ParamHead}
      {location : Handle .location} {ty : Handle .typeInfo} {annotations : AnnotationMap}
      (hsite : f.OwnsParameter owner ownerName index p) (hkey : key = parameterKey owner p)
      (hlocation : f.LocationAt u p.span location) (hty : u.Finds .typeInfo p.ty ty)
      (hannotations : f.AnnotationsAre u p.annotations {} annotations) :
      ParameterIs key { location, qualifiedName := s!"{ownerName}.{p.name}", simpleName := p.name,
                        ty, index, annotations }

inductive LocalIs (key : VariableKey) : LocalInfo → Prop
  | mk {owner : UInt64} {ownerName : String} {v : VariableSite}
      {location : Handle .location} {ty : Handle .typeInfo} {annotations : AnnotationMap}
      (hsite : f.OwnsLocal asked owner ownerName v) (hkey : key = v.key owner)
      (hlocation : f.LocationAt u v.span location) (hty : u.Finds .typeInfo v.ty ty)
      (hannotations : f.AnnotationsAre u v.annotations {} annotations) :
      LocalIs key { location, qualifiedName := s!"{ownerName}.{v.name}", simpleName := v.name, ty,
                    mutable := v.mutable, annotations }

inductive FieldIs (key : FieldKey) : FieldInfo → Prop
  | mk {id : DeclId} {s : Symbol} {head : FieldHead} {location : Handle .location}
      {ty : Handle .typeInfo} {annotations : AnnotationMap}
      (hid : f.symbols.fieldOf? id = some (s, head)) (hkey : key = f.fieldKeyOf s head)
      (hlocation : f.DeclLocationAt u s location) (hty : u.Finds .typeInfo head.ty ty)
      (hannotations : f.AnnotationsAre u s.head.annotations {} annotations) :
      FieldIs key { location, qualifiedName := s.fqName, simpleName := s.name, ty,
                    isStatic := head.isStatic, isExternal := head.isExternal,
                    isFinal := head.isFinal, annotations }

inductive FunctionIs (key : FunctionKey) : FunctionInfo → Prop
  | mk {id : DeclId} {s : Symbol} {g : FunctionSymbol} {parameters : List (Handle .parameterInfo)}
      {locals : List (Handle .localInfo)} {declaringClass : Option (Handle .classInfo)}
      {location : Handle .location} {returnType : Handle .typeInfo} {annotations : AnnotationMap}
      (hid : f.symbols.function? id = some (s, g)) (hkey : key = f.functionKeyOf s g)
      (hparameters : List.Forall₂ (fun (p : ParamSymbol × Nat) h =>
        u.Finds .parameterInfo (parameterKey key.hash p.1.head) h) g.params.zipIdx parameters)
      (hlocals : List.Forall₂ (fun v h =>
        u.Finds .localInfo ((VariableSite.ofVar v).key key.hash) h) g.locals locals)
      (hclass : Option.Rel (f.ClassAt u) (f.declaringClass? id) declaringClass)
      (hlocation : f.DeclLocationAt u s location)
      (hreturn : u.Finds .typeInfo g.head.returnTy returnType)
      (hannotations : f.AnnotationsAre u s.head.annotations {} annotations) :
      FunctionIs key {
        key
        location
        qualifiedName := s.fqName
        simpleName := s.name
        typeParameters := g.head.typeParams
        returnType
        parameters
        visibility := g.head.visibility
        modality := g.head.modality
        locals
        isExpect := g.head.isExpect
        isSuspend := g.head.isSuspend
        declaringClass
        annotations }

inductive PropertyIs (key : PropertyKey) : PropertyInfo → Prop
  | mk {id : DeclId} {s : Symbol} {p : PropertySymbol} {location : Handle .location}
      {getter setter : Option (Handle .functionInfo)} {backing : Option (Handle .fieldInfo)}
      {annotations : AnnotationMap}
      (hid : f.symbols.property? id = some (s, p)) (hkey : key = f.propertyKeyOf s)
      (hlocation : f.DeclLocationAt u s location)
      (hgetter : Option.Rel (f.FunctionAt u) p.getter getter)
      (hsetter : Option.Rel (f.FunctionAt u) p.setter setter)
      (hbacking : Option.Rel (f.FieldAt u) p.backing backing)
      (hannotations : f.AnnotationsAre u s.head.annotations {} annotations) :
      PropertyIs key {
        key
        location
        qualifiedName := s.fqName
        simpleName := s.name
        mutable := p.head.mutable
        visibility := p.head.visibility
        modality := p.head.modality
        getter
        setter
        backing
        annotations }

/-- What a key is described by. -/
def Describes : (k : DescriptorKind) → k.Key → k.Info → Prop
  | .location, l, info => info = l
  | .typeInfo, ty, info => f.TypeIs u ty info
  | .classInfo, name, info => f.ClassIs asked u name info
  | .functionInfo, key, info => f.FunctionIs u key info
  | .propertyInfo, key, info => f.PropertyIs u key info
  | .fieldInfo, key, info => f.FieldIs u key info
  | .localInfo, key, info => f.LocalIs asked u key info
  | .parameterInfo, key, info => f.ParameterIs u key info

/-! ## Answers -/

def ClassForTypeAt (ty : Ty) (h : Handle .classInfo) : Prop :=
  match f.classOfType? ty with
  | some id => f.ClassAt u id h
  | none => u.Finds .classInfo ty.qualifiedName h

def ExecutableAt : Executable → Handle .functionInfo → Prop
  | .function id, h => f.FunctionAt u id h
  | .initializer _ (some inClass), h =>
    ∃ s c g, f.symbols.class? inClass = some (s, c) ∧ c.primaryConstructor = some g ∧
      f.FunctionAt u g h
  | .initializer _ none, _ => False

structure CaptureIs (executable : Executable) (locals : List VisibleLocal) (span : Span)
    (capture : FrameCapture) : Prop where
  entries : ∃ owner ownerName, f.variableOwner executable = .ok (owner, ownerName) ∧
    List.Forall₂ (fun v entry => entry.var = v.var ∧
      u.Finds .localInfo ((VariableSite.ofVisible v).key owner) entry.info) locals capture.entries
  location : f.LocationAt u span capture.location

/-- What a request is answered with. -/
def AnswerIs : Request → Answer → Prop
  | .location span, a => ∃ h, f.LocationAt u span h ∧ a = .ofHandle h
  | .typeInfo ty, a => ∃ h, u.Finds .typeInfo ty h ∧ a = .ofHandle h
  | .classInfo id, a => ∃ h, f.ClassAt u id h ∧ a = .ofHandle h
  | .classInfoForType ty, a => ∃ h, f.ClassForTypeAt u ty h ∧ a = .ofHandle h
  | .functionInfo id, a => ∃ h, f.FunctionAt u id h ∧ a = .ofHandle h
  | .executableInfo executable, a => ∃ h, f.ExecutableAt u executable h ∧ a = .ofHandle h
  | .propertyInfo id, a => ∃ h, f.PropertyAt u id h ∧ a = .ofHandle h
  | .fieldInfo id, a => ∃ h, f.FieldAt u id h ∧ a = .ofHandle h
  | .frameCapture executable locals span, a =>
    ∃ c, f.CaptureIs u executable locals span c ∧ a = .capture c

end

/-! ## Keys that stand for one declaration -/

/-- Whether a key stands for one declaration each: for one class or one type without a class, for
one function, property or field, and for one parameter or variable. -/
structure KeysApart (f : Factory) (asked : Request → Prop) : Prop where
  classes : ∀ {id id' s s' c c'}, f.symbols.class? id = some (s, c) →
    f.symbols.class? id' = some (s', c') → s.fqName = s'.fqName → id = id'
  bare : ∀ {ty id s c}, asked (.classInfoForType ty) → f.classOfType? ty = none →
    f.symbols.class? id = some (s, c) → s.fqName ≠ ty.qualifiedName
  functions : ∀ {id id' s s' g g'}, f.symbols.function? id = some (s, g) →
    f.symbols.function? id' = some (s', g') → f.functionKeyOf s g = f.functionKeyOf s' g' → id = id'
  properties : ∀ {id id' s s' p p'}, f.symbols.property? id = some (s, p) →
    f.symbols.property? id' = some (s', p') → f.propertyKeyOf s = f.propertyKeyOf s' → id = id'
  fields : ∀ {id id' s s' head head'}, f.symbols.fieldOf? id = some (s, head) →
    f.symbols.fieldOf? id' = some (s', head') → f.fieldKeyOf s head = f.fieldKeyOf s' head' →
      id = id'
  parameters : ∀ {owner owner' name name' i i' p p'}, f.OwnsParameter owner name i p →
    f.OwnsParameter owner' name' i' p' → parameterKey owner p = parameterKey owner' p' →
    name = name' ∧ i = i' ∧ p = p'
  locals : ∀ {owner owner' name name' v v'}, f.OwnsLocal asked owner name v →
    f.OwnsLocal asked owner' name' v' → v.key owner = v'.key owner' → name = name' ∧ v = v'

/-! ## Related parts of two descriptors -/

section

variable {ρ : Renaming} {k : DescriptorKind} {α β : Type}

theorem forall₂_renamed {P P' : α → β → Prop} {rename : β → β} {shared : β → Prop} {as : List α}
    {bs bs' : List β} (hbs : List.Forall₂ P as bs) (hbs' : List.Forall₂ P' as bs')
    (h : ∀ a b b', P a b → P' a b' → b' = rename b ∧ shared b) :
    bs' = bs.map rename ∧ ∀ b ∈ bs, shared b := by
  induction hbs generalizing bs' with
  | nil =>
    cases hbs'
    exact ⟨rfl, by simp⟩
  | cons hb _ ih =>
    obtain _ | ⟨hb', hrest'⟩ := hbs'
    obtain ⟨rfl, hshared⟩ := h _ _ _ hb hb'
    obtain ⟨rfl, hall⟩ := ih hrest'
    exact ⟨rfl, by simpa using ⟨hshared, hall⟩⟩

theorem handles_renamed {P P' : α → Handle k → Prop} {as : List α} {xs xs' : List (Handle k)}
    (hxs : List.Forall₂ P as xs) (hxs' : List.Forall₂ P' as xs')
    (h : ∀ a x x', P a x → P' a x' → ρ.Takes x x') :
    xs' = xs.map ρ.apply ∧ ∀ r ∈ handleRefs xs, ρ.shared r := by
  obtain ⟨heq, hshared⟩ := forall₂_renamed hxs hxs' fun a x x' hx hx' =>
    And.intro (h a x x' hx hx').eq (h a x x' hx hx').shared
  exact ⟨heq, by simpa [handleRefs] using hshared⟩

theorem option_renamed {P P' : α → Handle k → Prop} {a : Option α} {x x' : Option (Handle k)}
    (hx : Option.Rel P a x) (hx' : Option.Rel P' a x')
    (h : ∀ a x x', P a x → P' a x' → ρ.Takes x x') :
    x' = x.map ρ.apply ∧ ∀ r ∈ handleRefs x.toList, ρ.shared r := by
  cases hx with
  | none =>
    cases hx'
    exact ⟨rfl, by simp [handleRefs]⟩
  | some hx =>
    cases hx' with
    | some hx' =>
      have htakes := h _ _ _ hx hx'
      exact ⟨congrArg some htakes.eq, by simpa [handleRefs] using htakes.shared⟩

/-- What is made of one handle. -/
theorem wrapped_renamed {P P' : Handle k → Prop} {wrap : Handle k → β} {rename : β → β}
    {refs : β → List DescriptorRef} (hrename : ∀ h, rename (wrap h) = wrap (ρ.apply h))
    (hrefs : ∀ h, refs (wrap h) = [h.toRef]) (h : ∀ x x', P x → P' x' → ρ.Takes x x') {b b' : β}
    (hb : ∃ x, P x ∧ b = wrap x) (hb' : ∃ x, P' x ∧ b' = wrap x) :
    b' = rename b ∧ ∀ r ∈ refs b, ρ.shared r := by
  obtain ⟨x, hx, rfl⟩ := hb
  obtain ⟨x', hx', rfl⟩ := hb'
  have htakes := h x x' hx hx'
  rw [hrename, hrefs, ← htakes.eq]
  exact ⟨rfl, by simpa using htakes.shared⟩

end

namespace MemberHandle

def rename (ρ : Renaming) : MemberHandle → MemberHandle
  | .companion h => .companion (ρ.apply h)
  | .function h => .function (ρ.apply h)
  | .property h => .property (ρ.apply h)
  | .unlisted => .unlisted

/-- Members of one sort, after a renaming of all members. -/
theorem filterMap_rename {ρ : Renaming} {k : DescriptorKind}
    {pick : MemberHandle → Option (Handle k)}
    (hpick : ∀ m, pick (rename ρ m) = (pick m).map ρ.apply) (members : List MemberHandle) :
    (members.map (rename ρ)).filterMap pick = (members.filterMap pick).map ρ.apply := by
  rw [List.filterMap_map, List.map_filterMap]
  exact List.filterMap_congr fun m _ => hpick m

end MemberHandle

/-! ## Two stores -/

/-- A renaming of the handles that two stores give to the same keys, where the stores agree on
positions. -/
structure Joins (f : Factory) (ρ : Renaming) (u u' : Store) : Prop where
  takes : ∀ {k : DescriptorKind} {key : k.Key} {h h' : Handle k},
    u.Finds k key h → u'.Finds k key h' → ρ.Takes h h'
  places : ∀ {span : Span} {position position' : Source.Position},
    f.Places u span position → f.Places u' span position' → position' = position

namespace Joins

variable {f : Factory} {ρ : Renaming} {u u' : Store} (hj : f.Joins ρ u u')

include hj

/-! ### Handles -/

theorem location {span : Span} {h h' : Handle .location} (hh : f.LocationAt u span h)
    (hh' : f.LocationAt u' span h') : ρ.Takes h h' := by
  obtain ⟨position, hplace, hfinds⟩ := hh
  obtain ⟨position', hplace', hfinds'⟩ := hh'
  obtain rfl := hj.places hplace hplace'
  exact hj.takes hfinds hfinds'

theorem declLocation {s : Symbol} {h h' : Handle .location} (hh : f.DeclLocationAt u s h)
    (hh' : f.DeclLocationAt u' s h') : ρ.Takes h h' := by
  cases horigin : s.head.origin <;> simp only [DeclLocationAt, horigin] at hh hh'
  · exact hj.location hh hh'
  · exact hj.location hh hh'
  · exact hj.takes hh hh'
  · exact hj.takes hh hh'

theorem typeLocation {ty : Ty} {h h' : Handle .location} (hh : f.TypeLocationAt u ty h)
    (hh' : f.TypeLocationAt u' ty h') : ρ.Takes h h' := by
  cases hclass : (f.classOfType? ty).bind f.symbols.get? <;>
    simp only [TypeLocationAt, hclass] at hh hh'
  · exact hj.takes hh hh'
  · exact hj.declLocation hh hh'

theorem declared {k : DescriptorKind} {α : Type} {known : Option (Symbol × α)}
    {key : Symbol → α → k.Key} {h h' : Handle k} (hh : DeclaredAt u k known key h)
    (hh' : DeclaredAt u' k known key h') : ρ.Takes h h' := by
  obtain ⟨s, info, hknown, hfinds⟩ := hh
  obtain ⟨s', info', hknown', hfinds'⟩ := hh'
  cases hknown.symm.trans hknown'
  exact hj.takes hfinds hfinds'

theorem classForType {ty : Ty} {h h' : Handle .classInfo} (hh : f.ClassForTypeAt u ty h)
    (hh' : f.ClassForTypeAt u' ty h') : ρ.Takes h h' := by
  cases hclass : f.classOfType? ty <;> simp only [ClassForTypeAt, hclass] at hh hh'
  · exact hj.takes hh hh'
  · exact hj.declared hh hh'

theorem executable {executable : Executable} {h h' : Handle .functionInfo}
    (hh : f.ExecutableAt u executable h) (hh' : f.ExecutableAt u' executable h') :
    ρ.Takes h h' := by
  match executable with
  | .function id => exact hj.declared hh hh'
  | .initializer _ (some inClass) =>
    obtain ⟨s, c, g, hclass, hg, hat⟩ := hh
    obtain ⟨s', c', g', hclass', hg', hat'⟩ := hh'
    cases hclass.symm.trans hclass'
    cases hg.symm.trans hg'
    exact hj.declared hat hat'
  | .initializer _ none => exact hh.elim

theorem member {id : DeclId} {m m' : MemberHandle} (hm : f.MemberAt u id m)
    (hm' : f.MemberAt u' id m') : m' = m.rename ρ ∧ ∀ r ∈ m.refs, ρ.shared r := by
  have hunlisted : m = .unlisted → m' = .unlisted →
      m' = m.rename ρ ∧ ∀ r ∈ m.refs, ρ.shared r := by
    rintro rfl rfl
    exact ⟨rfl, by simp [MemberHandle.refs]⟩
  have hlisted {k : DescriptorKind} {P P' : Handle k → Prop} {wrap : Handle k → MemberHandle} :=
    @wrapped_renamed ρ k MemberHandle P P' wrap (.rename ρ) MemberHandle.refs
  rcases hkind : (f.symbols.get? id).map Symbol.kind with _ | kind
  · simp only [MemberAt, hkind] at hm hm'
    exact hunlisted hm hm'
  · cases kind <;> simp only [MemberAt, hkind] at hm hm'
    case classSymbol nested =>
      split at hm
      · rename_i hcompanion
        rw [if_pos hcompanion] at hm'
        exact hlisted (fun _ => rfl) (fun _ => rfl) (fun _ _ => hj.declared) hm hm'
      · rename_i hcompanion
        rw [if_neg hcompanion] at hm'
        exact hunlisted hm hm'
    case function =>
      exact hlisted (fun _ => rfl) (fun _ => rfl) (fun _ _ => hj.declared) hm hm'
    case property =>
      exact hlisted (fun _ => rfl) (fun _ => rfl) (fun _ _ => hj.declared) hm hm'
    all_goals exact hunlisted hm hm'

/-! ### Annotations -/

omit hj

mutual

theorem value (hj : f.Joins ρ u u') : ∀ (arg : AnnotationArg) {v v' : AnnotationValue},
    ValueIs u arg v →
    ValueIs u' arg v' → v' = v.rename ρ ∧ ∀ r ∈ v.refs, ρ.shared r
  | .const c, v, v', hv, hv' => by
    cases hv
    cases hv'
    cases c <;> exact ⟨rfl, by simp [constValue, AnnotationValue.refs]⟩
  | .type ty, v, v', hv, hv' => by
    obtain _ | hty := hv
    obtain _ | hty' := hv'
    have htakes := hj.takes hty hty'
    exact ⟨congrArg AnnotationValue.type htakes.eq, by
      simpa [AnnotationValue.refs] using htakes.shared⟩
  | .array items, v, v', hv, hv' => by
    obtain _ | _ | hitems := hv
    obtain _ | _ | hitems' := hv'
    obtain ⟨rfl, hshared⟩ := values hj items hitems hitems'
    exact ⟨rfl, hshared⟩

theorem values (hj : f.Joins ρ u u') : ∀ (args : List AnnotationArg)
    {vs vs' : List AnnotationValue},
    ValuesAre u args vs → ValuesAre u' args vs' →
    vs' = renameValues ρ vs ∧ ∀ r ∈ annotationRefs vs, ρ.shared r
  | [], vs, vs', hvs, hvs' => by
    cases hvs
    cases hvs'
    exact ⟨rfl, by simp [annotationRefs]⟩
  | arg :: args, vs, vs', hvs, hvs' => by
    obtain _ | ⟨hv, hrest⟩ := hvs
    obtain _ | ⟨hv', hrest'⟩ := hvs'
    obtain ⟨rfl, hshared⟩ := value hj arg hv hv'
    obtain ⟨rfl, hall⟩ := values hj args hrest hrest'
    refine ⟨rfl, fun r hr => ?_⟩
    rcases List.mem_append.mp hr with hr | hr
    · exact hshared r hr
    · exact hall r hr

end

include hj

theorem arguments : ∀ {as : List AnnotationArgument} {found all all' : NameMap AnnotationValue},
    (∀ r ∈ argumentRefs found, ρ.shared r) → ArgumentsAre u as found all →
    ArgumentsAre u' as (renameArguments ρ found) all' →
    all' = renameArguments ρ all ∧ ∀ r ∈ argumentRefs all, ρ.shared r
  | [], _, _, _, hfound, hall, hall' => by
    cases hall
    cases hall'
    exact ⟨rfl, hfound⟩
  | a :: as, found, all, all', hfound, hall, hall' => by
    obtain _ | ⟨hvalue, hrest⟩ := hall
    obtain _ | ⟨hvalue', hrest'⟩ := hall'
    obtain ⟨rfl, hshared⟩ := hj.value a.value hvalue hvalue'
    rw [← renameArguments_insert] at hrest'
    refine arguments (fun r hr => ?_) hrest hrest'
    rcases List.mem_append.mp (mem_argumentRefs_insert hr) with hr | hr
    · exact hshared r hr
    · exact hfound r hr

theorem usage {use : AnnotationUse} {usage usage' : AnnotationUsage} (h : f.UsageIs u use usage)
    (h' : f.UsageIs u' use usage') : usage' = usage.rename ρ ∧ ∀ r ∈ usage.refs, ρ.shared r := by
  obtain ⟨location, annotationType, arguments⟩ := usage
  obtain ⟨location', annotationType', arguments'⟩ := usage'
  obtain ⟨rfl, hlocation⟩ := hj.location h.location h'.location
  obtain ⟨rfl, htype⟩ := hj.takes h.annotationType h'.annotationType
  obtain ⟨rfl, harguments⟩ := hj.arguments (by simp [argumentRefs]) h.arguments h'.arguments
  refine ⟨rfl, ?_⟩
  simpa [AnnotationUsage.refs] using ⟨hlocation, htype, harguments⟩

theorem annotationsFrom : ∀ {uses : List AnnotationUse} {m all all' : AnnotationMap},
    (∀ r ∈ m.refs, ρ.shared r) → f.AnnotationsAre u uses m all →
    f.AnnotationsAre u' uses (m.rename ρ) all' →
    all' = all.rename ρ ∧ ∀ r ∈ all.refs, ρ.shared r
  | [], _, _, _, hm, hall, hall' => by
    cases hall
    cases hall'
    exact ⟨rfl, hm⟩
  | use :: uses, m, all, all', hm, hall, hall' => by
    obtain _ | ⟨husage, hrest⟩ := hall
    obtain _ | ⟨husage', hrest'⟩ := hall'
    obtain ⟨rfl, hshared⟩ := hj.usage husage husage'
    have htype : ρ.shared _ := hshared _ (.tail _ (.head _))
    rw [← AnnotationMap.rename_push hm htype] at hrest'
    refine annotationsFrom (fun r hr => ?_) hrest hrest'
    rcases List.mem_append.mp (mem_groupRefs_pushTo hr) with hr | hr
    · exact hshared r hr
    · exact hm r hr

theorem annotations {uses : List AnnotationUse} {all all' : AnnotationMap}
    (hall : f.AnnotationsAre u uses {} all) (hall' : f.AnnotationsAre u' uses {} all') :
    all' = all.rename ρ ∧ ∀ r ∈ all.refs, ρ.shared r :=
  hj.annotationsFrom (by simp [AnnotationMap.refs, groupRefs]) hall hall'

/-! ### Descriptors -/

variable {asked : Request → Prop}

/-- A location, a type and annotations, as variables and fields have them. -/
theorem described {ty : Ty} {uses : List AnnotationUse} {location location' : Handle .location}
    {t t' : Handle .typeInfo} {m m' : AnnotationMap} (hlocation : ρ.Takes location location')
    (hty : u.Finds .typeInfo ty t) (hty' : u'.Finds .typeInfo ty t')
    (hm : f.AnnotationsAre u uses {} m) (hm' : f.AnnotationsAre u' uses {} m') :
    (location' = ρ.apply location ∧ t' = ρ.apply t ∧ m' = m.rename ρ) ∧
      ∀ r ∈ location.toRef :: t.toRef :: m.refs, ρ.shared r := by
  obtain ⟨rfl, hshared⟩ := hlocation
  obtain ⟨rfl, hshared'⟩ := hj.takes hty hty'
  obtain ⟨rfl, hall⟩ := hj.annotations hm hm'
  exact ⟨⟨rfl, rfl, rfl⟩, by simpa using ⟨hshared, hshared', hall⟩⟩

theorem typeInfo {ty : Ty} {i i' : TypeInfo} (h : f.TypeIs u ty i) (h' : f.TypeIs u' ty i') :
    i' = DescriptorKind.rename ρ .typeInfo i ∧
      ∀ r ∈ DescriptorKind.refs .typeInfo i, ρ.shared r := by
  obtain ⟨hlocation⟩ := h
  obtain ⟨hlocation'⟩ := h'
  obtain ⟨rfl, hshared⟩ := hj.typeLocation hlocation hlocation'
  exact ⟨rfl, by simpa [DescriptorKind.refs] using hshared⟩

theorem fieldInfo (hkeys : f.KeysApart asked) {key : FieldKey} {i i' : FieldInfo}
    (h : f.FieldIs u key i) (h' : f.FieldIs u' key i') :
    i' = DescriptorKind.rename ρ .fieldInfo i ∧
      ∀ r ∈ DescriptorKind.refs .fieldInfo i, ρ.shared r := by
  obtain ⟨hid, rfl, hlocation, hty, hannotations⟩ := h
  obtain ⟨hid', hkey, hlocation', hty', hannotations'⟩ := h'
  obtain rfl := hkeys.fields hid hid' hkey
  cases hid.symm.trans hid'
  obtain ⟨⟨rfl, rfl, rfl⟩, hshared⟩ := hj.described (hj.declLocation hlocation hlocation') hty hty'
    hannotations hannotations'
  exact ⟨rfl, hshared⟩

theorem parameterInfo (hkeys : f.KeysApart asked) {key : VariableKey} {i i' : ParameterInfo}
    (h : f.ParameterIs u key i) (h' : f.ParameterIs u' key i') :
    i' = DescriptorKind.rename ρ .parameterInfo i ∧
      ∀ r ∈ DescriptorKind.refs .parameterInfo i, ρ.shared r := by
  obtain ⟨hsite, rfl, hlocation, hty, hannotations⟩ := h
  obtain ⟨hsite', hkey, hlocation', hty', hannotations'⟩ := h'
  obtain ⟨rfl, rfl, rfl⟩ := hkeys.parameters hsite hsite' hkey
  obtain ⟨⟨rfl, rfl, rfl⟩, hshared⟩ := hj.described (hj.location hlocation hlocation') hty hty'
    hannotations hannotations'
  exact ⟨rfl, hshared⟩

/-- The variable of a function and that of a frame capture have one key, so here it counts that
they are the same in all that a descriptor says. -/
theorem localInfo (hkeys : f.KeysApart asked) {key : VariableKey} {i i' : LocalInfo}
    (h : f.LocalIs asked u key i) (h' : f.LocalIs asked u' key i') :
    i' = DescriptorKind.rename ρ .localInfo i ∧
      ∀ r ∈ DescriptorKind.refs .localInfo i, ρ.shared r := by
  obtain ⟨hsite, rfl, hlocation, hty, hannotations⟩ := h
  obtain ⟨hsite', hkey, hlocation', hty', hannotations'⟩ := h'
  obtain ⟨rfl, rfl⟩ := hkeys.locals hsite hsite' hkey
  obtain ⟨⟨rfl, rfl, rfl⟩, hshared⟩ := hj.described (hj.location hlocation hlocation') hty hty'
    hannotations hannotations'
  exact ⟨rfl, hshared⟩

theorem functionInfo (hkeys : f.KeysApart asked) {key : FunctionKey} {i i' : FunctionInfo}
    (h : f.FunctionIs u key i) (h' : f.FunctionIs u' key i') :
    i' = DescriptorKind.rename ρ .functionInfo i ∧
      ∀ r ∈ DescriptorKind.refs .functionInfo i, ρ.shared r := by
  obtain ⟨hid, hkey, hparameters, hlocals, hclass, hlocation, hreturn, hannotations⟩ := h
  obtain ⟨hid', hkey', hparameters', hlocals', hclass', hlocation', hreturn', hannotations'⟩ := h'
  obtain rfl := hkeys.functions hid hid' (hkey.symm.trans hkey')
  cases hid.symm.trans hid'
  obtain ⟨rfl, hshared₁⟩ := handles_renamed hparameters hparameters' fun _ _ _ => hj.takes
  obtain ⟨rfl, hshared₂⟩ := handles_renamed hlocals hlocals' fun _ _ _ => hj.takes
  obtain ⟨rfl, hshared₃⟩ := option_renamed hclass hclass' fun _ _ _ => hj.declared
  obtain ⟨⟨rfl, rfl, rfl⟩, hshared⟩ := hj.described (hj.declLocation hlocation hlocation') hreturn
    hreturn' hannotations hannotations'
  refine ⟨rfl, fun r hr => ?_⟩
  simp only [DescriptorKind.refs, List.mem_cons, List.mem_append] at hr hshared
  rcases hr with hr | hr | ((hr | hr) | hr) | hr
  · exact hshared r (.inl hr)
  · exact hshared r (.inr (.inl hr))
  · exact hshared₁ r hr
  · exact hshared₂ r hr
  · exact hshared₃ r hr
  · exact hshared r (.inr (.inr hr))

theorem propertyInfo (hkeys : f.KeysApart asked) {key : PropertyKey} {i i' : PropertyInfo}
    (h : f.PropertyIs u key i) (h' : f.PropertyIs u' key i') :
    i' = DescriptorKind.rename ρ .propertyInfo i ∧
      ∀ r ∈ DescriptorKind.refs .propertyInfo i, ρ.shared r := by
  obtain ⟨hid, hkey, hlocation, hgetter, hsetter, hbacking, hannotations⟩ := h
  obtain ⟨hid', hkey', hlocation', hgetter', hsetter', hbacking', hannotations'⟩ := h'
  obtain rfl := hkeys.properties hid hid' (hkey.symm.trans hkey')
  cases hid.symm.trans hid'
  obtain ⟨rfl, hshared⟩ := hj.declLocation hlocation hlocation'
  obtain ⟨rfl, hshared₁⟩ := option_renamed hgetter hgetter' fun _ _ _ => hj.declared
  obtain ⟨rfl, hshared₂⟩ := option_renamed hsetter hsetter' fun _ _ _ => hj.declared
  obtain ⟨rfl, hshared₃⟩ := option_renamed hbacking hbacking' fun _ _ _ => hj.declared
  obtain ⟨rfl, hall⟩ := hj.annotations hannotations hannotations'
  refine ⟨rfl, fun r hr => ?_⟩
  simp only [DescriptorKind.refs, List.mem_cons, List.mem_append] at hr
  rcases hr with rfl | ((hr | hr) | hr) | hr
  · exact hshared
  · exact hshared₁ r hr
  · exact hshared₂ r hr
  · exact hshared₃ r hr
  · exact hall r hr

/-- The members of one sort. -/
theorem members {c : ClassSymbol} {members members' : List MemberHandle}
    (hmembers : List.Forall₂ (f.MemberAt u) c.members members)
    (hmembers' : List.Forall₂ (f.MemberAt u') c.members members') {k : DescriptorKind}
    (pick : MemberHandle → Option (Handle k))
    (hpick : ∀ m, pick (.rename ρ m) = (pick m).map ρ.apply)
    (hrefs : ∀ m h, pick m = some h → m.refs = [h.toRef]) :
    members'.filterMap pick = (members.filterMap pick).map ρ.apply ∧
      ∀ r ∈ handleRefs (members.filterMap pick), ρ.shared r := by
  obtain ⟨rfl, hshared⟩ := forall₂_renamed hmembers hmembers' fun _ _ _ => hj.member
  refine ⟨MemberHandle.filterMap_rename hpick members, fun r hr => ?_⟩
  obtain ⟨m, hm, hr⟩ := List.mem_flatMap.mp (mem_handleRefs_filterMap hrefs hr)
  exact hshared m hm r hr

theorem classInfo (hkeys : f.KeysApart asked) {name : String} {i i' : ClassInfo}
    (h : f.ClassIs asked u name i) (h' : f.ClassIs asked u' name i') :
    i' = DescriptorKind.rename ρ .classInfo i ∧
      ∀ r ∈ DescriptorKind.refs .classInfo i, ρ.shared r := by
  cases h with
  | declared hid hname hmembers hlocation hannotations =>
    cases h' with
    | declared hid' hname' hmembers' hlocation' hannotations' =>
      -- One name stands for one class here, so both stores describe the same declaration.
      obtain rfl := hkeys.classes hid hid' (hname.symm.trans hname')
      cases hid.symm.trans hid'
      obtain ⟨rfl, hshared⟩ := hj.declLocation hlocation hlocation'
      obtain ⟨hcompanions, hshared₁⟩ := hj.members hmembers hmembers' MemberHandle.companion?
        (by rintro (_ | _ | _ | _) <;> rfl) (by rintro (_ | _ | _ | _) _ ⟨⟩; rfl)
      obtain ⟨hfunctions, hshared₂⟩ := hj.members hmembers hmembers' MemberHandle.function?
        (by rintro (_ | _ | _ | _) <;> rfl) (by rintro (_ | _ | _ | _) _ ⟨⟩; rfl)
      obtain ⟨hproperties, hshared₃⟩ := hj.members hmembers hmembers' MemberHandle.property?
        (by rintro (_ | _ | _ | _) <;> rfl) (by rintro (_ | _ | _ | _) _ ⟨⟩; rfl)
      obtain ⟨rfl, hall⟩ := hj.annotations hannotations hannotations'
      rw [hcompanions, hfunctions, hproperties]
      refine ⟨rfl, fun r hr => ?_⟩
      simp only [DescriptorKind.refs, List.mem_cons, List.mem_append] at hr
      rcases hr with rfl | ((hr | hr) | hr) | hr
      · exact hshared
      · exact hshared₁ r hr
      · exact hshared₂ r hr
      · exact hshared₃ r hr
      · exact hall r hr
    | bare hasked hnone hname' =>
      exact absurd (hname.symm.trans hname') (hkeys.bare hasked hnone hid)
  | bare hasked hnone hname hlocation =>
    cases h' with
    | declared hid' hname' => exact absurd (hname'.symm.trans hname) (hkeys.bare hasked hnone hid')
    | bare _ _ hname' hlocation' =>
      obtain ⟨rfl, hshared⟩ := hj.takes hlocation hlocation'
      have hqualified := hname.symm.trans hname'
      rw [Ty.simpleName, Ty.simpleName, ← hqualified]
      refine ⟨rfl, ?_⟩
      simpa [DescriptorKind.refs, handleRefs, AnnotationMap.refs, groupRefs] using hshared

/-- **Contents.** What a key is described by in two stores is the same up to the renaming. -/
theorem info (hkeys : f.KeysApart asked) {k : DescriptorKind} {key : k.Key} {i i' : k.Info}
    (h : f.Describes asked u k key i) (h' : f.Describes asked u' k key i') :
    i' = k.rename ρ i ∧ ∀ r ∈ k.refs i, ρ.shared r := by
  cases k with
  | location => exact ⟨h'.trans h.symm, by simp [DescriptorKind.refs]⟩
  | typeInfo => exact hj.typeInfo h h'
  | classInfo => exact hj.classInfo hkeys h h'
  | functionInfo => exact hj.functionInfo hkeys h h'
  | propertyInfo => exact hj.propertyInfo hkeys h h'
  | fieldInfo => exact hj.fieldInfo hkeys h h'
  | localInfo => exact hj.localInfo hkeys h h'
  | parameterInfo => exact hj.parameterInfo hkeys h h'

theorem capture {executable : Executable} {locals : List VisibleLocal} {span : Span}
    {c c' : FrameCapture} (h : f.CaptureIs u executable locals span c)
    (h' : f.CaptureIs u' executable locals span c') :
    c' = c.rename ρ ∧ ∀ r ∈ c.refs, ρ.shared r := by
  obtain ⟨location, entries⟩ := c
  obtain ⟨location', entries'⟩ := c'
  obtain ⟨rfl, hshared⟩ := hj.location h.location h'.location
  obtain ⟨owner, ownerName, howner, hentries⟩ := h.entries
  obtain ⟨owner', ownerName', howner', hentries'⟩ := h'.entries
  cases howner.symm.trans howner'
  obtain ⟨rfl, hall⟩ :
      entries' = entries.map (fun entry => { entry with info := ρ.apply entry.info }) ∧
        ∀ entry ∈ entries, ρ.shared entry.info.toRef := by
    refine forall₂_renamed hentries hentries' ?_
    rintro v ⟨info, _⟩ ⟨info', _⟩ ⟨rfl, hinfo⟩ ⟨rfl, hinfo'⟩
    obtain ⟨rfl, hinfoShared⟩ := hj.takes hinfo hinfo'
    exact ⟨rfl, hinfoShared⟩
  refine ⟨rfl, ?_⟩
  simpa [FrameCapture.refs] using ⟨hshared, hall⟩

/-- What a request is answered with in two stores is the same up to the renaming. -/
theorem answer {r : Request} {a a' : Answer} (h : f.AnswerIs u r a) (h' : f.AnswerIs u' r a') :
    a' = a.rename ρ ∧ ∀ q ∈ a.refs, ρ.shared q := by
  have hone {k : DescriptorKind} {P P' : Handle k → Prop} :=
    @wrapped_renamed ρ k Answer P P' .ofHandle (.rename ρ) Answer.refs (fun _ => rfl) (fun _ => rfl)
  cases r with
  | location => exact hone (fun _ _ => hj.location) h h'
  | typeInfo => exact hone (fun _ _ => hj.takes) h h'
  | classInfo | functionInfo | propertyInfo | fieldInfo =>
    exact hone (fun _ _ => hj.declared) h h'
  | classInfoForType => exact hone (fun _ _ => hj.classForType) h h'
  | executableInfo => exact hone (fun _ _ => hj.executable) h h'
  | frameCapture =>
    obtain ⟨c, hc, rfl⟩ := h
    obtain ⟨c', hc', rfl⟩ := h'
    obtain ⟨rfl, hshared⟩ := hj.capture hc hc'
    exact ⟨rfl, hshared⟩

end Joins

end Factory

end TraceWeave

import TraceWeave.Options.Basic
import TraceWeave.Program.Symbols

/-! # Linkage

Which declarations of a module and its dependencies are intrinsics, and which are trace hooks.
Intrinsics are known by their annotation, hooks by their qualified name.

`Linkage.build` collects both from the files; `Linkage.intrinsicKind?`, `Linkage.hook?` and
`Linkage.hookKind?` look a declaration up. `Linkage.requireHooks` is the check that every hook
asked for is there.
-/

namespace TraceWeave

/-- The runtime declarations that a module can see. -/
structure Linkage where
  /-- The kind of every intrinsic declaration. -/
  intrinsicKinds : List (DeclId × IntrinsicKind) := []
  /-- The declaration that a synthesized call of a kind targets. -/
  intrinsicDecls : List (IntrinsicKind × DeclId) := []
  hooks : List (TraceType × DeclId) := []
  deriving DecidableEq, Repr, Inhabited

namespace Linkage

/-- The intrinsic kind that the annotations of a declaration give it. -/
def markedKind (markedBy : String) (s : Symbol) : Except Error (Option IntrinsicKind) :=
  match AnnotationUse.find? s.head.annotations markedBy with
  | none => .ok none
  | some use =>
    match use.argument? "kind" with
    | some value =>
      match value.string? with
      | some name => (IntrinsicKind.parse name).map some
      | none =>
        .error (.config s!"`kind` of the intrinsic marker on {s.fqName} must be a string")
    | none =>
      match IntrinsicKind.ofSymbol? s.fqName with
      | some kind => .ok (some kind)
      | none => .error (.config
          (s!"intrinsic marker on {s.fqName} names no kind and the declaration "
            ++ "is not in the catalog"))

/-- Makes a declaration the target of its kind, if it is the canonical one or the first. -/
def addDecl (decls : List (IntrinsicKind × DeclId)) (kind : IntrinsicKind) (s : Symbol) :
    List (IntrinsicKind × DeclId) :=
  if kind.spec.symbol == s.fqName || !(decls.any (·.1 == kind)) then
    (kind, s.id) :: decls.filter (·.1 ≠ kind)
  else decls

/-- Looks at the functions one after the other. -/
def addIntrinsics (markedBy : String) : List Symbol → Linkage → Except Error Linkage
  | [], l => .ok l
  | s :: rest, l =>
    if s.function?.isNone then addIntrinsics markedBy rest l
    else
      match markedKind markedBy s with
      | .error e => .error e
      | .ok none => addIntrinsics markedBy rest l
      | .ok (some kind) =>
        addIntrinsics markedBy rest
          { l with
            intrinsicKinds := l.intrinsicKinds ++ [(s.id, kind)]
            intrinsicDecls := addDecl l.intrinsicDecls kind s }

/-- The hooks that have a declaration. -/
def hooksOf (t : SymbolTable) (names : HookNames) : List (TraceType × DeclId) :=
  TraceType.all.filterMap fun ty => (t.lookupFunction? (names.get ty)).map fun id => (ty, id)

/-- The runtime declarations among the symbols of a module. -/
def build (t : SymbolTable) (o : Options) : Except Error Linkage := do
  let l ← addIntrinsics o.intrinsics.markedBy t.entries {}
  return { l with hooks := hooksOf t o.tracing.hooks }

def intrinsicKind? (l : Linkage) (callee : DeclId) : Option IntrinsicKind :=
  l.intrinsicKinds.lookup callee

/-- The declaration that a synthesized call of a kind targets. -/
def intrinsicDecl (l : Linkage) (kind : IntrinsicKind) : Except Error DeclId :=
  match l.intrinsicDecls.lookup kind with
  | some id => .ok id
  | none => .error (.linkage kind.spec.symbol)

def hook? (l : Linkage) (ty : TraceType) : Option DeclId := l.hooks.lookup ty

/-- The type of a hook declaration; of several types the last one counts. -/
def hookKind? (l : Linkage) (callee : DeclId) : Option TraceType :=
  (l.hooks.reverse.find? (·.2 == callee)).map (·.1)

/-- Whether a declaration belongs to the runtime library. -/
def isRuntimeCall (l : Linkage) (callee : DeclId) : Bool :=
  (l.hookKind? callee).isSome || (l.intrinsicKind? callee).isSome

/-- Fails unless every hook of a list has a declaration. -/
def requireHooks (l : Linkage) (names : HookNames) : List TraceType → Except Error Unit
  | [] => .ok ()
  | ty :: tys =>
    match l.hook? ty with
    | some _ => l.requireHooks names tys
    | none => .error (.linkage (names.get ty))

end Linkage

end TraceWeave

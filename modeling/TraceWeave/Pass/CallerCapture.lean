import TraceWeave.Pass.Basic

/-! # Caller capture

A parameter whose default is an intrinsic call must be resolved where the function is called, not
where it is declared. Extraction takes such defaults out and leaves a marker that lists one mode
for each parameter. Injection fills the arguments that calls of marked functions omit with a fresh
intrinsic call at the span of the call, and replays the arguments of the default if it was taken
out in the same run.

`CallerCapture.extract` and `CallerCapture.inject` are the two passes. A default is taken out when
it is directly the call of an intrinsic (`CallerCapture.strippedDefault?`,
`CallerCapture.strippedDefault?_eq_some`); what was taken out in the run is kept in
`CapturedDefaults`, and one call is filled by `CallerCapture.injectCall`.
-/

namespace TraceWeave

/-- The arguments of an intrinsic call that was taken out of a default. -/
structure StrippedCall where
  typeArgs : List Ty
  args : List (Option Expr)
  deriving Inhabited

/-- What was taken out, by function and parameter index; the latest entry comes first. -/
abbrev CapturedDefaults := List ((DeclId × Nat) × StrippedCall)

namespace CallerCapture

/-- The mode of a parameter without a captured default. -/
def noCapture : String := "none"

/-- The intrinsic kind of a default that is a direct intrinsic call, with its arguments. -/
def strippedDefault? (l : Linkage) : Option Expr → Option (IntrinsicKind × StrippedCall)
  | some (.call _ callee _ typeArgs args) =>
    (l.intrinsicKind? callee).map fun kind => (kind, ⟨typeArgs, args⟩)
  | _ => none

/-- The defaults that are taken out are the direct calls of an intrinsic. -/
theorem strippedDefault?_eq_some {l : Linkage} {default : Option Expr} {kind : IntrinsicKind}
    {call : StrippedCall} : strippedDefault? l default = some (kind, call) ↔
      ∃ site callee receiver, default = some (.call site callee receiver call.typeArgs call.args) ∧
        l.intrinsicKind? callee = some kind := by
  constructor
  · intro h
    unfold strippedDefault? at h
    split at h
    · rename_i site callee receiver typeArgs args
      obtain ⟨_, hkind, heq⟩ := Option.map_eq_some_iff.mp h
      cases heq
      exact ⟨site, callee, receiver, rfl, hkind⟩
    · exact nomatch h
  · rintro ⟨site, callee, receiver, rfl, hkind⟩
    rw [strippedDefault?, hkind, Option.map_some]

/-- The capture mode of a parameter. -/
def mode (l : Linkage) (p : Param) : String :=
  match strippedDefault? l p.default with
  | some (kind, _) => kind.name
  | none => noCapture

/-- The marker that lists the modes of a function. -/
def marker (className : String) (file : FileId) (modes : List String) : AnnotationUse :=
  { className, span := .synthetic file, arguments := [⟨"modes", .ofStrings modes⟩] }

/-- Whether the defaults of a function are taken out: some default is an intrinsic call, and the
function has no marker yet. -/
def isCapturing (env : PassEnv) (head : DeclHead) (params : List Param) : Bool :=
  (AnnotationUse.find? head.annotations env.options.callerCapture.marker).isNone &&
    params.any fun p => (strippedDefault? env.linkage p.default).isSome

/-- The head of a function whose defaults are taken out. -/
def markedHead (env : PassEnv) (head : DeclHead) (params : List Param) : DeclHead :=
  { head with
    annotations := head.annotations ++
      [marker env.options.callerCapture.marker head.span.file (params.map (mode env.linkage))] }

/-- What extraction carries through a program. -/
structure Extraction where
  captured : CapturedDefaults
  /-- How many functions were marked. -/
  marked : Nat := 0
  deriving Inhabited

namespace Extraction

def record (x : Extraction) (id : DeclId) (index : Nat) (call : StrippedCall) : Extraction :=
  { x with captured := ((id, index), call) :: x.captured }

end Extraction

/-- Records the captured defaults of the parameters of a function. -/
def recordParams (l : Linkage) (id : DeclId) : Nat → List Param → Extraction → Extraction
  | _, [], x => x
  | index, p :: ps, x =>
    match strippedDefault? l p.default with
    | some (_, call) => recordParams l id (index + 1) ps (x.record id index call)
    | none => recordParams l id (index + 1) ps x

mutual

def exprExtract (env : PassEnv) : Expr → Extraction → Expr × Extraction
  | .setVar s var value, x =>
    let (value, x) := exprExtract env value x
    (.setVar s var value, x)
  | .call s callee receiver typeArgs args, x =>
    let (receiver, x) := optionExtract env receiver x
    let (args, x) := argsExtract env args x
    (.call s callee receiver typeArgs args, x)
  | .block s stmts, x =>
    let (stmts, x) := stmtsExtract env stmts x
    (.block s stmts, x)
  | .returnable s id stmts, x =>
    let (stmts, x) := stmtsExtract env stmts x
    (.returnable s id stmts, x)
  | .ret s target value, x =>
    let (value, x) := exprExtract env value x
    (.ret s target value, x)
  | .when s branches otherwise, x =>
    let (branches, x) := branchesExtract env branches x
    let (otherwise, x) := optionExtract env otherwise x
    (.when s branches otherwise, x)
  | .loop s condition body, x =>
    let (condition, x) := exprExtract env condition x
    let (body, x) := exprExtract env body x
    (.loop s condition body, x)
  | .binary s op lhs rhs, x =>
    let (lhs, x) := exprExtract env lhs x
    let (rhs, x) := exprExtract env rhs x
    (.binary s op lhs rhs, x)
  | .not s operand, x =>
    let (operand, x) := exprExtract env operand x
    (.not s operand, x)
  | .concat s parts, x =>
    let (parts, x) := exprsExtract env parts x
    (.concat s parts, x)
  | .lambda s decl, x =>
    let (decl, x) := declExtract env decl x
    (.lambda s decl, x)
  | .const s value, x => (.const s value, x)
  | .getVar s var, x => (.getVar s var, x)
  | .functionRef s id, x => (.functionRef s id, x)
  | .propertyRef s id, x => (.propertyRef s id, x)
  | .descriptor s ref, x => (.descriptor s ref, x)
  | .captureFrame s capture, x => (.captureFrame s capture, x)

def optionExtract (env : PassEnv) : Option Expr → Extraction → Option Expr × Extraction
  | none, x => (none, x)
  | some e, x =>
    let (e, x) := exprExtract env e x
    (some e, x)

def argsExtract (env : PassEnv) :
    List (Option Expr) → Extraction → List (Option Expr) × Extraction
  | [], x => ([], x)
  | none :: args, x =>
    let (args, x) := argsExtract env args x
    (none :: args, x)
  | some e :: args, x =>
    let (e, x) := exprExtract env e x
    let (args, x) := argsExtract env args x
    (some e :: args, x)

def exprsExtract (env : PassEnv) : List Expr → Extraction → List Expr × Extraction
  | [], x => ([], x)
  | e :: es, x =>
    let (e, x) := exprExtract env e x
    let (es, x) := exprsExtract env es x
    (e :: es, x)

def branchesExtract (env : PassEnv) :
    List (Expr × Expr) → Extraction → List (Expr × Expr) × Extraction
  | [], x => ([], x)
  | (condition, result) :: branches, x =>
    let (condition, x) := exprExtract env condition x
    let (result, x) := exprExtract env result x
    let (branches, x) := branchesExtract env branches x
    ((condition, result) :: branches, x)

def stmtsExtract (env : PassEnv) : List Stmt → Extraction → List Stmt × Extraction
  | [], x => ([], x)
  | stmt :: stmts, x =>
    let (stmt, x) := stmtExtract env stmt x
    let (stmts, x) := stmtsExtract env stmts x
    (stmt :: stmts, x)

def stmtExtract (env : PassEnv) : Stmt → Extraction → Stmt × Extraction
  | .expr e, x =>
    let (e, x) := exprExtract env e x
    (.expr e, x)
  | .var head init, x =>
    let (init, x) := optionExtract env init x
    (.var head init, x)
  | .decl d, x =>
    let (d, x) := declExtract env d x
    (.decl d, x)

/-- Goes through the defaults of parameters, but not through those that are taken out. -/
def paramsExtract (env : PassEnv) (capturing : Bool) :
    List Param → Extraction → List Param × Extraction
  | [], x => ([], x)
  | ⟨head, default⟩ :: params, x =>
    if capturing && (strippedDefault? env.linkage default).isSome then
      let (params, x) := paramsExtract env capturing params x
      (⟨head, none⟩ :: params, x)
    else
      let (default, x) := optionExtract env default x
      let (params, x) := paramsExtract env capturing params x
      (⟨head, default⟩ :: params, x)

def bodyExtract (env : PassEnv) : Body → Extraction → Body × Extraction
  | .absent, x => (.absent, x)
  | .block stmts, x =>
    let (stmts, x) := stmtsExtract env stmts x
    (.block stmts, x)
  | .expression e, x =>
    let (e, x) := exprExtract env e x
    (.expression e, x)

/-- Takes the captured defaults out of a declaration and of those nested in it, outer ones
first. -/
def declExtract (env : PassEnv) : Decl → Extraction → Decl × Extraction
  | .classDecl head info members, x =>
    let (members, x) := declsExtract env members x
    (.classDecl head info members, x)
  | .function head info params body, x =>
    if isCapturing env head params then
      let x := recordParams env.linkage head.id 0 params x
      let x := { x with marked := x.marked + 1 }
      let head := markedHead env head params
      let (params, x) := paramsExtract env true params x
      let (body, x) := bodyExtract env body x
      (.function head info params body, x)
    else
      let (params, x) := paramsExtract env false params x
      let (body, x) := bodyExtract env body x
      (.function head info params body, x)
  | .property head info backing getter setter, x =>
    let (backing, x) := accessorExtract env backing x
    let (getter, x) := accessorExtract env getter x
    let (setter, x) := accessorExtract env setter x
    (.property head info backing getter setter, x)
  | .field head info init, x =>
    let (init, x) := optionExtract env init x
    (.field head info init, x)
  | .initializer head body, x =>
    let (body, x) := stmtsExtract env body x
    (.initializer head body, x)

def accessorExtract (env : PassEnv) : Option Decl → Extraction → Option Decl × Extraction
  | none, x => (none, x)
  | some d, x =>
    let (d, x) := declExtract env d x
    (some d, x)

def declsExtract (env : PassEnv) : List Decl → Extraction → List Decl × Extraction
  | [], x => ([], x)
  | d :: ds, x =>
    let (d, x) := declExtract env d x
    let (ds, x) := declsExtract env ds x
    (d :: ds, x)

end

/-- Extracts from files one after the other. -/
def filesExtract (env : PassEnv) : List SourceFile → Extraction → List SourceFile × Extraction
  | [], x => ([], x)
  | f :: fs, x =>
    let (declarations, x) := declsExtract env f.declarations x
    let (fs, x) := filesExtract env fs x
    ({ f with declarations } :: fs, x)

/-- Takes the captured defaults out of a module. -/
def extract (env : PassEnv) (m : Module) (captured : CapturedDefaults) : Module × Extraction :=
  let (files, x) := filesExtract env m.files { captured }
  ({ m with files }, x)

/-- The fresh intrinsic call that fills an omitted argument. -/
def freshCall (env : PassEnv) (captured : CapturedDefaults) (callee : DeclId) (index : Nat)
    (span : Span) (mode : String) : Except Error Expr := do
  let kind ← IntrinsicKind.parse mode
  let intrinsic ← env.linkage.intrinsicDecl kind
  match env.symbols.function? intrinsic with
  | none => .error (.invalidState s!"intrinsic {intrinsic.text} is not a function")
  | some (_, info) =>
    let site : Site := ⟨span, info.head.returnTy⟩
    match captured.lookup (callee, index) with
    | some stripped => .ok (.call site intrinsic none stripped.typeArgs stripped.args)
    | none => .ok (.call site intrinsic none [] [])

/-- Fills arguments by their modes: how many were filled, and the error that ended it, if any.
What was filled before the error stays. -/
def fillArgs (fresh : Nat → String → Except Error Expr) :
    Nat → List (Option Expr) → List String → List (Option Expr) × Nat × Option Error
  | index, arg :: args, mode :: modes =>
    if mode == noCapture || arg.isSome then
      let (args, filled, failure) := fillArgs fresh (index + 1) args modes
      (arg :: args, filled, failure)
    else
      match fresh index mode with
      | .error e => (arg :: args, 0, some e)
      | .ok e =>
        let (args, filled, failure) := fillArgs fresh (index + 1) args modes
        (some e :: args, filled + 1, failure)
  | _, args, _ => (args, 0, none)

/-- The modes of a marked function, if it is one. -/
def modesOf (env : PassEnv) (callee : DeclId) : Except Error (Option (List String)) :=
  match env.symbols.function? callee with
  | none => .ok none
  | some (s, info) =>
    match AnnotationUse.find? s.head.annotations env.options.callerCapture.marker with
    | none => .ok none
    | some use =>
      match (use.argument? "modes").bind AnnotationArg.strings? with
      | none => .error (.config s!"caller-capture marker on `{s.fqName}` has no mode list")
      | some modes =>
        if modes.length ≠ info.params.length then
          .error (.modeListMismatch s.fqName modes.length info.params.length)
        else .ok (some modes)

/-- Arguments, with omitted ones at the end so that there are at least `count`. -/
def padArgs (count : Nat) (args : List (Option Expr)) : List (Option Expr) :=
  args ++ List.replicate (count - args.length) none

/-- Fills the omitted arguments of a call. -/
def injectCall (env : PassEnv) (captured : CapturedDefaults) (e : Expr) (st : PassState) :
    Expr × PassState :=
  match e with
  | .call s callee receiver typeArgs args =>
    match modesOf env callee with
    | .error err => (e, st.fail err)
    | .ok none => (e, st)
    | .ok (some modes) =>
      let fresh index mode := freshCall env captured callee index s.span mode
      let (args, filled, failure) := fillArgs fresh 0 (padArgs modes.length args) modes
      (.call s callee receiver typeArgs args, { st with edits := st.edits + filled, failure })
  | e => (e, st)

/-- Fills the omitted arguments of all calls. -/
def injector (env : PassEnv) (captured : CapturedDefaults) : Visitor PassState where
  onExpr _ _ := PassState.edit (injectCall env captured)

def inject (env : PassEnv) (captured : CapturedDefaults) (m : Module) (store : Store) :
    PassResult :=
  m.runVisitor (injector env captured) store

end CallerCapture

end TraceWeave

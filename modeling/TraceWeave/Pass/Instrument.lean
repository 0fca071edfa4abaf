import TraceWeave.Pass.Active
import TraceWeave.Pass.LeaveReturns

/-! # Tracing instrumentation

Call sites get hooks before and after the call and at suspension points, function bodies get
hooks on entering and leaving. Which ones depends on the types that are active at each point. The
value of an instrumented node is computed once and stays the same.

`Instrument.run` is the pass: `Instrument.instrumentCall` wraps one call and
`Instrument.instrumentBody` one body, both around hooks whose arguments are built before anything
is replaced. `Instrument.isExempt` says which callees are never wrapped
(`Instrument.isExempt_iff`).
-/

namespace TraceWeave.Instrument

/-- The declaration of a hook, which must be there. -/
def hook (env : PassEnv) (ty : TraceType) : Build PassState DeclId :=
  Build.require (env.linkage.hook? ty) (.linkage (env.options.tracing.hooks.get ty))

/-- The descriptor of a function as an argument of a hook. -/
def functionArg (h : Handle .functionInfo) (span : Span) : Expr :=
  Lowering.descriptorExpr h.toRef span.toSynthetic

/-- The location of a span as an argument of a hook. -/
def locationArg (env : PassEnv) (span : Span) : Build PassState Expr := do
  let h ← PassState.onStore (env.factory.location span)
  return Lowering.descriptorExpr h.toRef span.toSynthetic

/-- Calls that the compiler makes for itself, which are no trace points: calls of the runtime
library, of unknown functions, of synthetic constructors and of constructors of anonymous
objects. -/
def isExempt (env : PassEnv) (callee : DeclId) : Bool :=
  env.linkage.isRuntimeCall callee ||
    match env.symbols.function? callee with
    | none => true
    | some (s, info) =>
      info.head.kind.isConstructor &&
        (s.head.origin == .synthetic ||
          match s.parent.bind env.symbols.class? with
          | some (_, c) => c.head.kind == .anonymousObject
          | none => false)

/-- There are five kinds of exempt calls: of a hook, of an intrinsic, of a function that the index
does not know, of a synthetic constructor and of a constructor of an anonymous object. -/
theorem isExempt_iff {env : PassEnv} {callee : DeclId} : isExempt env callee = true ↔
    (env.linkage.hookKind? callee).isSome ∨ (env.linkage.intrinsicKind? callee).isSome ∨
    env.symbols.function? callee = none ∨
    (∃ s f, env.symbols.function? callee = some (s, f) ∧ f.head.kind.isConstructor ∧
      s.head.origin = .synthetic) ∨
    ∃ s f parent p c, env.symbols.function? callee = some (s, f) ∧ f.head.kind.isConstructor ∧
      s.parent = some parent ∧ env.symbols.class? parent = some (p, c) ∧
      c.head.kind = .anonymousObject := by
  rw [isExempt, Bool.or_eq_true, Linkage.isRuntimeCall, Bool.or_eq_true, or_assoc]
  refine or_congr_right (or_congr_right ?_)
  cases hf : env.symbols.function? callee with
  | none => simp
  | some found =>
    obtain ⟨s, f⟩ := found
    simp only [Bool.and_eq_true, Bool.or_eq_true, beq_iff_eq, reduceCtorEq, false_or]
    constructor
    · rintro ⟨hkind, horigin | hparent⟩
      · exact .inl ⟨s, f, rfl, hkind, horigin⟩
      · split at hparent
        · rename_i p c hclass
          obtain ⟨parent, hp, hc⟩ := Option.bind_eq_some_iff.mp hclass
          exact .inr ⟨s, f, parent, p, c, rfl, hkind, hp, hc, beq_iff_eq.mp hparent⟩
        · exact absurd hparent Bool.false_ne_true
    · rintro (⟨_, _, heq, hkind, horigin⟩ | ⟨_, _, parent, p, c, heq, hkind, hp, hc, hanonymous⟩)
      · cases heq
        exact ⟨hkind, .inl horigin⟩
      · cases heq
        rw [hp, Option.bind_some, hc]
        exact ⟨hkind, .inr (beq_iff_eq.mpr hanonymous)⟩

def isSuspend (env : PassEnv) (callee : DeclId) : Bool :=
  match env.symbols.function? callee with
  | some (_, info) => info.head.isSuspend
  | none => false

/-- A hook call about a function at a location. -/
def siteHook (env : PassEnv) (ty : TraceType) (h : Handle .functionInfo) (span : Span) :
    Build PassState Expr := do
  let id ← hook env ty
  let at_ ← locationArg env span
  return Lowering.hookCall id [functionArg h span, at_] span

/-- A call site that is instrumented: the statements before the call, and what comes after. -/
structure CallSite where
  callee : Handle .functionInfo
  before : List Stmt
  /-- Whether a hook runs after the call. -/
  after : Bool

/-- The statements of an optional hook call. -/
def hookStmts : Option Expr → List Stmt
  | none => []
  | some e => [.expr e]

/-- A hook call about the suspension of an executable. -/
def suspensionHook (env : PassEnv) (executable : Executable) (span : Span) :
    Build PassState Expr := do
  let current ← PassState.onStore (env.factory.executableInfo executable)
  siteHook env .suspensionPoint current span

/-- The statements before a call in an executable, for the types that are active there. -/
def prepareActive (env : PassEnv) (executable : Executable) (site : Site) (callee : DeclId)
    (before suspension after : Bool) : Build PassState CallSite := do
  let info ← PassState.onStore (env.factory.functionInfo callee)
  let beforeHook ← Build.onlyIf before (siteHook env .beforeCall info site.span)
  let suspensionHook ← Build.onlyIf suspension (suspensionHook env executable site.span)
  return { callee := info, before := hookStmts beforeHook ++ hookStmts suspensionHook, after }

/-- The statements before a call, or none if the call is left alone. -/
def prepareCall (env : PassEnv) (sc : ScopeStack) (site : Site) (callee : DeclId) :
    Build PassState (Option CallSite) :=
  if isExempt env callee then pure none
  else do
    let types ← Build.ofExcept (activeTypes env sc)
    let before := types.has .beforeCall
    let after := types.has .afterCall && !site.ty.isNothing
    let suspension := types.has .suspensionPoint && isSuspend env callee
    match sc.currentExecutable? with
    | none => pure none
    | some executable =>
      Build.onlyIf (before || after || suspension)
        (prepareActive env executable site callee before suspension after)

/-- The block that takes the place of a call. -/
def wrapCall (env : PassEnv) (c : CallSite) (e : Expr) : Build PassState Expr := do
  if c.after then
    let afterHook ← siteHook env .afterCall c.callee e.span
    if e.ty.isTrivial then
      return Lowering.blockWithResult (c.before ++ [.expr e, .expr afterHook])
        (.unit e.span.toSynthetic) e.span
    else
      let (read, binding, ids) := Lowering.temporary e (← get).ids
      modify fun st => { st with ids }
      return Lowering.blockWithResult (c.before ++ [binding, .expr afterHook]) read e.span
  else return Lowering.blockWithResult c.before e e.span

/-- Instruments a call site. The call is moved out of its place before the hook after it is
looked up, so a missing hook leaves the placeholder behind. -/
def instrumentCall (env : PassEnv) (sc : ScopeStack) (e : Expr) (st : PassState) :
    Expr × PassState :=
  match e with
  | .call site callee _ _ _ =>
    match (prepareCall env sc site callee).runOn st with
    | (.error err, st) => (e, st.fail err)
    | (.ok none, st) => (e, st)
    | (.ok (some c), st) =>
      match (wrapCall env c e).runOn st with
      | (.error err, st) => (Lowering.placeholder e, st.fail err)
      | (.ok wrapped, st) => (wrapped, { st with edits := st.edits + 1 })
  | e => (e, st)

/-- The hook calls of a function body, if any is active. -/
structure BodyHooks where
  enter : Option Expr
  leave : Option Expr

/-- A hook call about a function. -/
def bodyHook (env : PassEnv) (ty : TraceType) (h : Handle .functionInfo) (span : Span) :
    Build PassState Expr := do
  let id ← hook env ty
  return Lowering.hookCall id [functionArg h span] span

/-- The hook calls for the body of a function, for the types that are active there. -/
def prepareHooks (env : PassEnv) (head : DeclHead) (enter leave : Bool) :
    Build PassState BodyHooks := do
  let info ← PassState.onStore (env.factory.functionInfo head.id)
  let enter ← Build.onlyIf enter (bodyHook env .functionEnter info head.span)
  let leave ← Build.onlyIf leave (bodyHook env .functionLeave info head.span)
  return { enter, leave }

/-- The hook calls for the body of a function, or none if no hook is active. -/
def prepareBody (env : PassEnv) (sc : ScopeStack) (head : DeclHead) :
    Build PassState (Option BodyHooks) := do
  let around ← Build.ofExcept (activeTypes env sc)
  let own ← Build.ofExcept (declaredTypes env.options head.annotations)
  let types := around.union own
  let enter := types.has .functionEnter
  let leave := types.has .functionLeave
  Build.onlyIf (enter || leave) (prepareHooks env head enter leave)

/-- A block body with its hooks. -/
def wrapBlock (id : DeclId) (returnTy : Ty) (hooks : BodyHooks) (stmts : List Stmt)
    (ids : IdAllocator) : List Stmt × IdAllocator :=
  match hooks.leave with
  | none => (hookStmts hooks.enter ++ stmts, ids)
  | some leave =>
    let (stmts, ids) := stmtsLeaveReturns ⟨id, leave⟩ stmts ids
    let last := if returnTy = .unit ∧ ¬Block.endsWithReturn stmts then [Stmt.expr leave] else []
    (hookStmts hooks.enter ++ stmts ++ last, ids)

/-- An expression body with its hooks, which makes it a block. -/
def wrapExpression (id : DeclId) (returnTy : Ty) (hooks : BodyHooks) (e : Expr)
    (ids : IdAllocator) : List Stmt × IdAllocator :=
  match hooks.leave with
  | some leave =>
    let (e, ids) := e.leaveReturns ⟨id, leave⟩ ids
    if e.ty.isNothing then (hookStmts hooks.enter ++ [.expr e], ids)
    else if e.ty.isTrivial then (hookStmts hooks.enter ++ [.expr e, .expr leave], ids)
    else
      let (read, binding, ids) := Lowering.temporary e ids
      (hookStmts hooks.enter ++
        [binding, .expr leave, .expr (.ofReturn e.span.toSynthetic (.function id) read)], ids)
  | none =>
    if returnTy.isTrivial then (hookStmts hooks.enter ++ [.expr e], ids)
    else
      (hookStmts hooks.enter ++ [.expr (.ofReturn e.span.toSynthetic (.function id) e)], ids)

/-- A function body with its hooks. -/
def wrapBody (id : DeclId) (returnTy : Ty) (hooks : BodyHooks) (ids : IdAllocator) :
    Body → Body × IdAllocator
  | .absent => (.absent, ids)
  | .block stmts =>
    let (stmts, ids) := wrapBlock id returnTy hooks stmts ids
    (.block stmts, ids)
  | .expression e =>
    let (stmts, ids) := wrapExpression id returnTy hooks e ids
    (.block stmts, ids)

/-- Instruments the body of a function that has one of its own. -/
def instrumentBody (env : PassEnv) (sc : ScopeStack) (d : Decl) (st : PassState) :
    Decl × PassState :=
  match d with
  | .function head info params body =>
    if !body.isPresent || head.origin == .fakeOverride then (d, st)
    else
      match (prepareBody env sc head).runOn st with
      | (.error err, st) => (d, st.fail err)
      | (.ok none, st) => (d, st)
      | (.ok (some hooks), st) =>
        let (body, ids) := wrapBody head.id info.returnTy hooks st.ids body
        (.function head info params body, { st with ids, bodies := st.bodies + 1 })
  | d => (d, st)

/-- Instruments all call sites and function bodies. -/
def instrumenter (env : PassEnv) : Visitor PassState where
  onExpr sc _ := PassState.edit (instrumentCall env sc)
  onDecl sc := PassState.edit (instrumentBody env sc)

def run (env : PassEnv) (m : Module) (store : Store) : PassResult :=
  m.runVisitor (instrumenter env) store

end TraceWeave.Instrument

import Mathlib.Data.List.Forall2
import TraceWeave.Proofs.Tracing.Plan

/-! # Woven code

What instrumentation makes of a program, as a relation by recursion on the program: everything
stays as it is, except that calls, the values of returns and the bodies of functions get the hook
calls of their plans.

1. A call gets the events of its plan around it.
2. A `return` that leaves the function it stands in tells that the function is left. A `return` to
   another function cannot succeed, and may have been given any number of hooks.
3. A body gets the events of its plan, which makes an expression a block.
-/

namespace TraceWeave

/-- Hooks belong to the runtime library. -/
theorem Linkage.isRuntimeCall_of_hook? {l : Linkage} {ty : TraceType} {id : DeclId}
    (h : l.hook? ty = some id) : l.isRuntimeCall id = true := by
  obtain ⟨before, behind, heq, -⟩ := List.lookup_eq_some_iff.mp h
  have hfound : (l.hooks.reverse.find? (·.2 == id)).isSome := by
    rw [List.find?_isSome]
    exact ⟨(ty, id), by rw [heq]; simp, beq_self_eq_true id⟩
  rw [isRuntimeCall, hookKind?, Option.isSome_map, hfound, Bool.true_or]

namespace Tracing

/-- An expression that tells a hook an event. -/
def Tells (env : PassEnv) (ev : TraceEvent) (x : Expr) : Prop :=
  ∃ id span, env.linkage.hook? ev.traceType = some id ∧
    x = Lowering.hookCall id (ev.argExprs span.toSynthetic) span

theorem Tells.hook {env : PassEnv} {ev : TraceEvent} {x : Expr} (h : Tells env ev x) :
    (env.linkage.hook? ev.traceType).isSome := by
  obtain ⟨id, -, hid, -⟩ := h
  rw [hid]
  rfl

/-- Statements that tell hooks one event each. -/
def TellsAll (env : PassEnv) : List TraceEvent → List Stmt → Prop :=
  List.Forall₂ fun ev stmt => ∃ x, stmt = .expr x ∧ Tells env ev x

/-- A block around an expression with events before and perhaps one after it. -/
inductive Surrounds (env : PassEnv) (before : List TraceEvent) :
    Option TraceEvent → Expr → Expr → Prop
  | quiet {stmts : List Stmt} {core : Expr} :
    TellsAll env before stmts →
      Surrounds env before none core (Lowering.blockWithResult stmts core core.span)
  | dropped {stmts : List Stmt} {core x : Expr} {ev : TraceEvent} :
    TellsAll env before stmts → Tells env ev x → core.ty = .unit →
      Surrounds env before (some ev) core
        (Lowering.blockWithResult (stmts ++ [.expr core, .expr x])
          (.unit core.span.toSynthetic) core.span)
  | kept {stmts : List Stmt} {core x : Expr} {ev : TraceEvent} {head : VarHead} {span : Span} :
    TellsAll env before stmts → Tells env ev x → ¬core.ty.isTrivial →
      Surrounds env before (some ev) core
        (Lowering.blockWithResult (stmts ++ [.var head (some core), .expr x])
          (.getVar ⟨span, core.ty⟩ head.id) core.span)

/-- A call with the events of its plan. -/
def CallWoven (env : PassEnv) (plan : CallPlan) (core e' : Expr) : Prop :=
  (plan.before = [] ∧ plan.after = none ∧ e' = core) ∨
    Surrounds env plan.before plan.after core e'

/-- An event that is active can be told: it has its descriptors, and there is a hook for it. -/
def Backed (env : PassEnv) (active : Bool) (ev : Option TraceEvent) : Prop :=
  active = true → ∃ e, ev = some e ∧ (env.linkage.hook? e.traceType).isSome

theorem Backed.inactive (env : PassEnv) (ev : Option TraceEvent) : Backed env false ev :=
  fun hactive => absurd hactive Bool.false_ne_true

/-- All events that are active at a call site can be told. -/
def SiteBacked (env : PassEnv) (store : Store) (sc : ScopeStack) (site : Site) (callee : DeclId) :
    Prop :=
  Instrument.isExempt env callee = false → ∃ types, activeTypes env sc = .ok types ∧
    ∀ executable, sc.currentExecutable? = some executable →
      Backed env (types.has .beforeCall)
        (siteEvent? env store .beforeCall (env.functionHandle? store callee) site.span) ∧
      Backed env (types.has .suspensionPoint && Instrument.isSuspend env callee)
        (siteEvent? env store .suspension (env.executableHandle? store executable) site.span) ∧
      Backed env (types.has .afterCall && !site.ty.isNothing)
        (siteEvent? env store .afterCall (env.functionHandle? store callee) site.span)

/-- All events that are active in a body can be told. -/
def BodyBacked (env : PassEnv) (store : Store) (sc : ScopeStack) (head : DeclHead) (body : Body) :
    Prop :=
  isTraceable head body → ∃ types, bodyTypes env sc head = .ok types ∧
    Backed env (types.has .functionEnter) ((env.functionHandle? store head.id).map .enter) ∧
    Backed env (types.has .functionLeave) ((env.functionHandle? store head.id).map .leave)

/-- The value of a `return` that leaves its function. -/
def LeaveWoven (env : PassEnv) (leave : Option TraceEvent) (value value' : Expr) : Prop :=
  if leave.isSome ∧ ¬value.ty.isNothing then Surrounds env [] leave value value'
  else value' = value

/-- The value of a `return` to a function around the one it stands in. -/
inductive Rewrapped (env : PassEnv) : Expr → Expr → Prop
  | refl (value : Expr) : Rewrapped env value value
  | step {value value' value'' : Expr} {ev : TraceEvent} :
    Rewrapped env value value' → Surrounds env [] (some ev) value' value'' →
      Rewrapped env value value''

/-- The function that code belongs to and the event of leaving it. Code that no `return` can leave
a function from has none. -/
abbrev Leaves := Option (DeclId × Option TraceEvent)

/-- The value of a `return` in code. -/
def ReturnWoven (env : PassEnv) (lv : Leaves) (target : ReturnTarget) (value value' : Expr) : Prop :=
  match target, lv with
  | .block _, _ => value' = value
  | .function _, none => Rewrapped env value value'
  | .function g, some (own, leave) =>
    if g = own then LeaveWoven env leave value value' else Rewrapped env value value'

/-- The body of a function with the events of its plan. -/
inductive BodyWoven (env : PassEnv) (own : DeclId) (plan : FunctionPlan) : Body → Body → Prop
  | plain {body : Body} : plan.enter = none → plan.leave = none → BodyWoven env own plan body body
  | block {stmts enters : List Stmt} :
    TellsAll env plan.enter.toList enters →
    (plan.ending = .through ∨ plan.ending = .dropped ∧ Block.endsWithReturn stmts) →
      BodyWoven env own plan (.block stmts) (.block (enters ++ stmts))
  | blockDropped {stmts enters : List Stmt} {ev : TraceEvent} {x : Expr} :
    TellsAll env plan.enter.toList enters → plan.ending = .dropped → plan.leave = some ev →
    Tells env ev x →
      BodyWoven env own plan (.block stmts) (.block (enters ++ stmts ++ [.expr x]))
  | expression {e : Expr} {enters : List Stmt} :
    TellsAll env plan.enter.toList enters → plan.ending = .through →
      BodyWoven env own plan (.expression e) (.block (enters ++ [.expr e]))
  | expressionDropped {e x : Expr} {enters : List Stmt} {ev : TraceEvent} :
    TellsAll env plan.enter.toList enters → plan.ending = .dropped → plan.leave = some ev →
    Tells env ev x →
      BodyWoven env own plan (.expression e) (.block (enters ++ [.expr e, .expr x]))
  | expressionKept {e x : Expr} {enters : List Stmt} {ev : TraceEvent} {head : VarHead}
      {span span' : Span} :
    TellsAll env plan.enter.toList enters → plan.ending = .returned → plan.leave = some ev →
    Tells env ev x →
      BodyWoven env own plan (.expression e) (.block (enters ++ [.var head (some e), .expr x,
        .expr (.ofReturn span (.function own) (.getVar ⟨span', e.ty⟩ head.id))]))
  | expressionReturned {e : Expr} {enters : List Stmt} {span : Span} :
    TellsAll env plan.enter.toList enters → plan.ending = .returned → plan.leave = none →
      BodyWoven env own plan (.expression e)
        (.block (enters ++ [.expr (.ofReturn span (.function own) e)]))

end Tracing

open Tracing

section

variable (env : PassEnv) (store : Store)

mutual

/-- What an expression becomes. -/
def Expr.Woven (sc : ScopeStack) (lv : Leaves) :
    Expr → Expr → Prop
  | .const s value => fun e' => e' = .const s value
  | .getVar s var => fun e' => e' = .getVar s var
  | .setVar s var value => fun e' => ∃ value', value.Woven sc lv value' ∧ e' = .setVar s var value'
  | .call s callee receiver typeArgs args => fun e' =>
    ∃ receiver' args', optionWoven sc lv receiver receiver' ∧
      argsWoven sc lv args args' ∧ SiteBacked env store sc s callee ∧
      CallWoven env (callPlan env store sc s callee) (.call s callee receiver' typeArgs args') e'
  | .functionRef s id => fun e' => e' = .functionRef s id
  | .propertyRef s id => fun e' => e' = .propertyRef s id
  | .block s stmts => fun e' =>
    ∃ stmts', stmtsWoven (sc.push .ofBody) lv stmts stmts' ∧ e' = .block s stmts'
  | .returnable s id stmts => fun e' =>
    ∃ stmts', stmtsWoven (sc.push .ofBody) lv stmts stmts' ∧ e' = .returnable s id stmts'
  | .ret s target value => fun e' =>
    ∃ value' value'', value.Woven sc lv value' ∧
      ReturnWoven env lv target value' value'' ∧ e' = .ret s target value''
  | .when s branches otherwise => fun e' =>
    ∃ branches' otherwise', branchesWoven sc lv branches branches' ∧
      optionWoven sc lv otherwise otherwise' ∧ e' = .when s branches' otherwise'
  | .loop s condition body => fun e' =>
    ∃ condition' body', condition.Woven sc lv condition' ∧
      body.Woven sc lv body' ∧ e' = .loop s condition' body'
  | .binary s op lhs rhs => fun e' =>
    ∃ lhs' rhs', lhs.Woven sc lv lhs' ∧ rhs.Woven sc lv rhs' ∧
      e' = .binary s op lhs' rhs'
  | .not s operand => fun e' => ∃ operand', operand.Woven sc lv operand' ∧ e' = .not s operand'
  | .concat s parts => fun e' => ∃ parts', exprsWoven sc lv parts parts' ∧ e' = .concat s parts'
  | .lambda s decl => fun e' => ∃ decl', decl.Woven sc decl' ∧ e' = .lambda s decl'
  | .descriptor s ref => fun e' => e' = .descriptor s ref
  | .captureFrame s capture => fun e' => e' = .captureFrame s capture

def optionWoven (sc : ScopeStack) (lv : Leaves) :
    Option Expr → Option Expr → Prop
  | none => fun e' => e' = none
  | some e => fun e' => ∃ x, e.Woven sc lv x ∧ e' = some x

def argsWoven (sc : ScopeStack) (lv : Leaves) :
    List (Option Expr) → List (Option Expr) → Prop
  | [] => fun args' => args' = []
  | none :: args => fun args' => ∃ rest, argsWoven sc lv args rest ∧ args' = none :: rest
  | some e :: args => fun args' =>
    ∃ x rest, e.Woven sc lv x ∧ argsWoven sc lv args rest ∧
      args' = some x :: rest

def exprsWoven (sc : ScopeStack) (lv : Leaves) :
    List Expr → List Expr → Prop
  | [] => fun es' => es' = []
  | e :: es => fun es' =>
    ∃ x rest, e.Woven sc lv x ∧ exprsWoven sc lv es rest ∧ es' = x :: rest

def branchesWoven (sc : ScopeStack) (lv : Leaves) :
    List (Expr × Expr) → List (Expr × Expr) → Prop
  | [] => fun branches' => branches' = []
  | (condition, result) :: branches => fun branches' =>
    ∃ x y rest, condition.Woven sc lv x ∧ result.Woven sc lv y ∧
      branchesWoven sc lv branches rest ∧ branches' = (x, y) :: rest

def stmtsWoven (sc : ScopeStack) (lv : Leaves) :
    List Stmt → List Stmt → Prop
  | [] => fun stmts' => stmts' = []
  | stmt :: stmts => fun stmts' =>
    ∃ x rest, stmt.Woven sc lv x ∧ stmtsWoven (sc.after stmt) lv stmts rest ∧
      stmts' = x :: rest

def Stmt.Woven (sc : ScopeStack) (lv : Leaves) :
    Stmt → Stmt → Prop
  | .expr e => fun stmt' => ∃ x, e.Woven sc lv x ∧ stmt' = .expr x
  | .var head init => fun stmt' =>
    ∃ init', optionWoven sc lv init init' ∧ stmt' = .var head init'
  | .decl d => fun stmt' => ∃ d', d.Woven sc d' ∧ stmt' = .decl d'

def paramsWoven (sc : ScopeStack) : List Param → List Param → Prop
  | [] => fun params' => params' = []
  | ⟨head, default⟩ :: params => fun params' =>
    ∃ default' rest, optionWoven sc none default default' ∧
      paramsWoven sc params rest ∧ params' = ⟨head, default'⟩ :: rest

/-- What the code of a body becomes, without the events of the body itself. -/
def Body.Woven (sc : ScopeStack) (lv : Leaves) : Body → Body → Prop
  | .absent => fun body' => body' = .absent
  | .block stmts => fun body' =>
    ∃ stmts', stmtsWoven (sc.push .ofBody) lv stmts stmts' ∧ body' = .block stmts'
  | .expression e => fun body' => ∃ x, e.Woven sc lv x ∧ body' = .expression x

/-- What a declaration becomes. -/
def Decl.Woven (sc : ScopeStack) : Decl → Decl → Prop
  | .classDecl head info members => fun d' =>
    ∃ members', declsWoven (sc.push (.ofClass head.id)) members members' ∧
      d' = .classDecl head info members'
  | .function head info params body => fun d' =>
    let plan := functionPlan env store sc (.function head info params body)
    ∃ params' body' body'', paramsWoven (sc.inFunction head.id params) params params' ∧
      body.Woven (sc.inFunction head.id params) (some (head.id, plan.leave)) body' ∧
      BodyBacked env store sc head body ∧ BodyWoven env head.id plan body' body'' ∧
      d' = .function head info params' body''
  | .property head info backing getter setter => fun d' =>
    ∃ backing' getter' setter', accessorWoven sc backing backing' ∧
      accessorWoven sc getter getter' ∧ accessorWoven sc setter setter' ∧
      d' = .property head info backing' getter' setter'
  | .field head info init => fun d' =>
    ∃ init', optionWoven (sc.push (.ofInitializer head.id)) none init init' ∧
      d' = .field head info init'
  | .initializer head body => fun d' =>
    ∃ body', stmtsWoven ((sc.push (.ofInitializer head.id)).push .ofBody) none body body' ∧
      d' = .initializer head body'

def accessorWoven (sc : ScopeStack) :
    Option Decl → Option Decl → Prop
  | none => fun d' => d' = none
  | some d => fun d' => ∃ x, d.Woven sc x ∧ d' = some x

def declsWoven (sc : ScopeStack) : List Decl → List Decl → Prop
  | [] => fun ds' => ds' = []
  | d :: ds => fun ds' =>
    ∃ x rest, d.Woven sc x ∧ declsWoven sc ds rest ∧ ds' = x :: rest

end

end

/-! ## Points with the same events -/

/-- Points that have the same declarations and the same executable around them. -/
def ScopeStack.SameContext (sc sc' : ScopeStack) : Prop :=
  sc'.declarations = sc.declarations ∧ sc'.currentExecutable? = sc.currentExecutable?

namespace ScopeStack.SameContext

variable {sc sc' : ScopeStack}

theorem refl (sc : ScopeStack) : sc.SameContext sc := ⟨rfl, rfl⟩

theorem block (h : sc.SameContext sc') : sc.SameContext (sc'.push .ofBody) := h

theorem after (h : sc.SameContext sc') (stmt : Stmt) : sc.SameContext (sc'.after stmt) := by
  cases stmt with
  | var head init =>
    refine ⟨(sc'.declarations_after _).trans h.1, Eq.trans ?_ h.2⟩
    obtain ⟨_ | ⟨f, fs⟩⟩ := sc' <;> rfl
  | expr | decl => exact h

theorem callPlan_eq (h : sc.SameContext sc') (env : PassEnv) (store : Store) :
    callPlan env store sc' = callPlan env store sc := by
  funext site callee
  unfold callPlan activeTypes
  rw [h.1, h.2]

theorem siteBacked_eq (h : sc.SameContext sc') (env : PassEnv) (store : Store) :
    SiteBacked env store sc' = SiteBacked env store sc := by
  funext site callee
  unfold SiteBacked activeTypes
  rw [h.1, h.2]

end ScopeStack.SameContext

/-! ## Sites stay the same -/

theorem Ty.eq_unit {ty : Ty} (htrivial : ty.isTrivial) (hnothing : ¬ty.isNothing) : ty = .unit := by
  cases ty <;> simp_all [Ty.isTrivial, Ty.isNothing]

variable {env : PassEnv} {store : Store}

theorem Tracing.Surrounds.site_eq {before : List TraceEvent} {after : Option TraceEvent}
    {core e' : Expr} (h : Surrounds env before after core e') : e'.site = core.site := by
  cases h with
  | quiet => rfl
  | dropped _ _ hty =>
    rw [Lowering.blockWithResult, Expr.site, show (Expr.unit _).ty = .unit from rfl, ← hty]
    rfl
  | kept => rfl

theorem Tracing.Rewrapped.ty_eq {value value' : Expr} (h : Rewrapped env value value') :
    value'.ty = value.ty := by
  induction h with
  | refl => rfl
  | step _ hs ih => exact (congrArg Site.ty hs.site_eq).trans ih

theorem Expr.Woven.site_eq {e e' : Expr} {sc : ScopeStack} {lv : Leaves}
    (h : e.Woven env store sc lv e') : e'.site = e.site := by
  cases e with
  | const | getVar | functionRef | propertyRef | descriptor | captureFrame =>
    rw [show e' = _ from h]
  | setVar | block | returnable | not | concat | lambda =>
    obtain ⟨_, -, rfl⟩ := h
    rfl
  | ret | when | loop | binary =>
    obtain ⟨_, _, -, -, rfl⟩ := h
    rfl
  | call s callee receiver typeArgs args =>
    obtain ⟨_, _, -, -, -, hc⟩ := h
    obtain ⟨-, -, rfl⟩ | hc := hc
    · rfl
    · exact hc.site_eq

theorem Expr.Woven.ty_eq {e e' : Expr} {sc : ScopeStack} {lv : Leaves}
    (h : e.Woven env store sc lv e') : e'.ty = e.ty :=
  congrArg Site.ty h.site_eq

theorem Expr.Woven.span_eq {e e' : Expr} {sc : ScopeStack} {lv : Leaves}
    (h : e.Woven env store sc lv e') : e'.span = e.span :=
  congrArg Site.span h.site_eq

/-- Only a block is woven into a block. -/
theorem Body.Woven.of_block {body : Body} {stmts' : List Stmt} {sc : ScopeStack} {lv : Leaves}
    (h : body.Woven env store sc lv (.block stmts')) :
    ∃ stmts, body = .block stmts ∧ stmtsWoven env store (sc.push .ofBody) lv stmts stmts' := by
  cases body with
  | absent => cases h
  | block stmts =>
    obtain ⟨_, hstmts, heq⟩ := h
    cases heq
    exact ⟨stmts, rfl, hstmts⟩
  | expression e =>
    obtain ⟨_, -, heq⟩ := h
    cases heq

/-- Only an expression is woven into an expression. -/
theorem Body.Woven.of_expression {body : Body} {e' : Expr} {sc : ScopeStack} {lv : Leaves}
    (h : body.Woven env store sc lv (.expression e')) :
    ∃ e, body = .expression e ∧ e.Woven env store sc lv e' := by
  cases body with
  | absent => cases h
  | block stmts =>
    obtain ⟨_, -, heq⟩ := h
    cases heq
  | expression e =>
    obtain ⟨_, he, heq⟩ := h
    cases heq
    exact ⟨e, rfl, he⟩

end TraceWeave

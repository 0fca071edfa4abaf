import TraceWeave.Pass.Instrument
import TraceWeave.Proofs.Program.Scoped
import TraceWeave.Proofs.Runs.Watch

/-! # What is told where

The events that hooks are told at the call sites and in the body of a function, read off the
program and the descriptors that a pass leaves behind, and an observer that tells them.

`Tracing.callPlan` has the events around a call and `Tracing.functionPlan` those of a function;
`Tracing.planOf` finds the plan of any function of a module. A `Tracing.Tracer` tells them, and
`Tracing.tracerOf` is the one that belongs to a module that was instrumented.
-/

namespace TraceWeave

namespace TraceEvent

/-- The arguments that a hook is called with. -/
def args : TraceEvent → List Value
  | .enter f | .leave f => [.descriptor f.toRef]
  | .beforeCall f l | .afterCall f l | .suspension f l => [.descriptor f.toRef, .descriptor l.toRef]
  | .spanEnter name | .spanLeave name | .event name => [.string name]

/-- The arguments of a hook in code. -/
def argExprs (span : Span) : TraceEvent → List Expr
  | .enter f | .leave f => [Lowering.descriptorExpr f.toRef span]
  | .beforeCall f l | .afterCall f l | .suspension f l =>
    [Lowering.descriptorExpr f.toRef span, Lowering.descriptorExpr l.toRef span]
  | .spanEnter name | .spanLeave name | .event name => [.ofString span name]

/-- A hook that is called with the arguments of an event is told the event. -/
theorem ofCall_args (ev : TraceEvent) : ofCall ev.traceType ev.args = .ok ev := by
  cases ev <;> rfl

end TraceEvent

/-- The host call that tells a hook an event. -/
def HookNames.call (names : HookNames) (ev : TraceEvent) : HostCall :=
  ⟨names.get ev.traceType, ev.args⟩

namespace PassEnv

variable (env : PassEnv) (store : Store)

/-- The descriptor of a function. -/
def functionHandle? (id : DeclId) : Option (Handle .functionInfo) := do
  let (s, info) ← env.factory.symbols.function? id
  store.functions.find? (env.factory.functionKeyOf s info)

/-- The descriptor of the location of a span. -/
def locationHandle? (span : Span) : Option (Handle .location) :=
  let path := env.factory.filePath span.file
  let position := (store.texts.resolve env.factory.sources path span.start span.stop).1
  store.locations.find? ⟨env.factory.moduleName, path, position⟩

/-- The descriptor of the function that an executable counts as. -/
def executableHandle? : Executable → Option (Handle .functionInfo)
  | .function id => env.functionHandle? store id
  | .initializer _ (some inClass) => do
    let (_, info) ← env.factory.symbols.class? inClass
    env.functionHandle? store (← info.primaryConstructor)
  | .initializer _ none => none

end PassEnv

namespace Tracing

/-- The events around a call. -/
structure CallPlan where
  before : List TraceEvent := []
  after : Option TraceEvent := none

/-- An event about a function at a span. -/
def siteEvent? (env : PassEnv) (store : Store)
    (make : Handle .functionInfo → Handle .location → TraceEvent)
    (function : Option (Handle .functionInfo)) (span : Span) : Option TraceEvent := do
  return make (← function) (← env.locationHandle? store span)

/-- The events around a call of a function at a point. -/
def callPlan (env : PassEnv) (store : Store) (sc : ScopeStack) (site : Site) (callee : DeclId) :
    CallPlan :=
  match Instrument.isExempt env callee, activeTypes env sc, sc.currentExecutable? with
  | false, .ok types, some executable =>
    let told (active : Bool) (make : Handle .functionInfo → Handle .location → TraceEvent)
        (function : Option (Handle .functionInfo)) :=
      if active then siteEvent? env store make function site.span else none
    let info := env.functionHandle? store callee
    let current := env.executableHandle? store executable
    { before :=
        (told (types.has .beforeCall) .beforeCall info).toList ++
          (told (types.has .suspensionPoint && Instrument.isSuspend env callee) .suspension
            current).toList
      after := told (types.has .afterCall && !site.ty.isNothing) .afterCall info }
  | _, _, _ => {}

/-- What becomes of the value that a body comes to. -/
inductive Ending where
  /-- It is left alone. -/
  | through
  /-- The function is left, and the value is dropped. -/
  | dropped
  /-- The function is left, and the value is returned. -/
  | returned
  deriving DecidableEq

/-- The events of a function: around the calls in its code, and in its body. -/
structure FunctionPlan where
  call : Site → DeclId → CallPlan := fun _ _ => {}
  enter : Option TraceEvent := none
  leave : Option TraceEvent := none
  ending : Ending := .through

/-- The types that are active in the body of a function. -/
def bodyTypes (env : PassEnv) (sc : ScopeStack) (head : DeclHead) : Except Error TraceSet := do
  return (← activeTypes env sc).union (← declaredTypes env.options head.annotations)

/-- Whether the body of a function is instrumented when types are active. -/
def isTraceable (head : DeclHead) (body : Body) : Bool :=
  body.isPresent && !(head.origin == .fakeOverride)

/-- An event about a function, if its type is active in the body. -/
def bodyEvent? (env : PassEnv) (store : Store) (sc : ScopeStack) (head : DeclHead) (body : Body)
    (ty : TraceType) (make : Handle .functionInfo → TraceEvent) : Option TraceEvent :=
  match isTraceable head body, bodyTypes env sc head with
  | true, .ok types => if types.has ty then (env.functionHandle? store head.id).map make else none
  | _, _ => none

def endingOf (returnTy : Ty) (enter leave : Option TraceEvent) : Body → Ending
  | .absent => .through
  | .block _ => if leave.isSome ∧ returnTy = .unit then .dropped else .through
  | .expression e =>
    if leave.isSome then
      if e.ty.isNothing then .through else if e.ty.isTrivial then .dropped else .returned
    else if enter.isSome ∧ ¬returnTy.isTrivial then .returned
    else .through

/-- The events of a declaration at a point. -/
def functionPlan (env : PassEnv) (store : Store) (sc : ScopeStack) : Decl → FunctionPlan
  | .function head info params body =>
    let enter := bodyEvent? env store sc head body .functionEnter .enter
    let leave := bodyEvent? env store sc head body .functionLeave .leave
    { call := callPlan env store (sc.inFunction head.id params)
      enter
      leave
      ending := endingOf info.returnTy enter leave body }
  | _ => {}

/-- The events of a declaration of a module; external ones have none. -/
def planOf (env : PassEnv) (store : Store) (m : Module) (id : DeclId) : FunctionPlan :=
  match m.ownDecl? id with
  | some (sc, d) => functionPlan env store sc d
  | none => {}

section

variable (env : PassEnv) (store : Store)

theorem planOf_call_cases (m : Module) (own : DeclId) :
    (∃ sc, (planOf env store m own).call = callPlan env store sc) ∨
      (planOf env store m own).call = fun _ _ => {} := by
  unfold planOf
  split
  · rename_i sc d _
    cases d with
    | function head info params body => exact .inl ⟨_, rfl⟩
    | _ => exact .inr rfl
  · exact .inr rfl

theorem of_siteEvent? {make : Handle .functionInfo → Handle .location → TraceEvent}
    {function : Option (Handle .functionInfo)} {span : Span} {ev : TraceEvent}
    (h : siteEvent? env store make function span = some ev) :
    ∃ f l, function = some f ∧ env.locationHandle? store span = some l ∧ ev = make f l := by
  unfold siteEvent? at h
  cases function with
  | none => exact nomatch h
  | some f =>
    cases hl : env.locationHandle? store span with
    | none => simp [hl] at h
    | some l =>
      simp only [hl, Option.bind_eq_bind, Option.bind_some, Option.pure_def] at h
      exact ⟨f, l, rfl, rfl, (Option.some.inj h).symm⟩

variable {m : Module} {own : DeclId} {site : Site} {callee : DeclId} {ev : TraceEvent}

/-- The events before a call. -/
theorem traceType_before (h : ev ∈ ((planOf env store m own).call site callee).before) :
    ev.traceType = .beforeCall ∨ ev.traceType = .suspensionPoint := by
  obtain ⟨sc, hcall⟩ | hcall := planOf_call_cases env store m own
  · rw [hcall] at h
    unfold callPlan at h
    split at h
    · simp only [List.mem_append, Option.mem_toList, Option.ite_none_right_eq_some] at h
      obtain ⟨-, hev⟩ | ⟨-, hev⟩ := h
      · obtain ⟨f, l, -, -, rfl⟩ := of_siteEvent? env store hev
        exact .inl rfl
      · obtain ⟨f, l, -, -, rfl⟩ := of_siteEvent? env store hev
        exact .inr rfl
    · exact nomatch h
  · rw [hcall] at h
    exact nomatch h

/-- The event after a call. -/
theorem traceType_after (h : ((planOf env store m own).call site callee).after = some ev) :
    ev.traceType = .afterCall ∧ ¬site.ty.isNothing := by
  obtain ⟨sc, hcall⟩ | hcall := planOf_call_cases env store m own
  · rw [hcall] at h
    unfold callPlan at h
    split at h
    · simp only [Option.ite_none_right_eq_some, Bool.and_eq_true, Bool.not_eq_true'] at h
      obtain ⟨⟨-, hty⟩, hev⟩ := h
      obtain ⟨f, l, -, -, rfl⟩ := of_siteEvent? env store hev
      exact ⟨rfl, by rw [hty]; exact Bool.false_ne_true⟩
    · exact nomatch h
  · rw [hcall] at h
    exact nomatch h

end

/-- A program that is traced by an observer: the watch around it, and the events of each
function. -/
structure Tracer where
  watch : Watch := {}
  /-- The host calls that are left behind when a hook is told an event. -/
  shown : TraceEvent → List HostCall
  plan : DeclId → FunctionPlan

namespace Tracer

open Interpreter

variable (r : Tracer)

/-- Tells events in order. -/
def tell (events : List TraceEvent) : Eval Unit := Eval.tell (events.flatMap r.shown)

/-- The value that stays when an event was told after it: there is none of a trivial type. -/
def kept (ty : Ty) (ev : Option TraceEvent) (v : Value) : Value :=
  if ev.isSome ∧ ty.isTrivial then .unit else v

/-- Tells an event after a value. -/
def tellThen (ty : Ty) (ev : Option TraceEvent) (v : Value) : Eval Flow :=
  Eval.andThen (r.tell ev.toList) fun _ => Eval.yield (.value (kept ty ev v))

def tellAfter (ty : Ty) (ev : Option TraceEvent) (step : Eval Flow) : Eval Flow :=
  withValue step (r.tellThen ty ev)

theorem tellAfter_none (ty : Ty) (step : Eval Flow) : r.tellAfter ty none step = step :=
  withValue_value step

def aroundExpr (own : DeclId) (e : Expr) (step : Eval Flow) : Eval Flow :=
  match e.callee? with
  | some callee =>
    let plan := (r.plan own).call e.site callee
    Eval.andThen (r.tell plan.before) fun _ =>
      r.tellAfter e.ty plan.after (r.watch.aroundExpr own e step)
  | none => r.watch.aroundExpr own e step

def aroundReturned (own : DeclId) (target : ReturnTarget) (value : Expr) (step : Eval Flow) :
    Eval Flow :=
  if target = .function own ∧ ¬value.ty.isNothing then
    r.tellAfter value.ty (r.plan own).leave step
  else step

/-- What becomes of the value that a body comes to. -/
def finish (own : DeclId) (v : Value) : Eval Flow :=
  match (r.plan own).ending with
  | .through => Eval.yield (.value v)
  | .dropped =>
    Eval.andThen (r.tell (r.plan own).leave.toList) fun _ => Eval.yield (.value .unit)
  | .returned =>
    Eval.andThen (r.tell (r.plan own).leave.toList) fun _ => Eval.yield (.ret (.function own) v)

def aroundBody (own : DeclId) (step : Eval Flow) : Eval Flow :=
  r.watch.aroundBody own
    (Eval.andThen (r.tell (r.plan own).enter.toList) fun _ => withValue step (r.finish own))

def observer : Observer :=
  { expr := r.aroundExpr, returned := r.aroundReturned, body := r.aroundBody }

end Tracer

/-- The tracer of a module that was instrumented, under a watch. -/
def tracerOf (env : PassEnv) (store : Store) (m : Module) (w : Watch) : Tracer where
  watch := w
  shown ev :=
    match env.linkage.hook? ev.traceType with
    | some id => if w.silenced id then [] else [env.options.tracing.hooks.call ev]
    | none => []
  plan := planOf env store m

end Tracing

end TraceWeave

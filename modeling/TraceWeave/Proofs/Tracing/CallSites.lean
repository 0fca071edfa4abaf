import TraceWeave.Proofs.Tracing.Backing
import TraceWeave.Proofs.Tracing.Traces

/-! # Call events

An instrumented program tells its hooks about every call that is no exempt one: before the operands
are evaluated, where the caller may be suspended, and when the call has come to a value. This is said
by a reporter that writes down the same events by watching the calls, while the hooks themselves are
silent.

* `Tracing.isReportedCall`, `Tracing.callReport`: which calls are reported, and what is reported
  about one.
* `Tracing.callReporter`: writes it down.
* `calls_reported_exactly`: both runs end in the same way, and tell the same events, nested.
-/

namespace TraceWeave

open Interpreter Tracing

/-! ## The reporter -/

/-- Events of calls: what is told before a call opens, and what is told after it closes. -/
def callEvents : Brackets (Handle .functionInfo × Handle .location) where
  opens?
    | .beforeCall f l => some (f, l)
    | _ => none
  closes?
    | .afterCall f l => some (f, l)
    | _ => none

/-- The types of the events of calls. -/
def callTypes : List TraceType := [.beforeCall, .afterCall, .suspensionPoint]

namespace Tracing

/-- Whether calls of a function in the code of another one are reported: the code belongs to an own
file, and the callee is not exempt. -/
def isReportedCall (env : PassEnv) (m : Module) (own callee : DeclId) : Bool :=
  (m.ownDecl? own).isSome && !Instrument.isExempt env callee

/-- What is reported around a call in the code of a function: the callee and the location before it,
the function itself and the location if the callee can suspend it, and the callee and the location
after it, unless the call has no value. -/
def callReport (env : PassEnv) (store : Store) (m : Module) (own : DeclId) (site : Site)
    (callee : DeclId) : CallPlan :=
  if isReportedCall env m own callee then
    { before :=
        (siteEvent? env store .beforeCall (env.functionHandle? store callee) site.span).toList ++
          (if Instrument.isSuspend env callee then
            siteEvent? env store .suspension (env.functionHandle? store own) site.span
          else none).toList
      after :=
        if site.ty.isNothing then none
        else siteEvent? env store .afterCall (env.functionHandle? store callee) site.span }
  else {}

/-- Writes down what is reported around calls, in place of the hooks. -/
def callReporter (env : PassEnv) (store : Store) (m : Module) : Watch where
  silenced := isHookOf env callTypes
  before own site callee :=
    (callReport env store m own site callee).before.map env.options.tracing.hooks.call
  after own site callee :=
    (callReport env store m own site callee).after.toList.map env.options.tracing.hooks.call

theorem callReport_exempt {env : PassEnv} {callee : DeclId}
    (h : Instrument.isExempt env callee = true) (store : Store) (m : Module) (own : DeclId)
    (site : Site) : callReport env store m own site callee = {} := by
  rw [callReport, isReportedCall, h, Bool.not_true, Bool.and_false]
  rfl

/-- Calls of hooks are exempt. -/
theorem isExempt_of_hook? {env : PassEnv} {ty : TraceType} {id : DeclId}
    (h : env.linkage.hook? ty = some id) : Instrument.isExempt env id = true := by
  have hruntime := Linkage.isRuntimeCall_of_hook? h
  rw [Linkage.isRuntimeCall, Bool.or_eq_true] at hruntime
  exact Instrument.isExempt_iff.mpr (hruntime.imp_right .inl)

theorem fits_callReporter (env : PassEnv) (store : Store) (m : Module) :
    Fits env (callReporter env store m) where
  never := nofun
  before ty id own site hid := by
    simp only [callReporter, callReport_exempt (isExempt_of_hook? hid)]
    rfl
  after ty id own site hid := by
    simp only [callReporter, callReport_exempt (isExempt_of_hook? hid)]
    rfl

/-- The events of a body are no events of calls. -/
theorem traceType_body (env : PassEnv) (store : Store) {m : Module} {own : DeclId} {ev : TraceEvent}
    (h : (planOf env store m own).enter = some ev ∨ (planOf env store m own).leave = some ev) :
    ev.traceType ∉ callTypes := by
  unfold planOf at h
  split at h
  · rename_i sc d _
    cases d with
    | function head info params body =>
      simp only [functionPlan, bodyEvent?] at h
      obtain h | h := h
      all_goals
        split at h
        · rw [Option.ite_none_right_eq_some] at h
          obtain ⟨f, -, rfl⟩ := Option.map_eq_some_iff.mp h.2
          simp [TraceEvent.traceType, callTypes]
        · cases h
    | _ => obtain h | h := h <;> cases h
  · obtain h | h := h <;> cases h

theorem callEvents_other {ev : TraceEvent} (h : ev.traceType ∉ callTypes) :
    callEvents.opens? ev = none ∧ callEvents.closes? ev = none := by
  cases ev <;> simp_all [callTypes, TraceEvent.traceType, callEvents]

end Tracing

/-! ## Types that are active everywhere -/

theorem addDeclared_has {o : Options} {t : SymbolTable} {ty : TraceType} :
    ∀ {ids : List DeclId} {set types : TraceSet}, addDeclared o t ids set = .ok types →
      set.has ty = true → types.has ty = true
  | [], set, types, h, hty => by
    cases h
    exact hty
  | id :: ids, set, types, h, hty => by
    rw [addDeclared] at h
    split at h
    · exact addDeclared_has h hty
    · split at h
      · exact addDeclared_has h (by rw [TraceSet.has_union, hty, Bool.true_or])
      · exact nomatch h

/-- A type that is active by default is active at every point. -/
theorem activeTypes_has {env : PassEnv} {sc : ScopeStack} {types : TraceSet} {ty : TraceType}
    (h : activeTypes env sc = .ok types) (hty : ty ∈ env.options.tracing.defaultTypes) :
    types.has ty = true :=
  addDeclared_has h (List.contains_iff_mem.mpr hty)

/-! ## Reported calls -/

namespace Instrument.Succeeds

variable {options : Options} {sources : Source.Provider} {m : Module} {store : Store}
  {env : PassEnv} {hosts : HostTable} {own : DeclId} {site : Site} {callee : DeclId} {d : Decl}

/-- A reported call: its descriptors are there, and so are the hooks that are told about it. -/
structure CallBacked (env : PassEnv) (store : Store) (own : DeclId) (site : Site) (callee : DeclId)
    (f : Handle .functionInfo) (l : Handle .location) : Prop where
  function : env.functionHandle? store callee = some f
  location : env.locationHandle? store site.span = some l
  caller : Instrument.isSuspend env callee → (env.functionHandle? store own).isSome
  before : (env.linkage.hook? .beforeCall).isSome
  suspension : Instrument.isSuspend env callee → (env.linkage.hook? .suspensionPoint).isSome
  after : ¬site.ty.isNothing → (env.linkage.hook? .afterCall).isSome

/-- Calls in own code can be reported, and the plan of the code has what is reported. -/
theorem callPlan_of_own (h : Succeeds options sources m store env)
    (htypes : ∀ ty ∈ callTypes, ty ∈ options.tracing.defaultTypes) {x : ScopeStack × Decl}
    (hx : x ∈ m.ownDecls) {call : Site × DeclId} (hcall : call ∈ x.2.calls)
    (hexempt : Instrument.isExempt env call.2 = false) :
    (∃ f l, CallBacked env (run env m store).store x.2.id call.1 call.2 f l) ∧
      (functionPlan env (run env m store).store x.1 x.2).call call.1 call.2 =
        callReport env (run env m store).store m x.2.id call.1 call.2 := by
  obtain ⟨sc, d⟩ := x
  cases d with
  | function head info params body =>
    obtain ⟨types, hactive, hbacked⟩ := h.siteBacked hx call hcall hexempt
    obtain ⟨hbefore, hsuspension, hafter⟩ := hbacked (.function head.id) rfl
    -- The types of call events are active everywhere, so whatever is active must be backed here.
    have hhas : ∀ ty ∈ callTypes, types.has ty = true := by
      intro ty hty
      exact activeTypes_has hactive (h.build_eq.1 ▸ htypes ty hty)
    rw [hhas .suspensionPoint (by decide), Bool.true_and] at hsuspension
    rw [hhas .afterCall (by decide), Bool.true_and] at hafter
    obtain ⟨ev, hev, hhook⟩ := hbefore (hhas .beforeCall (by decide))
    obtain ⟨f, l, hf, hl, rfl⟩ := of_siteEvent? env _ hev
    refine ⟨⟨f, l, hf, hl, fun hs => ?_, hhook, fun hs => ?_, fun hty => ?_⟩, ?_⟩
    · obtain ⟨ev', hev', -⟩ := hsuspension hs
      obtain ⟨g, _, hg, -, -⟩ := of_siteEvent? env _ hev'
      exact Option.isSome_iff_exists.mpr ⟨g, hg⟩
    · obtain ⟨ev', hev', hhook'⟩ := hsuspension hs
      obtain ⟨g, _, -, -, rfl⟩ := of_siteEvent? env _ hev'
      exact hhook'
    · obtain ⟨ev', hev', hhook'⟩ := hafter (by simpa using hty)
      obtain ⟨g, _, -, -, rfl⟩ := of_siteEvent? env _ hev'
      exact hhook'
    · have hreported : isReportedCall env m head.id call.2 = true := by
        have hown : m.ownDecl? head.id = some _ := Module.ownDecl?_of_mem h.ids hx
        rw [isReportedCall, hown, hexempt]
        rfl
      have hexecutable : (sc.inFunction head.id params).currentExecutable? =
        some (.function head.id) := rfl
      simp only [functionPlan, callPlan, hexempt, hactive, hexecutable,
        hhas .beforeCall (by decide), hhas .suspensionPoint (by decide),
        hhas .afterCall (by decide), Bool.true_and, if_true, callReport, Decl.id, Decl.head,
        hreported, PassEnv.executableHandle?]
      cases call.1.ty.isNothing <;> rfl
  | _ => cases hcall

/-- What is told around a call is what is reported about it, and it can be told. -/
structure CallPlanned (env : PassEnv) (store : Store) (m : Module) (own : DeclId) (site : Site)
    (callee : DeclId) : Prop where
  plan : (planOf env store m own).call site callee = callReport env store m own site callee
  backed : isReportedCall env m own callee → ∃ f l, CallBacked env store own site callee f l

theorem callPlanned (h : Succeeds options sources m store env)
    (htypes : ∀ ty ∈ callTypes, ty ∈ options.tracing.defaultTypes)
    (hd : (ofModule m hosts).decl? own = some d) :
    CallsOnly (CallPlanned env (run env m store).store m own) d.calls := by
  intro call hcall
  obtain ⟨hmem, hid⟩ := mem_of_decl? hd
  obtain ⟨sc, hx, hown⟩ | hnone := ownDecl?_cases h.ids hd
  · cases hexempt : Instrument.isExempt env call.2 with
    | true =>
      refine ⟨?_, fun hreported => ?_⟩
      · obtain ⟨sc', hplan⟩ | hplan := planOf_call_cases env (run env m store).store m own
        · rw [hplan, callReport_exempt hexempt, callPlan, hexempt]
        · rw [hplan, callReport_exempt hexempt]
      · simp [isReportedCall, hexempt] at hreported
    | false =>
      obtain ⟨hbacked, hplan⟩ := h.callPlan_of_own htypes hx hcall hexempt
      dsimp only at hbacked hplan
      rw [hid] at hbacked hplan
      exact ⟨by rw [planOf, hown]; exact hplan, fun _ => hbacked⟩
  · refine ⟨?_, fun hreported => ?_⟩
    · rw [planOf, hnone, callReport, isReportedCall, hnone]
      rfl
    · simp [isReportedCall, hnone] at hreported

/-- What is reported about a call whose descriptors are there. -/
theorem CallBacked.report {st : Store} {f : Handle .functionInfo} {l : Handle .location}
    (hbacked : CallBacked env st own site callee f l) (hreported : isReportedCall env m own callee) :
    callReport env st m own site callee =
      { before := .beforeCall f l :: (if Instrument.isSuspend env callee then
          (env.functionHandle? st own).map (.suspension · l) else none).toList
        after := if site.ty.isNothing then none else some (.afterCall f l) } := by
  have hsite : ∀ make : Handle .functionInfo → Handle .location → TraceEvent,
      siteEvent? env st make (env.functionHandle? st callee) site.span = some (make f l) := by
    intro make
    rw [siteEvent?, hbacked.function, hbacked.location]
    rfl
  have hsuspension : siteEvent? env st .suspension (env.functionHandle? st own) site.span =
      (env.functionHandle? st own).map (.suspension · l) := by
    rw [siteEvent?, hbacked.location]
    cases env.functionHandle? st own <;> rfl
  rw [callReport, if_pos hreported, hsite, hsite, hsuspension]
  rfl

/-- What is reported about a call: nothing, or an event that opens with one that closes it, unless
the call has no value. -/
theorem CallPlanned.report_cases {st : Store} (hplanned : CallPlanned env st m own site callee) :
    (callReport env st m own site callee).before = [] ∧
        (callReport env st m own site callee).after = none ∨
      ∃ f l rest, (callReport env st m own site callee).before = .beforeCall f l :: rest ∧
        (∀ ev ∈ rest, callEvents.opens? ev = none ∧ callEvents.closes? ev = none) ∧
        ((callReport env st m own site callee).after = none ∨
          (callReport env st m own site callee).after = some (.afterCall f l)) := by
  cases hreported : isReportedCall env m own callee with
  | false =>
    rw [callReport, hreported]
    exact .inl ⟨rfl, rfl⟩
  | true =>
    obtain ⟨f, l, hbacked⟩ := hplanned.backed hreported
    rw [hbacked.report hreported]
    refine .inr ⟨f, l, _, rfl, fun ev hev => ?_, ?_⟩
    · rw [Option.mem_toList, Option.ite_none_right_eq_some] at hev
      obtain ⟨_, -, rfl⟩ := Option.map_eq_some_iff.mp hev.2
      exact ⟨rfl, rfl⟩
    · dsimp only
      split
      · exact .inl rfl
      · exact .inr rfl

/-- There is a hook for whatever is reported about a call. -/
theorem CallPlanned.hook_isSome {st : Store} (hplanned : CallPlanned env st m own site callee)
    {ev : TraceEvent} (hev : ev ∈ (callReport env st m own site callee).before ∨
      (callReport env st m own site callee).after = some ev) :
    (env.linkage.hook? ev.traceType).isSome := by
  cases hreported : isReportedCall env m own callee with
  | false =>
    rw [callReport, hreported] at hev
    obtain hev | hev := hev <;> exact nomatch hev
  | true =>
    obtain ⟨f, l, hbacked⟩ := hplanned.backed hreported
    rw [hbacked.report hreported] at hev
    obtain hev | hev := hev
    · obtain rfl | hev := List.mem_cons.mp hev
      · exact hbacked.before
      · rw [Option.mem_toList, Option.ite_none_right_eq_some] at hev
        obtain ⟨_, -, rfl⟩ := Option.map_eq_some_iff.mp hev.2
        exact hbacked.suspension hev.1
    · obtain ⟨hvalue, heq⟩ := Option.ite_none_left_eq_some.mp hev
      cases heq
      exact hbacked.after hvalue

/-- The hooks are told what is reported around a call, and once they are silent, nothing. -/
theorem told_call (h : Succeeds options sources m store env) {st : Store}
    (hplanned : CallPlanned env st m own site callee) :
    ((planOf env st m own).call site callee).before.flatMap (tracerOf env st m {}).shown =
        (callReporter env st m).before own site callee ∧
      ((planOf env st m own).call site callee).after.toList.flatMap (tracerOf env st m {}).shown =
        (callReporter env st m).after own site callee ∧
      ((planOf env st m own).call site callee).before.flatMap
        (tracerOf env st m (callReporter env st m)).shown = [] ∧
      ((planOf env st m own).call site callee).after.toList.flatMap
        (tracerOf env st m (callReporter env st m)).shown = [] := by
  refine ⟨?_, ?_, told_silenced rfl (fun ev hev => ?_) st m, told_silenced rfl (fun ev hev => ?_) st m⟩
  · rw [hplanned.plan]
    exact h.told_spoken (fun ev hev => hplanned.hook_isSome (.inl hev)) st
  · rw [hplanned.plan]
    exact h.told_spoken (fun ev hev => hplanned.hook_isSome (.inr (Option.mem_toList.mp hev))) st
  · obtain hty | hty := traceType_before env st hev <;> simp [hty, callTypes]
  · simp [(traceType_after env st (Option.mem_toList.mp hev)).1, callTypes]

/-- What a call adds to the host calls before it: between what is reported before and after it,
everything that was opened may be left open. -/
theorem CallPlanned.exists_base (h : Succeeds options sources m store env) {st : Store}
    (hplanned : CallPlanned env st m own site callee) (hosts : HostTable) (log : List HostCall) :
    ∃ base,
      NestedSince callEvents True (hosts.withHooks options.tracing.hooks) base
        (((callReporter env st m).before own site callee).reverse ++ log) ∧
      (∀ k, NestedSince callEvents True (hosts.withHooks options.tracing.hooks) base k →
        NestedSince callEvents True (hosts.withHooks options.tracing.hooks) log
          (((callReporter env st m).after own site callee).reverse ++ k)) ∧
      ∀ k, NestedSince callEvents True (hosts.withHooks options.tracing.hooks) base k →
        NestedSince callEvents True (hosts.withHooks options.tracing.hooks) log k := by
  simp only [callReporter, h.build_eq.1]
  obtain ⟨hbefore, hafter⟩ | ⟨f, l, rest, hbefore, hrest, hafter⟩ := hplanned.report_cases
  · rw [hbefore, hafter]
    exact ⟨log, .refl log, fun _ hk => hk, fun _ hk => hk⟩
  · have hopen := HostTable.event?_call h.names hosts (.beforeCall f l)
    have hleft : ∀ k, NestedSince callEvents True (hosts.withHooks options.tracing.hooks)
        (options.tracing.hooks.call (.beforeCall f l) :: log) k →
          NestedSince callEvents True (hosts.withHooks options.tracing.hooks) log k :=
      fun k hk => hk.leaveOpen trivial hopen rfl
    refine ⟨options.tracing.hooks.call (.beforeCall f l) :: log, ?_, fun k hk => ?_, hleft⟩
    · rw [hbefore, List.map_cons, List.reverse_cons, List.append_assoc, List.singleton_append]
      refine (NestedSince.refl _).calls fun c hc ev hev => ?_
      obtain ⟨ev', hmem, rfl⟩ := List.mem_map.mp (List.mem_reverse.mp hc)
      rw [HostTable.event?_call h.names] at hev
      exact Option.some.inj hev ▸ hrest ev' hmem
    · obtain hafter | hafter := hafter
      · rw [hafter]
        exact hleft k hk
      · rw [hafter]
        exact hk.enclose hopen (HostTable.event?_call h.names hosts (.afterCall f l)) rfl rfl

end Instrument.Succeeds

/-! ## A traced run next to a reported one -/

namespace Tracing

/-- Runs of a program that tells its hooks about calls, and of one whose calls are reported: the same
values and the same host calls, in which whatever is closed was opened last. -/
def callComparison (table : HostTable) : Comparison (List HostCall) where
  terms := { excuses := fun _ => True, stopped := fun _ _ => True }
  logs base l k := l = k ∧ NestedSince callEvents True table base k
  values _ := Eq
  unwinds _ base _ := same fun l k => l = k ∧ NestedSince callEvents True table base k
  eq_of_values h := h
  stopped_of_logs _ _ _ _ := trivial
  stopped_of_unwinds _ := trivial

theorem returns_call_iff {table : HostTable} {own : DeclId} {base : List HostCall}
    {target : ReturnTarget} {v v' : Value} {l k : List HostCall} :
    (callComparison table).returns own base target v v' l k ↔
      same ((callComparison table).logs base) v v' l k := by
  cases target <;> exact Iff.rfl

end Tracing

namespace Instrument.Succeeds

variable {options : Options} {sources : Source.Provider} {m : Module} {store : Store}
  {env : PassEnv} {hosts : HostTable} {own : DeclId} {base : List HostCall} {mask : List Bool}
  {x y : Eval Flow} {st : Store}

/-- Both runs tell the same about everything but calls. -/
theorem telling_call (h : Succeeds options sources m store env) {events : List TraceEvent}
    (hevents : ∀ ev ∈ events, ev.traceType ∉ callTypes) {l k : List HostCall}
    (hl : (callComparison (hosts.withHooks options.tracing.hooks)).logs base l k) :
    (callComparison (hosts.withHooks options.tracing.hooks)).logs base
      ((events.flatMap (tracerOf env st m {}).shown).reverse ++ l)
      ((events.flatMap (tracerOf env st m (callReporter env st m)).shown).reverse ++ k) := by
  obtain ⟨rfl, hnested⟩ := hl
  have hspoken : ({} : Watch).silenced = isHookOf env [] := rfl
  have hsilenced : (callReporter env st m).silenced = isHookOf env callTypes := rfl
  rw [h.told_eq hspoken hsilenced (fun ev hev => ⟨List.not_mem_nil, hevents ev hev⟩)]
  exact ⟨rfl, h.nestedSince_told hnested _ _ fun ev hev => callEvents_other (hevents ev hev)⟩

/-- A call with host calls around it that were noted by hooks or by a reporter. -/
def notedCall (calls calls' : List HostCall) (kept : Value → Value) (step : Eval Flow) : Eval Flow :=
  Eval.andThen (Eval.tell calls) fun _ => withValue step fun v =>
    Eval.andThen (Eval.tell calls') fun _ => Eval.yield (.value (kept v))

/-- What the hooks are told around a call, and what the reporter notes while they are silent. -/
theorem aroundExpr_call (h : Succeeds options sources m store env) {e : Expr} {callee : DeclId}
    (hcallee : e.callee? = some callee) (hplanned : CallPlanned env st m own e.site callee)
    (hhook : ∀ ty ∈ callTypes,
      (ofModule m (hosts.withHooks options.tracing.hooks)).hookOf? callee ≠ some ty) :
    ∃ kept,
      (∀ x, (tracerOf env st m {}).aroundExpr own e x =
        notedCall ((callReporter env st m).before own e.site callee)
          ((callReporter env st m).after own e.site callee) kept x) ∧
      ∀ y, (tracerOf env st m (callReporter env st m)).aroundExpr own e y =
        notedCall ((callReporter env st m).before own e.site callee)
          ((callReporter env st m).after own e.site callee) kept y := by
  obtain ⟨hbefore, hafter, hsilent, hsilent'⟩ := h.told_call hplanned
  have htracer : ∀ (w : Watch) (step : Eval Flow), (tracerOf env st m w).aroundExpr own e step =
      Eval.andThen (Eval.tell (((planOf env st m own).call e.site callee).before.flatMap
        (tracerOf env st m w).shown)) fun _ => withValue (w.aroundExpr own e step) fun v =>
          Eval.andThen (Eval.tell (((planOf env st m own).call e.site callee).after.toList.flatMap
            (tracerOf env st m w).shown)) fun _ =>
              Eval.yield (.value (Tracer.kept e.ty ((planOf env st m own).call e.site callee).after v)) := by
    intro w step
    rw [Tracer.aroundExpr, hcallee]
    rfl
  refine ⟨Tracer.kept e.ty ((planOf env st m own).call e.site callee).after, fun x => ?_, fun y => ?_⟩
  · rw [htracer, hbefore, hafter, Watch.aroundExpr_default]
    rfl
  · have hspoken : (callReporter env st m).silenced callee = false := h.isHookOf_eq_false hosts hhook
    have hwatch : (callReporter env st m).aroundExpr own e y =
        (callReporter env st m).aroundCall own e.site callee y := by
      rw [Watch.aroundExpr, hcallee]
      rfl
    rw [htracer, hsilent, hsilent', hwatch, Watch.aroundCall, if_neg (by simp [hspoken])]
    simp only [Eval.tell_nil, Eval.yield_andThen, andThen_withValue, withValue_assoc]
    rfl

/-- A call of a traced run and of a reported one. -/
theorem call_reported (h : Succeeds options sources m store env) {e : Expr} {callee : DeclId}
    (hcallee : e.callee? = some callee) (hplanned : CallPlanned env st m own e.site callee)
    (hhook : ∀ ty ∈ callTypes,
      (ofModule m (hosts.withHooks options.tracing.hooks)).hookOf? callee ≠ some ty)
    (hxy : ∀ base mask, Matches (callComparison (hosts.withHooks options.tracing.hooks)).terms mask
      ((callComparison (hosts.withHooks options.tracing.hooks)).logs base)
      ((callComparison (hosts.withHooks options.tracing.hooks)).flow own base) x y) :
    Matches (callComparison (hosts.withHooks options.tracing.hooks)).terms mask
      ((callComparison (hosts.withHooks options.tracing.hooks)).logs base)
      ((callComparison (hosts.withHooks options.tracing.hooks)).flow own base)
      ((tracerOf env st m {}).aroundExpr own e x)
      ((tracerOf env st m (callReporter env st m)).aroundExpr own e y) := by
  obtain ⟨kept, hleft, hright⟩ := h.aroundExpr_call hcallee hplanned hhook
  rw [hleft, hright]
  refine Matches.of_logs fun l₀ k₀ hl₀ => ?_
  obtain ⟨rfl, hbase⟩ := hl₀
  obtain ⟨base', hopened, hclosed, hopen⟩ := hplanned.exists_base h hosts l₀
  refine Matches.andThen (Q := fun _ _ =>
    (callComparison (hosts.withHooks options.tracing.hooks)).logs base')
    (Matches.tell fun l k hl => ?_) fun _ _ => ?_
  · rw [hl.1, hl.2]
    exact ⟨rfl, hopened⟩
  -- A call that is left by a `return` stays open.
  have hreturns : ∀ target v v' l k,
      (callComparison (hosts.withHooks options.tracing.hooks)).returns own base' target v v' l k →
        (callComparison (hosts.withHooks options.tracing.hooks)).returns own base target v v' l k := by
    intro target v v' l k hr
    obtain ⟨rfl, rfl, hnested⟩ := returns_call_iff.mp hr
    exact returns_call_iff.mpr ⟨rfl, rfl, hbase.trans (hopen l hnested)⟩
  have hflow := (hxy base' mask).post_mono (Flow.Rel.mono (fun _ _ _ _ hv => hv) hreturns)
  refine hflow.withValue (Matches.of_same fun v => ?_)
  refine Matches.andThen (Q := fun _ _ =>
    (callComparison (hosts.withHooks options.tracing.hooks)).logs base)
    (Matches.tell fun l k hl => ?_) fun _ _ => Matches.value fun _ _ hl => ⟨rfl, hl⟩
  rw [hl.1]
  exact ⟨rfl, hbase.trans (hclosed k hl.2)⟩

/-- A tracer under a watch that does nothing around bodies. -/
theorem aroundBody_callReporter (step : Eval Flow) :
    (tracerOf env st m (callReporter env st m)).aroundBody own step =
      Eval.andThen ((tracerOf env st m (callReporter env st m)).tell
        (planOf env st m own).enter.toList) fun _ =>
          withValue step ((tracerOf env st m (callReporter env st m)).finish own) :=
  Watch.aroundBody_default own _

theorem aroundBody_default (step : Eval Flow) :
    (tracerOf env st m {}).aroundBody own step =
      Eval.andThen ((tracerOf env st m {}).tell (planOf env st m own).enter.toList) fun _ =>
        withValue step ((tracerOf env st m {}).finish own) :=
  Watch.aroundBody_default own _

/-- Both runs tell the same at the start and at the end of a body. -/
theorem tell_callReported (h : Succeeds options sources m store env) {ev? : Option TraceEvent}
    (hev : ev? = (planOf env st m own).enter ∨ ev? = (planOf env st m own).leave) :
    Matches (callComparison (hosts.withHooks options.tracing.hooks)).terms mask
      ((callComparison (hosts.withHooks options.tracing.hooks)).logs base)
      (fun _ _ => (callComparison (hosts.withHooks options.tracing.hooks)).logs base)
      ((tracerOf env st m {}).tell ev?.toList)
      ((tracerOf env st m (callReporter env st m)).tell ev?.toList) := by
  refine Matches.tell fun l k hl => h.telling_call (fun ev hmem => ?_) hl
  obtain rfl | rfl := hev
  · exact traceType_body env st (.inl (Option.mem_toList.mp hmem))
  · exact traceType_body env st (.inr (Option.mem_toList.mp hmem))

/-- The value of a body in a traced run and in a reported one. -/
theorem finish_callReported (h : Succeeds options sources m store env) (v : Value) :
    Matches (callComparison (hosts.withHooks options.tracing.hooks)).terms mask
      ((callComparison (hosts.withHooks options.tracing.hooks)).logs base)
      ((callComparison (hosts.withHooks options.tracing.hooks)).flow own base)
      ((tracerOf env st m {}).finish own v)
      ((tracerOf env st m (callReporter env st m)).finish own v) := by
  cases hcase : (planOf env st m own).ending with
  | through =>
    rw [finish_through hcase, finish_through hcase]
    exact Matches.value fun _ _ hl => ⟨rfl, hl⟩
  | dropped =>
    rw [finish_dropped hcase, finish_dropped hcase]
    exact (h.tell_callReported (.inr rfl)).andThen fun _ _ => Matches.value fun _ _ hl => ⟨rfl, hl⟩
  | returned =>
    rw [finish_returned hcase, finish_returned hcase]
    exact (h.tell_callReported (.inr rfl)).andThen fun _ _ =>
      Matches.ret fun _ _ hl => returns_call_iff.mpr ⟨rfl, hl⟩

/-- The values of returns in a traced run and in a reported one. -/
theorem returned_callReported (h : Succeeds options sources m store env) (target : ReturnTarget)
    (e : Expr) (hxy : Matches (callComparison (hosts.withHooks options.tracing.hooks)).terms mask
      ((callComparison (hosts.withHooks options.tracing.hooks)).logs base)
      ((callComparison (hosts.withHooks options.tracing.hooks)).flow own base) x y) :
    Matches (callComparison (hosts.withHooks options.tracing.hooks)).terms mask
      ((callComparison (hosts.withHooks options.tracing.hooks)).logs base)
      (Flow.Rel ((callComparison (hosts.withHooks options.tracing.hooks)).returns own base target)
        ((callComparison (hosts.withHooks options.tracing.hooks)).returns own base))
      ((tracerOf env st m {}).aroundReturned own target e x)
      ((tracerOf env st m (callReporter env st m)).aroundReturned own target e y) := by
  unfold Tracer.aroundReturned
  split
  · refine hxy.withValue (Matches.of_same fun v => ?_)
    refine (h.tell_callReported (.inr rfl)).andThen fun _ _ => ?_
    exact Matches.value fun _ _ hl => returns_call_iff.mpr ⟨rfl, hl⟩
  · exact hxy.post_mono (Flow.Rel.mono (fun _ _ _ _ hv => returns_call_iff.mpr hv)
      fun _ _ _ _ _ hr => hr)

/-- Bodies of a traced run and of a reported one. -/
theorem body_callReported (h : Succeeds options sources m store env) (info : FunctionHead)
    (hxy : Matches (callComparison (hosts.withHooks options.tracing.hooks)).terms mask
      ((callComparison (hosts.withHooks options.tracing.hooks)).logs base)
      ((callComparison (hosts.withHooks options.tracing.hooks)).flow own base) x y) :
    Matches (callComparison (hosts.withHooks options.tracing.hooks)).terms mask
      ((callComparison (hosts.withHooks options.tracing.hooks)).logs base)
      (same ((callComparison (hosts.withHooks options.tracing.hooks)).logs base))
      (Eval.andThen ((tracerOf env st m {}).aroundBody own x) (leaveFunction own info))
      (Eval.andThen ((tracerOf env st m (callReporter env st m)).aroundBody own y)
        (leaveFunction own info)) := by
  rw [aroundBody_default, aroundBody_callReporter, Eval.andThen_assoc, Eval.andThen_assoc]
  refine (h.tell_callReported (.inl rfl)).andThen fun _ _ => ?_
  refine Matches.andThen_flow (hxy.withValue (Matches.of_same fun v => h.finish_callReported v))
    (fun v v' => ?_) fun target v v' => ?_
  · refine Matches.assuming ?_
    rintro rfl
    exact Matches.yield fun _ _ hl => ⟨rfl, hl⟩
  · unfold leaveFunction
    by_cases hown : target = .function own
    · simp only [if_pos hown]
      exact Matches.yield fun l k hl => returns_call_iff.mp hl
    · simp only [if_neg hown]
      exact Matches.fail_excused trivial

/-- A traced run and a reported one match in a program that does not call the hooks itself. -/
theorem observersMatch_callReported (h : Succeeds options sources m store env)
    (htypes : ∀ ty ∈ callTypes, ty ∈ options.tracing.defaultTypes) {id : DeclId}
    (huncalled : HooksUncalled m (hosts.withHooks options.tracing.hooks) callTypes id) :
    ObserversMatch (callComparison (hosts.withHooks options.tracing.hooks))
      (fun callee => ∀ ty ∈ callTypes,
        (ofModule m (hosts.withHooks options.tracing.hooks)).hookOf? callee ≠ some ty)
      (CallPlanned env (run env m store).store m)
      (ofModule m (hosts.withHooks options.tracing.hooks))
      (tracerOf env (run env m store).store m {}).observer
      (tracerOf env (run env m store).store m
        (callReporter env (run env m store).store m)).observer where
  log _ _ hcallee _ hname _ _ _ hl :=
    ⟨congrArg _ hl.1, hl.2.call fun _ hev => callEvents_other (event?_of_hookOf? hcallee hname hev)⟩
  calls _ d hd call hcall :=
    ⟨huncalled.code d (mem_of_decl? hd).1 call hcall, h.callPlanned htypes hd call hcall⟩
  code _ _ _ _ _ hd :=
    { expr := fun e he x y hxy base mask => by
        cases hcallee : e.callee? with
        | none =>
          simp only [Tracer.observer, Tracer.aroundExpr, Watch.aroundExpr, hcallee]
          exact hxy base mask
        | some callee =>
          exact h.call_reported hcallee (he callee hcallee).2 (he callee hcallee).1 hxy
      returned := fun target e _ _ hxy base mask => h.returned_callReported target e (hxy base mask) }
  body _ _ info _ body hd x y hxy base := by
    refine h.body_callReported info ?_
    have hbody := hxy base [true]
    cases body <;> exact hbody

end Instrument.Succeeds

section

variable {options : Options} {sources : Source.Provider} {m : Module} {store : Store}
  {env : PassEnv}

/-- **Calls are reported exactly.** An instrumented program in which the types of the events of calls
are active everywhere makes a call that finishes. Then a reporter that watches the calls, while the
hooks for calls are silent, writes down the same host calls in the same places. What is closed was
opened last, and if as many calls are closed as are opened, the events of calls are balanced. Nothing
is reported about exempt calls, and the descriptors of all others in own code are there. -/
theorem calls_reported_exactly (h : Instrument.Succeeds options sources m store env)
    (htypes : ∀ ty ∈ callTypes, ty ∈ options.tracing.defaultTypes) (hosts : HostTable)
    (rounds : Nat) (id : DeclId) (args : List Value)
    (huncalled : HooksUncalled m (hosts.withHooks options.tracing.hooks) callTypes id) {v : Value}
    (hdone : ((ofModule (Instrument.run env m store).module
      (hosts.withHooks options.tracing.hooks)).callWithin rounds id args {}).1 = .done v) :
    let p := ofModule (Instrument.run env m store).module
      (hosts.withHooks options.tracing.hooks)
    let after := (Instrument.run env m store).store
    let reporter := callReporter env after m
    let log := (p.callWithin rounds id args {}).2.log
    ((p.observed reporter.observer).callWithin rounds id args {}).1 = .done v ∧
      ((p.observed reporter.observer).callWithin rounds id args {}).2.log = log ∧
      callEvents.Nested True (p.hosts.trace log) ∧
      ((p.hosts.trace log).countP (callEvents.closes? · |>.isSome) =
          (p.hosts.trace log).countP (callEvents.opens? · |>.isSome) →
        callEvents.Balanced (p.hosts.trace log)) ∧
      ∀ x ∈ m.ownDecls, ∀ call ∈ x.2.calls,
        (Instrument.isExempt env call.2 = true →
          callReport env after m x.2.id call.1 call.2 = {}) ∧
        (Instrument.isExempt env call.2 = false → ∃ f l,
          env.functionHandle? after call.2 = some f ∧
          env.locationHandle? after call.1.span = some l ∧
          (Instrument.isSuspend env call.2 → (env.functionHandle? after x.2.id).isSome) ∧
          callReport env after m x.2.id call.1 call.2 =
            { before := .beforeCall f l :: (if Instrument.isSuspend env call.2 then
                (env.functionHandle? after x.2.id).map (.suspension · l) else none).toList
              after := if call.1.ty.isNothing then none else some (.afterCall f l) }) := by
  intro p after reporter log
  -- From the instrumented program to the traced one, from there to the reported one, and back.
  obtain ⟨houtcome, -, hlog⟩ := h.callWithin_agree (w := {})
    ⟨nofun, fun _ _ _ _ _ => rfl, fun _ _ _ _ _ => rfl⟩ hosts rounds id args rfl rfl
  rw [Watch.observer_default] at houtcome hlog
  have htraced := houtcome.symm.trans hdone
  have hmatch := callWithin_observed (h.observersMatch_callReported htypes huncalled)
    id huncalled.start rounds [] args
  obtain ⟨hdone', heq, hnested⟩ := hmatch.of_done ⟨rfl, .refl []⟩ htraced
  obtain ⟨houtcome', -, hlog'⟩ := h.callWithin_agree (w := reporter)
    (fits_callReporter env after m) hosts rounds id args rfl rfl
  have hsame := (hlog v htraced).trans (heq.trans (hlog' v hdone').symm)
  have htrace : callEvents.Nested True (p.hosts.trace log) := by
    obtain ⟨calls, hcalls, hnested⟩ := hnested
    have hall : log = calls := (hlog v htraced).trans (heq.trans (hcalls.trans (List.append_nil _)))
    rw [hall]
    exact hnested
  refine ⟨houtcome'.trans hdone', hsame.symm, htrace, ?_, fun x hx call hcall => ?_⟩
  · refine (htrace.count_le fun ev hev => ?_).2
    cases ev <;> first | rfl | exact nomatch hev
  · refine ⟨fun hexempt => callReport_exempt hexempt after m _ _, fun hexempt => ?_⟩
    obtain ⟨⟨f, l, hbacked⟩, -⟩ := h.callPlan_of_own htypes hx hcall hexempt
    have hreported : isReportedCall env m x.2.id call.2 = true := by
      rw [isReportedCall, Module.ownDecl?_of_mem h.ids hx, hexempt]
      rfl
    exact ⟨f, l, hbacked.function, hbacked.location, hbacked.caller, hbacked.report hreported⟩

end

namespace Sample

/-- The call of `twice`, which can suspend `main`. -/
theorem calls_reported :
    (HostTable.withHooks [] options.tracing.hooks).trace
        (((ofModule (Instrument.run (envOf options program) program {}).module
          (HostTable.withHooks [] options.tracing.hooks)).observed (callReporter
            (envOf options program) (Instrument.run (envOf options program) program {}).store
              program).observer).callWithin 1 ⟨0⟩ [] {}).2.log =
      [.enter ⟨1⟩, .beforeCall ⟨0⟩ ⟨2⟩, .suspension ⟨1⟩ ⟨2⟩, .enter ⟨0⟩, .leave ⟨0⟩,
        .afterCall ⟨0⟩ ⟨2⟩, .leave ⟨1⟩] ∧
    callEvents.Balanced ((HostTable.withHooks [] options.tracing.hooks).trace
      ((ofModule (Instrument.run (envOf options program) program {}).module
        (HostTable.withHooks [] options.tracing.hooks)).callWithin 1 ⟨0⟩ [] {}).2.log) := by
  obtain ⟨-, hlog, -, hbalanced, -⟩ := calls_reported_exactly succeeds
    (show ∀ ty ∈ callTypes, ty ∈ options.tracing.defaultTypes by decide) [] 1 ⟨0⟩ []
    ⟨by decide +kernel, by decide +kernel⟩ (v := .int 6) (by decide +kernel)
  exact ⟨(congrArg _ hlog).trans (by decide +kernel), hbalanced (by decide +kernel)⟩

/-- A function that tells a hook itself that it is about to call itself. -/
def calling : Module where
  name := "calling"
  files := [{
    id := ⟨0⟩
    path := "Main.kt"
    declarations := [.function { id := ⟨0⟩, span := span 1 } { name := "main", returnTy := .unit } []
      (.block [.expr (Lowering.hookCall ⟨102⟩
        [Lowering.descriptorExpr ⟨.functionInfo, 0⟩ (span 3),
          Lowering.descriptorExpr ⟨.location, 0⟩ (span 4)] (span 2))])] }]
  external := [runtime]

/-- Exempt calls of hooks are recorded as what they tell, although nothing is reported about them. -/
theorem calls_miscounted :
    Instrument.Succeeds options default calling {} (envOf options calling) ∧
    (∀ ty ∈ callTypes, ty ∈ options.tracing.defaultTypes) ∧
    ((ofModule (Instrument.run (envOf options calling) calling {}).module
      (HostTable.withHooks [] {})).callWithin 1 ⟨0⟩ [] {}).1 = .done .unit ∧
    Instrument.isExempt (envOf options calling) ⟨102⟩ = true ∧
    (HostTable.withHooks [] {}).trace
      ((ofModule (Instrument.run (envOf options calling) calling {}).module
        (HostTable.withHooks [] {})).callWithin 1 ⟨0⟩ [] {}).2.log =
          [.enter ⟨0⟩, .beforeCall ⟨0⟩ ⟨0⟩, .leave ⟨0⟩] ∧
    (HostTable.withHooks [] {}).trace
      (((ofModule (Instrument.run (envOf options calling) calling {}).module
        (HostTable.withHooks [] {})).observed (callReporter (envOf options calling)
          (Instrument.run (envOf options calling) calling {}).store calling).observer).callWithin 1
            ⟨0⟩ [] {}).2.log = [.enter ⟨0⟩, .leave ⟨0⟩] := by
  refine ⟨⟨rfl, by decide +kernel, distinct_hookNames, Except.exists_ok (by decide +kernel)⟩,
    by decide, ?_⟩
  decide +kernel

end Sample

end TraceWeave

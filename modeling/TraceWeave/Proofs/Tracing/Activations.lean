import TraceWeave.Proofs.Tracing.Backing
import TraceWeave.Proofs.Tracing.BodyTypes
import TraceWeave.Proofs.Tracing.Meaning
import TraceWeave.Proofs.Tracing.Traces

/-! # Enter and leave events

An instrumented program tells its hooks when an activation starts and when it completes, once each
and nested as the activations are. This is said by a reporter that writes down the same events by
watching the bodies, while the hooks themselves are silent.

* `Tracing.isReported_iff`: whose activations are reported.
* `Tracing.activationReporter`: writes the events down; `Tracing.flowCheck`: what it takes for
  granted about flows.
* `Instrument.Succeeds.keepsTo_flowCheck`: instrumentation keeps to it where the program before
  does.
* `activations_reported_exactly`: both runs end in the same way, and tell the same events, nested.
-/

namespace TraceWeave

open Interpreter Tracing

/-! ## The reporter -/

/-- Events of activations: entering opens and leaving closes. -/
def activations : Brackets (Handle .functionInfo) where
  opens?
    | .enter h => some h
    | _ => none
  closes?
    | .leave h => some h
    | _ => none

/-- The types of the events of activations. -/
def activationTypes : List TraceType := [.functionEnter, .functionLeave]

namespace Tracing

/-- Whether the activations of a declaration are reported: it is a function with a body of its own
for which both types are active. -/
def isReported (env : PassEnv) : ScopeStack × Decl → Bool
  | (sc, .function head _ _ body) =>
    isTraceable head body &&
      match bodyTypes env sc head with
      | .ok types => types.has .functionEnter && types.has .functionLeave
      | .error _ => false
  | _ => false

/-- Read off the annotations: the activations of a function are reported if it has a body of its own,
and both types are active everywhere or selected by the function itself or by the classes and
functions around it. -/
theorem isReported_iff {env : PassEnv} {m : Module} (hids : m.declIds.Nodup)
    (henv : env.symbols = .build m) {sc : ScopeStack} {d : Decl} (hx : (sc, d) ∈ m.ownDecls) :
    isReported env (sc, d) = true ↔
      (∃ head info params body, d = .function head info params body ∧ body.isPresent ∧
        head.origin ≠ .fakeOverride) ∧
      ∃ types, typesAround env.options ((d :: m.enclosing d).map Decl.sign) = .ok types ∧
        types.has .functionEnter ∧ types.has .functionLeave := by
  cases d with
  | function head info params body =>
    have htraceable : isTraceable head body = true ↔
        body.isPresent = true ∧ head.origin ≠ .fakeOverride := by
      rw [isTraceable, Bool.and_eq_true, Bool.not_eq_true', beq_eq_false_iff_ne]
    rw [isReported, Bool.and_eq_true, htraceable, bodyTypes_eq hids henv hx]
    refine and_congr ?_ ?_
    · exact ⟨fun h => ⟨head, info, params, body, rfl, h⟩, by rintro ⟨_, _, _, _, ⟨⟩, h⟩; exact h⟩
    · cases typesAround env.options ((.function head info params body ::
        m.enclosing (.function head info params body)).map Decl.sign) with
      | ok types => simp
      | error e => simp
  | _ => simp [isReported]

/-- The descriptor that the activations of a function are reported with. -/
def reported? (env : PassEnv) (store : Store) (m : Module) (id : DeclId) :
    Option (Handle .functionInfo) :=
  match m.ownDecl? id with
  | some x => if isReported env x then env.functionHandle? store id else none
  | none => none

/-- Writes down when activations start and complete, in place of the hooks. -/
def activationReporter (env : PassEnv) (store : Store) (m : Module) : Watch where
  silenced := isHookOf env activationTypes
  entering id :=
    (reported? env store m id).toList.map fun h => env.options.tracing.hooks.call (.enter h)
  leaving id :=
    (reported? env store m id).toList.map fun h => env.options.tracing.hooks.call (.leave h)

theorem reverse_report (f : Option (Handle .functionInfo)) (call : Handle .functionInfo → HostCall) :
    (f.toList.map call).reverse = f.toList.map call := by
  cases f <;> rfl

/-- Whether a function with a result has a block for its body, which should end with a `return`. -/
def isEndless (m : Module) (id : DeclId) : Bool :=
  match m.decls.find? fun d => d.id == id with
  | some (.function _ info _ (.block _)) => info.returnTy ≠ .unit
  | _ => false

/-- Expressions of type `Nothing` come to no value, and blocks of functions with a result do not come
to their end. -/
def flowCheck (m : Module) : Check where
  value ty _ := !ty.isNothing
  body
    | id, .value _ => !isEndless m id
    | _, .ret _ _ => true

/-- The watch that stops a run where the flows are not as they should be. -/
def flowWatch (m : Module) (stop : Error) : Watch where
  never := Ty.isNothing
  endless := isEndless m
  stop := stop

theorem observer_flowWatch (m : Module) (stop : Error) :
    (flowWatch m stop).observer = (flowCheck m).observer stop := by
  unfold Watch.observer Check.observer Alarms.observer
  congr 1
  · funext own e step
    have hcall : ∀ callee, (flowWatch m stop).aroundCall own e.site callee step = step :=
      fun callee => Watch.aroundCall_quiet rfl rfl rfl step
    have hguard : (flowWatch m stop).aroundExpr own e step =
        (flowWatch m stop).guardType e.ty step := by
      unfold Watch.aroundExpr
      cases e.callee? with
      | some callee => exact congrArg _ (hcall callee)
      | none => rfl
    rw [hguard]
    unfold Watch.guardType
    by_cases hty : e.ty.isNothing
    · simp [flowWatch, flowCheck, Check.alarms, Alarms.pass, hty]
    · simp [flowWatch, flowCheck, Check.alarms, Alarms.pass, hty, withValue_value]
  · funext own step
    unfold Watch.aroundBody
    rw [show Eval.tell ((flowWatch m stop).entering own) = Eval.yield () from rfl,
      Eval.yield_andThen]
    congr 1
    funext flow
    cases flow with
    | value v =>
      by_cases hendless : isEndless m own
      · simp [Watch.completing, flowWatch, flowCheck, Check.alarms, Alarms.pass, hendless]
      · simp [Watch.completing, flowWatch, flowCheck, Check.alarms, Alarms.pass, hendless,
          Eval.tell_nil, Eval.yield_andThen]
    | ret target v =>
      simp [Watch.completing, flowWatch, flowCheck, Check.alarms, Alarms.pass, Eval.tell_nil,
        Eval.yield_andThen]

/-- Whether a declaration has both events of activations active or none. -/
def pairsActivations (env : PassEnv) : ScopeStack × Decl → Bool
  | (sc, .function head _ _ _) =>
    match bodyTypes env sc head with
    | .ok types => types.has .functionEnter == types.has .functionLeave
    | .error _ => true
  | _ => true

/-- Every function of an own file has both events of activations active or none. -/
def PairsActivations (env : PassEnv) (m : Module) : Prop :=
  ∀ x ∈ m.ownDecls, pairsActivations env x

instance (env : PassEnv) (m : Module) : Decidable (PairsActivations env m) :=
  inferInstanceAs (Decidable (∀ x ∈ m.ownDecls, pairsActivations env x))

section

variable {env : PassEnv} {store : Store} {m : Module} {hosts : HostTable} {id : DeclId}
  {head : DeclHead} {info : FunctionHead} {params : List Param} {body : Body}

variable (store info params body) in
theorem bodyEvent?_eq {sc : ScopeStack} (hpair : ∀ types, bodyTypes env sc head = .ok types →
      types.has .functionEnter = types.has .functionLeave) {ty : TraceType}
    (hty : ty ∈ activationTypes) (make : Handle .functionInfo → TraceEvent) :
    bodyEvent? env store sc head body ty make =
      if isReported env (sc, .function head info params body) then
        (env.functionHandle? store head.id).map make
      else none := by
  unfold bodyEvent?
  split
  · rename_i types htraceable htypes
    have hhas : types.has ty = (types.has .functionEnter && types.has .functionLeave) := by
      rw [← hpair types htypes, Bool.and_self]
      obtain rfl | hty := List.mem_cons.mp hty
      · rfl
      · rw [List.mem_singleton.mp hty, hpair types htypes]
    rw [hhas, isReported, htraceable, htypes, Bool.true_and]
  · rename_i hcase
    refine (if_neg fun hreported => ?_).symm
    rw [isReported, Bool.and_eq_true] at hreported
    obtain ⟨htraceable, hactive⟩ := hreported
    split at hactive
    · rename_i types htypes
      exact hcase types htraceable htypes
    · exact absurd hactive Bool.false_ne_true

variable (store) in
/-- The plan of a function has the events that are reported. -/
theorem planOf_reported (hids : m.declIds.Nodup) (hpairs : PairsActivations env m)
    (hd : (ofModule m hosts).decl? id = some (.function head info params body)) :
    (planOf env store m id).enter = (reported? env store m id).map .enter ∧
      (planOf env store m id).leave = (reported? env store m id).map .leave ∧
      ((planOf env store m id).leave.isSome → body.isPresent ∧
        (planOf env store m id).ending = endingOf info.returnTy (planOf env store m id).enter
          (planOf env store m id).leave body) := by
  have hid : head.id = id := (mem_of_decl? hd).2
  unfold planOf reported?
  obtain ⟨sc, hmem, hown⟩ | hnone := ownDecl?_cases hids hd
  · rw [hown]
    have hpair : ∀ types, bodyTypes env sc head = .ok types →
        types.has .functionEnter = types.has .functionLeave := by
      intro types htypes
      have hactive := hpairs _ hmem
      rw [pairsActivations, htypes] at hactive
      exact beq_iff_eq.mp hactive
    have hevent := fun {ty : TraceType} (hty : ty ∈ activationTypes) make =>
      bodyEvent?_eq store info params body hpair hty make
    rw [hid] at hevent
    refine ⟨(hevent (by decide) .enter).trans ?_, (hevent (by decide) .leave).trans ?_,
      fun hleave => ⟨?_, rfl⟩⟩
    · dsimp only
      split <;> rfl
    · dsimp only
      split <;> rfl
    · have hreported : (bodyEvent? env store sc head body .functionLeave .leave).isSome := hleave
      rw [hevent (by decide) .leave, isReported] at hreported
      cases body with
      | absent => exact absurd hreported Bool.false_ne_true
      | block | expression => rfl
  · rw [hnone]
    exact ⟨rfl, rfl, fun h => absurd h Bool.false_ne_true⟩

end

end Tracing

/-! ## Reported functions -/

/-- Activations are reported where both hooks are there to be told. -/
def Tracing.ActivationsBacked (env : PassEnv) (store : Store) (m : Module) : Prop :=
  ∀ ⦃id f⦄, reported? env store m id = some f →
    (env.linkage.hook? .functionEnter).isSome ∧ (env.linkage.hook? .functionLeave).isSome

namespace Instrument.Succeeds

variable {options : Options} {sources : Source.Provider} {m : Module} {store : Store}
  {env : PassEnv} {id : DeclId}

/-- A function whose activations are reported has a descriptor, and its hooks are there. -/
theorem of_reported (h : Succeeds options sources m store env) {x : ScopeStack × Decl}
    (hx : x ∈ m.ownDecls) (hreported : isReported env x) :
    ∃ f, env.functionHandle? (run env m store).store x.2.id = some f ∧
      (env.linkage.hook? .functionEnter).isSome ∧ (env.linkage.hook? .functionLeave).isSome := by
  obtain ⟨sc, d⟩ := x
  cases d with
  | function head info params body =>
    rw [isReported, Bool.and_eq_true] at hreported
    obtain ⟨htraceable, hactive⟩ := hreported
    obtain ⟨types, htypes, henter, hleave⟩ := h.bodyBacked hx htraceable
    rw [htypes, Bool.and_eq_true] at hactive
    obtain ⟨ev, hev, hhook⟩ := henter hactive.1
    obtain ⟨ev', hev', hhook'⟩ := hleave hactive.2
    obtain ⟨f, hf, rfl⟩ := Option.map_eq_some_iff.mp hev
    obtain ⟨_, -, rfl⟩ := Option.map_eq_some_iff.mp hev'
    exact ⟨f, hf, hhook, hhook'⟩
  | _ => exact absurd hreported Bool.false_ne_true

theorem activationsBacked (h : Succeeds options sources m store env) :
    ActivationsBacked env (run env m store).store m := by
  intro id f hf
  unfold reported? at hf
  split at hf
  · rename_i x hx
    split at hf
    · rename_i hreported
      obtain ⟨_, -, hhooks⟩ := h.of_reported (List.mem_of_find?_eq_some hx) hreported
      exact hhooks
    · exact nomatch hf
  · exact nomatch hf

variable {st : Store}

/-- What the hooks are told about the activations of a function is what is reported. -/
theorem told_reported (h : Succeeds options sources m store env) (hst : ActivationsBacked env st m)
    {w : Watch} (hw : w.silenced = isHookOf env []) (make : Handle .functionInfo → TraceEvent)
    (hmake : (env.linkage.hook? .functionEnter).isSome → (env.linkage.hook? .functionLeave).isSome →
      ∀ f, (env.linkage.hook? (make f).traceType).isSome) :
    ((reported? env st m id).map make).toList.flatMap (tracerOf env st m w).shown =
      (reported? env st m id).toList.map fun f => env.options.tracing.hooks.call (make f) := by
  cases hf : reported? env st m id with
  | none => rfl
  | some f =>
    obtain ⟨henter, hleave⟩ := hst hf
    simp only [Option.map_some, Option.toList_some, List.flatMap_cons, List.flatMap_nil,
      List.append_nil, List.map_cons, List.map_nil]
    rw [h.shown_spoken hw List.not_mem_nil, if_pos (hmake henter hleave f), h.build_eq.1]

/-- The activation that a reporter has written down in full. -/
theorem nestedSince_reported (h : Succeeds options sources m store env) (hosts : HostTable)
    {base log : List HostCall}
    (hlog : NestedSince activations False (hosts.withHooks options.tracing.hooks)
      ((activationReporter env st m).entering id ++ base) log) :
    NestedSince activations False (hosts.withHooks options.tracing.hooks) base
      ((activationReporter env st m).leaving id ++ log) := by
  simp only [activationReporter] at hlog ⊢
  cases hf : reported? env st m id with
  | none =>
    rw [hf] at hlog
    exact hlog
  | some f =>
    rw [hf, h.build_eq.1] at hlog
    rw [h.build_eq.1]
    exact hlog.enclose (k := f) (HostTable.event?_call h.names hosts _)
      (HostTable.event?_call h.names hosts _) rfl rfl

end Instrument.Succeeds

/-! ## A checked run next to a reported one -/

namespace Tracing

/-- Runs of a program that tells its hooks about activations, and of one whose activations are
reported: the same values and the same host calls, which are nested. A `return` tells that its
function is left before it unwinds, and the reporter notes this when the body completes. -/
def activationComparison (env : PassEnv) (store : Store) (m : Module) (table : HostTable) :
    Comparison (List HostCall) where
  terms := { excuses := fun _ => True, stopped := fun _ _ => True }
  logs base l k := l = k ∧ NestedSince activations False table base k
  values ty v v' := v = v' ∧ ¬ty.isNothing
  unwinds own base g v v' l k := g = own → v = v' ∧
    l = (activationReporter env store m).leaving own ++ k ∧
      NestedSince activations False table base k
  eq_of_values h := h.1
  stopped_of_logs _ _ _ _ := trivial
  stopped_of_unwinds _ := trivial

/-- Flows of a checked run and of a reported one. -/
abbrev ReportedFlows (env : PassEnv) (store : Store) (m : Module) (table : HostTable) (own : DeclId)
    (base : List HostCall) (mask : List Bool) (x y : Eval Flow) : Prop :=
  Matches (activationComparison env store m table).terms mask
    ((activationComparison env store m table).logs base)
    ((activationComparison env store m table).flow own base) x y

/-- Flows of a static type of a checked run and of a reported one. -/
abbrev ReportedValues (env : PassEnv) (store : Store) (m : Module) (table : HostTable)
    (own : DeclId) (base : List HostCall) (mask : List Bool) (ty : Ty) (x y : Eval Flow) : Prop :=
  Matches (activationComparison env store m table).terms mask
    ((activationComparison env store m table).logs base)
    ((activationComparison env store m table).flowOf own base ty) x y

theorem guardType_reported {env : PassEnv} {store : Store} {m : Module} {table : HostTable}
    {own : DeclId} {base : List HostCall} {mask : List Bool} {x y : Eval Flow} (stop : Error)
    (ty : Ty) (h : ReportedFlows env store m table own base mask x y) :
    ReportedValues env store m table own base mask ty ((flowWatch m stop).guardType ty x) y := by
  unfold Watch.guardType
  by_cases hty : ty.isNothing
  · rw [show (flowWatch m stop).never ty = true from hty, if_pos rfl, ← withValue_value y]
    exact h.withValue fun _ _ => Matches.fail_excused trivial
  · rw [show (flowWatch m stop).never ty = false from eq_false_of_ne_true hty, if_neg (by simp)]
    exact h.post_mono (Flow.Rel.mono (fun _ _ _ _ hv => ⟨⟨hv.1, hty⟩, hv.2⟩)
      fun _ _ _ _ _ hr => hr)

theorem activations_other {ev : TraceEvent} (h : ev.traceType ∉ activationTypes) :
    activations.opens? ev = none ∧ activations.closes? ev = none := by
  cases ev <;> simp_all [activationTypes, TraceEvent.traceType, activations]

end Tracing

namespace Instrument.Succeeds

variable {options : Options} {sources : Source.Provider} {m : Module} {store : Store}
  {env : PassEnv} {hosts : HostTable} {own : DeclId} {base : List HostCall} {mask : List Bool}
  {x y : Eval Flow} {st : Store}

/-- Both runs tell the same about everything but activations. -/
theorem telling_reported (h : Succeeds options sources m store env) (stop : Error)
    {events : List TraceEvent} (hevents : ∀ ev ∈ events, ev.traceType ∉ activationTypes)
    {l k : List HostCall}
    (hl : (activationComparison env st m (hosts.withHooks options.tracing.hooks)).logs base l k) :
    (activationComparison env st m (hosts.withHooks options.tracing.hooks)).logs base
      ((events.flatMap (tracerOf env st m (flowWatch m stop)).shown).reverse ++ l)
      ((events.flatMap (tracerOf env st m (activationReporter env st m)).shown).reverse ++ k) := by
  obtain ⟨rfl, hnested⟩ := hl
  have hflow : (flowWatch m stop).silenced = isHookOf env [] := rfl
  have hreporter : (activationReporter env st m).silenced =
    isHookOf env activationTypes := rfl
  have htold := h.told_eq hflow hreporter
    (fun ev hev => ⟨List.not_mem_nil, hevents ev hev⟩) st m
  rw [htold]
  exact ⟨rfl, h.nestedSince_told hnested _ _ fun ev hev => activations_other (hevents ev hev)⟩

/-- Expressions of a checked run and of a reported one. -/
theorem expr_reported (h : Succeeds options sources m store env) (stop : Error) (e : Expr)
    (he : ∀ callee, e.callee? = some callee → ∀ ty ∈ activationTypes,
      (ofModule m (hosts.withHooks options.tracing.hooks)).hookOf? callee ≠ some ty)
    (hxy : ReportedFlows env st m (hosts.withHooks options.tracing.hooks) own base mask x y) :
    ReportedValues env st m (hosts.withHooks options.tracing.hooks) own base mask e.ty
      ((tracerOf env st m (flowWatch m stop)).aroundExpr own e x)
      ((tracerOf env st m (activationReporter env st m)).aroundExpr own e y) := by
  have hwatch : ReportedValues env st m (hosts.withHooks options.tracing.hooks) own base mask e.ty
      ((flowWatch m stop).aroundExpr own e x)
      ((activationReporter env st m).aroundExpr own e y) := by
    unfold Watch.aroundExpr
    rw [show (activationReporter env st m).guardType e.ty = id from rfl]
    cases hcallee : e.callee? with
    | none => exact guardType_reported stop e.ty hxy
    | some callee =>
      dsimp only
      rw [Watch.aroundCall_quiet rfl rfl rfl,
        Watch.aroundCall_quiet (h.isHookOf_eq_false hosts (he callee hcallee)) rfl rfl]
      exact guardType_reported stop e.ty hxy
  unfold Tracer.aroundExpr
  cases hcallee : e.callee? with
  | none => exact hwatch
  | some callee =>
    refine Matches.andThen (Matches.tell fun l k hl => h.telling_reported stop ?_ hl)
      fun _ _ => hwatch.withValue fun v v' => Matches.assuming ?_
    · intro ev hev
      obtain hty | hty := traceType_before env st hev <;>
        simp [hty, activationTypes]
    · rintro ⟨rfl, hty⟩
      refine Matches.andThen (Matches.tell fun l k hl => h.telling_reported stop ?_ hl)
        fun _ _ => Matches.value fun _ _ hl => ⟨⟨rfl, hty⟩, hl⟩
      intro ev hev
      have hafter := (traceType_after env st (Option.mem_toList.mp hev)).1
      simp [hafter, activationTypes]

variable {head : DeclHead} {info : FunctionHead} {params : List Param} {body : Body}

/-- What is told about an activation is what is reported, and it is told only once. -/
theorem told_activation (h : Succeeds options sources m store env)
    (hst : ActivationsBacked env st m) (hpairs : PairsActivations env m) (stop : Error)
    (hd : (ofModule m (hosts.withHooks options.tracing.hooks)).decl? own =
      some (.function head info params body)) :
    ((planOf env st m own).enter.toList.flatMap
        (tracerOf env st m (flowWatch m stop)).shown).reverse =
      (activationReporter env st m).entering own ∧
    ((planOf env st m own).leave.toList.flatMap
        (tracerOf env st m (flowWatch m stop)).shown).reverse =
      (activationReporter env st m).leaving own ∧
    (planOf env st m own).enter.toList.flatMap
      (tracerOf env st m (activationReporter env st m)).shown = [] ∧
    (planOf env st m own).leave.toList.flatMap
      (tracerOf env st m (activationReporter env st m)).shown = [] := by
  obtain ⟨henter, hleave, -⟩ := planOf_reported st h.ids hpairs hd
  rw [henter, hleave]
  have hsilent : ∀ (f : Option (Handle .functionInfo)) (make : Handle .functionInfo → TraceEvent),
      (∀ f, (make f).traceType ∈ activationTypes) → (f.map make).toList.flatMap
        (tracerOf env st m (activationReporter env st m)).shown = [] := by
    rintro (_ | f) make hmake
    · rfl
    · rw [Option.map_some, Option.toList_some, List.flatMap_cons, List.flatMap_nil,
        List.append_nil, shown_silenced rfl (hmake f)]
  refine ⟨?_, ?_, hsilent _ _ fun _ => by simp [activationTypes, TraceEvent.traceType],
    hsilent _ _ fun _ => by simp [activationTypes, TraceEvent.traceType]⟩
  · rw [h.told_reported hst (w := flowWatch m stop) rfl .enter fun hhook _ _ => hhook,
      reverse_report]
    rfl
  · rw [h.told_reported hst (w := flowWatch m stop) rfl .leave fun _ hhook _ => hhook,
      reverse_report]
    rfl

/-- The values of returns in a checked run and in a reported one. -/
theorem returned_reported (h : Succeeds options sources m store env)
    (hst : ActivationsBacked env st m) (hpairs : PairsActivations env m) (stop : Error)
    (hd : (ofModule m (hosts.withHooks options.tracing.hooks)).decl? own =
      some (.function head info params body)) (target : ReturnTarget) (e : Expr)
    (hxy : ReportedValues env st m (hosts.withHooks options.tracing.hooks) own base mask e.ty x y) :
    Matches (activationComparison env st m (hosts.withHooks options.tracing.hooks)).terms mask
      ((activationComparison env st m (hosts.withHooks options.tracing.hooks)).logs base)
      (Flow.Rel ((activationComparison env st m
          (hosts.withHooks options.tracing.hooks)).returns own base target)
        ((activationComparison env st m
          (hosts.withHooks options.tracing.hooks)).returns own base))
      ((tracerOf env st m (flowWatch m stop)).aroundReturned own target e x)
      ((tracerOf env st m (activationReporter env st m)).aroundReturned own target e y) := by
  unfold Tracer.aroundReturned
  by_cases hown : target = .function own
  · subst hown
    by_cases hty : e.ty.isNothing
    · rw [if_neg fun hc => hc.2 hty, if_neg fun hc => hc.2 hty]
      exact hxy.post_mono (Flow.Rel.mono (fun _ _ _ _ hv => absurd hty hv.1.2)
        fun _ _ _ _ _ hr => hr)
    · rw [if_pos ⟨rfl, hty⟩, if_pos ⟨rfl, hty⟩]
      obtain ⟨-, hleave, -, hsilent⟩ := h.told_activation hst hpairs stop hd
      refine hxy.withValue fun v v' => Matches.assuming ?_
      rintro ⟨rfl, -⟩
      refine Matches.andThen (Q := fun _ _ l k =>
        l = (activationReporter env st m).leaving own ++ k ∧
          NestedSince activations False (hosts.withHooks options.tracing.hooks) base k)
        (Matches.tell fun l k hl => ?_) fun _ _ => Matches.value fun l k hl _ => ⟨rfl, hl⟩
      rw [plan_tracerOf, plan_tracerOf, hleave, hsilent]
      exact ⟨by rw [hl.1]; rfl, hl.2⟩
  · rw [if_neg fun hc => hown hc.1, if_neg fun hc => hown hc.1]
    refine hxy.post_mono (Flow.Rel.mono (fun v v' l k hv => ?_) fun _ _ _ _ _ hr => hr)
    cases target with
    | block id => exact ⟨hv.1.1, hv.2⟩
    | function g => exact fun hg => absurd (congrArg ReturnTarget.function hg) hown

/-- An activation completes: the reporter notes what the hooks were told before. -/
theorem completed_reported (h : Succeeds options sources m store env) {l₀ l k : List HostCall}
    (hbase : NestedSince activations False (hosts.withHooks options.tracing.hooks) base l₀)
    (hl : l = (activationReporter env st m).leaving own ++ k)
    (hk : NestedSince activations False (hosts.withHooks options.tracing.hooks)
      ((activationReporter env st m).entering own ++ l₀) k) :
    (activationComparison env st m (hosts.withHooks options.tracing.hooks)).logs base l
      (((activationReporter env st m).leaving own).reverse ++ k) := by
  have hreverse : ((activationReporter env st m).leaving own).reverse =
    (activationReporter env st m).leaving own := reverse_report _ _
  rw [hreverse]
  exact ⟨hl, hbase.trans (h.nestedSince_reported hosts hk)⟩

/-- A body of a function with a result that ends in a block never comes to a value. -/
theorem endless_flowWatch (hids : m.declIds.Nodup) {stmts : List Stmt}
    (hd : (ofModule m hosts).decl? own = some (.function head info params (.block stmts)))
    (hty : info.returnTy ≠ .unit) (stop : Error) : (flowWatch m stop).endless own = true := by
  obtain ⟨hmem, rfl⟩ := mem_of_decl? hd
  have hfind := find?_of_distinct Decl.id hids hmem
  simp only [flowWatch, isEndless, hfind]
  exact decide_eq_true hty

/-- A reported function whose body is left alone has a result and a block for its body. -/
theorem endless_of_through (h : Succeeds options sources m store env)
    (hpairs : PairsActivations env m) (stop : Error)
    (hd : (ofModule m hosts).decl? own = some (.function head info params body))
    (hty : ∀ e, body = .expression e → ¬e.ty.isNothing)
    (hcase : (planOf env st m own).ending = .through)
    (hreported : (reported? env st m own).isSome) : (flowWatch m stop).endless own = true := by
  obtain ⟨-, hplan, hending⟩ := planOf_reported st h.ids hpairs hd
  have hsome : (planOf env st m own).leave.isSome := by
    rw [hplan, Option.isSome_map]
    exact hreported
  obtain ⟨hpresent, hthrough⟩ := hending hsome
  rw [hcase] at hthrough
  cases body with
  | absent => exact absurd hpresent Bool.false_ne_true
  | block stmts =>
    refine endless_flowWatch h.ids hd (fun hunit => ?_) stop
    rw [endingOf, if_pos ⟨hsome, hunit⟩] at hthrough
    cases hthrough
  | expression e =>
    rw [endingOf, if_pos hsome, if_neg (hty e rfl)] at hthrough
    split at hthrough <;> cases hthrough

/-- What the hooks are told at the end of an activation is what the reporter notes afterwards. -/
theorem told_leave (h : Succeeds options sources m store env) (hst : ActivationsBacked env st m)
    (hpairs : PairsActivations env m) (stop : Error)
    (hd : (ofModule m (hosts.withHooks options.tracing.hooks)).decl? own =
      some (.function head info params body)) {l l₀ k : List HostCall}
    (hl : (activationComparison env st m (hosts.withHooks options.tracing.hooks)).logs
      ((activationReporter env st m).entering own ++ l₀) l k) :
    ((planOf env st m own).leave.toList.flatMap
        (tracerOf env st m (flowWatch m stop)).shown).reverse ++ l =
      (activationReporter env st m).leaving own ++ (((planOf env st m own).leave.toList.flatMap
        (tracerOf env st m (activationReporter env st m)).shown).reverse ++ k) ∧
    NestedSince activations False (hosts.withHooks options.tracing.hooks)
      ((activationReporter env st m).entering own ++ l₀)
      (((planOf env st m own).leave.toList.flatMap
        (tracerOf env st m (activationReporter env st m)).shown).reverse ++ k) := by
  obtain ⟨-, hleave, -, hsilent⟩ := h.told_activation hst hpairs stop hd
  rw [hleave, hsilent, hl.1]
  exact ⟨rfl, hl.2⟩

/-- A body completes once the hooks were told so, or the check stops the run. -/
theorem completing_reported (h : Succeeds options sources m store env) (stop : Error)
    (info : FunctionHead) {l₀ : List HostCall}
    (hbase : NestedSince activations False (hosts.withHooks options.tracing.hooks) base l₀)
    (flow : Flow) (hflow : ∀ target v, flow = .ret target v → target = .function own) :
    Matches (activationComparison env st m (hosts.withHooks options.tracing.hooks)).terms mask
      (fun l k => l = (activationReporter env st m).leaving own ++ k ∧
        NestedSince activations False (hosts.withHooks options.tracing.hooks)
          ((activationReporter env st m).entering own ++ l₀) k)
      (same ((activationComparison env st m (hosts.withHooks options.tracing.hooks)).logs base))
      (Eval.andThen ((flowWatch m stop).completing own flow) (leaveFunction own info))
      (Eval.andThen ((activationReporter env st m).completing own flow)
        (leaveFunction own info)) := by
  have hleft : (flowWatch m stop).leaving own = [] := rfl
  cases flow with
  | value v =>
    by_cases hendless : (flowWatch m stop).endless own
    · rw [Watch.completing, if_pos hendless]
      exact Matches.fail_excused trivial
    · rw [Watch.completing, if_neg hendless, Watch.completing, if_neg (by simp [activationReporter]),
        hleft, Eval.tell_nil, Eval.yield_andThen, Eval.yield_andThen, Eval.andThen_assoc]
      exact Matches.tell_right (Matches.yield fun _ _ hl => ⟨rfl, hl⟩)
        fun l k hl => h.completed_reported hbase hl.1 hl.2
  | ret target v =>
    obtain rfl := hflow target v rfl
    have hret : leaveFunction own info (.ret (.function own) v) = Eval.yield v := if_pos rfl
    rw [Watch.completing, if_pos rfl, Watch.completing, if_pos rfl, hleft, Eval.tell_nil,
      Eval.yield_andThen, Eval.yield_andThen, Eval.andThen_assoc]
    simp only [Eval.yield_andThen, hret]
    exact Matches.tell_right (Matches.yield fun _ _ hl => ⟨rfl, hl⟩)
      fun l k hl => h.completed_reported hbase hl.1 hl.2

/-- A body comes to a value: the hooks are told that the function is left, unless the run is stopped
here. -/
theorem finish_reported (h : Succeeds options sources m store env)
    (hst : ActivationsBacked env st m) (hpairs : PairsActivations env m) (stop : Error)
    (hd : (ofModule m (hosts.withHooks options.tracing.hooks)).decl? own =
      some (.function head info params body))
    {l₀ : List HostCall}
    (hbase : NestedSince activations False (hosts.withHooks options.tracing.hooks) base l₀)
    (v : Value) (hty : ∀ e, body = .expression e → ¬e.ty.isNothing) :
    Matches (activationComparison env st m (hosts.withHooks options.tracing.hooks)).terms mask
      ((activationComparison env st m (hosts.withHooks options.tracing.hooks)).logs
        ((activationReporter env st m).entering own ++ l₀))
      (same ((activationComparison env st m (hosts.withHooks options.tracing.hooks)).logs base))
      (Eval.andThen ((tracerOf env st m (flowWatch m stop)).finish own v) fun flow =>
        Eval.andThen ((flowWatch m stop).completing own flow) (leaveFunction own info))
      (Eval.andThen ((tracerOf env st m (activationReporter env st m)).finish own v) fun flow =>
        Eval.andThen ((activationReporter env st m).completing own flow)
          (leaveFunction own info)) := by
  cases hcase : (planOf env st m own).ending with
  | through =>
    rw [finish_through hcase, finish_through hcase, Eval.yield_andThen, Eval.yield_andThen]
    cases hreported : reported? env st m own with
    | none =>
      -- Nothing is told about this function.
      refine (h.completing_reported stop info hbase (.value v) fun _ _ heq => by cases heq).weaken
        (fun l k hl => ?_) fun _ _ _ _ hl => hl
      have hnone : (activationReporter env st m).leaving own = [] := by
        simp only [activationReporter, hreported]
        rfl
      rw [hnone]
      exact hl
    | some f =>
      -- The check stops a run that comes to the end of such a body.
      rw [Watch.completing,
        if_pos (h.endless_of_through hpairs stop hd hty hcase (Option.isSome_of_eq_some hreported))]
      exact Matches.fail_excused trivial
  | dropped =>
    rw [finish_dropped hcase, finish_dropped hcase, Eval.andThen_assoc, Eval.andThen_assoc]
    exact Matches.andThen (Matches.tell fun l k hl => h.told_leave hst hpairs stop hd hl) fun _ _ =>
      h.completing_reported stop info hbase (.value .unit) fun _ _ heq => by cases heq
  | returned =>
    rw [finish_returned hcase, finish_returned hcase, Eval.andThen_assoc, Eval.andThen_assoc]
    refine Matches.andThen (Matches.tell fun l k hl => h.told_leave hst hpairs stop hd hl) fun _ _ =>
      h.completing_reported stop info hbase (.ret (.function own) v) ?_
    intro target v' heq
    cases heq
    rfl

/-- Bodies of a checked run and of a reported one. -/
theorem body_reported (h : Succeeds options sources m store env)
    (hst : ActivationsBacked env st m) (hpairs : PairsActivations env m) (stop : Error)
    (hd : (ofModule m (hosts.withHooks options.tracing.hooks)).decl? own =
      some (.function head info params body))
    (hxy : ∀ base mask, Matches
      (activationComparison env st m (hosts.withHooks options.tracing.hooks)).terms mask
      ((activationComparison env st m (hosts.withHooks options.tracing.hooks)).logs base)
      ((activationComparison env st m (hosts.withHooks options.tracing.hooks)).flowOfBody own base
        body) x y) :
    Matches (activationComparison env st m (hosts.withHooks options.tracing.hooks)).terms mask
      ((activationComparison env st m (hosts.withHooks options.tracing.hooks)).logs base)
      (same ((activationComparison env st m (hosts.withHooks options.tracing.hooks)).logs base))
      (Eval.andThen ((tracerOf env st m (flowWatch m stop)).aroundBody own x)
        (leaveFunction own info))
      (Eval.andThen ((tracerOf env st m (activationReporter env st m)).aroundBody own y)
        (leaveFunction own info)) := by
  obtain ⟨henter, -, hsilent, -⟩ := h.told_activation hst hpairs stop hd
  have hreverse : ((activationReporter env st m).entering own).reverse =
    (activationReporter env st m).entering own := reverse_report _ _
  refine Matches.of_logs fun l₀ k₀ hl₀ => ?_
  obtain ⟨rfl, hbase⟩ := hl₀
  unfold Tracer.aroundBody Watch.aroundBody
  simp only [Eval.andThen_assoc]
  -- The hooks are told that the function is entered, and the reporter notes it.
  refine Matches.tell_left (P := fun l k => l = l₀ ∧ k = l₀) ?_ fun l k hl => hl
  refine Matches.tell_right (P := fun l k => l = l₀ ∧
    k = (activationReporter env st m).entering own ++ l₀) ?_ fun l k hl => ?_
  rotate_left
  · exact ⟨hl.1, hl.2 ▸ congrArg (· ++ l₀) hreverse⟩
  refine Matches.andThen
    (Q := fun _ _ => (activationComparison env st m (hosts.withHooks options.tracing.hooks)).logs
      ((activationReporter env st m).entering own ++ l₀))
    (Matches.tell fun l k hl => ?_) fun _ _ => ?_
  · rw [plan_tracerOf, plan_tracerOf, henter, hsilent, hl.1, hl.2]
    exact ⟨rfl, .refl _⟩
  unfold withValue
  rw [Eval.andThen_assoc, Eval.andThen_assoc]
  refine (Comparison.of_flowOfBody (hxy _ mask)).andThen_flow (fun v v' => ?_) fun target v v' => ?_
  · refine Matches.assuming ?_
    rintro ⟨rfl, hty⟩
    exact h.finish_reported hst hpairs stop hd hbase v fun e he => (hty e he).2
  · rw [Eval.yield_andThen, Eval.yield_andThen]
    by_cases hown : target = .function own
    · subst hown
      refine Matches.of_logs fun l k hl => ?_
      obtain ⟨rfl, hleft, hnested⟩ := hl rfl
      refine (h.completing_reported stop info hbase (.ret (.function own) v) ?_).weaken ?_
        fun _ _ _ _ hl => hl
      · intro target v' heq
        cases heq
        rfl
      · rintro _ _ ⟨rfl, rfl⟩
        exact ⟨hleft, hnested⟩
    · rw [Watch.completing, if_neg hown, Eval.yield_andThen, leaveFunction, if_neg hown]
      exact Matches.fail_excused trivial

/-- A checked run and a reported one match in a program that does not call the hooks itself. -/
theorem observersMatch_reported (h : Succeeds options sources m store env)
    (hst : ActivationsBacked env st m) (hpairs : PairsActivations env m) {id : DeclId}
    (huncalled : HooksUncalled m (hosts.withHooks options.tracing.hooks) activationTypes id)
    (stop : Error) :
    ObserversMatch (activationComparison env st m (hosts.withHooks options.tracing.hooks))
      (fun callee => ∀ ty ∈ activationTypes,
        (ofModule m (hosts.withHooks options.tracing.hooks)).hookOf? callee ≠ some ty)
      (fun _ _ _ => True) (ofModule m (hosts.withHooks options.tracing.hooks))
      (tracerOf env st m (flowWatch m stop)).observer
      (tracerOf env st m (activationReporter env st m)).observer where
  log _ _ hcallee _ hname _ _ _ hl :=
    ⟨congrArg _ hl.1, hl.2.call fun _ hev =>
      activations_other (event?_of_hookOf? hcallee hname hev)⟩
  calls _ d hd call hcall := ⟨huncalled.code d (mem_of_decl? hd).1 call hcall, trivial⟩
  code _ _ _ _ _ hd :=
    { expr := fun e he _ _ hxy base mask =>
        h.expr_reported stop e (fun callee hc => (he callee hc).1) (hxy base mask)
      returned := fun target e _ _ hxy base mask =>
        h.returned_reported hst hpairs stop hd target e (hxy base mask) }
  body _ _ _ _ _ hd _ _ hxy _ := h.body_reported hst hpairs stop hd hxy

end Instrument.Succeeds

section

variable {options : Options} {sources : Source.Provider} {m : Module} {store : Store}
  {env : PassEnv}

theorem Ty.eq_nothing {ty : Ty} (h : ty.isNothing) : ty = .nothing := by
  cases ty <;> simp_all [Ty.isNothing]

theorem Tracing.tolerant_flowCheck {excused : Error → Prop} (m : Module) {stop : Error}
    (hstop : excused stop) : Tolerant excused ((flowCheck m).alarms stop) where
  excused_of_value own v e h := by
    simp only [Check.alarms, Option.ite_none_left_eq_some] at h
    exact Option.some.inj h.2 ▸ hstop
  unit _ _ h := h
  ret _ _ _ _ := rfl

/-- **Instrumentation keeps the flows of programs.** A run of the instrumented program keeps to the
check of flows if the run of the program before keeps to it, and to the check that instrumentation
needs to keep the meaning. -/
theorem Instrument.Succeeds.keepsTo_flowCheck (h : Instrument.Succeeds options sources m store env)
    (hbodies : m.UnitBodies) (hosts : HostTable) (rounds : Nat) (id : DeclId) (args : List Value)
    (htyped : (ofModule m (hosts.withHooks options.tracing.hooks)).KeepsTo unitCheck rounds id args)
    (hflows : (ofModule m (hosts.withHooks options.tracing.hooks)).KeepsTo (flowCheck m) rounds id
      args) :
    (ofModule (Instrument.run env m store).module
      (hosts.withHooks options.tracing.hooks)).KeepsTo (flowCheck m) rounds id args := by
  obtain ⟨stop, stop', hstops, hstop, hstop'⟩ := exists_ne_failed
    ((ofModule m (hosts.withHooks options.tracing.hooks)).callWithin rounds id args {}).1
  -- The run that both checks watch is the run itself, and the traced one ends like it.
  obtain ⟨htraced, -⟩ := h.traced_agrees (w := flowWatch m stop') hbodies hosts rounds id args
    (fun e => e = stop ∨ e = stop') (.inl rfl) (tolerant_flowCheck m (.inr rfl)) (observer_flowWatch m stop')
    (htyped.both hflows hstops hstop) fun e he => he.elim (· ▸ hstop) (· ▸ hstop')
  obtain ⟨hwoven, -⟩ := h.callWithin_agree (w := flowWatch m stop')
    ⟨fun ty hty => Ty.eq_nothing hty, fun _ _ _ _ _ => rfl, fun _ _ _ _ _ => rfl⟩ hosts rounds id
    args rfl rfl
  rw [observer_flowWatch] at hwoven
  exact .of_ne_failed stop' rfl (by rw [hwoven, htraced]; exact hstop')

/-- **Activations are reported exactly.** An instrumented program in which hooks are told about both
ends of activations or about none makes a call that finishes. Then a reporter that watches the
bodies of functions, while the hooks for activations are silent, writes down the same host calls in
the same places; the events of activations are balanced, and every function whose activations are
reported has a descriptor. -/
theorem activations_reported_exactly (h : Instrument.Succeeds options sources m store env)
    (hpairs : PairsActivations env m) (hosts : HostTable) (rounds : Nat) (id : DeclId)
    (args : List Value)
    (huncalled : HooksUncalled m (hosts.withHooks options.tracing.hooks) activationTypes id)
    (hchecked : (ofModule (Instrument.run env m store).module
      (hosts.withHooks options.tracing.hooks)).KeepsTo (flowCheck m) rounds id args)
    {v : Value}
    (hdone : ((ofModule (Instrument.run env m store).module
      (hosts.withHooks options.tracing.hooks)).callWithin rounds id args {}).1 = .done v) :
    let p := ofModule (Instrument.run env m store).module
      (hosts.withHooks options.tracing.hooks)
    let reporter := activationReporter env (Instrument.run env m store).store m
    let log := (p.callWithin rounds id args {}).2.log
    ((p.observed reporter.observer).callWithin rounds id args {}).1 = .done v ∧
      ((p.observed reporter.observer).callWithin rounds id args {}).2.log = log ∧
      activations.Balanced (p.hosts.trace log) ∧
      ∀ x ∈ m.ownDecls, isReported env x →
        (reported? env (Instrument.run env m store).store m x.2.id).isSome := by
  intro p reporter log
  have hkept := hchecked (.generic "")
  rw [← observer_flowWatch] at hkept
  -- From the instrumented program to the traced one, from there to the reported one, and back.
  obtain ⟨houtcome, -, hlog⟩ := h.callWithin_agree (w := flowWatch m (.generic ""))
    ⟨fun ty hty => Ty.eq_nothing hty, fun _ _ _ _ _ => rfl, fun _ _ _ _ _ => rfl⟩ hosts rounds id
    args rfl hkept
  have htraced := houtcome.symm.trans hdone
  have hmatch := callWithin_observed
    (h.observersMatch_reported h.activationsBacked hpairs huncalled (.generic ""))
    id huncalled.start rounds [] args
  obtain ⟨hdone', heq, hnested⟩ := hmatch.of_done ⟨rfl, .refl []⟩ htraced
  obtain ⟨houtcome', -, hlog'⟩ := h.callWithin_agree (w := reporter)
    ⟨nofun, fun _ _ _ _ _ => rfl, fun _ _ _ _ _ => rfl⟩ hosts rounds id args rfl rfl
  have hsame := (hlog v htraced).trans (heq.trans (hlog' v hdone').symm)
  refine ⟨houtcome'.trans hdone', hsame.symm, ?_, fun x hx hreported => ?_⟩
  · obtain ⟨calls, hcalls, hbalanced⟩ := hnested
    have hall : log = calls := (hlog v htraced).trans (heq.trans (hcalls.trans (List.append_nil _)))
    rw [hall]
    exact hbalanced
  · obtain ⟨f, hf, -⟩ := h.of_reported hx hreported
    rw [reported?, Module.ownDecl?_of_mem h.ids hx]
    simp only [hreported, if_true, hf, Option.isSome_some]

end

namespace Sample

/-- The activations of `main` and of `twice`, one inside the other. -/
theorem activations_reported :
    (HostTable.withHooks [] options.tracing.hooks).trace
        (((ofModule (Instrument.run (envOf options program) program {}).module
          (HostTable.withHooks [] options.tracing.hooks)).observed (activationReporter
            (envOf options program) (Instrument.run (envOf options program) program {}).store
              program).observer).callWithin 1 ⟨0⟩ [] {}).2.log =
      (HostTable.withHooks [] options.tracing.hooks).trace
        ((ofModule (Instrument.run (envOf options program) program {}).module
          (HostTable.withHooks [] options.tracing.hooks)).callWithin 1 ⟨0⟩ [] {}).2.log ∧
    activations.Balanced ((HostTable.withHooks [] options.tracing.hooks).trace
      ((ofModule (Instrument.run (envOf options program) program {}).module
        (HostTable.withHooks [] options.tracing.hooks)).callWithin 1 ⟨0⟩ [] {}).2.log) := by
  have hchecked := succeeds.keepsTo_flowCheck (show program.UnitBodies by decide +kernel) [] 1 ⟨0⟩ []
    (.of_ne_failed (.generic "") rfl (by decide +kernel))
    (.of_ne_failed (.generic "") rfl (by decide +kernel))
  obtain ⟨-, hlog, hbalanced, -⟩ := activations_reported_exactly succeeds
    (show PairsActivations (envOf options program) program by decide +kernel) [] 1 ⟨0⟩ []
    ⟨by decide +kernel, by decide +kernel⟩ hchecked (v := .int 6) (by decide +kernel)
  exact ⟨congrArg _ hlog, hbalanced⟩

/-- A function that tells a hook itself that a function is entered. -/
def telling : Module where
  name := "telling"
  files := [{
    id := ⟨0⟩
    path := "Main.kt"
    declarations := [.function { id := ⟨0⟩, span := span 1 } { name := "main", returnTy := .unit } []
      (.block [.expr (Lowering.hookCall ⟨100⟩
        [Lowering.descriptorExpr ⟨.functionInfo, 0⟩ (span 3)] (span 2))])] }]
  external := [runtime]

/-- Code that calls hooks itself is recorded, although no activation starts or completes there. -/
theorem activations_miscounted :
    Instrument.Succeeds {} default telling {} (envOf {} telling) ∧
    PairsActivations (envOf {} telling) telling ∧
    (ofModule (Instrument.run (envOf {} telling) telling {}).module
      (HostTable.withHooks [] {})).KeepsTo (flowCheck telling) 1 ⟨0⟩ [] ∧
    ((ofModule (Instrument.run (envOf {} telling) telling {}).module
      (HostTable.withHooks [] {})).callWithin 1 ⟨0⟩ [] {}).1 = .done .unit ∧
    (HostTable.withHooks [] {}).trace
      ((ofModule (Instrument.run (envOf {} telling) telling {}).module
        (HostTable.withHooks [] {})).callWithin 1 ⟨0⟩ [] {}).2.log = [.enter ⟨0⟩] ∧
    (HostTable.withHooks [] {}).trace
      (((ofModule (Instrument.run (envOf {} telling) telling {}).module
        (HostTable.withHooks [] {})).observed (activationReporter (envOf {} telling)
          (Instrument.run (envOf {} telling) telling {}).store telling).observer).callWithin 1 ⟨0⟩ []
            {}).2.log = [] := by
  refine ⟨⟨rfl, by decide +kernel, distinct_hookNames, Except.exists_ok (by decide +kernel)⟩,
    by decide +kernel, .of_ne_failed (.generic "") rfl (by decide +kernel), ?_⟩
  decide +kernel

end Sample

end TraceWeave

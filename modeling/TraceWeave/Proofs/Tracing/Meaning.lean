import TraceWeave.Proofs.Runs.Checks
import TraceWeave.Proofs.Tracing.Instrumented

/-! # Instrumentation keeps the meaning of programs

What a program computes, how it fails and what it asks of its host stays the same when hooks are
put in. Hooks drop the values of expressions of type `Unit`, so these have to be `Unit`: a run has to
keep to `unitCheck`.

* `Instrument.Succeeds.traced_agrees`: a run that keeps to the check ends like the traced one,
  also beside other alarms.
* `instrumentation_preserves_meaning`: the program before and the instrumented one.
-/

namespace TraceWeave

open Interpreter Tracing

/-- Expressions of type `Unit` come to nothing else. -/
def unitCheck : Check where
  value ty v := ty ≠ .unit || v = .unit

/-- Whether an expression that is the body of a function without a result has no value worth
keeping. -/
def Decl.hasUnitBody : Decl → Bool
  | .function _ info _ (.expression e) => info.returnTy ≠ .unit || e.ty.isTrivial
  | _ => true

/-- Functions without a result have no expression with a value for their body. -/
def Module.UnitBodies (m : Module) : Prop := ∀ d ∈ m.decls, d.hasUnitBody

instance (m : Module) : Decidable m.UnitBodies :=
  inferInstanceAs (Decidable (∀ d ∈ m.decls, d.hasUnitBody))

namespace Tracing

/-- Runs of a checked program and of a traced one: the same values and the same visible host
calls, unless the first run is stopped with an excused error. -/
def checkedComparison (names : HookNames) (excused : Error → Prop) : Comparison Unit where
  terms := { excuses := fun e => ∃ stop, e = some stop ∧ excused stop, stopped := SameVisible names }
  logs _ := SameVisible names
  values ty v v' := v = v' ∧ (ty = .unit → v = .unit)
  unwinds _ _ _ v v' l k := v = v' ∧ SameVisible names l k
  eq_of_values h := h.1
  stopped_of_logs _ _ _ h := h
  stopped_of_unwinds h := h.2

theorem not_excuses_checked {names : HookNames} {excused : Error → Prop} {o : Outcome Value}
    (h : ∀ e, excused e → o ≠ .failed e) : ¬(checkedComparison names excused).terms.Excuses o := by
  cases o with
  | done v => exact id
  | failed e =>
    rintro ⟨stop, heq, hstop⟩
    exact h stop hstop (congrArg Outcome.failed (Option.some.inj heq))
  | outOfFuel =>
    rintro ⟨stop, heq, -⟩
    exact nomatch heq

theorem returns_checked_iff {names : HookNames} {excused : Error → Prop} {own : DeclId}
    {target : ReturnTarget} {v v' : Value} {l k : List HostCall} :
    (checkedComparison names excused).returns own () target v v' l k ↔
      v = v' ∧ SameVisible names l k := by
  cases target <;> exact Iff.rfl

/-- Alarms that both runs may have beside the check. A function that may end with a value may end
with `Unit` as well, or with a `return`, which is what hooks make of the end of a body. -/
structure Tolerant (excused : Error → Prop) (g : Alarms) : Prop where
  excused_of_value : ∀ own v e, g.body own (.value v) = some e → excused e
  unit : ∀ own v, g.body own (.value v) = none → g.body own (.value .unit) = none
  ret : ∀ own v w, g.body own (.value v) = none → g.body own (.ret (.function own) w) = none

theorem Tolerant.none (excused : Error → Prop) : Tolerant excused {} :=
  ⟨fun _ _ _ => nofun, fun _ _ _ => rfl, fun _ _ _ _ => rfl⟩

section

variable {env : PassEnv} {store : Store} {m : Module} {excused : Error → Prop} {stop : Error}
  {g : Alarms} {w : Watch} {own : DeclId} {mask : List Bool} {x y : Eval Flow}

/-- Telling cannot be seen. -/
theorem sameVisible_told (events : List TraceEvent) (w : Watch) {l k : List HostCall}
    (h : SameVisible env.options.tracing.hooks l k) :
    SameVisible env.options.tracing.hooks l
      ((events.flatMap (tracerOf env store m w).shown).reverse ++ k) := by
  rw [SameVisible, visible_append, visible_told, List.nil_append]
  exact h

/-- A value that was told an event after it stays, if its type keeps to the check. -/
theorem tellAfter_checked {ty : Ty} {ev : Option TraceEvent}
    (hev : ev.isSome → ¬ty.isNothing) {values : Value → Value → LogRel}
    {returns : ReturnTarget → Value → Value → LogRel}
    (hvalues : ∀ v l k, (ty = .unit → v = .unit) → SameVisible env.options.tracing.hooks l k →
      values v v l k)
    (h : Matches (checkedComparison env.options.tracing.hooks excused).terms mask
      (SameVisible env.options.tracing.hooks)
      (Flow.Rel (fun v v' l k => (v = v' ∧ (ty = .unit → v = .unit)) ∧
        SameVisible env.options.tracing.hooks l k) returns) x y) :
    Matches (checkedComparison env.options.tracing.hooks excused).terms mask
      (SameVisible env.options.tracing.hooks) (Flow.Rel values returns) x
      ((tracerOf env store m w).tellAfter ty ev y) := by
  rw [← withValue_value x]
  refine h.withValue fun v v' => Matches.assuming ?_
  rintro ⟨rfl, hunit⟩
  have hkept : Tracer.kept ty ev v = v := by
    unfold Tracer.kept
    split
    · rename_i htrivial
      exact (hunit (Ty.eq_unit htrivial.2 (hev htrivial.1))).symm
    · rfl
  unfold Tracer.tellThen
  rw [hkept]
  exact Matches.tell_right (Matches.value fun l k hl => hvalues v l k hunit hl)
    fun l k hl => sameVisible_told _ _ hl

/-- The observers in the code of functions. The watch of the traced run has the alarms that the
checked run has beside the check. -/
theorem observers_checked (hstop : excused stop) (hw : w.observer = g.observer) :
    (checkedComparison env.options.tracing.hooks excused).Observers (fun _ _ => True ∧ True) own
      ((unitCheck.alarms stop).or g).observer (tracerOf env store m w).observer where
  expr e _ x y hxy i mask := by
    have hwatch : w.aroundExpr own e y = g.observer.expr own e y :=
      congrFun (congrFun (congrFun (congrArg Observer.expr hw) own) e) y
    have hguard : Matches (checkedComparison env.options.tracing.hooks excused).terms mask
        (SameVisible env.options.tracing.hooks)
        ((checkedComparison env.options.tracing.hooks excused).flowOf own i e.ty)
        (((unitCheck.alarms stop).or g).observer.expr own e x) (w.aroundExpr own e y) := by
      rw [hwatch]
      refine (hxy i mask).withValue (Matches.of_same fun v => ?_)
      simp only [Alarms.or, Check.alarms]
      -- A value that breaks the check stops the checked run, which is excused; any other one raises
      -- the same alarms on both sides.
      by_cases hv : unitCheck.value e.ty v
      · rw [if_pos hv, Option.none_or]
        cases g.value e.ty v with
        | none =>
          refine Matches.value fun _ _ hl => ⟨⟨rfl, fun hty => ?_⟩, hl⟩
          simpa [unitCheck, hty] using hv
        | some e => exact Matches.fail e fun _ _ hl => hl
      · rw [if_neg hv, Option.some_or]
        exact Matches.fail_excused ⟨stop, rfl, hstop⟩
    simp only [Tracer.observer, Tracer.aroundExpr]
    cases e.callee? with
    | none => exact hguard
    | some callee =>
      refine Matches.tell_right (tellAfter_checked (fun hev => (traceType_after env store
        (Option.eq_some_of_isSome hev)).2)
        (fun v l k hunit hl => ⟨⟨rfl, hunit⟩, hl⟩) hguard) fun l k hl => sameVisible_told _ _ hl
  returned target e x y hxy i mask := by
    have hplain : ∀ v l k, (e.ty = .unit → v = .unit) → SameVisible env.options.tracing.hooks l k →
        (checkedComparison env.options.tracing.hooks excused).returns own i target v v l k :=
      fun v l k _ hl => returns_checked_iff.mpr ⟨rfl, hl⟩
    simp only [Tracer.observer, Tracer.aroundReturned]
    split
    · rename_i hleave
      exact tellAfter_checked (fun _ => hleave.2) hplain (hxy i mask)
    · exact (hxy i mask).post_mono (Flow.Rel.mono
        (fun v v' l k hv => hv.1.1 ▸ hplain v l k hv.1.2 hv.2) fun _ _ _ _ _ hr => hr)

/-! ## Bodies -/

/-- A body whose value is dropped has none worth keeping. -/
theorem endingOf_dropped {returnTy : Ty} {enter leave : Option TraceEvent} {body : Body}
    (h : endingOf returnTy enter leave body = .dropped) :
    returnTy = .unit ∨ ∃ e, body = .expression e ∧ e.ty = .unit := by
  cases body with
  | absent => cases h
  | block stmts =>
    simp only [endingOf, ite_eq_left_iff] at h
    exact .inl (by_contra fun hunit => absurd (h fun hcond => hunit hcond.2) Ending.noConfusion)
  | expression e =>
    refine .inr ⟨e, rfl, ?_⟩
    simp only [endingOf] at h
    split at h
    · split at h
      · cases h
      · rename_i hnothing
        split at h
        · rename_i htrivial
          exact Ty.eq_unit htrivial hnothing
        · cases h
    · split at h <;> cases h

/-- A body whose value is returned belongs to a function with a result. -/
theorem endingOf_returned {returnTy : Ty} {enter leave : Option TraceEvent} {body : Body}
    (h : endingOf returnTy enter leave body = .returned) :
    ∃ e, body = .expression e ∧ (e.ty.isTrivial → returnTy ≠ .unit) := by
  cases body with
  | absent => cases h
  | block stmts =>
    simp only [endingOf] at h
    split at h <;> cases h
  | expression e =>
    refine ⟨e, rfl, fun htrivial hunit => ?_⟩
    subst hunit
    simp only [endingOf] at h
    split at h
    · split at h
      · cases h
      · cases h
    · simp [Ty.isTrivial] at h

/-- A body comes to a value that its function may end with. -/
theorem leave_checked (hids : m.declIds.Nodup) (hbodies : m.UnitBodies) (hg : Tolerant excused g)
    {hosts : HostTable} {head : DeclHead} {info : FunctionHead} {params : List Param} {body : Body}
    (hd : (ofModule m hosts).decl? own = some (.function head info params body)) {v : Value}
    (hv : ∀ e, body = .expression e → e.ty = .unit → v = .unit)
    (hpass : g.body own (.value v) = none) :
    Matches (checkedComparison env.options.tracing.hooks excused).terms mask
      (SameVisible env.options.tracing.hooks) (same (SameVisible env.options.tracing.hooks))
      (leaveFunction own info (.value v))
      (Eval.andThen ((tracerOf env store m w).finish own v) fun flow =>
        Eval.andThen (Alarms.pass (g.body own flow) flow) (leaveFunction own info)) := by
  have hplan : (planOf env store m own).ending = .through ∨
      (planOf env store m own).ending = endingOf info.returnTy (planOf env store m own).enter
        (planOf env store m own).leave body := by
    obtain ⟨sc, hplan⟩ | hplan := planOf_cases env store hids hd
    · exact .inr (by rw [hplan]; rfl)
    · exact .inl (by rw [hplan])
  -- The value of the body is handed on, dropped by a hook behind it, or put into a `return`. None
  -- of this can be seen, since the function may end with the value.
  cases hending : (planOf env store m own).ending with
  | through =>
    rw [finish_through hending, Eval.yield_andThen, hpass]
    exact Matches.yield fun _ _ hl => ⟨rfl, hl⟩
  | dropped =>
    rw [finish_dropped hending, Eval.andThen_assoc]
    simp only [Eval.yield_andThen, hg.unit own v hpass]
    refine Matches.tell_right (Matches.yield fun _ _ hl => ⟨?_, hl⟩)
      fun l k hl => sameVisible_told _ _ hl
    rw [hending] at hplan
    obtain hunit | ⟨e, he, hty⟩ := endingOf_dropped (hplan.resolve_left (by simp)).symm
    · rw [if_pos hunit, if_pos hunit]
    · rw [hv e he hty]
  | returned =>
    have hret : leaveFunction own info (.ret (.function own) v) = Eval.yield v := if_pos rfl
    rw [finish_returned hending, Eval.andThen_assoc]
    simp only [Eval.yield_andThen, hg.ret own v v hpass, Alarms.pass, hret]
    rw [hending] at hplan
    obtain ⟨e, rfl, hty⟩ := endingOf_returned (hplan.resolve_left (by simp)).symm
    have hunit : info.returnTy ≠ .unit := by
      intro hunit
      have hbody := hbodies _ (mem_of_decl? hd).1
      rw [Decl.hasUnitBody, hunit] at hbody
      exact hty (by simpa using hbody) hunit
    rw [show leaveFunction own info (.value v) = Eval.yield v from congrArg Eval.yield (if_neg hunit)]
    exact Matches.tell_right (Matches.yield fun _ _ hl => ⟨rfl, hl⟩)
      fun l k hl => sameVisible_told _ _ hl

variable (env store) in
theorem observersMatch_checked (hids : m.declIds.Nodup) (hbodies : m.UnitBodies)
    (hosts : HostTable) (hstop : excused stop) (hg : Tolerant excused g)
    (hw : w.observer = g.observer) :
    ObserversMatch (checkedComparison env.options.tracing.hooks excused) (fun _ => True)
      (fun _ _ _ => True) (ofModule m hosts) ((unitCheck.alarms stop).or g).observer
      (tracerOf env store m w).observer where
  log _ _ _ _ _ _ _ _ hl := by
    change visible _ _ = visible _ _
    unfold visible
    rw [List.filter_cons, List.filter_cons]
    split
    · exact congrArg (List.cons _) hl
    · exact hl
  calls _ _ _ _ _ := ⟨trivial, trivial⟩
  code _ _ _ _ _ _ := observers_checked hstop hw
  body id head info params body hd x y hxy i := by
    have hleft : ((unitCheck.alarms stop).or g).observer.body id x =
        Eval.andThen x fun flow => Alarms.pass (g.body id flow) flow := rfl
    have hright : (tracerOf env store m w).observer.body id y =
        Eval.andThen (Eval.andThen ((tracerOf env store m w).tell
          (planOf env store m id).enter.toList) fun _ =>
            withValue y ((tracerOf env store m w).finish id)) fun flow =>
              Alarms.pass (g.body id flow) flow :=
      congrFun (congrFun (congrArg Observer.body hw) id) _
    rw [hleft, hright, Eval.andThen_assoc, Eval.andThen_assoc, Eval.andThen_assoc]
    refine Matches.tell_right (P := SameVisible env.options.tracing.hooks) ?_
      fun l k hl => sameVisible_told _ _ hl
    unfold withValue
    rw [Eval.andThen_assoc]
    refine (Comparison.of_flowOfBody (hxy i [true])).andThen_flow (fun v v' => ?_)
      fun target v v' => ?_
    · refine Matches.assuming ?_
      rintro ⟨rfl, hunit⟩
      -- An alarm of the checked run is excused; without one the traced run has none either.
      cases hpass : g.body id (.value v) with
      | some e => exact Matches.fail_excused ⟨e, rfl, hg.excused_of_value id v e hpass⟩
      | none =>
        exact leave_checked hids hbodies hg hd (fun e he => (hunit e he).2) hpass
    · refine Matches.weaken (P := fun l k => v = v' ∧ SameVisible env.options.tracing.hooks l k)
        (Matches.assuming ?_) (fun _ _ hl => returns_checked_iff.mp hl) fun _ _ _ _ hl => hl
      rintro rfl
      rw [Eval.yield_andThen]
      cases g.body id (.ret target v) with
      | some e => exact Matches.fail e fun _ _ hl => hl
      | none =>
        simp only [Alarms.pass, Eval.yield_andThen]
        exact leaveFunction_ret (fun _ _ _ hl => ⟨rfl, hl⟩) fun _ _ hl => hl

end

end Tracing

section

variable {options : Options} {sources : Source.Provider} {m : Module} {store : Store}
  {env : PassEnv}

/-- A run that the check does not stop and the traced run end in the same way, also if a watch has
alarms that do not stop the run. -/
theorem Instrument.Succeeds.traced_agrees (h : Instrument.Succeeds options sources m store env)
    (hbodies : m.UnitBodies) (hosts : HostTable) (rounds : Nat) (id : DeclId) (args : List Value)
    (excused : Error → Prop) {stop : Error} {g : Alarms} {w : Watch} (hstop : excused stop)
    (hg : Tolerant excused g) (hw : w.observer = g.observer)
    (hrun : ((ofModule m (hosts.withHooks options.tracing.hooks)).observed
      ((unitCheck.alarms stop).or g).observer).callWithin rounds id args {} =
        (ofModule m (hosts.withHooks options.tracing.hooks)).callWithin rounds id args {})
    (hne : ∀ e, excused e →
      ((ofModule m (hosts.withHooks options.tracing.hooks)).callWithin rounds id args {}).1 ≠
        .failed e) :
    (((ofModule m (hosts.withHooks options.tracing.hooks)).observed
        (tracerOf env (Instrument.run env m store).store m w).observer).callWithin rounds id args
          {}).1 =
      ((ofModule m (hosts.withHooks options.tracing.hooks)).callWithin rounds id args {}).1 ∧
    SameVisible options.tracing.hooks
      ((ofModule m (hosts.withHooks options.tracing.hooks)).callWithin rounds id args {}).2.log
      (((ofModule m (hosts.withHooks options.tracing.hooks)).observed
        (tracerOf env (Instrument.run env m store).store m w).observer).callWithin rounds id args
          {}).2.log := by
  have hchecked := callWithin_observed (observersMatch_checked env
    (Instrument.run env m store).store h.ids hbodies (hosts.withHooks options.tracing.hooks) hstop
    hg hw) id trivial rounds () args
  have hagree := agree_of_matches hrun hchecked (not_excuses_checked hne) rfl
  obtain ⟨houtcome, hvisible⟩ := hagree.outcome_eq fun _ _ hl => hl
  rw [h.build_eq.1] at hvisible
  exact ⟨houtcome, hvisible⟩

/-- **Instrumentation keeps the meaning of programs.** However many rounds loops may take, a call
of the program before and of the instrumented program end in the same way: with the same value,
with the same error, or both cut short. The host calls that no hook made are the same. -/
theorem instrumentation_preserves_meaning
    (h : Instrument.Succeeds options sources m store env) (hbodies : m.UnitBodies)
    (hosts : HostTable) (rounds : Nat) (id : DeclId) (args : List Value)
    (htyped : (ofModule m (hosts.withHooks options.tracing.hooks)).KeepsTo unitCheck rounds id args) :
    ((ofModule (Instrument.run env m store).module
        (hosts.withHooks options.tracing.hooks)).callWithin rounds id args {}).1 =
      ((ofModule m (hosts.withHooks options.tracing.hooks)).callWithin rounds id args {}).1 ∧
    visible options.tracing.hooks ((ofModule (Instrument.run env m store).module
        (hosts.withHooks options.tracing.hooks)).callWithin rounds id args {}).2.log =
      visible options.tracing.hooks
        ((ofModule m (hosts.withHooks options.tracing.hooks)).callWithin rounds id args {}).2.log := by
  obtain ⟨stop, -, -, hstop, -⟩ := exists_ne_failed
    ((ofModule m (hosts.withHooks options.tracing.hooks)).callWithin rounds id args {}).1
  have hrun := htyped stop
  rw [Check.observer, ← Alarms.or_none (unitCheck.alarms stop)] at hrun
  -- From the checked run to the traced one, and from there to the instrumented program.
  obtain ⟨houtcome, hvisible⟩ := h.traced_agrees (w := {}) hbodies hosts rounds id args (· = stop)
    rfl (.none _) (Watch.observer_default.trans Alarms.observer_none.symm) hrun
    fun e he => he ▸ hstop
  obtain ⟨houtcome', hvisible', -⟩ := h.callWithin_agree (w := {}) ⟨nofun, fun _ _ _ _ _ => rfl,
    fun _ _ _ _ _ => rfl⟩ hosts rounds id args rfl rfl
  rw [Watch.observer_default] at houtcome' hvisible'
  exact ⟨houtcome'.trans houtcome, (hvisible.trans hvisible').symm⟩

end

theorem Sample.meaning_kept :
    ((ofModule (Instrument.run (envOf options program) program {}).module
        (HostTable.withHooks [] options.tracing.hooks)).callWithin 1 ⟨0⟩ [] {}).1 = .done (.int 6) ∧
      visible options.tracing.hooks
        ((ofModule (Instrument.run (envOf options program) program {}).module
          (HostTable.withHooks [] options.tracing.hooks)).callWithin 1 ⟨0⟩ [] {}).2.log = [] := by
  have htyped : (ofModule program (HostTable.withHooks [] options.tracing.hooks)).KeepsTo unitCheck 1
      ⟨0⟩ [] :=
    .of_ne_failed (.generic "") rfl (by decide +kernel)
  obtain ⟨hvalue, hvisible⟩ := instrumentation_preserves_meaning succeeds
    (show program.UnitBodies by decide +kernel) [] 1 ⟨0⟩ [] htyped
  constructor
  · rw [hvalue]
    decide +kernel
  · rw [hvisible]
    decide +kernel

end TraceWeave

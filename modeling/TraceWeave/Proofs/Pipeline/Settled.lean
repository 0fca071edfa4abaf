import TraceWeave.Proofs.Pipeline.Filled
import TraceWeave.Proofs.Pipeline.Identities
import TraceWeave.Proofs.Pipeline.Untouched

/-! # Settled modules

A module is settled if every pass before instrumentation finds nothing to do: its identities are
counted, it calls no intrinsics, its calls give all arguments that they capture, and all its trace
calls are active. A run without instrumentation leaves a settled module as it is.

`Module.Settled` is the property, one lemma for each pass says that the pass leaves such a module,
and `Pipeline.run_of_settled` says it of a run.
-/

namespace TraceWeave

/-- A module, with its environment, in which the passes before instrumentation find nothing to do. -/
structure Module.Settled (setup : PipelineSetup) (m : Module) (env : PassEnv) : Prop where
  counted : m.syncIds = m
  built : PassEnv.build setup.options setup.sources m = .ok env
  dispatched : ∀ f, .call f ∈ m.marks → env.linkage.intrinsicKind? f.callee = none
  filled : setup.options.callerCapture.enabled = true →
    ∀ f, .call f ∈ m.marks → CallerCapture.Filled env f
  kept : setup.options.tracing.remove = true → ∀ f, .call f ∈ m.marks → ∀ ty,
    Removal.userCall? env f.callee = some ty →
      ∃ active, activeTypes env f.scopes = .ok active ∧ active.has ty = true

variable {setup : PipelineSetup} {m : Module} {env : PassEnv}

/-- The mark of a call that a walk visits. -/
theorem Module.mark_of_visit {x : Visit} (hx : x ∈ m.visits) {s : Site} {callee : DeclId}
    {receiver : Option Expr} {typeArgs : List Ty} {args : List (Option Expr)}
    (he : x.expr = .call s callee receiver typeArgs args) :
    .call ⟨x.scopes, x.place, s.span, callee, args.map Option.isSome⟩ ∈ m.marks :=
  Module.mem_marks_call.mpr ⟨x, hx, by rw [Visit.callFace?, he]; rfl⟩

/-- A walk that leaves every call and has no business with other expressions leaves the module. -/
theorem Module.filesWalk_of_calls {σ : Type} {v : Visitor σ} (hv : v.LeavesDecls) (st : σ)
    (hother : ∀ sc place e st, e.callee? = none → v.onExpr sc place e st = (e, st))
    (hcall : ∀ sc place s callee receiver typeArgs args st,
      .call ⟨sc, place, s.span, callee, args.map Option.isSome⟩ ∈ m.marks →
        v.onExpr sc place (.call s callee receiver typeArgs args) st =
          (.call s callee receiver typeArgs args, st)) :
    filesWalk v m.files st = (m.files, st) := by
  refine Module.filesWalk_of_idle hv fun x hx => ?_
  have hleft : ∀ st, v.onExpr x.scopes x.place x.expr st = (x.expr, st) := by
    cases he : x.expr with
    | call => exact fun st => hcall _ _ _ _ _ _ _ st (mark_of_visit hx he)
    | _ => exact fun st => hother _ _ _ st rfl
  exact ⟨fun st => congrArg Prod.fst (hleft st), congrArg Prod.snd (hleft st)⟩

/-! ## Single passes -/

namespace Module.Settled

theorem extract (h : m.Settled setup env) (captured : CapturedDefaults) :
    CallerCapture.extract env m captured = (m, { captured }) := by
  refine CallerCapture.extract_of_idle (fun x hx callee hcallee => ?_) captured
  cases he : x.expr with
  | call s callee' receiver typeArgs args =>
    rw [he] at hcallee
    cases hcallee
    exact h.dispatched _ (mark_of_visit hx he)
  | _ =>
    rw [he] at hcallee
    cases hcallee

theorem inject (h : m.Settled setup env) (henabled : setup.options.callerCapture.enabled = true)
    (captured : CapturedDefaults) (store : Store) :
    CallerCapture.inject env captured m store = { outcome := .ok 0, module := m, store } := by
  have hwalk : filesWalk (CallerCapture.injector env captured) m.files { ids := m.ids, store } =
      (m.files, { ids := m.ids, store }) := by
    refine Module.filesWalk_of_calls (fun _ _ _ => rfl) _ (fun sc place e st he => ?_)
      fun sc place s callee receiver typeArgs args st hmark => ?_
    · cases e with
      | call => cases he
      | _ => exact ite_self _
    · obtain ⟨modes?, hmodes, hcovers⟩ := h.filled henabled _ hmark
      change PassState.edit (CallerCapture.injectCall env captured) _ st = _
      cases hfailure : st.failure with
      | some e => exact PassState.edit_of_some hfailure
      | none =>
        rw [PassState.edit_of_none hfailure, CallerCapture.injectCall, hmodes]
        cases modes? with
        | none => rfl
        | some modes =>
          dsimp only
          rw [CallerCapture.fillArgs_of_covers modes 0 args (hcovers modes rfl)]
          obtain ⟨ids, store, edits, bodies, failure⟩ := st
          cases hfailure
          rfl
  rw [CallerCapture.inject, Module.runVisitor, hwalk]
  rfl

theorem dispatch (h : m.Settled setup env) (registry : Registry) (store : Store) :
    Dispatch.run registry env m store = { outcome := .ok 0, module := m, store } := by
  have hwalk : filesWalk (Dispatch.dispatcher registry env) m.files { ids := m.ids, store } =
      (m.files, { ids := m.ids, store }) := by
    refine Module.filesWalk_of_calls (fun _ _ _ => rfl) _ (fun sc place e st he => ?_)
      fun sc place s callee receiver typeArgs args st hmark => ?_
    · cases e with
      | call => cases he
      | _ => exact ite_self _
    · change PassState.edit (Dispatch.replaceCall registry env sc) _ st = _
      refine PassState.edit_self ?_
      rw [Dispatch.replaceCall, h.dispatched _ hmark]
  rw [Dispatch.run, Module.runVisitor, hwalk]
  rfl

theorem remove (h : m.Settled setup env) (henabled : setup.options.tracing.remove = true) :
    Removal.run env m = .ok (m, 0) := by
  have hwalk : filesWalk (Removal.searcher env) m.files {} = (m.files, {}) := by
    refine Module.filesWalk_of_calls (fun _ _ _ => rfl) _ (fun sc place e found he => ?_)
      fun sc place s callee receiver typeArgs args found hmark => ?_
    · cases e with
      | call => cases he
      | _ => exact congrArg (Prod.mk _) (ite_self _)
    · have hleft : Removal.schedule env sc place (.call s callee receiver typeArgs args) found =
          found := by
        rw [Removal.schedule]
        split
        · rfl
        · rename_i ty hty
          obtain ⟨active, hactive, hhas⟩ := h.kept henabled _ hmark ty hty
          rw [hactive]
          exact if_pos hhas
      change (_, if found.failure.isSome then found else Removal.schedule env sc place _ found) = _
      rw [hleft, ite_self]
  rw [Removal.run, Removal.search, hwalk]
  change Except.ok ({ m with files := (Removal.filesPrune [] m.files).1 },
    (Removal.filesPrune [] m.files).2) = _
  rw [Removal.filesPrune_nil]

end Module.Settled

/-! ## Runs -/

namespace PipelineState

variable {s : PipelineState}

theorem runPass_of_settled (h : s.module.Settled setup env) {pass : PassName}
    (henabled : pass.isEnabled setup.options = true) (hpass : pass ≠ .tracingInstrumentation) :
    s.runPass setup pass = (.ok 0, s) := by
  rw [runPass, h.built]
  cases pass with
  | extractCallerDefaults =>
    change (Except.ok (CallerCapture.extract env s.module s.captured).2.marked,
      { s with
        module := (CallerCapture.extract env s.module s.captured).1
        captured := (CallerCapture.extract env s.module s.captured).2.captured }) = _
    rw [h.extract]
  | injectCallerArguments =>
    change s.ofResult (CallerCapture.inject env s.captured s.module s.store) = _
    rw [h.inject henabled]
    rfl
  | intrinsicDispatch =>
    change s.ofResult (Dispatch.run setup.registry env s.module s.store) = _
    rw [h.dispatch]
    rfl
  | traceRemoval =>
    dsimp only [runPassIn]
    rw [h.remove henabled]
  | tracingInstrumentation => exact absurd rfl hpass

theorem runPasses_of_settled (h : s.module.Settled setup env) : ∀ {passes : List PassName},
    (∀ pass ∈ passes, pass.isEnabled setup.options = true ∧ pass ≠ .tracingInstrumentation) →
      s.runPasses setup passes = (.ok (passes.map fun pass => (pass, 0)), s)
  | [], _ => rfl
  | pass :: passes, hpasses => by
    obtain ⟨⟨henabled, hpass⟩, hrest⟩ := List.forall_mem_cons.mp hpasses
    rw [runPasses, runPass_of_settled h henabled hpass]
    dsimp only
    rw [runPasses_of_settled h hrest]
    rfl

end PipelineState

namespace Pipeline

/-- A run without instrumentation leaves a settled module as it is. -/
theorem run_of_settled (h : m.Settled setup env)
    (hinstrument : setup.options.tracing.instrument = false) (store : Store) :
    run setup m store =
      (.ok ((passes setup.options).map fun pass => (pass, 0)), { module := m, store }) := by
  have hcheck : checkLinkage setup.options m env.linkage = .ok () := by
    rw [checkLinkage, hinstrument]
    rfl
  rw [run, h.counted, runFrom, h.built]
  dsimp only
  rw [hcheck]
  refine PipelineState.runPasses_of_settled h fun pass hpass => ?_
  obtain ⟨-, henabled⟩ := List.mem_filter.mp hpass
  refine ⟨henabled, ?_⟩
  rintro rfl
  exact Bool.false_ne_true (hinstrument.symm.trans henabled)

theorem totalChanges_zero (passes : List PassName) :
    totalChanges (passes.map fun pass => (pass, 0)) = 0 := by
  induction passes with
  | nil => rfl
  | cons pass passes ih => exact (Nat.zero_add _).trans ih

end Pipeline

end TraceWeave

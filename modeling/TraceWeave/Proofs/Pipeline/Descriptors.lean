import TraceWeave.Proofs.Descriptor.Builders
import TraceWeave.Proofs.Pipeline.References

/-! # Descriptors after a run

A run that succeeds leaves a closed store behind, and every reference that it has put into the
module leads to a finished descriptor. A run that fails may leave descriptors behind that refer to
one whose builder failed.

* `PipelineState.Accounted`: the invariant, kept by each pass and by passes one after the other
  (`PipelineState.Accounted.runPasses`).
* `Pipeline.successful_run_closes_store`, `Pipeline.run_loses_failed_descriptors_only`: the two
  ends of a run.
-/

namespace TraceWeave

open Build

variable {mayFail : Prop}

/-- A reference that no builder has left pending. -/
abbrev Store.Settled (mayFail : Prop) (s : Store) (r : DescriptorRef) : Prop :=
  s.Known mayFail (fun _ => False) r

/-- A store in which no descriptor is pending and every handle is accounted for. -/
abbrev Store.Accounted (mayFail : Prop) (s : Store) : Prop :=
  s.ClosedBut mayFail fun _ => False

/-! ## Visits -/

namespace PassState

/-- What a pass that has not failed relies on and knows: its store has grown out of the first one
and is accounted for, and references are those of a base or settled ones. -/
def knowledge (mayFail : Prop) (first : Store) (base : DescriptorRef → Prop) :
    Knowledge PassState DescriptorRef where
  toLabels := .refs
  good st := (mayFail ∨ st.failure = none) → first.Grown st.store ∧ st.store.Accounted mayFail
  known st r := (mayFail ∨ st.failure = none) → base r ∨ st.store.Settled mayFail r

variable {first : Store} {base : DescriptorRef → Prop} {st st' : PassState}
  {before after : List Node}

/-- What is to be shown about a step of a pass that has not failed before. -/
theorem keeps_of (hnone : st.failure = none)
    (h : (mayFail ∨ st'.failure = none) → st.store.Accounted mayFail →
      st.store.Grown st'.store ∧ st'.store.Accounted mayFail ∧
        ∀ known, RefersTo known before →
          (∀ r, base r ∨ st'.store.Settled mayFail r → known r) → RefersTo known after) :
    (knowledge mayFail first base).Keeps st st' before after := by
  intro hgood hbefore
  obtain ⟨hfirst, hclosed⟩ := hgood (.inr hnone)
  have hknown : ∀ {r}, (knowledge mayFail first base).known st r →
      (mayFail ∨ st'.failure = none) → base r ∨ st'.store.Settled mayFail r := fun hr hok =>
    (hr (.inr hnone)).imp_right fun hr => hr.mono (h hok hclosed).1
  refine ⟨fun hok => ?_, fun r hr hok => hknown hr hok, fun r hr hok => ?_⟩
  · obtain ⟨hgrown, haccounted, -⟩ := h hok hclosed
    exact ⟨hfirst.trans hgrown, haccounted⟩
  · exact (h hok hclosed).2.2 (fun r => base r ∨ st'.store.Settled mayFail r)
      (fun r hr => hknown (hbefore r hr) hok) (fun _ hr => hr) r hr

theorem keeps_edit {α : Type} (nodes : α → List Node) {step : α → PassState → α × PassState}
    {node : α} (h : st.failure = none → (knowledge mayFail first base).Keeps st (step node st).2
      (nodes node) (nodes (step node st).1)) :
    (knowledge mayFail first base).Keeps st (edit step node st).2 (nodes node)
      (nodes (edit step node st).1) := by
  unfold edit
  split
  · exact .same
  · rename_i hnone
    exact h (by simpa using hnone)

theorem closes_onStore {α : Type} {given : List DescriptorRef} {step : Build Store α}
    {out : α → List DescriptorRef} (h : Closes Store.itself mayFail given step out) :
    Closes PassState.store mayFail given (onStore step) out := by
  intro pending st result st' hrun hok hs hgiven
  rcases hstep : step.runOn st.store with ⟨outcome, t⟩
  unfold Build.runOn onStore at hrun
  rw [hstep] at hrun
  obtain ⟨rfl, rfl⟩ := Prod.mk.inj hrun
  exact h pending st.store _ t hstep hok hs hgiven

end PassState

/-! ## The passes -/

/-- Resolving a call puts those references into the program that the handler hands out. -/
theorem Resolved.refsOf_toExpr (r : Resolved) (site : Site) :
    refsOf (r.toExpr site).nodes = r.refs := by
  cases r <;> simp [toExpr, Expr.ofInt, Expr.ofString, Expr.ofConst, Expr.nodes, Node.refs,
    Expr.ownRefs, Resolved.refs]

theorem Dispatch.dispatcher_keeps (env : PassEnv) (first : Store) (base : DescriptorRef → Prop) :
    (dispatcher Handlers.defaults env).Keeps (PassState.knowledge mayFail first base) where
  onDecl _ _ _ := .same
  onExpr sc _ e st := by
    refine PassState.keeps_edit Expr.nodes fun hnone => ?_
    unfold replaceCall
    split
    · rename_i site callee receiver typeArgs args
      split
      · exact .same
      · rename_i kind hkind
        have hcloses : Closes PassState.store mayFail [] (PassState.onStore
            (resolve Handlers.defaults env sc ⟨kind, site, callee, receiver, typeArgs, args⟩))
            Resolved.refs :=
          PassState.closes_onStore (closes_resolve env sc _)
        split
        · dsimp only
          split
          · rename_i resolved st' hrun
            refine PassState.keeps_of hnone fun _ hclosed => ?_
            obtain ⟨hgrown, haccounted, hknown⟩ :=
              hcloses _ _ _ _ hrun (.inr ⟨_, rfl⟩) hclosed (by simp)
            refine ⟨hgrown, haccounted, fun known _ hsettled r hr => hsettled r (.inr ?_)⟩
            change r ∈ refsOf (resolved.toExpr site).nodes at hr
            rw [Resolved.refsOf_toExpr] at hr
            exact hknown _ rfl r hr
          · rename_i err st' hrun
            refine PassState.keeps_of hnone fun hok hclosed => ?_
            -- A pass whose state has failed behind the visit is one in which builders may fail.
            have hfail : mayFail := hok.resolve_right (by simp [PassState.fail])
            obtain ⟨hgrown, haccounted, -⟩ := hcloses _ _ _ _ hrun (.inl hfail) hclosed (by simp)
            exact ⟨hgrown, haccounted, fun _ hbefore _ => hbefore⟩
        · exact .same
    · exact .same

namespace Instrument

variable {given : List DescriptorRef} (env : PassEnv)

/-- The references in an expression. -/
abbrev exprRefs (e : Expr) : List DescriptorRef := refsOf e.nodes

@[simp] theorem refsOf_descriptorExpr (r : DescriptorRef) (span : Span) :
    refsOf (Lowering.descriptorExpr r span).nodes = [r] := rfl

@[simp] theorem refsOf_argsNodes_some (args : List Expr) :
    refsOf (argsNodes (args.map some)) = args.flatMap exprRefs := by
  induction args with
  | nil => rfl
  | cons e es ih => simp [argsNodes, ih]

@[simp] theorem refsOf_hookCall (id : DeclId) (args : List Expr) (span : Span) :
    refsOf (Lowering.hookCall id args span).nodes = args.flatMap exprRefs := by
  simp [Lowering.hookCall, Expr.nodes, Node.refs, Expr.ownRefs, optionNodes]

@[simp] theorem refsOf_blockWithResult (stmts : List Stmt) (result : Expr) (span : Span) :
    refsOf (Lowering.blockWithResult stmts result span).nodes =
      refsOf (stmtsNodes stmts) ++ exprRefs result := by
  simp [Lowering.blockWithResult, Expr.nodes, stmtsNodes_append, stmtsNodes, Stmt.nodes, Node.refs,
    Expr.ownRefs]

theorem closes_siteHook (ty : TraceType) (h : Handle .functionInfo) (span : Span) :
    Closes PassState.store mayFail [h.toRef] (siteHook env ty h span) exprRefs := by
  refine Closes.require.bind fun _ => ?_
  have hat : Closes PassState.store mayFail [] (locationArg env span) exprRefs :=
    (PassState.closes_onStore (env.factory.closes_location span)).bind fun _ => .pure (by simp)
  exact hat.bind fun _ => .pure (by simp +contextual [functionArg])

theorem closes_suspensionHook (executable : Executable) (span : Span) :
    Closes PassState.store mayFail [] (suspensionHook env executable span) exprRefs :=
  (PassState.closes_onStore (env.factory.closes_executableInfo executable)).bind fun h =>
    closes_siteHook env .suspensionPoint h span

/-- The references of a prepared call site. -/
def CallSite.refs (c : CallSite) : List DescriptorRef :=
  c.callee.toRef :: refsOf (stmtsNodes c.before)

theorem refsOf_hookStmts (e : Option Expr) :
    refsOf (stmtsNodes (hookStmts e)) = e.toList.flatMap exprRefs := by
  cases e <;> simp [hookStmts, stmtsNodes, Stmt.nodes]

theorem closes_prepareActive (executable : Executable) (site : Site) (callee : DeclId)
    (before suspension after : Bool) :
    Closes PassState.store mayFail []
      (prepareActive env executable site callee before suspension after) CallSite.refs := by
  refine (PassState.closes_onStore (env.factory.closes_functionInfo callee)).bind fun info => ?_
  refine ((closes_siteHook env .beforeCall info site.span).onlyIf before).bind_given fun _ => ?_
  refine ((closes_suspensionHook env executable site.span).onlyIf suspension).bind fun _ => ?_
  refine .pure fun r hr => ?_
  simp only [CallSite.refs, stmtsNodes_append, refsOf_append, refsOf_hookStmts, List.mem_cons,
    List.mem_append, List.not_mem_nil, or_false] at hr ⊢
  tauto

theorem closes_prepareCall (sc : ScopeStack) (site : Site) (callee : DeclId) :
    Closes PassState.store mayFail [] (prepareCall env sc site callee)
      fun c => c.toList.flatMap CallSite.refs := by
  unfold prepareCall
  split
  · exact .pure (by simp)
  · refine Closes.ofExcept.bind fun types => ?_
    dsimp only
    split
    · exact .pure (by simp)
    · exact .onlyIf _ (closes_prepareActive env _ site callee _ _ _)

@[simp] theorem refsOf_unit (span : Span) : refsOf (Expr.unit span).nodes = [] := rfl

/-- The references that an expression has and another one does not have. -/
def newRefs (e e' : Expr) : List DescriptorRef := (exprRefs e').filter (· ∉ exprRefs e)

theorem mem_newRefs {e e' : Expr} {r : DescriptorRef} :
    r ∈ newRefs e e' ↔ r ∈ exprRefs e' ∧ r ∉ exprRefs e := by
  simp [newRefs]

theorem closes_wrapCall (c : CallSite) (e : Expr) :
    Closes PassState.store mayFail c.refs (wrapCall env c e) (newRefs e) := by
  unfold wrapCall
  split
  · refine ((closes_siteHook env .afterCall c.callee e.span).weaken
      (by simp [CallSite.refs])).bind_given fun afterHook => ?_
    split
    · refine .pure fun r hr => ?_
      simp only [mem_newRefs, refsOf_blockWithResult, stmtsNodes_append, stmtsNodes, Stmt.nodes,
        refsOf_append, refsOf_unit, refsOf_nil, CallSite.refs, List.mem_append, List.mem_cons,
        List.not_mem_nil, or_false] at hr ⊢
      tauto
    · refine Closes.get.bind fun st => ?_
      have hids : Closes PassState.store mayFail []
          (modify fun st' => { st' with ids := (Lowering.temporary e st.ids).2.2 } :
            Build PassState PUnit) fun _ => [] := .of_same (fun _ => rfl) (by simp)
      refine hids.bind fun _ => .pure fun r hr => ?_
      simp only [mem_newRefs, refsOf_blockWithResult, stmtsNodes_append, stmtsNodes, Stmt.nodes,
        optionNodes, refsOf_append, refsOf_cons, refsOf_nil, Node.refs, CallSite.refs,
        List.mem_append, List.mem_cons, List.not_mem_nil, or_false, false_or] at hr ⊢
      tauto
  · refine .pure fun r hr => ?_
    simp only [mem_newRefs, refsOf_blockWithResult, CallSite.refs, List.mem_append,
      List.mem_cons] at hr ⊢
    tauto

/-- An instrumented call refers to what it referred to before and to settled descriptors. -/
theorem instrumentCall_keeps (first : Store) (base : DescriptorRef → Prop) (sc : ScopeStack)
    (e : Expr) (st : PassState) (hnone : st.failure = none) :
    (PassState.knowledge mayFail first base).Keeps st (instrumentCall env sc e st).2 e.nodes
      (instrumentCall env sc e st).1.nodes := by
  unfold instrumentCall
  split
  · rename_i site callee receiver typeArgs args
    have hprepare : Closes PassState.store mayFail [] (prepareCall env sc site callee) _ :=
      closes_prepareCall env sc site callee
    split
    · rename_i err st₁ hrun
      refine PassState.keeps_of hnone fun hok hclosed => ?_
      have hfail : mayFail := hok.resolve_right (by simp [PassState.fail])
      obtain ⟨hgrown, haccounted, -⟩ := hprepare _ _ _ _ hrun (.inl hfail) hclosed (by simp)
      exact ⟨hgrown, haccounted, fun _ hbefore _ => hbefore⟩
    · rename_i st₁ hrun
      refine PassState.keeps_of hnone fun _ hclosed => ?_
      obtain ⟨hgrown, haccounted, -⟩ := hprepare _ _ _ _ hrun (.inr ⟨_, rfl⟩) hclosed (by simp)
      exact ⟨hgrown, haccounted, fun _ hbefore _ => hbefore⟩
    · rename_i c st₁ hrun
      have hwrap : Closes PassState.store mayFail c.refs (wrapCall env c _) _ :=
        closes_wrapCall env c (.call site callee receiver typeArgs args)
      split
      · rename_i err st₂ hrun₂
        refine PassState.keeps_of hnone fun hok hclosed => ?_
        have hfail : mayFail := hok.resolve_right (by simp [PassState.fail])
        obtain ⟨hgrown, haccounted, hrefs⟩ :=
          hprepare _ _ _ _ hrun (.inl hfail) hclosed (by simp)
        obtain ⟨hgrown₂, haccounted₂, -⟩ :=
          hwrap _ _ _ _ hrun₂ (.inl hfail) haccounted (by simpa using hrefs _ rfl)
        -- The call is gone, and what stands in its place names no descriptor.
        exact ⟨hgrown.trans hgrown₂, haccounted₂, fun _ _ _ => (RefersTo.cons_iff rfl).mpr .nil⟩
      · rename_i wrapped st₂ hrun₂
        refine PassState.keeps_of hnone fun _ hclosed => ?_
        obtain ⟨hgrown, haccounted, hrefs⟩ :=
          hprepare _ _ _ _ hrun (.inr ⟨_, rfl⟩) hclosed (by simp)
        obtain ⟨hgrown₂, haccounted₂, hrefs₂⟩ :=
          hwrap _ _ _ _ hrun₂ (.inr ⟨_, rfl⟩) haccounted (by simpa using hrefs _ rfl)
        refine ⟨hgrown.trans hgrown₂, haccounted₂, fun known hbefore hsettled r hr => ?_⟩
        -- What the call named already was known before, the rest comes from the builders.
        by_cases hold : r ∈ exprRefs (.call site callee receiver typeArgs args)
        · exact hbefore r hold
        · exact hsettled r (.inr (hrefs₂ _ rfl r (mem_newRefs.mpr ⟨hr, hold⟩)))
  · exact .same

theorem closes_bodyHook (ty : TraceType) (h : Handle .functionInfo) (span : Span) :
    Closes PassState.store mayFail [h.toRef] (bodyHook env ty h span) exprRefs :=
  Closes.require.bind fun _ => .pure (by simp [functionArg])

/-- The references in the hook calls of a body. -/
def BodyHooks.refs (hooks : BodyHooks) : List DescriptorRef :=
  hooks.enter.toList.flatMap exprRefs ++ hooks.leave.toList.flatMap exprRefs

theorem closes_prepareBody (sc : ScopeStack) (head : DeclHead) :
    Closes PassState.store mayFail [] (prepareBody env sc head)
      fun hooks => hooks.toList.flatMap BodyHooks.refs := by
  refine Closes.ofExcept.bind fun _ => Closes.ofExcept.bind fun _ => .onlyIf _ ?_
  refine (PassState.closes_onStore (env.factory.closes_functionInfo head.id)).bind fun h => ?_
  refine ((closes_bodyHook env .functionEnter h head.span).onlyIf _).bind_given fun _ => ?_
  refine (((closes_bodyHook env .functionLeave h head.span).weaken (by simp)).onlyIf _).bind_given
    fun _ => .pure fun r hr => ?_
  simp only [BodyHooks.refs, List.mem_append] at hr ⊢
  tauto

section

variable {known : DescriptorRef → Prop} {hooks : BodyHooks}

theorem refersTo_stmts_append {xs ys : List Stmt} (hx : RefersTo known (stmtsNodes xs))
    (hy : RefersTo known (stmtsNodes ys)) : RefersTo known (stmtsNodes (xs ++ ys)) := by
  rw [stmtsNodes_append]
  exact hx.append hy

theorem BodyHooks.refersTo_enter (hhooks : ∀ r ∈ hooks.refs, known r) :
    RefersTo known (stmtsNodes (hookStmts hooks.enter)) := fun r hr =>
  hhooks r (List.mem_append_left _ (by rwa [← refsOf_hookStmts]))

theorem BodyHooks.refersTo_leave (hhooks : ∀ r ∈ hooks.refs, known r) {leave : Expr}
    (hleave : hooks.leave = some leave) : RefersTo known leave.nodes := by
  intro r (hr : r ∈ refsOf leave.nodes)
  exact hhooks r (List.mem_append_right _ (by simpa [hleave] using hr))

theorem refersTo_wrapBlock (id : DeclId) (returnTy : Ty) (hhooks : ∀ r ∈ hooks.refs, known r)
    (ids : IdAllocator) {stmts : List Stmt} (hstmts : RefersTo known (stmtsNodes stmts)) :
    RefersTo known (stmtsNodes (wrapBlock id returnTy hooks stmts ids).1) := by
  have henter := BodyHooks.refersTo_enter hhooks
  unfold wrapBlock
  split
  · exact refersTo_stmts_append henter hstmts
  · rename_i leave hleave
    have hcall := BodyHooks.refersTo_leave hhooks hleave
    have hleft := (stmtsLeaveReturns_keeps (h := ⟨id, leave⟩) hcall stmts ids trivial hstmts).2.2
    dsimp only
    split
    · exact refersTo_stmts_append (refersTo_stmts_append henter hleft) (hcall.append .nil)
    · exact refersTo_stmts_append (refersTo_stmts_append henter hleft) .nil

theorem refersTo_wrapExpression (id : DeclId) (returnTy : Ty) (hhooks : ∀ r ∈ hooks.refs, known r)
    (ids : IdAllocator) {e : Expr} (he : RefersTo known e.nodes) :
    RefersTo known (stmtsNodes (wrapExpression id returnTy hooks e ids).1) := by
  have henter := BodyHooks.refersTo_enter hhooks
  have hnode : ∀ {n : Node}, n.refs = [] → ∀ {nodes}, RefersTo known nodes →
      RefersTo known (n :: nodes) := fun hn _ hnodes => (RefersTo.cons_iff hn).mpr hnodes
  unfold wrapExpression
  split
  · rename_i leave hleave
    have hcall := BodyHooks.refersTo_leave hhooks hleave
    have hleft := (e.leaveReturns_keeps (h := ⟨id, leave⟩) hcall ids trivial he).2.2
    dsimp only
    split
    · exact refersTo_stmts_append henter (hleft.append .nil)
    · split
      · exact refersTo_stmts_append henter (hleft.append (hcall.append .nil))
      · refine refersTo_stmts_append henter (.append (hnode rfl hleft) (hcall.append ?_))
        exact .append (hnode rfl (hnode rfl .nil)) .nil
  · split
    · exact refersTo_stmts_append henter (he.append .nil)
    · exact refersTo_stmts_append henter (.append (hnode rfl he) .nil)

/-- A body with hooks refers to what the body and the hooks refer to. -/
theorem refersTo_wrapBody (id : DeclId) (returnTy : Ty) (hhooks : ∀ r ∈ hooks.refs, known r)
    (ids : IdAllocator) {body : Body} (hbody : RefersTo known body.nodes) :
    RefersTo known (wrapBody id returnTy hooks ids body).1.nodes := by
  cases body with
  | absent => exact hbody
  | block stmts => exact refersTo_wrapBlock id returnTy hhooks ids hbody
  | expression e => exact refersTo_wrapExpression id returnTy hhooks ids hbody

end

/-- An instrumented body refers to what it referred to before and to settled descriptors. -/
theorem instrumentBody_keeps (first : Store) (base : DescriptorRef → Prop) (sc : ScopeStack)
    (d : Decl) (st : PassState) (hnone : st.failure = none) :
    (PassState.knowledge mayFail first base).Keeps st (instrumentBody env sc d st).2 d.nodes
      (instrumentBody env sc d st).1.nodes := by
  unfold instrumentBody
  split
  · rename_i head info params body
    split
    · exact .same
    · have hprepare : Closes PassState.store mayFail [] (prepareBody env sc head) _ :=
        closes_prepareBody env sc head
      split
      · rename_i err st₁ hrun
        refine PassState.keeps_of hnone fun hok hclosed => ?_
        have hfail : mayFail := hok.resolve_right (by simp [PassState.fail])
        obtain ⟨hgrown, haccounted, -⟩ := hprepare _ _ _ _ hrun (.inl hfail) hclosed (by simp)
        exact ⟨hgrown, haccounted, fun _ hbefore _ => hbefore⟩
      · rename_i st₁ hrun
        refine PassState.keeps_of hnone fun _ hclosed => ?_
        obtain ⟨hgrown, haccounted, -⟩ := hprepare _ _ _ _ hrun (.inr ⟨_, rfl⟩) hclosed (by simp)
        exact ⟨hgrown, haccounted, fun _ hbefore _ => hbefore⟩
      · rename_i hooks st₁ hrun
        refine PassState.keeps_of hnone fun _ hclosed => ?_
        obtain ⟨hgrown, haccounted, hrefs⟩ :=
          hprepare _ _ _ _ hrun (.inr ⟨_, rfl⟩) hclosed (by simp)
        refine ⟨hgrown, haccounted, fun known hbefore hsettled => ?_⟩
        obtain ⟨hparams, hbody⟩ := RefersTo.append_iff.mp ((RefersTo.cons_iff rfl).mp hbefore)
        have hhooks : ∀ r ∈ hooks.refs, known r := fun r hr =>
          hsettled r (.inr (hrefs _ rfl r (by simpa using hr)))
        exact (RefersTo.cons_iff rfl).mpr (hparams.append
          (refersTo_wrapBody head.id info.returnTy hhooks st₁.ids hbody))
  · exact .same

theorem instrumenter_keeps (first : Store) (base : DescriptorRef → Prop) :
    (instrumenter env).Keeps (PassState.knowledge mayFail first base) where
  onExpr sc _ e st :=
    PassState.keeps_edit Expr.nodes fun hnone => instrumentCall_keeps env first base sc e st hnone
  onDecl sc d st :=
    PassState.keeps_edit Decl.nodes fun hnone => instrumentBody_keeps env first base sc d st hnone

end Instrument

namespace CallerCapture

theorem injector_keeps (env : PassEnv) {captured : CapturedDefaults} (first : Store)
    {base : DescriptorRef → Prop} (hcaptured : CapturedIn .refs base captured) :
    (injector env captured).Keeps (PassState.knowledge mayFail first base) where
  onDecl _ _ _ := .same
  onExpr sc _ e st := by
    refine PassState.keeps_edit Expr.nodes fun hnone => ?_
    unfold injectCall
    split
    · rename_i site callee receiver typeArgs args
      split
      · refine PassState.keeps_of hnone fun _ hclosed => ?_
        exact ⟨.refl _, hclosed, fun _ hbefore _ => hbefore⟩
      · exact .same
      · rename_i modes hmodes
        refine PassState.keeps_of hnone fun _ hclosed => ⟨.refl _, hclosed, ?_⟩
        intro known hbefore hknown
        exact within_filledCall hbefore fun index mode e he =>
          (within_freshCall hcaptured he).mono fun r hr => hknown r (.inl hr)
    · exact .same

end CallerCapture

/-! ## The pipeline -/

/-- What a walk over the own files of a module leaves behind. -/
theorem Module.runVisitor_keeps {first store : Store} {base : DescriptorRef → Prop}
    {v : Visitor PassState} (hv : v.Keeps (PassState.knowledge mayFail first base)) (m : Module)
    (hgrown : first.Grown store) (hclosed : store.Accounted mayFail)
    (hm : RefersTo (fun r => base r ∨ store.Settled mayFail r) m.nodes)
    (hok : mayFail ∨ ∃ changed, (m.runVisitor v store).outcome = .ok changed) :
    first.Grown (m.runVisitor v store).store ∧ (m.runVisitor v store).store.Accounted mayFail ∧
      RefersTo (fun r => base r ∨ (m.runVisitor v store).store.Settled mayFail r)
        (m.runVisitor v store).module.nodes := by
  have hnone : mayFail ∨ (filesWalk v m.files { ids := m.ids, store }).2.failure = none := by
    refine hok.imp_right ?_
    rintro ⟨changed, hchanged⟩
    unfold Module.runVisitor PassResult.ofWalk at hchanged
    cases hfailure : (filesWalk v m.files { ids := m.ids, store }).2.failure with
    | none => rfl
    | some e => simp [hfailure] at hchanged
  rw [Module.nodes_eq, RefersTo.append_iff] at hm
  obtain ⟨hgood, hmono, hrefs⟩ := filesWalk_keeps hv m.files { ids := m.ids, store }
    (fun _ => ⟨hgrown, hclosed⟩) (hm.1.mono fun r hr _ => hr)
  refine ⟨(hgood hnone).1, (hgood hnone).2, ?_⟩
  rw [Module.nodes_eq, RefersTo.append_iff]
  exact ⟨hrefs.mono fun r hr => hr hnone, hm.2.mono fun r hr => hmono r (fun _ => hr) hnone⟩

namespace PipelineState

/-- The store has grown out of the first one and is accounted for, and so is every reference in the
module and in the captured defaults. -/
structure Accounted (mayFail : Prop) (first : Store) (base : DescriptorRef → Prop)
    (s : PipelineState) : Prop where
  grown : first.Grown s.store
  closed : s.store.Accounted mayFail
  module : RefersTo (fun r => base r ∨ s.store.Settled mayFail r) s.module.nodes
  captured : CallerCapture.CapturedIn .refs (fun r => base r ∨ s.store.Settled mayFail r) s.captured

variable {first : Store} {base : DescriptorRef → Prop} {setup : PipelineSetup}
  {s : PipelineState}

/-- A pass that walks over the module keeps everything accounted for. -/
theorem Accounted.ofResult (hs : s.Accounted mayFail first base) {v : Visitor PassState}
    (hv : v.Keeps (PassState.knowledge mayFail s.store
      fun r => base r ∨ s.store.Settled mayFail r))
    (hok : mayFail ∨ ∃ changed, (s.module.runVisitor v s.store).outcome = .ok changed) :
    (s.ofResult (s.module.runVisitor v s.store)).2.Accounted mayFail first base := by
  obtain ⟨hgrown, hclosed, hmodule⟩ := s.module.runVisitor_keeps hv (.refl _) hs.closed
    (hs.module.mono fun _ hr => .inl hr) hok
  have hmono : ∀ r, base r ∨ s.store.Settled mayFail r →
      base r ∨ (s.module.runVisitor v s.store).store.Settled mayFail r := fun r hr =>
    hr.imp_right fun hr => hr.mono hgrown
  refine ⟨hs.grown.trans hgrown, hclosed, hmodule.mono fun r hr => ?_, fun entry hentry => ?_⟩
  · exact hr.elim (hmono r) .inr
  · exact (hs.captured entry hentry).mono hmono

theorem Accounted.runPassIn (hregistry : setup.registry = Handlers.defaults) {env : PassEnv}
    (hs : s.Accounted mayFail first base) (pass : PassName)
    (hok : mayFail ∨ ∃ changed, (s.runPassIn setup env pass).1 = .ok changed) :
    (s.runPassIn setup env pass).2.Accounted mayFail first base := by
  cases pass with
  | extractCallerDefaults =>
    obtain ⟨hmodule, hcaptured⟩ :=
      CallerCapture.within_extract (fun _ _ _ _ _ _ _ => rfl) hs.captured hs.module
    exact ⟨hs.grown, hs.closed, hmodule, hcaptured⟩
  | injectCallerArguments => exact hs.ofResult (CallerCapture.injector_keeps env _ hs.captured) hok
  | intrinsicDispatch =>
    refine hs.ofResult ?_ hok
    rw [hregistry]
    exact Dispatch.dispatcher_keeps env _ _
  | traceRemoval =>
    rw [PipelineState.runPassIn]
    split
    · rename_i m removed hrun
      exact ⟨hs.grown, hs.closed, Removal.within_run hrun hs.module, hs.captured⟩
    · exact hs
  | tracingInstrumentation => exact hs.ofResult (Instrument.instrumenter_keeps env _ _) hok

theorem Accounted.runPass (hregistry : setup.registry = Handlers.defaults)
    (hs : s.Accounted mayFail first base) (pass : PassName)
    (hok : mayFail ∨ ∃ changed, (s.runPass setup pass).1 = .ok changed) :
    (s.runPass setup pass).2.Accounted mayFail first base := by
  unfold PipelineState.runPass at hok ⊢
  split
  · exact hs
  · rename_i env henv
    rw [henv] at hok
    exact hs.runPassIn hregistry pass hok

/-- Passes one after the other, until one fails. -/
theorem Accounted.runPasses (hregistry : setup.registry = Handlers.defaults) :
    ∀ (passes : List PassName) {s t : PipelineState}
      {result : Except Error (List (PassName × Nat))},
      PipelineState.runPasses setup passes s = (result, t) →
      (mayFail ∨ ∃ outcomes, result = .ok outcomes) → s.Accounted mayFail first base →
      t.Accounted mayFail first base
  | [], s, t, _, hrun, _, hs => by
    cases hrun
    exact hs
  | pass :: passes, s, t, result, hrun, hok, hs => by
    have hstep := hs.runPass hregistry pass
    cases result with
    | error e =>
      have hfail : mayFail := hok.resolve_right (by rintro ⟨_, ⟨⟩⟩)
      obtain hpass | ⟨n, u, hpass, hrest⟩ := PipelineState.of_runPasses_cons_error hrun
      · rw [hpass] at hstep
        exact hstep (.inl hfail)
      · rw [hpass] at hstep
        exact runPasses hregistry passes hrest (.inl hfail) (hstep (.inl hfail))
    | ok outcomes =>
      obtain ⟨n, u, outcomes', hpass, hrest, -⟩ := PipelineState.of_runPasses_cons hrun
      rw [hpass] at hstep
      exact runPasses hregistry passes hrest (.inr ⟨outcomes', rfl⟩) (hstep (.inr ⟨n, rfl⟩))

end PipelineState

/-! ## A class whose members ask for it -/

namespace Pipeline.Sample

def span (start : Int32) : Span := ⟨⟨0⟩, start, start + 1⟩

def classTy : Ty := .ofClass "spyglass.ClassInfo"

/-- The runtime library, with one intrinsic. -/
def library : SourceFile where
  id := ⟨1⟩
  path := "Spyglass.kt"
  package := "spyglass"
  declarations :=
    [.function
      { id := ⟨100⟩, span := .undefined ⟨1⟩, origin := .library,
        annotations := [{ className := "spyglass.Intrinsic", span := .undefined ⟨1⟩ }] }
      { name := "currentClass", returnTy := classTy } [] .absent]

/-- A member that asks for its class. -/
def asking : Decl :=
  .function { id := ⟨1⟩, span := span 2 } { name := "f", returnTy := classTy } []
    (.expression (.call ⟨span 4, classTy⟩ ⟨100⟩ none [] []))

/-- A property with neither accessors nor a backing field. -/
def bare : Decl := .property { id := ⟨2⟩, span := span 6 } { name := "p" } none none none

/-- A module with one class. -/
def moduleOf (members : List Decl) : Module where
  name := "half"
  files :=
    [{ id := ⟨0⟩, path := "Main.kt",
       declarations := [.classDecl { id := ⟨0⟩, span := span 1 } { name := "C" } members] }]
  external := [library]

def defaults : PipelineSetup where
  options := {}
  sources := fun _ => []

/-- What becomes of a module with one class. -/
def ended (members : List Decl) : Except Error (List (PassName × Nat)) × PipelineState :=
  run defaults (moduleOf members) {}

theorem closed_empty : ({} : Store).Closed where
  indexed k entry hentry := by
    cases k <;> cases hentry
  stored k h info hinfo := by
    cases k <;> cases hinfo

end Pipeline.Sample

namespace Pipeline

variable {setup : PipelineSetup} {m : Module} {store : Store} {s : PipelineState}
  {result : Except Error (List (PassName × Nat))}

/-- Whatever comes of a run, its store and its module are accounted for. -/
theorem accounted_run (hregistry : setup.registry = Handlers.defaults) (hclosed : store.Closed)
    (hrun : run setup m store = (result, s)) (hok : mayFail ∨ ∃ outcomes, result = .ok outcomes) :
    s.Accounted mayFail store (· ∈ m.refs) := by
  have hstart : PipelineState.Accounted mayFail store (· ∈ m.refs) { module := m.syncIds, store } :=
    ⟨.refl _, hclosed.closedBut, fun r hr => .inl hr, by rintro _ ⟨⟩⟩
  unfold run runFrom at hrun
  split at hrun
  · cases hrun
    exact hstart
  · split at hrun
    · cases hrun
      exact hstart
    · exact hstart.runPasses hregistry _ hrun hok

/-- A run that succeeds leaves no dangling descriptor behind: the store is closed again, what was
finished stays as it was, and what the run has put into the module is finished. -/
theorem successful_run_closes_store {outcomes : List (PassName × Nat)}
    (hregistry : setup.registry = Handlers.defaults) (hclosed : store.Closed)
    (hrun : run setup m store = (.ok outcomes, s)) :
    s.store.Closed ∧
      (∀ (k : DescriptorKind) (h : Handle k) (info : k.Info),
        (store.arena k).get? h = some info → (s.store.arena k).get? h = some info) ∧
      ∀ r ∈ s.module.refs, r ∉ m.refs → s.store.Resolves r := by
  have hs : s.Accounted False store (· ∈ m.refs) :=
    accounted_run hregistry hclosed hrun (.inr ⟨outcomes, rfl⟩)
  refine ⟨hs.closed.closed, fun k h info hinfo => hs.grown.get? hinfo, fun r hr hnew => ?_⟩
  rcases hs.module r hr with hold | hresolves | hpending | hlost
  · exact absurd hold hnew
  · exact hresolves
  · exact hpending.elim
  · exact hlost.1.elim

/-- The class that a member asks for is finished when the run ends. -/
theorem Sample.class_finished :
    (Sample.ended [Sample.asking]).2.store.Closed ∧
      (Sample.ended [Sample.asking]).2.store.Resolves ⟨.classInfo, 0⟩ := by
  have ⟨hok, hnew⟩ : (Sample.ended [Sample.asking]).1.isOk = true ∧
      ⟨.classInfo, 0⟩ ∈ (Sample.ended [Sample.asking]).2.module.refs := by
    decide +kernel
  have hold : ⟨.classInfo, 0⟩ ∉ (Sample.moduleOf [Sample.asking]).refs := by decide +kernel
  -- the run is evaluated above, and is only a name from here on
  generalize hrun : Sample.ended [Sample.asking] = outcome at hok hnew ⊢
  obtain ⟨result, s⟩ := outcome
  obtain ⟨outcomes, rfl⟩ := Except.exists_ok hok
  obtain ⟨hclosed, -, hresolves⟩ := successful_run_closes_store rfl Sample.closed_empty hrun
  exact ⟨hclosed, hresolves _ hnew hold⟩

/-- Whatever comes of a run, keys lead to finished descriptors and what was finished stays as it
was. A handle inside a finished descriptor that leads nowhere is that of a builder that failed. -/
theorem run_loses_failed_descriptors_only (hregistry : setup.registry = Handlers.defaults)
    (hclosed : store.Closed) (hrun : run setup m store = (result, s)) :
    (∀ k, ∀ entry ∈ (s.store.arena k).index, s.store.Resolves entry.2.toRef) ∧
      (∀ (k : DescriptorKind) (h : Handle k) (info : k.Info),
        (store.arena k).get? h = some info → (s.store.arena k).get? h = some info) ∧
      ∀ (k : DescriptorKind) (h : Handle k) (info : k.Info),
        (s.store.arena k).get? h = some info →
          ∀ r ∈ k.refs info, s.store.Resolves r ∨ s.store.Lost r := by
  have hs : s.Accounted True store (· ∈ m.refs) :=
    accounted_run hregistry hclosed hrun (.inl trivial)
  refine ⟨fun k entry hentry => ?_, fun k h info hinfo => hs.grown.get? hinfo,
    fun k h info hinfo r hr => ?_⟩
  · exact (hs.closed.indexed k entry hentry).resolve_right id
  · rcases hs.closed.stored k h info hinfo r hr with hresolves | hpending | hlost
    · exact .inl hresolves
    · exact hpending.elim
    · exact .inr hlost.2

/-- A member that is finished before the builder of its class fails keeps the handle of the class. -/
theorem Sample.member_finished :
    (Sample.ended [Sample.asking, Sample.bare]).1.isOk = false ∧
      ((Sample.ended [Sample.asking, Sample.bare]).2.store.functions.get? ⟨0⟩).bind
        FunctionInfo.declaringClass = some ⟨0⟩ ∧
      ((Sample.ended [Sample.asking, Sample.bare]).2.store.classes.get? ⟨0⟩).isSome = false := by
  decide +kernel

/-- The handle of the class is that of a builder that has failed. -/
theorem Sample.class_lost : (Sample.ended [Sample.asking, Sample.bare]).2.store.Lost ⟨.classInfo, 0⟩ := by
  obtain ⟨-, hmember, hclass⟩ := Sample.member_finished
  generalize hrun : Sample.ended [Sample.asking, Sample.bare] = outcome at hmember hclass ⊢
  obtain ⟨result, s⟩ := outcome
  obtain ⟨info, hinfo, hdeclaring⟩ := Option.bind_eq_some_iff.mp hmember
  obtain ⟨-, -, hrefs⟩ := run_loses_failed_descriptors_only rfl Sample.closed_empty hrun
  have hknown := hrefs .functionInfo ⟨0⟩ info hinfo ⟨.classInfo, 0⟩ (by
    simp [DescriptorKind.refs, hdeclaring, handleRefs, Handle.toRef])
  exact hknown.resolve_left fun hresolves =>
    absurd (hclass.symm.trans hresolves) Bool.false_ne_true

/-- So a run that fails does not leave a closed store behind. -/
theorem Sample.failed_run_not_closed :
    ({} : Store).Closed ∧
      (∃ e, (Sample.ended [Sample.asking, Sample.bare]).1 = .error e) ∧
      ¬(Sample.ended [Sample.asking, Sample.bare]).2.store.Closed := by
  obtain ⟨hfails, hmember, hclass⟩ := Sample.member_finished
  generalize Sample.ended [Sample.asking, Sample.bare] = outcome at hfails hmember hclass ⊢
  obtain ⟨result, s⟩ := outcome
  refine ⟨Sample.closed_empty, ?_, fun hclosed => ?_⟩
  · cases result with
    | ok _ => cases hfails
    | error e => exact ⟨e, rfl⟩
  · obtain ⟨info, hinfo, hdeclaring⟩ := Option.bind_eq_some_iff.mp hmember
    have hresolves : s.store.Resolves ⟨.classInfo, 0⟩ :=
      hclosed.stored .functionInfo ⟨0⟩ info hinfo _ (by
        simp [DescriptorKind.refs, hdeclaring, handleRefs, Handle.toRef])
    exact absurd (hclass.symm.trans hresolves) Bool.false_ne_true

end Pipeline

end TraceWeave

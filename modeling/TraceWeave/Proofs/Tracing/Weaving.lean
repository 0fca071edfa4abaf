import TraceWeave.Proofs.Program.Walks
import TraceWeave.Proofs.Tracing.Leaving
import TraceWeave.Proofs.Tracing.Steps

/-! # Instrumentation weaves

A run of the instrumentation that succeeds makes woven code of a program, with the events that the
store at its end gives.

`Instrument.of_instrumentCall` and `Instrument.of_instrumentBody` are the two visits,
`Expr.walk_woven` and its companions the recursion, and `Instrument.run_woven` is about the pass.
-/

namespace TraceWeave

/-! ## States on the way to success -/

/-- A state that a pass comes through on its way to a store, without a failure. -/
def PassState.LeadsTo (store : Store) (st : PassState) : Prop :=
  st.failure = none ∧ st.store.Keeps store

theorem PassState.LeadsTo.of_follows {store : Store} {st st' : PassState} (h : st'.LeadsTo store)
    (hf : st.Follows st') : st.LeadsTo store :=
  ⟨hf.failure ▸ h.1, hf.store.trans h.2⟩

namespace Instrument

open Tracing PassState

variable {env : PassEnv} {store : Store} {sc : ScopeStack} {st : PassState}

/-- A call site on the way to success. -/
theorem of_instrumentCall {e : Expr} {site : Site} {callee : DeclId} {receiver : Option Expr}
    {typeArgs : List Ty} {args : List (Option Expr)}
    (he : e = .call site callee receiver typeArgs args)
    (h : (instrumentCall env sc e st).2.LeadsTo store) :
    st.LeadsTo store ∧ SiteBacked env store sc site callee ∧
      CallWoven env (callPlan env store sc site callee) e (instrumentCall env sc e st).1 := by
  subst he
  simp only [instrumentCall] at h ⊢
  rcases hprepare : (prepareCall env sc site callee).runOn st with ⟨err | none | c, st₁⟩
  · rw [hprepare] at h
    exact absurd h.1 (Option.some_ne_none err)
  · simp only [hprepare] at h ⊢
    obtain ⟨hf, hprepared⟩ := of_prepareCall hprepare
    obtain ⟨⟨hbefore, hafter⟩, hbacked⟩ := hprepared store h.2
    exact ⟨h.of_follows hf, hbacked fun _ hc => absurd hc.symm (Option.some_ne_none _),
      .inl ⟨hbefore, hafter, rfl⟩⟩
  · simp only [hprepare] at h ⊢
    obtain ⟨hf, hprepared⟩ := of_prepareCall hprepare
    rcases hwrap : (wrapCall env c (.call site callee receiver typeArgs args)).runOn st₁ with
      ⟨err | e', st₂⟩
    · rw [hwrap] at h
      exact absurd h.1 (Option.some_ne_none err)
    · simp only [hwrap] at h ⊢
      obtain ⟨hf', hwoven⟩ := of_wrapCall store hwrap
      have hstore : st₂.store.Keeps store := h.2
      have hleads : st₂.LeadsTo store := ⟨h.1, h.2⟩
      obtain ⟨hprepared, hbacked⟩ := hprepared store (hf'.store.trans hstore)
      obtain ⟨hsurrounds, hafter⟩ := hwoven hstore hprepared
      refine ⟨hleads.of_follows (hf.trans hf'), hbacked fun c' hc => ?_, .inr hsurrounds⟩
      cases hc
      exact hafter

/-- The plan of a body that was left alone. -/
theorem bodyEvent?_of_not_traceable {head : DeclHead} {body : Body} (h : ¬isTraceable head body)
    (ty : TraceType) (make : Handle .functionInfo → TraceEvent) :
    bodyEvent? env store sc head body ty make = none := by
  rw [bodyEvent?, eq_false_of_ne_true h]

section

variable {inner : ScopeStack} {own : DeclId} {plan : FunctionPlan} {hooks : BodyHooks}

/-- A block that was given its hooks. -/
theorem wrapBody_block_woven (returnTy : Ty) {stmts stmts' : List Stmt} (ids : IdAllocator)
    (hstmts : stmtsWoven env store (inner.push .ofBody) (some (own, none)) stmts stmts')
    (hid : Undeclared own (Body.block stmts).nodes)
    (hprepared : BodyPrepared env plan.enter plan.leave (some hooks))
    (hending : plan.ending = endingOf returnTy plan.enter plan.leave (.block stmts)) :
    ∃ woven, (Body.block stmts).Woven env store inner (some (own, plan.leave)) woven ∧
      BodyWoven env own plan woven (wrapBody own returnTy hooks ids (.block stmts')).1 := by
  obtain ⟨enterHook, leaveHook⟩ := hooks
  obtain ⟨henter, hleave, -⟩ := hprepared
  have henters := henter.hookStmts
  cases hplan : plan.leave with
  | none =>
    rw [hplan] at hleave
    cases hleave
    rw [hplan, endingOf] at hending
    exact ⟨_, ⟨stmts', hstmts, rfl⟩, .block henters (.inl hending)⟩
  | some ev =>
    rw [hplan] at hleave
    cases hleave with
    | @some _ leave hleave =>
      have hwoven := Body.woven_leaveReturns (h := ⟨own, leave⟩) hleave (.block stmts) hid .own
        ⟨stmts', hstmts, rfl⟩ ids
      refine ⟨_, hwoven, ?_⟩
      simp only [hplan, endingOf, Option.isSome_some, true_and] at hending
      simp only [wrapBody, wrapBlock, Body.leaveReturns]
      -- The hook at the end of a block is put in only where the block can come to its end.
      by_cases hunit : returnTy = .unit
      · rw [if_pos hunit] at hending
        by_cases hends : Block.endsWithReturn (stmtsLeaveReturns ⟨own, leave⟩ stmts' ids).1
        · rw [if_neg fun hcond => hcond.2 hends, List.append_nil]
          exact .block henters (.inr ⟨hending, hends⟩)
        · rw [if_pos ⟨hunit, hends⟩]
          exact .blockDropped henters hending hplan hleave
      · rw [if_neg hunit] at hending
        rw [if_neg fun hcond => hunit hcond.1, List.append_nil]
        exact .block henters (.inl hending)

/-- An expression that was given its hooks. -/
theorem wrapBody_expression_woven (returnTy : Ty) {e x : Expr} (ids : IdAllocator)
    (he : e.Woven env store inner (some (own, none)) x)
    (hid : Undeclared own (Body.expression e).nodes)
    (hprepared : BodyPrepared env plan.enter plan.leave (some hooks))
    (hending : plan.ending = endingOf returnTy plan.enter plan.leave (.expression e)) :
    ∃ woven, (Body.expression e).Woven env store inner (some (own, plan.leave)) woven ∧
      BodyWoven env own plan woven (wrapBody own returnTy hooks ids (.expression x)).1 := by
  obtain ⟨enterHook, leaveHook⟩ := hooks
  obtain ⟨henter, hleave, hactive⟩ := hprepared
  have henters := henter.hookStmts
  -- The value of the expression is returned, dropped, or there is none, and which of these it is
  -- depends on the leave event and on the type.
  cases hplan : plan.leave with
  | none =>
    rw [hplan] at hleave hactive
    cases hleave
    obtain hactive | hactive := hactive
    · simp only [hplan, endingOf, Option.isSome_none, Bool.false_eq_true, if_false, hactive,
        true_and] at hending
      refine ⟨_, ⟨x, he, rfl⟩, ?_⟩
      simp only [wrapBody, wrapExpression]
      by_cases htrivial : returnTy.isTrivial
      · rw [if_neg (not_not_intro htrivial)] at hending
        rw [if_pos htrivial]
        exact .expression henters hending
      · rw [if_pos htrivial] at hending
        rw [if_neg htrivial]
        exact .expressionReturned henters hending hplan
    · exact absurd hactive Bool.false_ne_true
  | some ev =>
    rw [hplan] at hleave
    cases hleave with
    | @some _ leave hleave =>
      have hwoven := Body.woven_leaveReturns (h := ⟨own, leave⟩) hleave (.expression e) hid .own
        ⟨x, he, rfl⟩ ids
      refine ⟨_, hwoven, ?_⟩
      have hty : (x.leaveReturns ⟨own, leave⟩ ids).1.ty = e.ty :=
        (x.leaveReturns_ty _ ids).trans he.ty_eq
      simp only [hplan, endingOf, Option.isSome_some, if_true] at hending
      simp only [wrapBody, wrapExpression, Body.leaveReturns, hty]
      by_cases hnothing : e.ty.isNothing
      · rw [if_pos hnothing] at hending
        rw [if_pos hnothing]
        exact .expression henters hending
      · rw [if_neg hnothing] at hending
        rw [if_neg hnothing]
        by_cases htrivial : e.ty.isTrivial
        · rw [if_pos htrivial] at hending
          rw [if_pos htrivial]
          exact .expressionDropped henters hending hplan hleave
        · rw [if_neg htrivial] at hending
          rw [if_neg htrivial]
          exact .expressionKept henters hending hplan hleave

variable (plan) in
/-- A body that was given its hooks. -/
theorem wrapBody_woven (returnTy : Ty) {body body' : Body} (ids : IdAllocator)
    (hbody : body.Woven env store inner (some (own, none)) body') (hpresent : body.isPresent)
    (hid : Undeclared own body.nodes)
    (hprepared : BodyPrepared env plan.enter plan.leave (some hooks))
    (hending : plan.ending = endingOf returnTy plan.enter plan.leave body) :
    ∃ woven, body.Woven env store inner (some (own, plan.leave)) woven ∧
      BodyWoven env own plan woven (wrapBody own returnTy hooks ids body').1 := by
  cases body with
  | absent => exact absurd hpresent Bool.false_ne_true
  | block stmts =>
    obtain ⟨stmts', hstmts, rfl⟩ := hbody
    exact wrapBody_block_woven returnTy ids hstmts hid hprepared hending
  | expression e =>
    obtain ⟨x, he, rfl⟩ := hbody
    exact wrapBody_expression_woven returnTy ids he hid hprepared hending

end

/-- The code that a function is woven from, before its body gets its hooks. -/
def CodeWoven (env : PassEnv) (store : Store) (sc : ScopeStack) (head : DeclHead)
    (params params' : List Param) (body body' : Body) : Prop :=
  paramsWoven env store (sc.inFunction head.id params) params params' ∧
    body.Woven env store (sc.inFunction head.id params) (some (head.id, none)) body'

/-- Weaving does not change whether a function can be traced. -/
theorem CodeWoven.isTraceable_eq {head : DeclHead} {params params' : List Param} {body body' : Body}
    (h : CodeWoven env store sc head params params' body body') :
    isTraceable head body = isTraceable head body' := by
  obtain ⟨-, hbody⟩ := h
  cases body with
  | absent => rw [show body' = .absent from hbody]
  | block | expression =>
    obtain ⟨_, -, rfl⟩ := hbody
    rfl

/-- A body that no event is active for stays as it is. -/
theorem CodeWoven.plain {head : DeclHead} {params params' : List Param} {body body' : Body}
    (h : CodeWoven env store sc head params params' body body') (info : FunctionHead)
    (henter : bodyEvent? env store sc head body .functionEnter .enter = none)
    (hleave : bodyEvent? env store sc head body .functionLeave .leave = none)
    (hbacked : BodyBacked env store sc head body) :
    (Decl.function head info params body).Woven env store sc
      (.function head info params' body') := by
  obtain ⟨hparams, hbody⟩ := h
  refine ⟨params', body', body', hparams, ?_, hbacked, .plain henter hleave, rfl⟩
  simp only [functionPlan, hleave]
  exact hbody

/-- A function on the way to success. -/
theorem of_instrumentBody {head : DeclHead} {info : FunctionHead} {params' : List Param}
    {body' : Body}
    (h : (instrumentBody env sc (.function head info params' body') st).2.LeadsTo store) :
    st.LeadsTo store ∧ ∀ params body, CodeWoven env store sc head params params' body body' →
      Undeclared head.id body.nodes →
      (Decl.function head info params body).Woven env store sc
        (instrumentBody env sc (.function head info params' body') st).1 := by
  unfold instrumentBody at h ⊢
  by_cases hleft : isTraceable head body'
  · have hleft' : ¬(!body'.isPresent || head.origin == .fakeOverride) := by
      simpa [isTraceable] using hleft
    simp only [if_neg hleft'] at h ⊢
    rcases hprepare : (prepareBody env sc head).runOn st with ⟨err | none | hooks, st₁⟩
    · rw [hprepare] at h
      exact absurd h.1 (Option.some_ne_none err)
    · simp only [hprepare] at h ⊢
      refine ⟨h.of_follows (of_prepareBody hleft hprepare).1, fun params body hcode _ => ?_⟩
      obtain ⟨hprepared, hbacked⟩ :=
        (of_prepareBody (hcode.isTraceable_eq.trans hleft) hprepare).2 store h.2
      exact hcode.plain info hprepared.1 hprepared.2 hbacked
    · simp only [hprepare] at h ⊢
      have hleads : st₁.LeadsTo store := ⟨h.1, h.2⟩
      refine ⟨hleads.of_follows (of_prepareBody hleft hprepare).1, ?_⟩
      intro params body hcode hid
      -- The body that is given its hooks is woven already, and the plan is that of the body before.
      -- Both are traceable or none is.
      have htrace := hcode.isTraceable_eq.trans hleft
      obtain ⟨hprepared, hbacked⟩ := (of_prepareBody htrace hprepare).2 store hleads.2
      have hpresent : body.isPresent := (Bool.and_eq_true_iff.mp htrace).1
      obtain ⟨woven, hwoven, hbody⟩ := wrapBody_woven
        (functionPlan env store sc (.function head info params body)) info.returnTy
        st₁.ids hcode.2 hpresent hid hprepared rfl
      exact ⟨params', woven, _, hcode.1, hwoven, hbacked, hbody, rfl⟩
  · have hleft' : (!body'.isPresent || head.origin == .fakeOverride) := by
      rw [isTraceable] at hleft
      cases hp : body'.isPresent <;> simp_all
    simp only [if_pos hleft'] at h ⊢
    refine ⟨h, fun params body hcode _ => ?_⟩
    have hnot : ¬isTraceable head body := by rwa [hcode.isTraceable_eq]
    exact hcode.plain info (bodyEvent?_of_not_traceable hnot _ _)
      (bodyEvent?_of_not_traceable hnot _ _) fun htrace => absurd htrace hnot

/-! ## Visits -/

/-- Only calls are changed. -/
theorem onExpr_of_callee? {e : Expr} (he : e.callee? = none) (place : Place) :
    (instrumenter env).onExpr sc place e st = (e, st) := by
  simp only [instrumenter, PassState.edit]
  split
  · rfl
  · cases e with
    | call => exact absurd he (Option.some_ne_none _)
    | _ => rfl

theorem of_onExpr_call {site : Site} {callee : DeclId} {receiver : Option Expr}
    {typeArgs : List Ty} {args : List (Option Expr)} {place : Place}
    (h : ((instrumenter env).onExpr sc place (.call site callee receiver typeArgs args) st).2.LeadsTo
      store) :
    st.LeadsTo store ∧ SiteBacked env store sc site callee ∧
      CallWoven env (callPlan env store sc site callee) (.call site callee receiver typeArgs args)
        ((instrumenter env).onExpr sc place (.call site callee receiver typeArgs args) st).1 := by
  simp only [instrumenter] at h ⊢
  obtain ⟨-, hedit⟩ := of_edit h.1
  rw [hedit] at h ⊢
  exact of_instrumentCall rfl h

/-- Only functions are changed. -/
theorem onDecl_of_not_function {d : Decl}
    (hd : ∀ head info params body, d ≠ .function head info params body) :
    (instrumenter env).onDecl sc d st = (d, st) := by
  simp only [instrumenter, PassState.edit]
  split
  · rfl
  · cases d with
    | function head info params body => exact absurd rfl (hd head info params body)
    | _ => rfl

theorem of_onDecl_function {head : DeclHead} {info : FunctionHead} {params' : List Param}
    {body' : Body}
    (h : ((instrumenter env).onDecl sc (.function head info params' body') st).2.LeadsTo store) :
    st.LeadsTo store ∧ ∀ params body, CodeWoven env store sc head params params' body body' →
      Undeclared head.id body.nodes →
      (Decl.function head info params body).Woven env store sc
        ((instrumenter env).onDecl sc (.function head info params' body') st).1 := by
  simp only [instrumenter] at h ⊢
  obtain ⟨-, hedit⟩ := of_edit h.1
  rw [hedit] at h ⊢
  exact of_instrumentBody h

/-- What comes before a visit on the way to success is on the way too. -/
theorem handsBack : (instrumenter env).HandsBack (PassState.LeadsTo store) where
  onExpr sc place e st h := by
    cases e with
    | call => exact (of_onExpr_call h).1
    | _ =>
      rw [onExpr_of_callee? rfl] at h
      exact h
  onDecl sc d st h := by
    cases d with
    | function => exact (of_onDecl_function h).1
    | _ =>
      rw [onDecl_of_not_function (by simp)] at h
      exact h

end Instrument

/-! ## The walk -/

/-- The declarations among nodes have distinct identities. -/
def DistinctDecls (nodes : List Node) : Prop := ((declsOf nodes).map Decl.id).Nodup

namespace DistinctDecls

variable {xs ys : List Node}

theorem of_append (h : DistinctDecls (xs ++ ys)) : DistinctDecls xs ∧ DistinctDecls ys := by
  unfold DistinctDecls at h
  rw [declsOf_append, List.map_append, List.nodup_append] at h
  exact ⟨h.1, h.2.1⟩

theorem of_decl {d : Decl} (h : DistinctDecls (.decl d :: ys)) :
    Undeclared d.id ys ∧ DistinctDecls ys := by
  unfold DistinctDecls at h
  rw [declsOf_decl, List.map_cons, List.nodup_cons] at h
  exact ⟨fun d' hd' heq => h.1 (heq ▸ List.mem_map_of_mem hd'), h.2⟩

end DistinctDecls

/-- Code that no hooks for leaving functions were put into. -/
def Tracing.Leaves.Quiet (lv : Leaves) : Prop := lv = none ∨ ∃ own, lv = some (own, none)

open Tracing Instrument

theorem Tracing.ReturnWoven.of_quiet {env : PassEnv} {lv : Leaves} (hlv : Leaves.Quiet lv)
    (target : ReturnTarget) (value : Expr) : ReturnWoven env lv target value value := by
  cases target with
  | block => rfl
  | function g =>
    obtain rfl | ⟨own, rfl⟩ := hlv
    · exact .refl value
    · by_cases hg : g = own
      · simp only [ReturnWoven, if_pos hg, LeaveWoven, Option.isSome_none, Bool.false_eq_true,
          false_and, if_false]
      · simp only [ReturnWoven, if_neg hg]
        exact .refl value

section

variable {env : PassEnv} {store : Store}

mutual

-- Success is known at the end of a node only. It is handed back to the parts from the last one to
-- the first, and each of them is woven by what the store has in the end.
theorem Expr.walk_woven : ∀ e : Expr, DistinctDecls e.nodes → ∀ sc place st,
    (e.walk (instrumenter env) sc place st).2.LeadsTo store → ∀ lv : Leaves, lv.Quiet →
      e.Woven env store sc lv (e.walk (instrumenter env) sc place st).1
  | .setVar s var value, hid => by
    intro sc place st h lv hlv
    simp only [Expr.walk] at h ⊢
    rw [onExpr_of_callee? rfl] at h ⊢
    exact ⟨_, value.walk_woven hid sc _ _ h lv hlv, rfl⟩
  | .call s callee receiver typeArgs args, hid => by
    intro sc place st h lv hlv
    simp only [Expr.walk] at h ⊢
    obtain ⟨hargs, hcall⟩ := of_onExpr_call h
    obtain ⟨hidr, hida⟩ := DistinctDecls.of_append hid
    have hreceiver := argsWalk_handsBack handsBack args _ _ hargs
    exact ⟨_, _, option_walk_woven receiver hidr sc _ _ hreceiver lv hlv,
      args_walk_woven args hida sc _ hargs lv hlv, hcall⟩
  | .block s stmts, hid => by
    intro sc place st h lv hlv
    simp only [Expr.walk] at h ⊢
    rw [onExpr_of_callee? rfl] at h ⊢
    exact ⟨_, stmts_walk_woven stmts hid _ _ h lv hlv, rfl⟩
  | .returnable s id stmts, hid => by
    intro sc place st h lv hlv
    simp only [Expr.walk] at h ⊢
    rw [onExpr_of_callee? rfl] at h ⊢
    exact ⟨_, stmts_walk_woven stmts hid _ _ h lv hlv, rfl⟩
  | .ret s target value, hid => by
    intro sc place st h lv hlv
    simp only [Expr.walk] at h ⊢
    rw [onExpr_of_callee? rfl] at h ⊢
    exact ⟨_, _, value.walk_woven hid sc _ _ h lv hlv, .of_quiet hlv target _, rfl⟩
  | .when s branches otherwise, hid => by
    intro sc place st h lv hlv
    simp only [Expr.walk] at h ⊢
    rw [onExpr_of_callee? rfl] at h ⊢
    obtain ⟨hidb, hido⟩ := DistinctDecls.of_append hid
    have hbranches := optionWalk_handsBack handsBack otherwise _ _ _ h
    exact ⟨_, _, branches_walk_woven branches hidb sc _ hbranches lv hlv,
      option_walk_woven otherwise hido sc _ _ h lv hlv, rfl⟩
  | .loop s condition body, hid => by
    intro sc place st h lv hlv
    simp only [Expr.walk] at h ⊢
    rw [onExpr_of_callee? rfl] at h ⊢
    obtain ⟨hidc, hidb⟩ := DistinctDecls.of_append hid
    have hcondition := body.walk_handsBack handsBack _ _ _ h
    exact ⟨_, _, condition.walk_woven hidc sc _ _ hcondition lv hlv,
      body.walk_woven hidb sc _ _ h lv hlv, rfl⟩
  | .binary s op lhs rhs, hid => by
    intro sc place st h lv hlv
    simp only [Expr.walk] at h ⊢
    rw [onExpr_of_callee? rfl] at h ⊢
    obtain ⟨hidl, hidr⟩ := DistinctDecls.of_append hid
    have hlhs := rhs.walk_handsBack handsBack _ _ _ h
    exact ⟨_, _, lhs.walk_woven hidl sc _ _ hlhs lv hlv, rhs.walk_woven hidr sc _ _ h lv hlv, rfl⟩
  | .not s operand, hid => by
    intro sc place st h lv hlv
    simp only [Expr.walk] at h ⊢
    rw [onExpr_of_callee? rfl] at h ⊢
    exact ⟨_, operand.walk_woven hid sc _ _ h lv hlv, rfl⟩
  | .concat s parts, hid => by
    intro sc place st h lv hlv
    simp only [Expr.walk] at h ⊢
    rw [onExpr_of_callee? rfl] at h ⊢
    exact ⟨_, exprs_walk_woven parts hid sc _ h lv hlv, rfl⟩
  | .lambda s decl, hid => by
    intro sc place st h lv hlv
    simp only [Expr.walk] at h ⊢
    rw [onExpr_of_callee? rfl] at h ⊢
    exact ⟨_, decl.walk_woven hid sc _ h, rfl⟩
  | .const _ _, _ | .getVar _ _, _ | .functionRef _ _, _ | .propertyRef _ _, _
  | .descriptor _ _, _ | .captureFrame _ _, _ => by
    intro sc place st h lv hlv
    rw [Expr.walk, onExpr_of_callee? rfl]
    rfl

theorem option_walk_woven : ∀ e : Option Expr, DistinctDecls (optionNodes e) → ∀ sc place st,
    (optionWalk (instrumenter env) sc place e st).2.LeadsTo store → ∀ lv : Leaves, lv.Quiet →
      optionWoven env store sc lv e (optionWalk (instrumenter env) sc place e st).1
  | none, _ => fun _ _ _ _ _ _ => rfl
  | some e, hid => fun sc place st h lv hlv => ⟨_, e.walk_woven hid sc place st h lv hlv, rfl⟩

theorem args_walk_woven : ∀ args : List (Option Expr), DistinctDecls (argsNodes args) → ∀ sc st,
    (argsWalk (instrumenter env) sc args st).2.LeadsTo store → ∀ lv : Leaves, lv.Quiet →
      argsWoven env store sc lv args (argsWalk (instrumenter env) sc args st).1
  | [], _ => fun _ _ _ _ _ => rfl
  | none :: args, hid => fun sc st h lv hlv => ⟨_, args_walk_woven args hid sc st h lv hlv, rfl⟩
  | some e :: args, hid => fun sc st h lv hlv => by
    obtain ⟨hide, hida⟩ := DistinctDecls.of_append hid
    have he := argsWalk_handsBack handsBack args _ _ h
    exact ⟨_, _, e.walk_woven hide sc _ _ he lv hlv, args_walk_woven args hida sc _ h lv hlv, rfl⟩

theorem exprs_walk_woven : ∀ es : List Expr, DistinctDecls (exprsNodes es) → ∀ sc st,
    (exprsWalk (instrumenter env) sc es st).2.LeadsTo store → ∀ lv : Leaves, lv.Quiet →
      exprsWoven env store sc lv es (exprsWalk (instrumenter env) sc es st).1
  | [], _ => fun _ _ _ _ _ => rfl
  | e :: es, hid => fun sc st h lv hlv => by
    obtain ⟨hide, hids⟩ := DistinctDecls.of_append hid
    have he := exprsWalk_handsBack handsBack es _ _ h
    exact ⟨_, _, e.walk_woven hide sc _ _ he lv hlv, exprs_walk_woven es hids sc _ h lv hlv, rfl⟩

theorem branches_walk_woven : ∀ branches : List (Expr × Expr),
    DistinctDecls (branchesNodes branches) → ∀ sc st,
    (branchesWalk (instrumenter env) sc branches st).2.LeadsTo store → ∀ lv : Leaves, lv.Quiet →
      branchesWoven env store sc lv branches (branchesWalk (instrumenter env) sc branches st).1
  | [], _ => fun _ _ _ _ _ => rfl
  | (condition, result) :: branches, hid => fun sc st h lv hlv => by
    obtain ⟨hidcr, hidb⟩ := DistinctDecls.of_append hid
    obtain ⟨hidc, hidr⟩ := DistinctDecls.of_append hidcr
    have hresult := branchesWalk_handsBack handsBack branches _ _ h
    have hcondition := result.walk_handsBack handsBack _ _ _ hresult
    exact ⟨_, _, _, condition.walk_woven hidc sc _ _ hcondition lv hlv,
      result.walk_woven hidr sc _ _ hresult lv hlv,
      branches_walk_woven branches hidb sc _ h lv hlv, rfl⟩

theorem stmts_walk_woven : ∀ stmts : List Stmt, DistinctDecls (stmtsNodes stmts) → ∀ sc st,
    (stmtsWalk (instrumenter env) sc stmts st).2.LeadsTo store → ∀ lv : Leaves, lv.Quiet →
      stmtsWoven env store sc lv stmts (stmtsWalk (instrumenter env) sc stmts st).1
  | [], _ => fun _ _ _ _ _ => rfl
  | stmt :: stmts, hid => fun sc st h lv hlv => by
    obtain ⟨hidx, hids⟩ := DistinctDecls.of_append hid
    have hstmt := stmtsWalk_handsBack handsBack stmts _ _ h
    exact ⟨_, _, stmt.walk_woven hidx sc _ hstmt lv hlv,
      stmts_walk_woven stmts hids _ _ h lv hlv, rfl⟩

theorem Stmt.walk_woven : ∀ stmt : Stmt, DistinctDecls stmt.nodes → ∀ sc st,
    (stmt.walk (instrumenter env) sc st).2.LeadsTo store → ∀ lv : Leaves, lv.Quiet →
      stmt.Woven env store sc lv (stmt.walk (instrumenter env) sc st).1
  | .expr e, hid => fun sc st h lv hlv => ⟨_, e.walk_woven hid sc _ st h lv hlv, rfl⟩
  | .var _ init, hid => fun sc st h lv hlv =>
    ⟨_, option_walk_woven init hid sc _ st h lv hlv, rfl⟩
  | .decl d, hid => fun sc st h _ _ => ⟨_, d.walk_woven hid sc st h, rfl⟩

theorem params_walk_woven : ∀ params : List Param, DistinctDecls (paramsNodes params) → ∀ sc st,
    (paramsWalk (instrumenter env) sc params st).2.LeadsTo store →
      paramsWoven env store sc params (paramsWalk (instrumenter env) sc params st).1
  | [], _ => fun _ _ _ => rfl
  | ⟨_, default⟩ :: params, hid => fun sc st h => by
    obtain ⟨hidd, hidp⟩ := DistinctDecls.of_append hid
    have hdefault := paramsWalk_handsBack handsBack params _ _ h
    exact ⟨_, _, option_walk_woven default hidd sc _ _ hdefault none (.inl rfl),
      params_walk_woven params hidp sc _ h, rfl⟩

theorem Body.walk_woven : ∀ body : Body, DistinctDecls body.nodes → ∀ sc st,
    (body.walk (instrumenter env) sc st).2.LeadsTo store → ∀ lv : Leaves, lv.Quiet →
      body.Woven env store sc lv (body.walk (instrumenter env) sc st).1
  | .absent, _ => fun _ _ _ _ _ => rfl
  | .block stmts, hid => fun _ st h lv hlv => ⟨_, stmts_walk_woven stmts hid _ st h lv hlv, rfl⟩
  | .expression e, hid => fun sc st h lv hlv => ⟨_, e.walk_woven hid sc _ st h lv hlv, rfl⟩

theorem Decl.walk_woven : ∀ d : Decl, DistinctDecls d.nodes → ∀ sc st,
    (d.walk (instrumenter env) sc st).2.LeadsTo store →
      d.Woven env store sc (d.walk (instrumenter env) sc st).1
  | .classDecl head info members, hid => by
    intro sc st h
    simp only [Decl.walk] at h ⊢
    rw [onDecl_of_not_function (by simp)] at h ⊢
    exact ⟨_, decls_walk_woven members (DistinctDecls.of_decl hid).2 _ _ h, rfl⟩
  | .function head info params body, hid => by
    intro sc st h
    simp only [Decl.walk] at h ⊢
    obtain ⟨hbody, hwoven⟩ := of_onDecl_function h
    obtain ⟨hun, hidpb⟩ := DistinctDecls.of_decl hid
    obtain ⟨hidp, hidb⟩ := DistinctDecls.of_append hidpb
    have hparams := body.walk_handsBack handsBack _ _ hbody
    exact hwoven params body ⟨params_walk_woven params hidp _ _ hparams,
      body.walk_woven hidb _ _ hbody _ (.inr ⟨head.id, rfl⟩)⟩ (Undeclared.append_iff.mp hun).2
  | .property head info backing getter setter, hid => by
    intro sc st h
    simp only [Decl.walk] at h ⊢
    rw [onDecl_of_not_function (by simp)] at h ⊢
    obtain ⟨hidbg, hids⟩ := DistinctDecls.of_append (DistinctDecls.of_decl hid).2
    obtain ⟨hidb, hidg⟩ := DistinctDecls.of_append hidbg
    have hgetter := accessorWalk_handsBack handsBack setter _ _ h
    have hbacking := accessorWalk_handsBack handsBack getter _ _ hgetter
    exact ⟨_, _, _, accessor_walk_woven backing hidb _ _ hbacking,
      accessor_walk_woven getter hidg _ _ hgetter, accessor_walk_woven setter hids _ _ h, rfl⟩
  | .field head info init, hid => by
    intro sc st h
    simp only [Decl.walk] at h ⊢
    rw [onDecl_of_not_function (by simp)] at h ⊢
    exact ⟨_, option_walk_woven init (DistinctDecls.of_decl hid).2 _ _ _ h none (.inl rfl), rfl⟩
  | .initializer head body, hid => by
    intro sc st h
    simp only [Decl.walk] at h ⊢
    rw [onDecl_of_not_function (by simp)] at h ⊢
    exact ⟨_, stmts_walk_woven body (DistinctDecls.of_decl hid).2 _ _ h none (.inl rfl), rfl⟩

theorem accessor_walk_woven : ∀ d : Option Decl, DistinctDecls (accessorNodes d) → ∀ sc st,
    (accessorWalk (instrumenter env) sc d st).2.LeadsTo store →
      accessorWoven env store sc d (accessorWalk (instrumenter env) sc d st).1
  | none, _ => fun _ _ _ => rfl
  | some d, hid => fun sc st h => ⟨_, d.walk_woven hid sc st h, rfl⟩

theorem decls_walk_woven : ∀ ds : List Decl, DistinctDecls (declsNodes ds) → ∀ sc st,
    (declsWalk (instrumenter env) sc ds st).2.LeadsTo store →
      declsWoven env store sc ds (declsWalk (instrumenter env) sc ds st).1
  | [], _ => fun _ _ _ => rfl
  | d :: ds, hid => fun sc st h => by
    obtain ⟨hidd, hids⟩ := DistinctDecls.of_append hid
    have hd := declsWalk_handsBack handsBack ds _ _ h
    exact ⟨_, _, d.walk_woven hidd sc _ hd, decls_walk_woven ds hids sc _ h, rfl⟩

end

end

/-! ## Modules -/

/-- What a module becomes: the code of its own files is woven. -/
structure Module.Woven (env : PassEnv) (store : Store) (m m' : Module) : Prop where
  files : List.Forall₂ (fun f f' => f'.id = f.id ∧ f'.package = f.package ∧
    declsWoven env store {} f.declarations f'.declarations) m.files m'.files
  external : m'.external = m.external

theorem files_walk_woven {env : PassEnv} {store : Store} : ∀ (fs : List SourceFile)
    (st : PassState), DistinctDecls (fs.flatMap fun f => declsNodes f.declarations) →
    (filesWalk (instrumenter env) fs st).2.LeadsTo store →
    List.Forall₂ (fun f f' => f'.id = f.id ∧ f'.package = f.package ∧
      declsWoven env store {} f.declarations f'.declarations) fs
      (filesWalk (instrumenter env) fs st).1
  | [], _, _, _ => .nil
  | f :: fs, st, hid, h => by
    rw [List.flatMap_cons] at hid
    obtain ⟨hidf, hidfs⟩ := DistinctDecls.of_append hid
    have hf := filesWalk_handsBack handsBack fs _ h
    exact .cons ⟨rfl, rfl, decls_walk_woven f.declarations hidf {} st hf⟩
      (files_walk_woven fs _ hidfs h)

/-- **Instrumentation weaves.** -/
theorem Instrument.run_woven {env : PassEnv} {m : Module} {store : Store} {n : Nat}
    (hids : m.declIds.Nodup) (h : (Instrument.run env m store).outcome = .ok n) :
    m.Woven env (Instrument.run env m store).store (Instrument.run env m store).module := by
  refine ⟨files_walk_woven m.files _ ?_ ⟨Module.failure_of_runVisitor h, .refl _⟩, rfl⟩
  unfold Module.declIds Module.decls Module.nodes Module.allFiles at hids
  rw [List.flatMap_append] at hids
  exact (DistinctDecls.of_append hids).1

end TraceWeave

import TraceWeave.Proofs.Pipeline.Identities
import TraceWeave.Proofs.Program.Accounts
import TraceWeave.Proofs.Tracing.Steps

/-! # What instrumentation inserts

Instrumentation takes no node away, up to one kind of failure. It puts nodes in: calls of hooks,
blocks and returns around what was there, and temporaries, each bound once and read once. This is
so for runs that fail as well as for runs that succeed.

`Inserts` says of two lists of nodes that the second has `Additions` put in, and `insertions` is
the account of it. `Instrument.instrumentCall_of_not_loses` and
`Instrument.instrumentBody_inserts` cover the visits; the one kind of failure is
`Instrument.LosesCall`.
-/

namespace TraceWeave

/-! ## Nodes up to what is below them -/

/-- Nodes apart from those below them. -/
def husks (nodes : List Node) : List Node := nodes.map Node.husk

@[simp] theorem husks_nil : husks [] = [] := rfl

@[simp] theorem husks_cons (n : Node) (nodes : List Node) :
    husks (n :: nodes) = n.husk :: husks nodes := rfl

@[simp] theorem husks_append (xs ys : List Node) : husks (xs ++ ys) = husks xs ++ husks ys :=
  List.map_append

/-- The variable that a node reads. -/
def Node.read? : Node → Option VarId
  | .expr (.getVar _ v) => some v
  | _ => none

theorem Node.read?_husk (n : Node) : n.husk.read? = n.read? := by
  rcases n with d | head | head | e
  · rfl
  · rfl
  · rfl
  · cases e <;> rfl

theorem Node.callee?_husk (n : Node) : n.husk.callee? = n.callee? := by
  rcases n with d | head | head | e
  · rfl
  · rfl
  · rfl
  · cases e <;> rfl

/-- The variables that nodes read. -/
def readsOf (nodes : List Node) : List VarId := nodes.filterMap Node.read?

theorem identsOf_husks (nodes : List Node) : identsOf (husks nodes) = identsOf nodes := by
  rw [identsOf, husks, List.flatMap_map]
  exact congrArg (List.flatMap · nodes) (funext fun n => Labels.idents.shallow n.shell_husk)

theorem readsOf_husks (nodes : List Node) : readsOf (husks nodes) = readsOf nodes := by
  rw [readsOf, husks, List.filterMap_map]
  exact congrArg (List.filterMap · nodes) (funext Node.read?_husk)

theorem calleesOf_husks (nodes : List Node) : calleesOf (husks nodes) = calleesOf nodes := by
  rw [calleesOf, husks, List.filterMap_map]
  exact congrArg (List.filterMap · nodes) (funext Node.callee?_husk)

@[simp] theorem readsOf_append (xs ys : List Node) :
    readsOf (xs ++ ys) = readsOf xs ++ readsOf ys := List.filterMap_append

/-! ## Fresh variables -/

namespace IdAllocator

/-- Some fresh variables, and the allocator behind them. -/
def vars (ids : IdAllocator) : Nat → List VarId × IdAllocator
  | 0 => ([], ids)
  | n + 1 =>
    let (v, ids) := ids.var
    let (vs, ids) := ids.vars n
    (v :: vs, ids)

theorem vars_add (m n : Nat) : ∀ ids : IdAllocator, ids.vars (m + n) =
    ((ids.vars m).1 ++ ((ids.vars m).2.vars n).1, ((ids.vars m).2.vars n).2) := by
  induction m with
  | zero =>
    intro ids
    rw [Nat.zero_add]
    rfl
  | succ m ih =>
    intro ids
    rw [Nat.succ_add]
    simp only [vars, ih, List.cons_append]

end IdAllocator

/-! ## Nodes that are put in -/

/-- Nodes that instrumentation puts in: they bind some variables and read each of them once, and
what they call belongs to the runtime library. -/
structure Additions (env : PassEnv) (vars : List VarId) (added : List Node) : Prop where
  idents : (identsOf added).Perm (vars.map .var)
  reads : (readsOf added).Perm vars
  calls : ∀ id ∈ calleesOf added, env.linkage.isRuntimeCall id = true

namespace Additions

variable {env : PassEnv} {vars vars' : List VarId} {xs ys : List Node}

theorem nothing : Additions env [] [] := ⟨.refl _, .refl _, nofun⟩

theorem append (h : Additions env vars xs) (h' : Additions env vars' ys) :
    Additions env (vars ++ vars') (xs ++ ys) where
  idents := by
    rw [identsOf_append, List.map_append]
    exact h.idents.append h'.idents
  reads := by
    rw [readsOf_append]
    exact h.reads.append h'.reads
  calls := by
    rw [calleesOf_append]
    exact List.forall_mem_append.mpr ⟨h.calls, h'.calls⟩

/-- A node that neither introduces nor reads nor calls anything. -/
theorem plain (n : Node) (hidents : Labels.idents.label n = [] := by rfl)
    (hread : n.read? = none := by rfl) (hcallee : n.callee? = none := by rfl) :
    Additions env [] [n] where
  idents := by
    rw [identsOf, List.flatMap_singleton, hidents]
    exact .refl _
  reads := by
    rw [readsOf, List.filterMap_cons_none hread]
    exact .refl _
  calls := by
    rw [calleesOf, List.filterMap_cons_none hcallee]
    exact nofun

/-- A temporary is bound once and read once. -/
theorem temporary (h : Additions env vars xs) (head : VarHead) (site : Site) :
    Additions env (head.id :: vars) (.var head :: (xs ++ [Node.expr (.getVar site head.id)])) where
  idents := by
    have hread : identsOf [.expr (.getVar site head.id)] = [] := rfl
    change (Ident.var head.id :: identsOf (xs ++ [Node.expr (.getVar site head.id)])).Perm _
    rw [identsOf_append, hread, List.append_nil, List.map_cons]
    exact h.idents.cons _
  reads := by
    change (readsOf (xs ++ [Node.expr (.getVar site head.id)])).Perm _
    rw [readsOf_append]
    exact List.perm_append_comm.trans (h.reads.cons _)
  calls := by
    change ∀ id ∈ calleesOf (xs ++ [Node.expr (.getVar site head.id)]), _
    rw [calleesOf_append]
    exact List.forall_mem_append.mpr ⟨h.calls, nofun⟩

end Additions

/-- Some variables are taken from an allocator, and nodes are put in that bind and read them. The
nodes before are still there, in their order. -/
def Inserts (env : PassEnv) (ids ids' : IdAllocator) (before after : List Node) : Prop :=
  ∃ n added, ids' = (ids.vars n).2 ∧ Additions env (ids.vars n).1 added ∧
    (husks after).Perm (husks before ++ husks added) ∧ (husks before).Sublist (husks after)

namespace Inserts

variable {env : PassEnv} {ids ids' ids'' : IdAllocator} {as bs cs ds : List Node}

theorem same (ids : IdAllocator) (nodes : List Node) : Inserts env ids ids nodes nodes :=
  ⟨0, [], rfl, .nothing, .of_eq (List.append_nil _).symm, .refl _⟩

theorem append (h : Inserts env ids ids' as bs) (h' : Inserts env ids' ids'' cs ds) :
    Inserts env ids ids'' (as ++ cs) (bs ++ ds) := by
  obtain ⟨m, xs, rfl, hxs, hperm, hsub⟩ := h
  obtain ⟨n, ys, rfl, hys, hperm', hsub'⟩ := h'
  refine ⟨m + n, xs ++ ys, by rw [IdAllocator.vars_add], ?_, ?_, ?_⟩
  · rw [IdAllocator.vars_add]
    exact hxs.append hys
  · rw [husks_append, husks_append, husks_append, List.append_assoc]
    -- what was added on the left moves past what was there on the right
    refine (hperm.append hperm').trans ?_
    rw [List.append_assoc]
    exact (List.perm_append_comm_assoc _ _ _).append_left _
  · rw [husks_append, husks_append]
    exact hsub.append hsub'

theorem seq (h : Inserts env ids ids' as bs) (h' : Inserts env ids' ids'' bs cs) :
    Inserts env ids ids'' as cs := by
  obtain ⟨m, xs, rfl, hxs, hperm, hsub⟩ := h
  obtain ⟨n, ys, rfl, hys, hperm', hsub'⟩ := h'
  refine ⟨m + n, xs ++ ys, by rw [IdAllocator.vars_add], ?_, ?_, hsub.trans hsub'⟩
  · rw [IdAllocator.vars_add]
    exact hxs.append hys
  · rw [husks_append, ← List.append_assoc]
    exact hperm'.trans (hperm.append_right _)

theorem around {n n' : Node} (hn : n'.husk = n.husk) (h : Inserts env ids ids' as bs) :
    Inserts env ids ids' (n :: as) (n' :: bs) := by
  obtain ⟨k, xs, hids, hxs, hperm, hsub⟩ := h
  refine ⟨k, xs, hids, hxs, ?_, ?_⟩
  · rw [husks_cons, husks_cons, hn]
    exact hperm.cons _
  · rw [husks_cons, husks_cons, hn]
    exact hsub.cons_cons _

/-- Nodes that are put in before and behind some nodes. -/
theorem enclose (n : Nat) (pre nodes post : List Node)
    (h : Additions env (ids.vars n).1 (pre ++ post)) :
    Inserts env ids (ids.vars n).2 nodes (pre ++ (nodes ++ post)) := by
  refine ⟨n, pre ++ post, rfl, h, ?_, ?_⟩
  · rw [← husks_append]
    exact List.Perm.map _ (List.perm_append_comm_assoc _ _ _)
  · rw [husks_append, husks_append]
    exact (List.sublist_append_left _ _).trans (List.sublist_append_right _ _)

theorem before {pre : List Node} (h : Additions env [] pre) (nodes : List Node) :
    Inserts env ids ids nodes (pre ++ nodes) := by
  have hnodes : Inserts env ids ids nodes (pre ++ (nodes ++ [])) :=
    enclose 0 pre nodes [] ((List.append_nil pre).symm ▸ h)
  rwa [List.append_nil] at hnodes

theorem behind {post : List Node} (h : Additions env [] post) (nodes : List Node) :
    Inserts env ids ids nodes (nodes ++ post) :=
  enclose 0 [] nodes post h

/-- A value that is kept in a temporary, which is read in the end. -/
theorem kept {between : List Node} (h : Additions env [] between) (e : Expr) :
    Inserts env ids (Lowering.temporary e ids).2.2 e.nodes
      ((Lowering.temporary e ids).2.1.nodes ++ (between ++ (Lowering.temporary e ids).1.nodes)) := by
  have hadded := h.temporary
    { id := ids.var.1, name := s!"tmp${ids.var.1.val}", ty := e.ty, span := e.span.toSynthetic,
      origin := .synthetic } ⟨e.span.toSynthetic, e.ty⟩
  exact enclose 1 [.var _] e.nodes (between ++ [Node.expr (.getVar _ _)]) hadded

end Inserts

/-- The account of the nodes that are put in. -/
def insertions (env : PassEnv) : Account IdAllocator where
  Holds := Inserts env
  nothing ids := .same ids []
  append := .append
  param ids _ := .same ids _
  var ids _ := .same ids _

/-! ## Hook calls -/

open Tracing

variable {env : PassEnv} {ids : IdAllocator}

/-- A hook call brings in nothing but itself. -/
theorem Tracing.Tells.additions {ev : TraceEvent} {x : Expr} (h : Tells env ev x) :
    Additions env [] x.nodes := by
  obtain ⟨id, span, hid, rfl⟩ := h
  have hcallees : calleesOf (Lowering.hookCall id (ev.argExprs span.toSynthetic) span).nodes =
      [id] := by
    cases ev <;> rfl
  refine ⟨?_, ?_, ?_⟩
  · cases ev <;> exact .refl _
  · cases ev <;> exact .refl _
  · rw [hcallees, List.forall_mem_singleton]
    exact Linkage.isRuntimeCall_of_hook? hid

theorem Tracing.TellsAll.additions {evs : List TraceEvent} {stmts : List Stmt}
    (h : TellsAll env evs stmts) : Additions env [] (stmtsNodes stmts) := by
  induction h with
  | nil => exact .nothing
  | cons h _ ih =>
    obtain ⟨x, rfl, hx⟩ := h
    exact hx.additions.append ih

theorem Instrument.TellsOption.additions {ev : Option TraceEvent} {hook : Option Expr}
    (h : TellsOption env ev hook) : ∀ x, hook = some x → Additions env [] x.nodes := by
  rintro x rfl
  cases h with
  | some htells => exact htells.additions

/-! ## Blocks around a value -/

theorem nodes_blockWithResult (stmts : List Stmt) (result : Expr) (span : Span) :
    (Lowering.blockWithResult stmts result span).nodes =
      .expr (Lowering.blockWithResult stmts result span) :: (stmtsNodes stmts ++ result.nodes) := by
  rw [Lowering.blockWithResult, Expr.nodes, stmtsNodes_append]
  simp only [stmtsNodes, Stmt.nodes, List.append_nil]

theorem nodes_unit (span : Span) : (Expr.unit span).nodes = [.expr (.unit span)] := rfl

theorem nodes_ofReturn (span : Span) (target : ReturnTarget) (value : Expr) :
    (Expr.ofReturn span target value).nodes =
      .expr (.ofReturn span target value) :: value.nodes := rfl

namespace Inserts

variable {stmts : List Stmt} {x : Expr}

/-- A block that runs hooks before it comes to its value. -/
theorem quietBlock (hstmts : Additions env [] (stmtsNodes stmts)) (core : Expr) (span : Span) :
    Inserts env ids ids core.nodes (Lowering.blockWithResult stmts core span).nodes := by
  rw [nodes_blockWithResult]
  exact before ((Additions.plain _).append hstmts) core.nodes

/-- A block that runs hooks before and after a value that is not kept. -/
theorem droppedBlock (hstmts : Additions env [] (stmtsNodes stmts))
    (hx : Additions env [] x.nodes) (core : Expr) (unitSpan span : Span) :
    Inserts env ids ids core.nodes
      (Lowering.blockWithResult (stmts ++ [Stmt.expr core, .expr x]) (.unit unitSpan)
        span).nodes := by
  have hvalue : Inserts env ids ids core.nodes
      (core.nodes ++ (x.nodes ++ [Node.expr (.unit unitSpan)])) :=
    behind (hx.append (.plain _)) core.nodes
  refine hvalue.seq ?_
  have hblock : Inserts env ids ids _ _ := before ((Additions.plain (.expr (Lowering.blockWithResult
    (stmts ++ [Stmt.expr core, .expr x]) (.unit unitSpan) span))).append hstmts)
    (core.nodes ++ (x.nodes ++ [Node.expr (.unit unitSpan)]))
  rw [nodes_blockWithResult, stmtsNodes_append, nodes_unit]
  simpa [stmtsNodes, Stmt.nodes] using hblock

/-- A block that keeps a value in a temporary while it runs a hook. -/
theorem keptBlock (hstmts : Additions env [] (stmtsNodes stmts))
    (hx : Additions env [] x.nodes) (core : Expr) (span : Span) :
    Inserts env ids (Lowering.temporary core ids).2.2 core.nodes
      (Lowering.blockWithResult (stmts ++ [(Lowering.temporary core ids).2.1, .expr x])
        (Lowering.temporary core ids).1 span).nodes := by
  refine (kept hx core).seq ?_
  have hblock : Inserts env (Lowering.temporary core ids).2.2 _ _ _ := before
    ((Additions.plain (.expr (Lowering.blockWithResult
      (stmts ++ [(Lowering.temporary core ids).2.1, .expr x]) (Lowering.temporary core ids).1
        span))).append hstmts)
    ((Lowering.temporary core ids).2.1.nodes ++ (x.nodes ++ (Lowering.temporary core ids).1.nodes))
  rw [nodes_blockWithResult, stmtsNodes_append]
  simpa [stmtsNodes, Stmt.nodes] using hblock

end Inserts

/-! ## Bodies -/

/-- A hook at returns puts in its calls and temporaries for the values. -/
theorem LeaveHook.returned_inserts {h : LeaveHook} (hcall : Additions env [] h.call.nodes)
    (target : ReturnTarget) (value : Expr) (ids : IdAllocator) :
    Inserts env ids (h.returned target value ids).2 value.nodes
      (h.returned target value ids).1.nodes := by
  have hnone : Additions env [] (stmtsNodes []) := .nothing
  unfold returned
  split
  · unfold after
    split
    · exact .droppedBlock hnone hcall value _ _
    · exact .keptBlock hnone hcall value _
  · exact .same _ _

theorem LeaveHook.accounts {h : LeaveHook} (hcall : Additions env [] h.call.nodes) :
    h.Accounts (insertions env) where
  same := .same
  around := .around
  returned target _ _ ids' _ hvalue := hvalue.seq (h.returned_inserts hcall target _ ids')

namespace Instrument

variable {hooks : BodyHooks}

/-- The hook calls for a body bring in nothing but themselves. -/
structure HooksOnly (env : PassEnv) (hooks : BodyHooks) : Prop where
  enter : Additions env [] (stmtsNodes (hookStmts hooks.enter))
  leave : ∀ x, hooks.leave = some x → Additions env [] x.nodes

theorem wrapBlock_inserts (hhooks : HooksOnly env hooks) (id : DeclId) (returnTy : Ty)
    (stmts : List Stmt) (ids : IdAllocator) :
    Inserts env ids (wrapBlock id returnTy hooks stmts ids).2 (stmtsNodes stmts)
      (stmtsNodes (wrapBlock id returnTy hooks stmts ids).1) := by
  unfold wrapBlock
  split
  · rw [stmtsNodes_append]
    exact .before hhooks.enter _
  · rename_i leave hleave
    have hcall := hhooks.leave leave hleave
    have hreturns := stmtsLeaveReturns_accounts (LeaveHook.accounts hcall) stmts ids
      (h := ⟨id, leave⟩)
    refine hreturns.seq ?_
    dsimp only
    rw [stmtsNodes_append, stmtsNodes_append, List.append_assoc]
    refine Inserts.enclose 0 _ _ _ (hhooks.enter.append ?_)
    split
    · rw [stmtsNodes, stmtsNodes, Stmt.nodes, List.append_nil]
      exact hcall
    · exact .nothing

/-- An expression body that is computed before the hook on leaving. -/
theorem wrapExpression_inserts (hhooks : HooksOnly env hooks) (id : DeclId) (returnTy : Ty)
    (e : Expr) (ids : IdAllocator) :
    Inserts env ids (wrapExpression id returnTy hooks e ids).2 e.nodes
      (stmtsNodes (wrapExpression id returnTy hooks e ids).1) := by
  unfold wrapExpression
  split
  · rename_i leave hleave
    have hcall := hhooks.leave leave hleave
    have hreturns := e.leaveReturns_accounts (LeaveHook.accounts hcall) ids (h := ⟨id, leave⟩)
    refine hreturns.seq ?_
    generalize e.leaveReturns ⟨id, leave⟩ ids = left
    obtain ⟨e, ids⟩ := left
    dsimp only
    -- A value that never arises needs no hook behind it, a trivial one is dropped before the hook,
    -- and any other one is bound and read again behind the hook.
    split
    · rw [stmtsNodes_append, stmtsNodes, Stmt.nodes, stmtsNodes, List.append_nil]
      exact .before hhooks.enter e.nodes
    · split
      · rw [stmtsNodes_append]
        refine (Inserts.behind hcall e.nodes).seq ?_
        simpa only [stmtsNodes, Stmt.nodes, List.append_nil] using
          Inserts.before hhooks.enter (e.nodes ++ leave.nodes)
      · have hbetween := hcall.append (.plain (.expr (.ofReturn e.span.toSynthetic (.function id)
          (Lowering.temporary e ids).1)))
        refine (Inserts.kept hbetween e).seq ?_
        rw [stmtsNodes_append]
        simpa [stmtsNodes, Stmt.nodes, nodes_ofReturn] using Inserts.before hhooks.enter _
  · split
    · rw [stmtsNodes_append, stmtsNodes, Stmt.nodes, stmtsNodes, List.append_nil]
      exact .before hhooks.enter e.nodes
    · have hreturn : Inserts env ids ids e.nodes
          (.expr (.ofReturn e.span.toSynthetic (.function id) e) :: e.nodes) :=
        .before (.plain _) e.nodes
      refine hreturn.seq ?_
      rw [stmtsNodes_append]
      simpa [stmtsNodes, Stmt.nodes, nodes_ofReturn] using Inserts.before hhooks.enter _

theorem wrapBody_inserts (hhooks : HooksOnly env hooks) (id : DeclId) (returnTy : Ty)
    (body : Body) (ids : IdAllocator) :
    Inserts env ids (wrapBody id returnTy hooks ids body).2 body.nodes
      (wrapBody id returnTy hooks ids body).1.nodes := by
  cases body with
  | absent => exact .same _ _
  | block stmts => exact wrapBlock_inserts hhooks id returnTy stmts ids
  | expression e => exact wrapExpression_inserts hhooks id returnTy e ids

end Instrument

/-! ## Steps that take no identities -/

/-- A step that leaves the allocator alone, also when it fails. -/
def Build.KeepsIds {α : Type} (step : Build PassState α) : Prop :=
  ∀ st, (step.runOn st).2.ids = st.ids

namespace Build.KeepsIds

variable {α β : Type}

theorem pure (a : α) : KeepsIds (Pure.pure a) := fun _ => rfl

theorem ofExcept (r : Except Error α) : KeepsIds (Build.ofExcept r) := fun _ => rfl

theorem require (value : Option α) (e : Error) : KeepsIds (Build.require value e) := by
  intro st
  cases value <;> rfl

theorem onStore (step : Build Store α) : KeepsIds (PassState.onStore step) := fun _ => rfl

theorem bind {step : Build PassState α} {next : α → Build PassState β} (h : KeepsIds step)
    (hnext : ∀ a, KeepsIds (next a)) : KeepsIds (step >>= next) := by
  intro st
  have hstep := h st
  rcases hrun : step.runOn st with ⟨e | a, u⟩ <;> rw [hrun] at hstep
  · rw [Build.runOn_bind_error hrun]
    exact hstep
  · rw [Build.runOn_bind_ok hrun, hnext a u]
    exact hstep

theorem onlyIf {condition : Bool} {step : Build PassState α} (h : KeepsIds step) :
    KeepsIds (Build.onlyIf condition step) := by
  unfold Build.onlyIf
  split
  · rw [map_eq_pure_bind]
    exact h.bind fun a => pure (some a)
  · exact pure none

end Build.KeepsIds

namespace Instrument

open Build.KeepsIds

theorem keepsIds_siteHook (env : PassEnv) (ty : TraceType) (h : Handle .functionInfo)
    (span : Span) : (siteHook env ty h span).KeepsIds :=
  (require _ _).bind fun _ => ((onStore _).bind fun _ => pure _).bind fun _ => pure _

theorem keepsIds_prepareCall (env : PassEnv) (sc : ScopeStack) (site : Site) (callee : DeclId) :
    (prepareCall env sc site callee).KeepsIds := by
  have hsuspension : ∀ executable, (suspensionHook env executable site.span).KeepsIds :=
    fun executable => (onStore _).bind fun current => keepsIds_siteHook env _ current _
  unfold prepareCall
  split
  · exact pure none
  · refine (ofExcept _).bind fun types => ?_
    dsimp only
    split
    · exact pure none
    · rename_i executable _
      refine .onlyIf ((onStore _).bind fun info => ?_)
      refine (Build.KeepsIds.onlyIf (keepsIds_siteHook env _ info _)).bind fun _ => ?_
      exact (Build.KeepsIds.onlyIf (hsuspension executable)).bind fun _ => pure _

theorem keepsIds_prepareBody (env : PassEnv) (sc : ScopeStack) (head : DeclHead) :
    (prepareBody env sc head).KeepsIds := by
  have hhook : ∀ ty (h : Handle .functionInfo), (bodyHook env ty h head.span).KeepsIds :=
    fun _ _ => (require _ _).bind fun _ => pure _
  refine (ofExcept _).bind fun around => (ofExcept _).bind fun own => ?_
  refine .onlyIf ((onStore _).bind fun info => ?_)
  exact (Build.KeepsIds.onlyIf (hhook _ info)).bind fun _ =>
    (Build.KeepsIds.onlyIf (hhook _ info)).bind fun _ => pure _

/-! ## Visits -/

variable {sc : ScopeStack} {st : PassState}

/-- A hook is to run after a call, and its call cannot be built. -/
def AfterHookFails (env : PassEnv) (c : CallSite) (span : Span) (st : PassState) : Prop :=
  c.after = true ∧ ∃ err st', (siteHook env .afterCall c.callee span).runOn st = (.error err, st')

/-- A call that is prepared for hooks, of which the one after it cannot be built. -/
def LosesCall (env : PassEnv) (sc : ScopeStack) (e : Expr) (st : PassState) : Prop :=
  ∃ callee c st', e.callee? = some callee ∧
    (prepareCall env sc e.site callee).runOn st = (.ok (some c), st') ∧
    AfterHookFails env c e.span st'

theorem wrapCall_of_fails {c : CallSite} {e : Expr} (h : AfterHookFails env c e.span st) :
    ∃ err st', (wrapCall env c e).runOn st = (.error err, st') ∧ st'.ids = st.ids := by
  obtain ⟨hafter, err, st', hhook⟩ := h
  have hkeeps := keepsIds_siteHook env .afterCall c.callee e.span st
  rw [hhook] at hkeeps
  refine ⟨err, st', ?_, hkeeps⟩
  rw [wrapCall, if_pos hafter]
  exact Build.runOn_bind_error hhook

theorem wrapCall_of_not_fails {c : CallSite} {evs : List TraceEvent}
    (hbefore : TellsAll env evs c.before) {e : Expr} (h : ¬AfterHookFails env c e.span st) :
    ∃ e' st', (wrapCall env c e).runOn st = (.ok e', st') ∧ st'.failure = st.failure ∧
      Inserts env st.ids st'.ids e.nodes e'.nodes := by
  have hstmts := hbefore.additions
  unfold wrapCall
  split
  · rename_i hafter
    rcases hhook : (siteHook env .afterCall c.callee e.span).runOn st with ⟨err | x, st₁⟩
    · exact absurd ⟨hafter, err, st₁, hhook⟩ h
    · have hids := keepsIds_siteHook env .afterCall c.callee e.span st
      rw [hhook] at hids
      obtain ⟨hfollows, htells⟩ := of_siteHook siteEvents_afterCall hhook
      obtain ⟨ev, -, hx⟩ := htells st₁.store (.refl _)
      rw [Build.runOn_bind_ok hhook, ← hids]
      split
      · exact ⟨_, _, rfl, hfollows.failure, .droppedBlock hstmts hx.additions e _ _⟩
      · exact ⟨_, _, rfl, hfollows.failure, .keptBlock hstmts hx.additions e _⟩
  · exact ⟨_, _, rfl, rfl, .quietBlock hstmts e _⟩

/-- A call that is lost has a placeholder in its place, and the pass has failed. -/
theorem instrumentCall_of_loses {e : Expr} (h : LosesCall env sc e st) :
    (instrumentCall env sc e st).1 = Lowering.placeholder e ∧
      (instrumentCall env sc e st).2.ids = st.ids ∧
      (instrumentCall env sc e st).2.failure.isSome := by
  obtain ⟨callee, c, st', hcallee, hprepare, hfails⟩ := h
  cases e with
  | call site callee' receiver typeArgs args =>
    cases hcallee
    have hkeeps := keepsIds_prepareCall env sc site callee st
    rw [show (prepareCall env sc site callee).runOn st = _ from hprepare] at hkeeps
    obtain ⟨err, st'', hwrap, hids⟩ := wrapCall_of_fails hfails
    rw [instrumentCall, show (prepareCall env sc site callee).runOn st = _ from hprepare]
    dsimp only
    rw [hwrap]
    exact ⟨rfl, hids.trans hkeeps, rfl⟩
  | _ => cases hcallee

/-- An expression that is not lost stays or is wrapped; where the pass fails, it stays. -/
theorem instrumentCall_of_not_loses {e : Expr} (h : ¬LosesCall env sc e st) :
    Inserts env st.ids (instrumentCall env sc e st).2.ids e.nodes
        (instrumentCall env sc e st).1.nodes ∧
      ((instrumentCall env sc e st).2.failure ≠ st.failure →
        (instrumentCall env sc e st).1 = e) := by
  cases e with
  | call site callee receiver typeArgs args =>
    have hkeeps := keepsIds_prepareCall env sc site callee st
    rw [instrumentCall]
    rcases hprepare : (prepareCall env sc site callee).runOn st with ⟨err | none | c, st'⟩
    all_goals rw [hprepare] at hkeeps
    · exact ⟨hkeeps ▸ .same _ _, fun _ => rfl⟩
    · exact ⟨hkeeps ▸ .same _ _, fun _ => rfl⟩
    · obtain ⟨hfollows, hprepared⟩ := of_prepareCall hprepare
      have hbefore := (hprepared st'.store (.refl _)).1.1
      have hbuilt : ¬AfterHookFails env c site.span st' :=
        fun hfails => h ⟨callee, c, st', rfl, hprepare, hfails⟩
      obtain ⟨e', st'', hwrap, hfailure, hinserts⟩ := wrapCall_of_not_fails
        (e := .call site callee receiver typeArgs args) hbefore hbuilt
      dsimp only
      rw [hwrap]
      refine ⟨hkeeps ▸ hinserts, fun hfailed => absurd ?_ hfailed⟩
      exact hfailure.trans hfollows.failure
  | _ => exact ⟨.same _ _, fun _ => rfl⟩

/-- A body is never lost. -/
theorem instrumentBody_inserts (env : PassEnv) (sc : ScopeStack) (d : Decl) (st : PassState) :
    Inserts env st.ids (instrumentBody env sc d st).2.ids d.nodes
      (instrumentBody env sc d st).1.nodes := by
  unfold instrumentBody
  split
  · rename_i head info params body
    split
    · exact .same _ _
    · rename_i hpresent
      have htraceable : isTraceable head body := by simpa [isTraceable] using hpresent
      have hkeeps := keepsIds_prepareBody env sc head st
      rcases hprepare : (prepareBody env sc head).runOn st with ⟨err | none | hooks, st'⟩
      all_goals rw [hprepare] at hkeeps
      · exact hkeeps ▸ .same _ _
      · exact hkeeps ▸ .same _ _
      · obtain ⟨-, hprepared⟩ := of_prepareBody htraceable hprepare
        obtain ⟨henter, hleave, -⟩ := (hprepared st'.store (.refl _)).1
        have hhooks : HooksOnly env hooks := ⟨henter.hookStmts.additions, hleave.additions⟩
        have hbody := wrapBody_inserts hhooks head.id info.returnTy body st'.ids
        rw [← hkeeps]
        exact ((Inserts.same _ (paramsNodes params)).append hbody).around rfl
  · exact .same _ _

end Instrument

end TraceWeave

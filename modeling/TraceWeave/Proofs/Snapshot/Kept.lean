import TraceWeave.Proofs.Snapshot.Carried
import TraceWeave.Pass.Removal
import TraceWeave.Proofs.Tracing.Weaving

/-! # Captures in later passes

Removal takes statements out and declares nothing anew, so the captures that are left stand where
they stood. Instrumentation puts hook calls around code and binds the values of calls and returns to
temporaries, but no capture comes after one of these in its block. So it moves no capture to a place
where code can count on other variables.

`Removal.captures_sublist` and `Instrument.captures_of_run` are the results, each by recursion on
the program.
-/

namespace TraceWeave

/-! ## Removal -/

namespace Removal

section

variable (keys : List CallKey) (owner : Option DeclId)

/-- What is taken out declares no variable. -/
theorem after_of_isScheduledStmt {stmt : Stmt} (h : isScheduledStmt keys owner stmt)
    (s : Standing) : s.after stmt = s := by
  cases stmt with
  | expr e => rfl
  | var | decl => cases h

theorem after_stmtPrune (stmt : Stmt) (s : Standing) :
    s.after (stmtPrune keys owner stmt).1 = s.after stmt := by
  cases stmt <;> rfl

theorem start_paramsPrune (id : DeclId) (params : List Param) :
    Standing.start id (paramsPrune keys owner params).1 = .start id params := by
  induction params with
  | nil => rfl
  | cons p params ih =>
    obtain ⟨head, default⟩ := p
    unfold Standing.start at ih ⊢
    rw [paramsPrune]
    simpa using ih

end

variable (keys : List CallKey)

mutual

-- What is taken out declares no variable, so everything behind it stands where it stood.
theorem exprPrune_sublist : ∀ (e : Expr) (owner : Option DeclId) (here : Option Standing),
    ((exprPrune keys owner e).1.spots .captures here).Sublist (e.spots .captures here)
  | .setVar _ _ value, owner, here => exprPrune_sublist value owner here
  | .call _ _ receiver _ args, owner, here =>
    (optionPrune_sublist receiver owner here).append (argsPrune_sublist args owner here)
  | .block _ stmts, owner, here | .returnable _ _ stmts, owner, here =>
    stmtsPrune_sublist stmts owner here
  | .ret _ _ value, owner, here => exprPrune_sublist value owner here
  | .when _ branches otherwise, owner, here =>
    (branchesPrune_sublist branches owner here).append (optionPrune_sublist otherwise owner here)
  | .loop _ condition body, owner, here =>
    (exprPrune_sublist condition owner here).append (exprPrune_sublist body owner here)
  | .binary _ _ lhs rhs, owner, here =>
    (exprPrune_sublist lhs owner here).append (exprPrune_sublist rhs owner here)
  | .not _ operand, owner, here => exprPrune_sublist operand owner here
  | .concat _ parts, owner, here => exprsPrune_sublist parts owner here
  | .lambda _ decl, owner, _ => declPrune_sublist decl owner
  | .const _ _, _, _ | .getVar _ _, _, _ | .functionRef _ _, _, _ | .propertyRef _ _, _, _
  | .descriptor _ _, _, _ | .captureFrame _ _, _, _ => .refl _

theorem optionPrune_sublist : ∀ (e : Option Expr) (owner : Option DeclId)
    (here : Option Standing), (optionSpots .captures here (optionPrune keys owner e).1).Sublist
      (optionSpots .captures here e)
  | none, _, _ => .refl _
  | some e, owner, here => exprPrune_sublist e owner here

theorem argsPrune_sublist : ∀ (args : List (Option Expr)) (owner : Option DeclId)
    (here : Option Standing), (argsSpots .captures here (argsPrune keys owner args).1).Sublist
      (argsSpots .captures here args)
  | [], _, _ => .refl _
  | none :: args, owner, here => argsPrune_sublist args owner here
  | some e :: args, owner, here =>
    (exprPrune_sublist e owner here).append (argsPrune_sublist args owner here)

theorem exprsPrune_sublist : ∀ (es : List Expr) (owner : Option DeclId)
    (here : Option Standing), (exprsSpots .captures here (exprsPrune keys owner es).1).Sublist
      (exprsSpots .captures here es)
  | [], _, _ => .refl _
  | e :: es, owner, here =>
    (exprPrune_sublist e owner here).append (exprsPrune_sublist es owner here)

theorem branchesPrune_sublist : ∀ (branches : List (Expr × Expr)) (owner : Option DeclId)
    (here : Option Standing),
    (branchesSpots .captures here (branchesPrune keys owner branches).1).Sublist
      (branchesSpots .captures here branches)
  | [], _, _ => .refl _
  | (condition, result) :: branches, owner, here =>
    ((exprPrune_sublist condition owner here).append (exprPrune_sublist result owner here)).append
      (branchesPrune_sublist branches owner here)

theorem stmtsPrune_sublist : ∀ (stmts : List Stmt) (owner : Option DeclId)
    (here : Option Standing), (stmtsSpots .captures here (stmtsPrune keys owner stmts).1).Sublist
      (stmtsSpots .captures here stmts)
  | [], _, _ => .refl _
  | stmt :: stmts, owner, here => by
    have hrest := stmtsPrune_sublist stmts owner (here.map (·.after stmt))
    rw [stmtsPrune]
    split
    · rename_i hscheduled
      have hafter : here.map (·.after stmt) = here := by
        cases here with
        | none => rfl
        | some s => exact congrArg some (after_of_isScheduledStmt keys owner hscheduled s)
      rw [hafter] at hrest
      rw [stmtsSpots, hafter]
      exact hrest.trans (List.sublist_append_right _ _)
    · rw [stmtsSpots, stmtsSpots]
      simp only [after_stmtPrune]
      exact (stmtPrune_sublist stmt owner here).append hrest

theorem stmtPrune_sublist : ∀ (stmt : Stmt) (owner : Option DeclId) (here : Option Standing),
    ((stmtPrune keys owner stmt).1.spots .captures here).Sublist (stmt.spots .captures here)
  | .expr e, owner, here => exprPrune_sublist e owner here
  | .var _ init, owner, here => optionPrune_sublist init owner here
  | .decl d, owner, _ => declPrune_sublist d owner

theorem paramsPrune_sublist : ∀ (params : List Param) (owner : Option DeclId),
    (paramsSpots .captures (paramsPrune keys owner params).1).Sublist (paramsSpots .captures params)
  | [], _ => .refl _
  | ⟨_, default⟩ :: params, owner =>
    (optionPrune_sublist default owner none).append (paramsPrune_sublist params owner)

theorem bodyPrune_sublist : ∀ (body : Body) (owner : Option DeclId) (here : Option Standing),
    ((bodyPrune keys owner body).1.spots .captures here).Sublist (body.spots .captures here)
  | .absent, _, _ => .refl _
  | .block stmts, owner, here => stmtsPrune_sublist stmts owner here
  | .expression e, owner, here => by
    rw [bodyPrune]
    split
    · exact List.nil_sublist _
    · exact exprPrune_sublist e owner here

theorem declPrune_sublist : ∀ (d : Decl) (owner : Option DeclId),
    ((declPrune keys owner d).1.spots .captures).Sublist (d.spots .captures)
  | .classDecl head _ members, _ => declsPrune_sublist members (some head.id)
  | .function head _ params body, _ => by
    rw [declPrune, Decl.spots, Decl.spots, start_paramsPrune]
    exact (paramsPrune_sublist params (some head.id)).append
      (bodyPrune_sublist body (some head.id) _)
  | .property _ _ backing getter setter, owner =>
    ((accessorPrune_sublist backing owner).append (accessorPrune_sublist getter owner)).append
      (accessorPrune_sublist setter owner)
  | .field head _ init, _ => optionPrune_sublist init (some head.id) none
  | .initializer head body, _ => stmtsPrune_sublist body (some head.id) none

theorem accessorPrune_sublist : ∀ (d : Option Decl) (owner : Option DeclId),
    (accessorSpots .captures (accessorPrune keys owner d).1).Sublist (accessorSpots .captures d)
  | none, _ => .refl _
  | some d, owner => declPrune_sublist d owner

theorem declsPrune_sublist : ∀ (ds : List Decl) (owner : Option DeclId),
    (declsSpots .captures (declsPrune keys owner ds).1).Sublist (declsSpots .captures ds)
  | [], _ => .refl _
  | d :: ds, owner => (declPrune_sublist d owner).append (declsPrune_sublist ds owner)

end

theorem filesPrune_sublist : ∀ fs : List SourceFile,
    (filesSpots .captures (filesPrune keys fs).1).Sublist (filesSpots .captures fs)
  | [] => .refl _
  | f :: fs => (declsPrune_sublist keys f.declarations none).append (filesPrune_sublist fs)

/-- Captures that are left stand where they stood. -/
theorem captures_sublist {env : PassEnv} {m m' : Module} {removed : Nat}
    (h : run env m = .ok (m', removed)) : m'.captures.Sublist m.captures := by
  unfold run at h
  obtain ⟨keys, -, h⟩ := Except.of_bind h
  cases h
  rw [Module.captures_eq, Module.captures_eq]
  exact (filesPrune_sublist keys m.files).append (.refl _)

end Removal

/-! ## Leaving through returns -/

section

variable {h : LeaveHook}

theorem LeaveHook.spots_returned (hcall : ∀ here, h.call.spots .captures here = [])
    (target : ReturnTarget) (value : Expr) (ids : IdAllocator) (here : Option Standing) :
    (h.returned target value ids).1.spots .captures here = value.spots .captures here := by
  unfold returned
  split
  · unfold after
    split
    · simp [Lowering.blockWithResult, Expr.spots, stmtsSpots, Stmt.spots, hcall, Expr.unit,
        Expr.ofConst]
    · simp [Lowering.blockWithResult, Lowering.temporary, Expr.spots, stmtsSpots, Stmt.spots,
        optionSpots, hcall]
  · rfl

theorem Stmt.after_leaveReturns (stmt : Stmt) (ids : IdAllocator) (s : Standing) :
    s.after (stmt.leaveReturns h ids).1 = s.after stmt := by
  cases stmt <;> rfl

mutual

theorem Expr.spots_leaveReturns (hcall : ∀ here, h.call.spots .captures here = []) :
    ∀ (e : Expr) (ids : IdAllocator) (here : Option Standing),
      (e.leaveReturns h ids).1.spots .captures here = e.spots .captures here
  | .setVar _ _ value, ids, here => value.spots_leaveReturns hcall ids here
  | .call _ _ receiver _ args, ids, here =>
    congrArg₂ (· ++ ·) (spots_optionLeaveReturns hcall receiver ids here)
      (spots_argsLeaveReturns hcall args _ here)
  | .block _ stmts, ids, here | .returnable _ _ stmts, ids, here =>
    spots_stmtsLeaveReturns hcall stmts ids here
  | .ret _ _ value, ids, here =>
    (h.spots_returned hcall _ _ _ here).trans (value.spots_leaveReturns hcall ids here)
  | .when _ branches otherwise, ids, here =>
    congrArg₂ (· ++ ·) (spots_branchesLeaveReturns hcall branches ids here)
      (spots_optionLeaveReturns hcall otherwise _ here)
  | .loop _ condition body, ids, here =>
    congrArg₂ (· ++ ·) (condition.spots_leaveReturns hcall ids here)
      (body.spots_leaveReturns hcall _ here)
  | .binary _ _ lhs rhs, ids, here =>
    congrArg₂ (· ++ ·) (lhs.spots_leaveReturns hcall ids here) (rhs.spots_leaveReturns hcall _ here)
  | .not _ operand, ids, here => operand.spots_leaveReturns hcall ids here
  | .concat _ parts, ids, here => spots_exprsLeaveReturns hcall parts ids here
  | .lambda _ decl, ids, _ => decl.spots_leaveReturns hcall ids
  | .const _ _, _, _ | .getVar _ _, _, _ | .functionRef _ _, _, _ | .propertyRef _ _, _, _
  | .descriptor _ _, _, _ | .captureFrame _ _, _, _ => rfl

theorem spots_optionLeaveReturns (hcall : ∀ here, h.call.spots .captures here = []) :
    ∀ (e : Option Expr) (ids : IdAllocator) (here : Option Standing),
      optionSpots .captures here (optionLeaveReturns h e ids).1 = optionSpots .captures here e
  | none, _, _ => rfl
  | some e, ids, here => e.spots_leaveReturns hcall ids here

theorem spots_argsLeaveReturns (hcall : ∀ here, h.call.spots .captures here = []) :
    ∀ (args : List (Option Expr)) (ids : IdAllocator) (here : Option Standing),
      argsSpots .captures here (argsLeaveReturns h args ids).1 = argsSpots .captures here args
  | [], _, _ => rfl
  | none :: args, ids, here => spots_argsLeaveReturns hcall args ids here
  | some e :: args, ids, here =>
    congrArg₂ (· ++ ·) (e.spots_leaveReturns hcall ids here)
      (spots_argsLeaveReturns hcall args _ here)

theorem spots_exprsLeaveReturns (hcall : ∀ here, h.call.spots .captures here = []) :
    ∀ (es : List Expr) (ids : IdAllocator) (here : Option Standing),
      exprsSpots .captures here (exprsLeaveReturns h es ids).1 = exprsSpots .captures here es
  | [], _, _ => rfl
  | e :: es, ids, here =>
    congrArg₂ (· ++ ·) (e.spots_leaveReturns hcall ids here)
      (spots_exprsLeaveReturns hcall es _ here)

theorem spots_branchesLeaveReturns (hcall : ∀ here, h.call.spots .captures here = []) :
    ∀ (branches : List (Expr × Expr)) (ids : IdAllocator) (here : Option Standing),
      branchesSpots .captures here (branchesLeaveReturns h branches ids).1 =
        branchesSpots .captures here branches
  | [], _, _ => rfl
  | (condition, result) :: branches, ids, here =>
    congrArg₂ (· ++ ·) (congrArg₂ (· ++ ·) (condition.spots_leaveReturns hcall ids here)
      (result.spots_leaveReturns hcall _ here)) (spots_branchesLeaveReturns hcall branches _ here)

theorem spots_stmtsLeaveReturns (hcall : ∀ here, h.call.spots .captures here = []) :
    ∀ (stmts : List Stmt) (ids : IdAllocator) (here : Option Standing),
      stmtsSpots .captures here (stmtsLeaveReturns h stmts ids).1 = stmtsSpots .captures here stmts
  | [], _, _ => rfl
  | stmt :: stmts, ids, here => by
    rw [stmtsLeaveReturns, stmtsSpots, stmtsSpots]
    simp only [Stmt.after_leaveReturns]
    exact congrArg₂ (· ++ ·) (stmt.spots_leaveReturns hcall ids here)
      (spots_stmtsLeaveReturns hcall stmts _ _)

theorem Stmt.spots_leaveReturns (hcall : ∀ here, h.call.spots .captures here = []) :
    ∀ (stmt : Stmt) (ids : IdAllocator) (here : Option Standing),
      (stmt.leaveReturns h ids).1.spots .captures here = stmt.spots .captures here
  | .expr e, ids, here => e.spots_leaveReturns hcall ids here
  | .var _ init, ids, here => spots_optionLeaveReturns hcall init ids here
  | .decl d, ids, _ => d.spots_leaveReturns hcall ids

theorem Body.spots_leaveReturns (hcall : ∀ here, h.call.spots .captures here = []) :
    ∀ (body : Body) (ids : IdAllocator) (here : Option Standing),
      (body.leaveReturns h ids).1.spots .captures here = body.spots .captures here
  | .absent, _, _ => rfl
  | .block stmts, ids, here => spots_stmtsLeaveReturns hcall stmts ids here
  | .expression e, ids, here => e.spots_leaveReturns hcall ids here

theorem Decl.spots_leaveReturns (hcall : ∀ here, h.call.spots .captures here = []) :
    ∀ (d : Decl) (ids : IdAllocator),
      (d.leaveReturns h ids).1.spots .captures = d.spots .captures
  | .function _ _ params body, ids =>
    congrArg (paramsSpots .captures params ++ ·) (body.spots_leaveReturns hcall ids _)
  | .classDecl _ _ members, ids => spots_declsLeaveReturns hcall members ids
  | .property _ _ _ _ _, _ | .field _ _ _, _ | .initializer _ _, _ => rfl

theorem spots_declsLeaveReturns (hcall : ∀ here, h.call.spots .captures here = []) :
    ∀ (ds : List Decl) (ids : IdAllocator),
      declsSpots .captures (declsLeaveReturns h ds ids).1 = declsSpots .captures ds
  | [], _ => rfl
  | d :: ds, ids =>
    congrArg₂ (· ++ ·) (d.spots_leaveReturns hcall ids) (spots_declsLeaveReturns hcall ds _)

end

end

/-! ## Instrumentation -/

namespace Instrument

open Tracing PassState

variable {env : PassEnv}

/-- A hook call takes descriptors only. -/
theorem spots_of_tells {ev : TraceEvent} {x : Expr} (h : Tells env ev x) (here : Option Standing) :
    x.spots .captures here = [] := by
  obtain ⟨id, span, -, rfl⟩ := h
  cases ev <;> rfl

/-- Hook calls before code add nothing and declare nothing. -/
theorem spots_of_tellsAll {evs : List TraceEvent} {stmts : List Stmt} (h : TellsAll env evs stmts)
    (rest : List Stmt) (here : Option Standing) :
    stmtsSpots .captures here (stmts ++ rest) = stmtsSpots .captures here rest := by
  induction h with
  | nil => rfl
  | cons hstmt _ ih =>
    obtain ⟨x, rfl, hx⟩ := hstmt
    rw [List.cons_append, stmtsSpots, Stmt.spots, spots_of_tells hx, List.nil_append]
    cases here <;> exact ih

theorem spots_of_surrounds {before : List TraceEvent} {after : Option TraceEvent} {core e : Expr}
    (h : Surrounds env before after core e) (here : Option Standing) :
    e.spots .captures here = core.spots .captures here := by
  cases h with
  | quiet hbefore =>
    rw [Lowering.blockWithResult, Expr.spots, spots_of_tellsAll hbefore]
    simp [stmtsSpots, Stmt.spots]
  | dropped hbefore hafter _ =>
    rw [Lowering.blockWithResult, Expr.spots, List.append_assoc, spots_of_tellsAll hbefore]
    simp [stmtsSpots, Stmt.spots, spots_of_tells hafter, Expr.unit, Expr.ofConst, Expr.spots]
  | kept hbefore hafter _ =>
    rw [Lowering.blockWithResult, Expr.spots, List.append_assoc, spots_of_tellsAll hbefore]
    simp [stmtsSpots, Stmt.spots, optionSpots, spots_of_tells hafter, Expr.spots]

theorem spots_of_callWoven {plan : CallPlan} {core e : Expr} (h : CallWoven env plan core e)
    (here : Option Standing) : e.spots .captures here = core.spots .captures here := by
  obtain ⟨-, -, rfl⟩ | h := h
  · rfl
  · exact spots_of_surrounds h here

/-- A block body with its hooks. -/
theorem spots_wrapBlock {enter leave : Option TraceEvent} {hooks : BodyHooks}
    (h : BodyPrepared env enter leave (some hooks)) (own : DeclId) (returnTy : Ty)
    (ids : IdAllocator) (stmts : List Stmt) (here : Option Standing) :
    stmtsSpots .captures here (wrapBlock own returnTy hooks stmts ids).1 =
      stmtsSpots .captures here stmts := by
  obtain ⟨enterHook, leaveHook⟩ := hooks
  obtain ⟨henter, hleave, -⟩ := h
  unfold wrapBlock
  cases hleave with
  | none => exact spots_of_tellsAll henter.hookStmts stmts here
  | @some ev call hcall =>
    have hcall := spots_of_tells hcall
    dsimp only
    rw [List.append_assoc, spots_of_tellsAll henter.hookStmts, stmtsSpots_append,
      spots_stmtsLeaveReturns (h := ⟨own, call⟩) hcall]
    split
    · simp [stmtsSpots, Stmt.spots, hcall]
    · simp [stmtsSpots]

/-- An expression body with its hooks. -/
theorem spots_wrapExpression {enter leave : Option TraceEvent} {hooks : BodyHooks}
    (h : BodyPrepared env enter leave (some hooks)) (own : DeclId) (returnTy : Ty)
    (ids : IdAllocator) (e : Expr) (here : Option Standing) :
    stmtsSpots .captures here (wrapExpression own returnTy hooks e ids).1 =
      e.spots .captures here := by
  obtain ⟨enterHook, leaveHook⟩ := hooks
  obtain ⟨henter, hleave, -⟩ := h
  have henters := henter.hookStmts
  unfold wrapExpression
  cases hleave with
  | none =>
    dsimp only
    split <;> rw [spots_of_tellsAll henters] <;>
      simp [stmtsSpots, Stmt.spots, Expr.ofReturn, Expr.spots]
  | @some ev call hcall =>
    have hcall := spots_of_tells hcall
    have he := e.spots_leaveReturns (h := ⟨own, call⟩) hcall ids here
    dsimp only
    split
    · rw [spots_of_tellsAll henters]
      simp [stmtsSpots, Stmt.spots, he]
    · split <;> rw [spots_of_tellsAll henters] <;>
        simp [stmtsSpots, Stmt.spots, Lowering.temporary, optionSpots, Expr.ofReturn, Expr.spots,
          he, hcall]

theorem spots_wrapBody {enter leave : Option TraceEvent} {hooks : BodyHooks}
    (h : BodyPrepared env enter leave (some hooks)) (own : DeclId) (returnTy : Ty)
    (ids : IdAllocator) (body : Body) (here : Option Standing) :
    (wrapBody own returnTy hooks ids body).1.spots .captures here = body.spots .captures here := by
  cases body with
  | absent => rfl
  | block stmts => exact spots_wrapBlock h own returnTy ids stmts here
  | expression e => exact spots_wrapExpression h own returnTy ids e here

/-- A declaration has the captures that it had, each where it stood. -/
theorem spots_onDecl (sc : ScopeStack) (d : Decl) (st : PassState) :
    ((instrumenter env).onDecl sc d st).1.spots .captures = d.spots .captures := by
  cases d with
  | function head info params body =>
    simp only [instrumenter, PassState.edit]
    split
    · rfl
    · simp only [instrumentBody]
      split
      · rfl
      · rename_i hleft
        have hbody : isTraceable head body := by simpa [isTraceable] using hleft
        rcases hprepare : (prepareBody env sc head).runOn st with ⟨err | none | hooks, st'⟩
        · rfl
        · rfl
        · obtain ⟨hprepared, -⟩ := (of_prepareBody hbody hprepare).2 st'.store (.refl _)
          dsimp only
          rw [Decl.spots, Decl.spots, spots_wrapBody hprepared]
  | classDecl | property | field | initializer => rw [onDecl_of_not_function (by simp)]

theorem instrumenter_carries (store : Store) :
    (instrumenter env).Carries (PassState.LeadsTo store) (fun _ _ => True) .captures .captures
      Eq where
  handsBack := handsBack
  onExpr _ place _ _ he := onExpr_of_callee? he place
  onDecl sc d st _ := spots_onDecl sc d st
  onCapture _ _ _ _ := List.forall₂_refl _
  onCall {sc here place site callee receiver receiver' typeArgs args args' st} _ h hbelow := by
    obtain ⟨-, -, hwoven⟩ := of_onExpr_call h
    rw [spots_of_callWoven hwoven]
    exact hbelow

/-- Instrumentation keeps all captures where they stand. -/
theorem captures_of_run {m : Module} {store : Store} {n : Nat}
    (h : (run env m store).outcome = .ok n) : (run env m store).module.captures = m.captures := by
  have hleads : (filesWalk (instrumenter env) m.files { ids := m.ids, store }).2.LeadsTo
      (run env m store).store := ⟨Module.failure_of_runVisitor h, .refl _⟩
  have hfiles := filesWalk_carries (instrumenter_carries _) m.files (fun _ _ _ => trivial) _ hleads
  rw [List.forall₂_eq_eq_eq] at hfiles
  rw [Module.captures_eq, Module.captures_eq, hfiles]
  rfl

end Instrument

end TraceWeave

import TraceWeave.Proofs.Tracing.Woven

/-! # Leaving through a return keeps code woven

The hook calls of an outer function are put into code that is woven already. In the code of the
function itself they complete its returns, in the code of nested functions they only reach returns
that cannot succeed. Identities have to be distinct for this: a nested function with the identity
of the outer one would get its hooks twice.

`Tracing.Leaving` is what changes for the code, and `Expr.woven_leaveReturns` and its companions
are the recursion; `Undeclared` is the condition on identities.
-/

namespace TraceWeave

/-! ## Parts that stay as they are -/

theorem Expr.leaveReturns_site (h : LeaveHook) (e : Expr) (ids : IdAllocator) :
    (e.leaveReturns h ids).1.site = e.site := by
  cases e <;> rfl

theorem Expr.leaveReturns_ty (h : LeaveHook) (e : Expr) (ids : IdAllocator) :
    (e.leaveReturns h ids).1.ty = e.ty :=
  congrArg Site.ty (e.leaveReturns_site h ids)

theorem Expr.leaveReturns_span (h : LeaveHook) (e : Expr) (ids : IdAllocator) :
    (e.leaveReturns h ids).1.span = e.span :=
  congrArg Site.span (e.leaveReturns_site h ids)

theorem Expr.leaveReturns_isReturn (h : LeaveHook) (e : Expr) (ids : IdAllocator) :
    (e.leaveReturns h ids).1.isReturn = e.isReturn := by
  cases e <;> simp only [Expr.leaveReturns, Expr.isReturn]

theorem stmtsLeaveReturns_append (h : LeaveHook) : ∀ (xs ys : List Stmt) (ids : IdAllocator),
    stmtsLeaveReturns h (xs ++ ys) ids =
      ((stmtsLeaveReturns h xs ids).1 ++
          (stmtsLeaveReturns h ys (stmtsLeaveReturns h xs ids).2).1,
        (stmtsLeaveReturns h ys (stmtsLeaveReturns h xs ids).2).2)
  | [], ys, ids => rfl
  | x :: xs, ys, ids => by
    simp only [List.cons_append, stmtsLeaveReturns, stmtsLeaveReturns_append h xs ys]

/-- A block ends with a `return` after the hooks were put in just as before. -/
theorem Block.endsWithReturn_leaveReturns (h : LeaveHook) (stmts : List Stmt) (ids : IdAllocator) :
    Block.endsWithReturn (stmtsLeaveReturns h stmts ids).1 = Block.endsWithReturn stmts := by
  rcases List.eq_nil_or_concat stmts with rfl | ⟨init, last, rfl⟩
  · rfl
  · rw [List.concat_eq_append, stmtsLeaveReturns_append]
    simp only [Block.endsWithReturn, Block.lastExpr?, stmtsLeaveReturns, List.getLast?_append,
      List.getLast?_singleton, Option.some_or]
    cases last with
    | expr e => exact e.leaveReturns_isReturn h _
    | var head init => rfl
    | decl d => rfl

namespace Tracing

variable {env : PassEnv} {h : LeaveHook} {before : List TraceEvent} {after : Option TraceEvent}

theorem Tells.leaveReturns {ev : TraceEvent} {x : Expr} (hx : Tells env ev x) (ids : IdAllocator) :
    x.leaveReturns h ids = (x, ids) := by
  obtain ⟨id, span, -, rfl⟩ := hx
  cases ev <;> rfl

theorem TellsAll.leaveReturns {events : List TraceEvent} {stmts : List Stmt}
    (hs : TellsAll env events stmts) (ids : IdAllocator) :
    stmtsLeaveReturns h stmts ids = (stmts, ids) := by
  induction hs with
  | nil => rfl
  | cons hx _ ih =>
    obtain ⟨x, rfl, hx⟩ := hx
    simp only [stmtsLeaveReturns, Stmt.leaveReturns, hx.leaveReturns, ih]

theorem Surrounds.leaveReturns {core e' : Expr} (hs : Surrounds env before after core e')
    (ids : IdAllocator) :
    ∃ ids', Surrounds env before after (core.leaveReturns h ids').1 (e'.leaveReturns h ids).1 := by
  refine ⟨ids, ?_⟩
  cases hs with
  | quiet hstmts =>
    simp only [Lowering.blockWithResult, Expr.leaveReturns, stmtsLeaveReturns_append,
      hstmts.leaveReturns, stmtsLeaveReturns, Stmt.leaveReturns]
    have hq : Surrounds env before none (core.leaveReturns h ids).1 _ := .quiet hstmts
    rwa [Lowering.blockWithResult, Expr.leaveReturns_span, Expr.leaveReturns_ty] at hq
  | dropped hstmts hx hty =>
    simp only [Lowering.blockWithResult, Expr.leaveReturns, stmtsLeaveReturns_append,
      hstmts.leaveReturns, hx.leaveReturns, stmtsLeaveReturns, Stmt.leaveReturns, Expr.unit,
      Expr.ofConst]
    have hq : Surrounds env before _ (core.leaveReturns h ids).1 _ := .dropped hstmts hx
      ((core.leaveReturns_ty h ids).trans hty)
    rwa [Lowering.blockWithResult, Expr.leaveReturns_span] at hq
  | @kept stmts _ x ev head span hstmts hx hty =>
    simp only [Lowering.blockWithResult, Expr.leaveReturns, stmtsLeaveReturns_append,
      hstmts.leaveReturns, hx.leaveReturns, stmtsLeaveReturns, Stmt.leaveReturns,
      optionLeaveReturns]
    have hq := @Surrounds.kept env before stmts (core.leaveReturns h ids).1 x ev head span
      hstmts hx (by rwa [core.leaveReturns_ty h ids])
    rwa [Lowering.blockWithResult, Expr.leaveReturns_span, Expr.leaveReturns_ty] at hq

theorem CallWoven.leaveReturns {plan : CallPlan} {core e' : Expr} (hc : CallWoven env plan core e')
    (ids : IdAllocator) :
    ∃ ids', CallWoven env plan (core.leaveReturns h ids').1 (e'.leaveReturns h ids).1 := by
  obtain ⟨hbefore, hafter, rfl⟩ | hc := hc
  · exact ⟨ids, .inl ⟨hbefore, hafter, rfl⟩⟩
  · obtain ⟨ids', hs⟩ := hc.leaveReturns ids
    exact ⟨ids', .inr hs⟩

theorem Rewrapped.leaveReturns {value value' : Expr} (hr : Rewrapped env value value')
    (ids : IdAllocator) :
    ∃ ids', Rewrapped env (value.leaveReturns h ids').1 (value'.leaveReturns h ids).1 := by
  induction hr generalizing ids with
  | refl => exact ⟨ids, .refl _⟩
  | step _ hs ih =>
    obtain ⟨ids', hs'⟩ := hs.leaveReturns ids
    obtain ⟨ids'', hr'⟩ := ih ids'
    exact ⟨ids'', hr'.step hs'⟩

theorem LeaveWoven.leaveReturns {leave : Option TraceEvent} {value value' : Expr}
    (hl : LeaveWoven env leave value value') (ids : IdAllocator) :
    ∃ ids', LeaveWoven env leave (value.leaveReturns h ids').1 (value'.leaveReturns h ids).1 := by
  unfold LeaveWoven at hl
  split at hl
  · rename_i hcond
    obtain ⟨ids', hs⟩ := hl.leaveReturns ids
    refine ⟨ids', ?_⟩
    rwa [LeaveWoven, Expr.leaveReturns_ty, if_pos hcond]
  · rename_i hcond
    refine ⟨ids, ?_⟩
    rw [LeaveWoven, Expr.leaveReturns_ty, if_neg hcond, hl]

/-- What a hook puts around the value of a `return`. -/
theorem surrounds_after {ev : TraceEvent} (hcall : Tells env ev h.call) {value : Expr}
    (hty : ¬value.ty.isNothing) (ids : IdAllocator) :
    Surrounds env [] (some ev) value (h.after value ids).1 := by
  unfold LeaveHook.after
  by_cases htrivial : value.ty.isTrivial
  · rw [if_pos htrivial]
    exact Surrounds.dropped .nil hcall (Ty.eq_unit htrivial hty)
  · rw [if_neg htrivial]
    exact Surrounds.kept .nil hcall htrivial

/-! ## Returns -/

/-- How the leaving of a function changes what the returns of code tell: the code of the function
itself gets the event, other code keeps what it has. -/
inductive Leaving (f : DeclId) (ev : TraceEvent) : Leaves → Leaves → Prop
  | own : Leaving f ev (some (f, none)) (some (f, some ev))
  | other {own : DeclId} {leave : Option TraceEvent} :
    own ≠ f → Leaving f ev (some (own, leave)) (some (own, leave))
  | nowhere : Leaving f ev none none

theorem Rewrapped.returned {ev : TraceEvent} (hcall : Tells env ev h.call) {value value' : Expr}
    (hr : Rewrapped env value value') (target : ReturnTarget) (ids : IdAllocator) :
    Rewrapped env value (h.returned target value' ids).1 := by
  unfold LeaveHook.returned
  split
  · rename_i hcond
    exact hr.step (surrounds_after hcall hcond.2 ids)
  · exact hr

theorem ReturnWoven.leaveReturns {ev : TraceEvent} (hcall : Tells env ev h.call) {lv lv' : Leaves}
    (hlv : Leaving h.target ev lv lv') {target : ReturnTarget} {value value' : Expr}
    (hr : ReturnWoven env lv target value value') (ids : IdAllocator) :
    ∃ ids', ReturnWoven env lv' target (value.leaveReturns h ids').1
      (h.returned target (value'.leaveReturns h ids).1 (value'.leaveReturns h ids).2).1 := by
  cases target with
  | block b =>
    refine ⟨ids, ?_⟩
    rw [show value' = value from hr, LeaveHook.returned, if_neg fun hcond => nomatch hcond.1]
    rfl
  | function g =>
    -- In code that no `return` leaves a function from, in the code of the function that gets its
    -- hooks, and in that of another one.
    cases hlv with
    | nowhere =>
      obtain ⟨ids', hr'⟩ := Rewrapped.leaveReturns hr ids
      exact ⟨ids', hr'.returned hcall _ _⟩
    | own =>
      simp only [ReturnWoven] at hr ⊢
      by_cases hg : g = h.target
      · rw [if_pos hg] at hr
        refine ⟨ids, ?_⟩
        rw [if_pos hg, show value' = value from hr, LeaveWoven, LeaveHook.returned, hg]
        by_cases hty : (value.leaveReturns h ids).1.ty.isNothing
        · rw [if_neg (fun hcond => hcond.2 hty), if_neg (fun hcond => hcond.2 hty)]
        · rw [if_pos ⟨rfl, hty⟩, if_pos ⟨rfl, hty⟩]
          exact surrounds_after hcall hty _
      · rw [if_neg hg] at hr
        obtain ⟨ids', hr'⟩ := hr.leaveReturns ids
        refine ⟨ids', ?_⟩
        rw [if_neg hg]
        exact hr'.returned hcall _ _
    | @other own leave hown =>
      simp only [ReturnWoven] at hr ⊢
      by_cases hg : g = own
      · rw [if_pos hg] at hr
        obtain ⟨ids', hr'⟩ := hr.leaveReturns ids
        refine ⟨ids', ?_⟩
        rw [if_pos hg, LeaveHook.returned, if_neg]
        · exact hr'
        · rintro ⟨htarget, -⟩
          exact hown (hg.symm.trans (ReturnTarget.function.inj htarget))
      · rw [if_neg hg] at hr
        obtain ⟨ids', hr'⟩ := hr.leaveReturns ids
        refine ⟨ids', ?_⟩
        rw [if_neg hg]
        exact hr'.returned hcall _ _

/-! ## Bodies of nested functions -/

theorem BodyWoven.leaveReturns {own : DeclId} {plan : FunctionPlan} {body body' : Body}
    (hown : own ≠ h.target) (hb : BodyWoven env own plan body body') (ids : IdAllocator) :
    ∃ ids', BodyWoven env own plan (body.leaveReturns h ids').1 (body'.leaveReturns h ids).1 := by
  -- Weaving has put in returns to the nested function itself, and these are not touched.
  have hret : ∀ (span : Span) (value : Expr) (ids : IdAllocator),
      (Expr.ofReturn span (.function own) value).leaveReturns h ids =
        (.ofReturn span (.function own) (value.leaveReturns h ids).1, (value.leaveReturns h ids).2) := by
    intro span value ids
    have hne : ¬(ReturnTarget.function own = .function h.target ∧
        ¬(value.leaveReturns h ids).1.ty.isNothing) :=
      fun hcond => hown (ReturnTarget.function.inj hcond.1)
    simp only [Expr.ofReturn, Expr.leaveReturns, LeaveHook.returned, if_neg hne]
  refine ⟨ids, ?_⟩
  cases hb with
  | plain henter hleave => exact .plain henter hleave
  | block henters hending =>
    simp only [Body.leaveReturns, stmtsLeaveReturns_append, henters.leaveReturns]
    exact .block henters (by rwa [Block.endsWithReturn_leaveReturns])
  | blockDropped henters hending hleave hx =>
    simp only [Body.leaveReturns, stmtsLeaveReturns_append, henters.leaveReturns,
      stmtsLeaveReturns, Stmt.leaveReturns, hx.leaveReturns]
    exact .blockDropped henters hending hleave hx
  | expression henters hending =>
    simp only [Body.leaveReturns, stmtsLeaveReturns_append, henters.leaveReturns,
      stmtsLeaveReturns, Stmt.leaveReturns]
    exact .expression henters hending
  | expressionDropped henters hending hleave hx =>
    simp only [Body.leaveReturns, stmtsLeaveReturns_append, henters.leaveReturns,
      stmtsLeaveReturns, Stmt.leaveReturns, hx.leaveReturns]
    exact .expressionDropped henters hending hleave hx
  | @expressionKept e x enters ev head span span' henters hending hleave hx =>
    simp only [Body.leaveReturns, stmtsLeaveReturns_append, henters.leaveReturns,
      stmtsLeaveReturns, Stmt.leaveReturns, optionLeaveReturns, hx.leaveReturns, hret,
      Expr.leaveReturns]
    rw [← e.leaveReturns_ty h ids]
    exact .expressionKept henters hending hleave hx
  | expressionReturned henters hending hleave =>
    simp only [Body.leaveReturns, stmtsLeaveReturns_append, henters.leaveReturns,
      stmtsLeaveReturns, Stmt.leaveReturns, hret]
    exact .expressionReturned henters hending hleave

end Tracing

/-! ## Code -/

open Tracing

/-- No declaration among nodes has an identity. -/
def Undeclared (id : DeclId) (nodes : List Node) : Prop := ∀ d ∈ declsOf nodes, d.id ≠ id

namespace Undeclared

variable {id : DeclId} {xs ys : List Node}

theorem append_iff : Undeclared id (xs ++ ys) ↔ Undeclared id xs ∧ Undeclared id ys := by
  simp only [Undeclared, declsOf_append, List.mem_append, or_imp, forall_and]

theorem decl_cons_iff {d : Decl} :
    Undeclared id (.decl d :: ys) ↔ d.id ≠ id ∧ Undeclared id ys := by
  simp only [Undeclared, declsOf_decl, List.mem_cons, or_imp, forall_and, forall_eq]

end Undeclared

section

variable {env : PassEnv} {store : Store} {h : LeaveHook} {ev : TraceEvent}

mutual

-- What changes for the returns depends on the function that they stand in. Inside a nested
-- declaration it is another one, and its identity is not that of the outer one.
theorem Expr.woven_leaveReturns (hcall : Tells env ev h.call) :
    ∀ e : Expr, Undeclared h.target e.nodes → ∀ ⦃sc lv lv' e'⦄, Leaving h.target ev lv lv' →
      e.Woven env store sc lv e' → ∀ ids, e.Woven env store sc lv' (e'.leaveReturns h ids).1
  | .const _ _, _ | .getVar _ _, _ | .functionRef _ _, _ | .propertyRef _ _, _
  | .descriptor _ _, _ | .captureFrame _ _, _ => by
    rintro sc lv lv' _ _ rfl ids
    rfl
  | .setVar _ _ value, hid => by
    rintro sc lv lv' _ hlv ⟨value', hv, rfl⟩ ids
    exact ⟨_, value.woven_leaveReturns hcall hid hlv hv ids, rfl⟩
  | .call _ _ receiver _ args, hid => by
    rintro sc lv lv' _ hlv ⟨receiver', args', hr, ha, hbacked, hc⟩ ids
    obtain ⟨hidr, hida⟩ := Undeclared.append_iff.mp hid
    obtain ⟨ids', hc'⟩ := hc.leaveReturns ids
    exact ⟨_, _, option_woven_leaveReturns hcall receiver hidr hlv hr ids',
      args_woven_leaveReturns hcall args hida hlv ha _, hbacked, hc'⟩
  | .block _ stmts, hid => by
    rintro sc lv lv' _ hlv ⟨stmts', hs, rfl⟩ ids
    exact ⟨_, stmts_woven_leaveReturns hcall stmts hid hlv hs ids, rfl⟩
  | .returnable _ _ stmts, hid => by
    rintro sc lv lv' _ hlv ⟨stmts', hs, rfl⟩ ids
    exact ⟨_, stmts_woven_leaveReturns hcall stmts hid hlv hs ids, rfl⟩
  | .ret _ _ value, hid => by
    rintro sc lv lv' _ hlv ⟨value', value'', hv, hr, rfl⟩ ids
    obtain ⟨ids', hr'⟩ := hr.leaveReturns hcall hlv ids
    exact ⟨_, _, value.woven_leaveReturns hcall hid hlv hv ids', hr', rfl⟩
  | .when _ branches otherwise, hid => by
    rintro sc lv lv' _ hlv ⟨branches', otherwise', hb, ho, rfl⟩ ids
    obtain ⟨hidb, hido⟩ := Undeclared.append_iff.mp hid
    exact ⟨_, _, branches_woven_leaveReturns hcall branches hidb hlv hb ids,
      option_woven_leaveReturns hcall otherwise hido hlv ho _, rfl⟩
  | .loop _ condition body, hid => by
    rintro sc lv lv' _ hlv ⟨condition', body', hc, hb, rfl⟩ ids
    obtain ⟨hidc, hidb⟩ := Undeclared.append_iff.mp hid
    exact ⟨_, _, condition.woven_leaveReturns hcall hidc hlv hc ids,
      body.woven_leaveReturns hcall hidb hlv hb _, rfl⟩
  | .binary _ _ lhs rhs, hid => by
    rintro sc lv lv' _ hlv ⟨lhs', rhs', hl, hr, rfl⟩ ids
    obtain ⟨hidl, hidr⟩ := Undeclared.append_iff.mp hid
    exact ⟨_, _, lhs.woven_leaveReturns hcall hidl hlv hl ids,
      rhs.woven_leaveReturns hcall hidr hlv hr _, rfl⟩
  | .not _ operand, hid => by
    rintro sc lv lv' _ hlv ⟨operand', ho, rfl⟩ ids
    exact ⟨_, operand.woven_leaveReturns hcall hid hlv ho ids, rfl⟩
  | .concat _ parts, hid => by
    rintro sc lv lv' _ hlv ⟨parts', hp, rfl⟩ ids
    exact ⟨_, exprs_woven_leaveReturns hcall parts hid hlv hp ids, rfl⟩
  | .lambda _ decl, hid => by
    rintro sc lv lv' _ hlv ⟨decl', hd, rfl⟩ ids
    exact ⟨_, decl.woven_leaveReturns hcall hid hd ids, rfl⟩

theorem option_woven_leaveReturns (hcall : Tells env ev h.call) :
    ∀ e : Option Expr, Undeclared h.target (optionNodes e) → ∀ ⦃sc lv lv' e'⦄,
      Leaving h.target ev lv lv' → optionWoven env store sc lv e e' → ∀ ids,
        optionWoven env store sc lv' e (optionLeaveReturns h e' ids).1
  | none, _ => by
    rintro sc lv lv' _ _ rfl ids
    rfl
  | some e, hid => by
    rintro sc lv lv' _ hlv ⟨x, he, rfl⟩ ids
    exact ⟨_, e.woven_leaveReturns hcall hid hlv he ids, rfl⟩

theorem args_woven_leaveReturns (hcall : Tells env ev h.call) :
    ∀ args : List (Option Expr), Undeclared h.target (argsNodes args) → ∀ ⦃sc lv lv' args'⦄,
      Leaving h.target ev lv lv' → argsWoven env store sc lv args args' → ∀ ids,
        argsWoven env store sc lv' args (argsLeaveReturns h args' ids).1
  | [], _ => by
    rintro sc lv lv' _ _ rfl ids
    rfl
  | none :: args, hid => by
    rintro sc lv lv' _ hlv ⟨rest, hr, rfl⟩ ids
    exact ⟨_, args_woven_leaveReturns hcall args hid hlv hr ids, rfl⟩
  | some e :: args, hid => by
    rintro sc lv lv' _ hlv ⟨x, rest, he, hr, rfl⟩ ids
    obtain ⟨hide, hidr⟩ := Undeclared.append_iff.mp hid
    exact ⟨_, _, e.woven_leaveReturns hcall hide hlv he ids,
      args_woven_leaveReturns hcall args hidr hlv hr _, rfl⟩

theorem exprs_woven_leaveReturns (hcall : Tells env ev h.call) :
    ∀ es : List Expr, Undeclared h.target (exprsNodes es) → ∀ ⦃sc lv lv' es'⦄,
      Leaving h.target ev lv lv' → exprsWoven env store sc lv es es' → ∀ ids,
        exprsWoven env store sc lv' es (exprsLeaveReturns h es' ids).1
  | [], _ => by
    rintro sc lv lv' _ _ rfl ids
    rfl
  | e :: es, hid => by
    rintro sc lv lv' _ hlv ⟨x, rest, he, hr, rfl⟩ ids
    obtain ⟨hide, hidr⟩ := Undeclared.append_iff.mp hid
    exact ⟨_, _, e.woven_leaveReturns hcall hide hlv he ids,
      exprs_woven_leaveReturns hcall es hidr hlv hr _, rfl⟩

theorem branches_woven_leaveReturns (hcall : Tells env ev h.call) :
    ∀ branches : List (Expr × Expr), Undeclared h.target (branchesNodes branches) →
      ∀ ⦃sc lv lv' branches'⦄, Leaving h.target ev lv lv' →
        branchesWoven env store sc lv branches branches' → ∀ ids,
        branchesWoven env store sc lv' branches (branchesLeaveReturns h branches' ids).1
  | [], _ => by
    rintro sc lv lv' _ _ rfl ids
    rfl
  | (condition, result) :: branches, hid => by
    rintro sc lv lv' _ hlv ⟨x, y, rest, hc, hr, hb, rfl⟩ ids
    obtain ⟨hidcr, hidb⟩ := Undeclared.append_iff.mp hid
    obtain ⟨hidc, hidr⟩ := Undeclared.append_iff.mp hidcr
    exact ⟨_, _, _, condition.woven_leaveReturns hcall hidc hlv hc ids,
      result.woven_leaveReturns hcall hidr hlv hr _,
      branches_woven_leaveReturns hcall branches hidb hlv hb _, rfl⟩

theorem stmts_woven_leaveReturns (hcall : Tells env ev h.call) :
    ∀ stmts : List Stmt, Undeclared h.target (stmtsNodes stmts) → ∀ ⦃sc lv lv' stmts'⦄,
      Leaving h.target ev lv lv' → stmtsWoven env store sc lv stmts stmts' → ∀ ids,
        stmtsWoven env store sc lv' stmts (stmtsLeaveReturns h stmts' ids).1
  | [], _ => by
    rintro sc lv lv' _ _ rfl ids
    rfl
  | stmt :: stmts, hid => by
    rintro sc lv lv' _ hlv ⟨x, rest, hs, hr, rfl⟩ ids
    obtain ⟨hids, hidr⟩ := Undeclared.append_iff.mp hid
    exact ⟨_, _, stmt.woven_leaveReturns hcall hids hlv hs ids,
      stmts_woven_leaveReturns hcall stmts hidr hlv hr _, rfl⟩

theorem Stmt.woven_leaveReturns (hcall : Tells env ev h.call) :
    ∀ stmt : Stmt, Undeclared h.target stmt.nodes → ∀ ⦃sc lv lv' stmt'⦄,
      Leaving h.target ev lv lv' → stmt.Woven env store sc lv stmt' → ∀ ids,
        stmt.Woven env store sc lv' (stmt'.leaveReturns h ids).1
  | .expr e, hid => by
    rintro sc lv lv' _ hlv ⟨x, he, rfl⟩ ids
    exact ⟨_, e.woven_leaveReturns hcall hid hlv he ids, rfl⟩
  | .var _ init, hid => by
    rintro sc lv lv' _ hlv ⟨init', hi, rfl⟩ ids
    exact ⟨_, option_woven_leaveReturns hcall init hid hlv hi ids, rfl⟩
  | .decl d, hid => by
    rintro sc lv lv' _ hlv ⟨d', hd, rfl⟩ ids
    exact ⟨_, d.woven_leaveReturns hcall hid hd ids, rfl⟩

theorem Body.woven_leaveReturns (hcall : Tells env ev h.call) :
    ∀ body : Body, Undeclared h.target body.nodes → ∀ ⦃sc lv lv' body'⦄,
      Leaving h.target ev lv lv' → body.Woven env store sc lv body' → ∀ ids,
        body.Woven env store sc lv' (body'.leaveReturns h ids).1
  | .absent, _ => by
    rintro sc lv lv' _ _ rfl ids
    rfl
  | .block stmts, hid => by
    rintro sc lv lv' _ hlv ⟨stmts', hs, rfl⟩ ids
    exact ⟨_, stmts_woven_leaveReturns hcall stmts hid hlv hs ids, rfl⟩
  | .expression e, hid => by
    rintro sc lv lv' _ hlv ⟨x, he, rfl⟩ ids
    exact ⟨_, e.woven_leaveReturns hcall hid hlv he ids, rfl⟩

theorem Decl.woven_leaveReturns (hcall : Tells env ev h.call) :
    ∀ d : Decl, Undeclared h.target d.nodes → ∀ ⦃sc d'⦄, d.Woven env store sc d' → ∀ ids,
      d.Woven env store sc (d'.leaveReturns h ids).1
  | .classDecl _ _ members, hid => by
    rintro sc _ ⟨members', hm, rfl⟩ ids
    exact ⟨_, decls_woven_leaveReturns hcall members (Undeclared.decl_cons_iff.mp hid).2 hm ids, rfl⟩
  | .function head info params body, hid => by
    rintro sc _ ⟨params', body', body'', hp, hb, hbacked, hw, rfl⟩ ids
    obtain ⟨hne, hidpb⟩ := Undeclared.decl_cons_iff.mp hid
    obtain ⟨-, hidb⟩ := Undeclared.append_iff.mp hidpb
    obtain ⟨ids', hw'⟩ := hw.leaveReturns hne ids
    exact ⟨_, _, _, hp, body.woven_leaveReturns hcall hidb (.other hne) hb ids', hbacked, hw', rfl⟩
  | .property _ _ _ _ _, _ => by
    rintro sc _ ⟨backing', getter', setter', hb, hg, hs, rfl⟩ ids
    exact ⟨_, _, _, hb, hg, hs, rfl⟩
  | .field _ _ _, _ => by
    rintro sc _ ⟨init', hi, rfl⟩ ids
    exact ⟨_, hi, rfl⟩
  | .initializer _ _, _ => by
    rintro sc _ ⟨body', hb, rfl⟩ ids
    exact ⟨_, hb, rfl⟩

theorem decls_woven_leaveReturns (hcall : Tells env ev h.call) :
    ∀ ds : List Decl, Undeclared h.target (declsNodes ds) → ∀ ⦃sc ds'⦄,
      declsWoven env store sc ds ds' → ∀ ids,
        declsWoven env store sc ds (declsLeaveReturns h ds' ids).1
  | [], _ => by
    rintro sc _ rfl ids
    rfl
  | d :: ds, hid => by
    rintro sc _ ⟨x, rest, hd, hr, rfl⟩ ids
    obtain ⟨hidd, hidr⟩ := Undeclared.append_iff.mp hid
    exact ⟨_, _, d.woven_leaveReturns hcall hidd hd ids,
      decls_woven_leaveReturns hcall ds hidr hr _, rfl⟩

end

end

end TraceWeave

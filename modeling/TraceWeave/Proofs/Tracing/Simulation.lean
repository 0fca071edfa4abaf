import TraceWeave.Proofs.Tracing.Hooked

/-! # Woven code does what traced code does

The code of a function under a tracer, next to what it was woven into under the watch of the
tracer. Both run side by side with the same values, and the hooks make the host calls that the
tracer notes.

`Tracing.SideBySide` are the two activations, `Expr.eval_woven` and its companions go through the
code, and `Tracing.SideBySide.runFunction_woven` is about whole functions.
-/

namespace TraceWeave

namespace Tracing

open Interpreter

/-! ## The watch on both sides -/

section

variable {env : PassEnv} {w : Watch} {inside : Option DeclId} {own : DeclId} {x y : Eval Flow}

theorem aroundCall_matches (site : Site) (callee : DeclId) {mask : List Bool}
    (h : FlowsMatch env w inside own mask x y) :
    FlowsMatch env w inside own mask (w.aroundCall own site callee x)
      (w.aroundCall own site callee y) := by
  unfold Watch.aroundCall
  by_cases hs : w.silenced callee = true
  · rw [if_pos hs, if_pos hs]
    refine h.silently stopped_of_eq ?_
    rintro (v | ⟨target, v⟩) (v' | ⟨target', v'⟩) l k l' k' hl hpost
    · exact ⟨hpost.1, hl⟩
    · exact hpost
    · exact hpost
    · refine ⟨hpost.1, ?_⟩
      obtain ⟨rfl, hret⟩ := hpost
      cases target with
      | block id => exact ⟨hret.1, hl⟩
      | function g =>
        by_cases hg : inside = some g
        · subst hg
          exact returns_own_iff.mpr ⟨(returns_own_iff.mp hret).1, hl⟩
        · exact (returns_other_iff hg).mpr (congrArg (visible _) hl)
  · rw [if_neg hs, if_neg hs]
    refine Matches.andThen (Q := fun _ _ => Eq) (Matches.tell fun l k hl => hl ▸ rfl)
      fun _ _ => h.withValue (Matches.of_same fun v => ?_)
    exact Matches.andThen (Q := fun _ _ => Eq) (Matches.tell fun l k hl => hl ▸ rfl)
      fun _ _ => Matches.value fun _ _ hl => ⟨rfl, hl⟩

theorem guardType_matches (ty : Ty) {mask : List Bool}
    (h : FlowsMatch env w inside own mask x y) :
    ValuesMatch env w inside own mask ty (w.guardType ty x) (w.guardType ty y) := by
  unfold Watch.guardType
  by_cases hn : w.never ty = true
  · rw [if_pos hn, if_pos hn]
    exact h.withValue fun v v' => Matches.fail _ fun l k hl => congrArg (visible _) hl.2
  · rw [if_neg hn, if_neg hn]
    exact h.post_mono (Flow.Rel.mono
      (fun _ _ _ _ hv => ⟨⟨hv.1, eq_false_of_ne_true hn⟩, hv.2⟩) fun _ _ _ _ _ hr => hr)

theorem aroundExpr_matches (e : Expr) {mask : List Bool}
    (h : FlowsMatch env w inside own mask x y) :
    ValuesMatch env w inside own mask e.ty (w.aroundExpr own e x)
      (w.aroundExpr own e y) := by
  unfold Watch.aroundExpr
  cases e.callee? with
  | some callee => exact guardType_matches e.ty (aroundCall_matches e.site callee h)
  | none => exact guardType_matches e.ty h

/-- Bodies with the same watch around them. -/
theorem aroundBody_matches {mask : List Bool}
    (h : FlowsMatch env w (some own) own mask x y) :
    FlowsMatch env w (some own) own mask (w.aroundBody own x) (w.aroundBody own y) := by
  unfold Watch.aroundBody
  refine Matches.andThen (Q := fun _ _ => Eq) (Matches.tell fun l k hl => hl ▸ rfl)
    fun _ _ => h.andThen_flow (fun v v' => ?_) fun target v v' => ?_
  · refine Matches.assuming fun hv => ?_
    subst hv
    dsimp only [Watch.completing]
    split
    · exact Matches.fail _ stopped_of_eq
    · exact Matches.andThen (Q := fun _ _ => Eq) (Matches.tell fun l k hl => hl ▸ rfl)
        fun _ _ => Matches.value fun _ _ hl => ⟨rfl, hl⟩
  · by_cases hown : target = .function own
    · subst hown
      simp only [Watch.completing, if_true]
      refine Matches.andThen (Q := fun _ _ => same Eq v v') (Matches.tell fun l k hl => ?_)
        fun _ _ => Matches.ret fun l k hl => returns_own_iff.mpr hl
      obtain ⟨hv, rfl⟩ := returns_own_iff.mp hl
      exact ⟨hv, rfl⟩
    · simp only [Watch.completing, if_neg hown]
      exact Matches.ret fun _ _ hl => hl

end

/-! ## Activations side by side -/

/-- An activation under a tracer, and one of the code with hooks under its watch. -/
structure SideBySide (env : PassEnv) (store : Store) (m : Module) (w : Watch) (a b : Activation) :
    Prop where
  hooked : Hooked env w b
  function : b.function = a.function
  rounds : b.rounds = a.rounds
  observer : a.observer = (tracerOf env store m w).observer
  call : ∀ id args span, CallsMatch (hookedComparison env w none).terms Eq (same Eq)
    (a.call id args span) (b.call id args span)

/-- A point in the code of a function: its calls and its returns are those of the function. -/
structure InCode (env : PassEnv) (store : Store) (m : Module) (own : DeclId) (sc : ScopeStack)
    (lv : Leaves) : Prop where
  calls : callPlan env store sc = (planOf env store m own).call
  leaves : ∀ l, lv = some l → l = (own, (planOf env store m own).leave)

variable {env : PassEnv} {store : Store} {m : Module} {w : Watch} {own : DeclId} {sc : ScopeStack}
  {lv : Leaves} {a b : Activation}

namespace InCode

theorem block (h : InCode env store m own sc lv) :
    InCode env store m own (sc.push .ofBody) lv :=
  ⟨(ScopeStack.SameContext.callPlan_eq (.block (.refl sc)) env store).trans h.calls, h.leaves⟩

theorem after (h : InCode env store m own sc lv) (stmt : Stmt) :
    InCode env store m own (sc.after stmt) lv :=
  ⟨(ScopeStack.SameContext.callPlan_eq (.after (.refl sc) stmt) env store).trans h.calls, h.leaves⟩

end InCode

namespace SideBySide

variable {x y : Eval Flow} {e e' : Expr}

/-- An expression that is no call on either side. -/
theorem seen_matches (h : SideBySide env store m w a b) {mask : List Bool}
    (hstep : FlowsMatch env w (lv.map Prod.fst) a.function mask x y)
    (hcallee : e.callee? = none := by rfl) (hcallee' : e'.callee? = none := by rfl)
    (hsite : e'.site = e.site := by rfl) :
    ValuesMatch env w (lv.map Prod.fst) a.function mask e.ty (a.seen e x) (b.seen e' y) := by
  have hleft : a.seen e x = w.aroundExpr a.function e x := by
    simp only [Activation.seen, h.observer, Tracer.observer, Tracer.aroundExpr, hcallee]
    rfl
  rw [hleft, h.hooked.seen_eq, h.function,
    w.aroundExpr_congr a.function hsite (hcallee'.trans hcallee.symm)]
  exact aroundExpr_matches e hstep

/-- A call with the events of its plan. -/
theorem call_matches (h : SideBySide env store m w a b) (e core : Expr)
    (hin : InCode env store m a.function sc lv) {callee : DeclId} (hcallee : e.callee? = some callee)
    (hcallee' : core.callee? = some callee) (hsite : core.site = e.site)
    (hwoven : CallWoven env (callPlan env store sc e.site callee) core e')
    (hcore : core.eval b = b.seen core y)
    (hstep : ∀ mask, FlowsMatch env w (lv.map Prod.fst) a.function mask x y) (mask : List Bool) :
    ValuesMatch env w (lv.map Prod.fst) a.function mask e.ty (a.seen e x)
      (e'.eval b) := by
  have hty : core.ty = e.ty := congrArg Site.ty hsite
  have hright : ∀ mask, ValuesMatch env w (lv.map Prod.fst) a.function mask core.ty
      (w.aroundExpr a.function e x) (core.eval b) := by
    intro mask
    rw [hcore, h.hooked.seen_eq, h.function,
      w.aroundExpr_congr a.function hsite (hcallee'.trans hcallee.symm), hty]
    exact aroundExpr_matches e (hstep mask)
  have hleft : a.seen e x = Eval.andThen
      ((tracerOf env store m w).tell (callPlan env store sc e.site callee).before) fun _ =>
        (tracerOf env store m w).tellAfter core.ty (callPlan env store sc e.site callee).after
          (w.aroundExpr a.function e x) := by
    simp only [Activation.seen, h.observer, Tracer.observer, Tracer.aroundExpr, hcallee, hin.calls,
      hty]
    rfl
  rw [hleft, ← hty]
  obtain ⟨hbefore, hafter, rfl⟩ | hs := hwoven
  · rw [hbefore, hafter, Tracer.tellAfter_none]
    exact hright mask
  · exact surrounds_matches _ _ h.hooked hs hright mask

/-- The value of a `return` to another function, next to a tracer that may tell something too. -/
theorem foreign_matches (h : SideBySide env store m w a b) {inside : Option DeclId}
    {value' value'' : Expr} (hwoven : Rewrapped env value' value'') {g : DeclId}
    (hg : inside ≠ some g) (ty : Ty) (ev : Option TraceEvent)
    (hvalue : ∀ mask, ValuesMatch env w inside a.function mask value'.ty x (value'.eval b))
    (mask : List Bool) :
    Matches (hookedComparison env w inside).terms mask Eq
      (Flow.Rel ((hookedComparison env w inside).returns a.function () (.function g))
        ((hookedComparison env w inside).returns a.function ()))
      ((tracerOf env store m w).tellAfter ty ev x) (value''.eval b) := by
  rw [← withValue_value (value''.eval b)]
  refine (rewrapped_matches h.hooked hwoven hvalue mask).withValue fun v v' => ?_
  refine Matches.tell_left (P := SameVisible env.options.tracing.hooks)
    (Matches.value fun l k hl => (returns_other_iff hg).mpr hl) fun l k hl => ?_
  rw [SameVisible, visible_append, visible_told, List.nil_append]
  exact hl.2

/-- The value of a `return` that leaves the function, next to a tracer that tells so. -/
theorem leaving_matches (h : SideBySide env store m w a b) {inside : Option DeclId}
    {leave : Option TraceEvent} {value' value'' : Expr}
    (hwoven : LeaveWoven env leave value' value'')
    (hvalue : ∀ mask, ValuesMatch env w inside a.function mask value'.ty x (value'.eval b))
    (mask : List Bool) :
    ValuesMatch env w inside a.function mask value'.ty
      (if ¬value'.ty.isNothing then (tracerOf env store m w).tellAfter value'.ty leave x else x)
      (value''.eval b) := by
  unfold LeaveWoven at hwoven
  by_cases hnothing : value'.ty.isNothing
  · rw [if_neg fun hcond => hcond.2 hnothing] at hwoven
    rw [if_neg (not_not_intro hnothing), hwoven]
    exact hvalue mask
  · rw [if_pos hnothing]
    cases leave with
    | none =>
      rw [if_neg (by simp)] at hwoven
      rw [Tracer.tellAfter_none, hwoven]
      exact hvalue mask
    | some ev =>
      rw [if_pos ⟨rfl, hnothing⟩] at hwoven
      exact surrounds_matches _ _ h.hooked hwoven hvalue mask

/-- The value that a `return` hands over. -/
theorem returned_matches (h : SideBySide env store m w a b)
    (hin : InCode env store m a.function sc lv) {value value' value'' : Expr}
    (hty : value'.ty = value.ty) {target : ReturnTarget}
    (hwoven : ReturnWoven env lv target value' value'')
    (hvalue : ∀ mask, ValuesMatch env w (lv.map Prod.fst) a.function mask value.ty x
      (value'.eval b)) (mask : List Bool) :
    Matches (hookedComparison env w (lv.map Prod.fst)).terms mask Eq
      (Flow.Rel ((hookedComparison env w (lv.map Prod.fst)).returns a.function () target)
        ((hookedComparison env w (lv.map Prod.fst)).returns a.function ()))
      (a.observer.returned a.function target value x) (value''.eval b) := by
  rw [h.observer]
  simp only [← hty] at hvalue
  have hleft : (tracerOf env store m w).observer.returned a.function target value x =
      if target = .function a.function ∧ ¬value'.ty.isNothing then
        (tracerOf env store m w).tellAfter value'.ty (planOf env store m a.function).leave x
      else x := by rw [hty]; rfl
  rw [hleft]
  have hquiet : x = (tracerOf env store m w).tellAfter value'.ty none x :=
    ((tracerOf env store m w).tellAfter_none _ x).symm
  -- Only a `return` to the function itself has the leave event. A block is left without one, and a
  -- function further out cannot be left from here at all.
  cases target with
  | block id =>
    rw [if_neg (by simp), show value'' = value' from hwoven]
    exact Comparison.flow_of_flowOf (hvalue mask)
  | function g =>
    cases lv with
    | none =>
      split
      · exact h.foreign_matches hwoven (by simp) _ _ hvalue mask
      · rw [hquiet]
        exact h.foreign_matches hwoven (by simp) _ _ hvalue mask
    | some l =>
      obtain rfl := hin.leaves l rfl
      by_cases hg : g = a.function
      · subst hg
        simp only [ReturnWoven, if_true] at hwoven
        simp only [true_and]
        refine (h.leaving_matches hwoven hvalue mask).post_mono
          (Flow.Rel.mono (fun v v' l k hv => ?_) fun _ _ _ _ _ hr => hr)
        exact returns_own_iff.mpr ⟨hv.1.1, hv.2⟩
      · simp only [ReturnWoven, if_neg hg] at hwoven
        rw [if_neg fun hcond => hg (ReturnTarget.function.inj hcond.1), hquiet]
        exact h.foreign_matches hwoven (by simpa using Ne.symm hg) _ _ hvalue mask

end SideBySide

end Tracing

/-! ## Code -/

open Tracing Interpreter

section

variable {env : PassEnv} {store : Store} {m : Module} {w : Watch} {a b : Activation}

mutual

-- One case for each kind of node. Hooks are met at calls and at returns; everything else was woven
-- into a node of its own kind, and the rule for that kind applies.
theorem Expr.eval_woven (h : SideBySide env store m w a b) : ∀ (e : Expr) ⦃sc lv e'⦄,
    InCode env store m a.function sc lv → e.Woven env store sc lv e' → ∀ mask,
      ValuesMatch env w (lv.map Prod.fst) a.function mask e.ty (e.eval a) (e'.eval b)
  | .const s value => by
    rintro sc lv _ hin rfl mask
    rw [Expr.eval, Expr.eval]
    exact h.seen_matches (Matches.value fun _ _ hl => ⟨rfl, hl⟩)
  | .getVar s var => by
    rintro sc lv _ hin rfl mask
    rw [Expr.eval, Expr.eval]
    exact h.seen_matches (Matches.evalGet stopped_of_eq s var)
  | .setVar s var value => by
    rintro sc lv _ hin ⟨value', hv, rfl⟩ mask
    rw [Expr.eval, Expr.eval]
    exact h.seen_matches
      ((Comparison.flow_of_flowOf (value.eval_woven h hin hv mask)).withValue
        (Matches.of_same fun v => Matches.evalSet stopped_of_eq s var v))
  | .call s callee receiver typeArgs args => by
    rintro sc lv e' hin ⟨receiver', args', hr, ha, -, hc⟩ mask
    rw [Expr.eval]
    refine h.call_matches (.call s callee receiver typeArgs args)
      (.call s callee receiver' typeArgs args') hin rfl rfl rfl hc (by rw [Expr.eval])
      (fun mask => ?_) mask
    refine (optionEval_woven h receiver hin hr .unit mask).withValue (Matches.of_same fun _ => ?_)
    refine argsEval_woven h args hin ha mask _ _ (fun vs => ?_) []
    have hcall : Matches (hookedComparison env w (lv.map Prod.fst)).terms mask Eq (same Eq)
        (a.call callee vs s.span) (b.call callee vs s.span) := (h.call callee vs s.span).inCode
    exact hcall.andThen (Matches.of_same fun v => Matches.value fun _ _ hl => ⟨rfl, hl⟩)
  | .functionRef s id => by
    rintro sc lv _ hin rfl mask
    rw [Expr.eval, Expr.eval]
    exact h.seen_matches (Matches.fail _ stopped_of_eq)
  | .propertyRef s id => by
    rintro sc lv _ hin rfl mask
    rw [Expr.eval, Expr.eval]
    exact h.seen_matches (Matches.fail _ stopped_of_eq)
  | .block s stmts => by
    rintro sc lv _ hin ⟨stmts', hs, rfl⟩ mask
    rw [Expr.eval, Expr.eval]
    exact h.seen_matches (stmtsEval_woven h stmts hin.block hs .unit mask).inScope
  | .returnable s id stmts => by
    rintro sc lv _ hin ⟨stmts', hs, rfl⟩ mask
    rw [Expr.eval, Expr.eval]
    exact h.seen_matches (Matches.evalReturnable (fun _ _ _ _ hr => hr)
      (stmtsEval_woven h stmts hin.block hs .unit mask).inScope)
  | .ret s target value => by
    rintro sc lv _ hin ⟨value', value'', hv, hr, rfl⟩ mask
    rw [Expr.eval, Expr.eval]
    refine h.seen_matches ?_
    rw [h.hooked.observer]
    exact (h.returned_matches hin hv.ty_eq hr (value.eval_woven h hin hv) mask).withValue
      fun v v' => Matches.ret fun _ _ hl => hl
  | .when s branches otherwise => by
    rintro sc lv _ hin ⟨branches', otherwise', hb, ho, rfl⟩ mask
    rw [Expr.eval, Expr.eval]
    exact h.seen_matches (branchesEval_woven h branches hin hb mask _ _
      (optionEval_woven h otherwise hin ho .unit mask))
  | .loop s condition body => by
    rintro sc lv _ hin ⟨condition', body', hc, hb, rfl⟩ mask
    rw [Expr.eval, Expr.eval, h.rounds]
    have hbody := Comparison.flow_of_flowOf (body.eval_woven h hin hb mask)
    exact h.seen_matches (Matches.evalLoop stopped_of_eq
      (Comparison.flow_of_flowOf (condition.eval_woven h hin hc mask))
      (hbody.post_mono (Flow.Rel.mono (fun _ _ _ _ hv => hv.2) fun _ _ _ _ _ hr => hr)) a.rounds)
  | .binary s op lhs rhs => by
    rintro sc lv _ hin ⟨lhs', rhs', hl, hr, rfl⟩ mask
    rw [Expr.eval, Expr.eval]
    exact h.seen_matches (Matches.evalBinary stopped_of_eq op
      (Comparison.flow_of_flowOf (lhs.eval_woven h hin hl mask))
      (Comparison.flow_of_flowOf (rhs.eval_woven h hin hr mask)))
  | .not s operand => by
    rintro sc lv _ hin ⟨operand', ho, rfl⟩ mask
    rw [Expr.eval, Expr.eval]
    exact h.seen_matches (Matches.withBool stopped_of_eq
      (Comparison.flow_of_flowOf (operand.eval_woven h hin ho mask))
      fun _ => Matches.value fun _ _ hl => ⟨rfl, hl⟩)
  | .concat s parts => by
    rintro sc lv _ hin ⟨parts', hp, rfl⟩ mask
    rw [Expr.eval, Expr.eval]
    exact h.seen_matches (partsEval_woven h parts hin hp "" mask)
  | .lambda s decl => by
    rintro sc lv _ hin ⟨decl', -, rfl⟩ mask
    rw [Expr.eval, Expr.eval]
    exact h.seen_matches (Matches.fail _ stopped_of_eq)
  | .descriptor s ref => by
    rintro sc lv _ hin rfl mask
    rw [Expr.eval, Expr.eval]
    exact h.seen_matches (Matches.value fun _ _ hl => ⟨rfl, hl⟩)
  | .captureFrame s capture => by
    rintro sc lv _ hin rfl mask
    rw [Expr.eval, Expr.eval]
    exact h.seen_matches (Matches.evalCapture stopped_of_eq s capture)

theorem optionEval_woven (h : SideBySide env store m w a b) : ∀ (e : Option Expr) ⦃sc lv e'⦄,
    InCode env store m a.function sc lv → optionWoven env store sc lv e e' → ∀ missing mask,
      FlowsMatch env w (lv.map Prod.fst) a.function mask (optionEval a missing e)
        (optionEval b missing e')
  | none => by
    rintro sc lv _ hin rfl missing mask
    rw [optionEval, optionEval]
    exact Matches.value fun _ _ hl => ⟨rfl, hl⟩
  | some e => by
    rintro sc lv _ hin ⟨x, he, rfl⟩ missing mask
    rw [optionEval, optionEval]
    exact Comparison.flow_of_flowOf (e.eval_woven h hin he mask)

theorem argsEval_woven (h : SideBySide env store m w a b) : ∀ (args : List (Option Expr))
    ⦃sc lv args'⦄, InCode env store m a.function sc lv → argsWoven env store sc lv args args' →
    ∀ mask (next next' : List (Option Value) → Eval Flow),
      (∀ vs, FlowsMatch env w (lv.map Prod.fst) a.function mask (next vs) (next' vs)) → ∀ seen,
      FlowsMatch env w (lv.map Prod.fst) a.function mask (argsEval a next seen args)
        (argsEval b next' seen args')
  | [] => by
    rintro sc lv _ hin rfl mask next next' hnext seen
    rw [argsEval, argsEval]
    exact hnext seen.reverse
  | none :: args => by
    rintro sc lv _ hin ⟨rest, ha, rfl⟩ mask next next' hnext seen
    rw [argsEval, argsEval]
    exact argsEval_woven h args hin ha mask next next' hnext (none :: seen)
  | some e :: args => by
    rintro sc lv _ hin ⟨x, rest, he, ha, rfl⟩ mask next next' hnext seen
    rw [argsEval, argsEval]
    exact (Comparison.flow_of_flowOf (e.eval_woven h hin he mask)).withValue
      (Matches.of_same fun v => argsEval_woven h args hin ha mask next next' hnext (some v :: seen))

theorem partsEval_woven (h : SideBySide env store m w a b) : ∀ (parts : List Expr) ⦃sc lv parts'⦄,
    InCode env store m a.function sc lv → exprsWoven env store sc lv parts parts' → ∀ text mask,
      FlowsMatch env w (lv.map Prod.fst) a.function mask (partsEval a text parts)
        (partsEval b text parts')
  | [] => by
    rintro sc lv _ hin rfl text mask
    rw [partsEval, partsEval]
    exact Matches.value fun _ _ hl => ⟨rfl, hl⟩
  | e :: es => by
    rintro sc lv _ hin ⟨x, rest, he, hes, rfl⟩ text mask
    rw [partsEval, partsEval]
    exact (Comparison.flow_of_flowOf (e.eval_woven h hin he mask)).withValue
      (Matches.of_same fun v => partsEval_woven h es hin hes (text ++ v.text) mask)

theorem branchesEval_woven (h : SideBySide env store m w a b) : ∀ (branches : List (Expr × Expr))
    ⦃sc lv branches'⦄, InCode env store m a.function sc lv →
    branchesWoven env store sc lv branches branches' → ∀ mask (last last' : Eval Flow),
      FlowsMatch env w (lv.map Prod.fst) a.function mask last last' →
      FlowsMatch env w (lv.map Prod.fst) a.function mask (branchesEval a last branches)
        (branchesEval b last' branches')
  | [] => by
    rintro sc lv _ hin rfl mask last last' hlast
    rw [branchesEval, branchesEval]
    exact hlast
  | (condition, result) :: branches => by
    rintro sc lv _ hin ⟨x, y, rest, hc, hr, hb, rfl⟩ mask last last' hlast
    rw [branchesEval, branchesEval]
    refine Matches.withBool stopped_of_eq
      (Comparison.flow_of_flowOf (condition.eval_woven h hin hc mask)) fun holds => ?_
    cases holds with
    | true => exact Comparison.flow_of_flowOf (result.eval_woven h hin hr mask)
    | false => exact branchesEval_woven h branches hin hb mask last last' hlast

theorem stmtsEval_woven (h : SideBySide env store m w a b) : ∀ (stmts : List Stmt)
    ⦃sc lv stmts'⦄, InCode env store m a.function sc lv → stmtsWoven env store sc lv stmts stmts' →
    ∀ last mask, FlowsMatch env w (lv.map Prod.fst) a.function (true :: mask)
      (stmtsEval a last stmts) (stmtsEval b last stmts')
  | [] => by
    rintro sc lv _ hin rfl last mask
    rw [stmtsEval, stmtsEval]
    exact Matches.value fun _ _ hl => ⟨rfl, hl⟩
  | stmt :: stmts => by
    rintro sc lv _ hin ⟨x, rest, hx, hs, rfl⟩ last mask
    rw [stmtsEval, stmtsEval]
    exact (stmt.eval_woven h hin hx mask).withValue
      (Matches.of_same fun v => stmtsEval_woven h stmts (hin.after stmt) hs v mask)

theorem Stmt.eval_woven (h : SideBySide env store m w a b) : ∀ (stmt : Stmt) ⦃sc lv stmt'⦄,
    InCode env store m a.function sc lv → stmt.Woven env store sc lv stmt' → ∀ mask,
      FlowsMatch env w (lv.map Prod.fst) a.function (true :: mask) (stmt.eval a) (stmt'.eval b)
  | .expr e => by
    rintro sc lv _ hin ⟨x, he, rfl⟩ mask
    rw [Stmt.eval, Stmt.eval]
    exact Comparison.flow_of_flowOf (e.eval_woven h hin he (true :: mask))
  | .var head init => by
    rintro sc lv _ hin ⟨init', hi, rfl⟩ mask
    rw [Stmt.eval, Stmt.eval]
    exact (optionEval_woven h init hin hi .null (true :: mask)).withValue
      (Matches.of_same fun v => (Matches.declare head.id v).andThen
        fun _ _ => Matches.value fun _ _ hl => ⟨rfl, hl⟩)
  | .decl d => by
    rintro sc lv _ hin ⟨d', -, rfl⟩ mask
    rw [Stmt.eval, Stmt.eval]
    exact Matches.value fun _ _ hl => ⟨rfl, hl⟩

end

theorem Body.eval_woven (h : SideBySide env store m w a b) (body : Body) {sc : ScopeStack}
    {lv : Leaves} {body' : Body} (hin : InCode env store m a.function sc lv)
    (hbody : body.Woven env store sc lv body') (mask : List Bool) :
    FlowsMatch env w (lv.map Prod.fst) a.function mask (body.eval a) (body'.eval b) := by
  cases body with
  | absent =>
    obtain rfl : body' = .absent := hbody
    exact Matches.value fun _ _ hl => ⟨rfl, hl⟩
  | block stmts =>
    obtain ⟨stmts', hs, rfl⟩ := hbody
    exact (stmtsEval_woven h stmts hin.block hs .unit mask).inScope
  | expression e =>
    obtain ⟨x, he, rfl⟩ := hbody
    exact Comparison.flow_of_flowOf (e.eval_woven h hin he mask)

end

/-! ## Bodies -/

namespace Tracing

/-- Statements that end with a `return` come to no value. -/
theorem Hooked.stmtsEval_ne_value {env : PassEnv} {w : Watch} {b : Activation}
    (hb : Hooked env w b) {stmts : List Stmt} (h : Block.endsWithReturn stmts) (last : Value) :
    ∀ n v n', stmtsEval b last stmts n ≠ (.done (.value v), n') := by
  rcases List.eq_nil_or_concat stmts with rfl | ⟨init, stmt, rfl⟩
  · exact absurd h Bool.false_ne_true
  · rw [List.concat_eq_append] at h ⊢
    simp only [Block.endsWithReturn, Block.lastExpr?, List.getLast?_append,
      List.getLast?_singleton, Option.some_or] at h
    rw [stmtsEval_append]
    refine withValue_ne_value (fun u => ?_) _
    cases stmt with
    | expr e =>
      cases e with
      | ret site target value =>
        simp only [stmtsEval, Stmt.eval, withValue_value, hb.eval_ret]
        exact withValue_ne_value (fun u m v n => by simp [Eval.yield]) _
      | _ => exact absurd h Bool.false_ne_true
    | var | decl => exact absurd h Bool.false_ne_true

section

variable {env : PassEnv} {store : Store} {m : Module} {w : Watch} {a b : Activation}

theorem plan_tracerOf : (tracerOf env store m w).plan = planOf env store m := rfl

theorem finish_through {own : DeclId} (h : (planOf env store m own).ending = .through) :
    (tracerOf env store m w).finish own = fun v => Eval.yield (.value v) := by
  funext v
  simp only [Tracer.finish, tracerOf, h]

theorem finish_dropped {own : DeclId} (h : (planOf env store m own).ending = .dropped) :
    (tracerOf env store m w).finish own = fun _ =>
      Eval.andThen ((tracerOf env store m w).tell (planOf env store m own).leave.toList) fun _ =>
        Eval.yield (.value .unit) := by
  funext v
  simp only [Tracer.finish, tracerOf, h]

theorem finish_returned {own : DeclId} (h : (planOf env store m own).ending = .returned) :
    (tracerOf env store m w).finish own = fun v =>
      Eval.andThen ((tracerOf env store m w).tell (planOf env store m own).leave.toList) fun _ =>
        Eval.yield (.ret (.function own) v) := by
  funext v
  simp only [Tracer.finish, tracerOf, h]

/-- A block that starts with hook calls, next to a tracer that tells their events. -/
theorem Hooked.entered {α : Type} (hb : Hooked env w b) {inside : Option DeclId} {mask : List Bool}
    {post : α → Flow → LogRel} {x : Eval α} {events : List TraceEvent} {enters rest : List Stmt}
    (henters : TellsAll env events enters)
    (hrest : Matches (hookedComparison env w inside).terms mask Eq post x
      (Eval.inScope (stmtsEval b .unit rest))) :
    Matches (hookedComparison env w inside).terms mask Eq post
      (Eval.andThen ((tracerOf env store m w).tell events) fun _ => x)
      ((Body.block (enters ++ rest)).eval b) := by
  rw [Body.eval, hb.stmtsEval_tellsAll store m henters]
  refine Matches.tell_left (P := fun l k =>
    l = (events.flatMap (tracerOf env store m w).shown).reverse ++ k)
    (Matches.inScope_tell hrest fun l k hl => hl) fun l k hl => hl ▸ rfl

/-- Values that were told the same events. -/
theorem told_matches {inside : Option DeclId} {mask : List Bool} {pre : LogRel} {flow flow' : Flow}
    {post : Flow → Flow → LogRel} (events : List TraceEvent) (hpre : ∀ l k, pre l k → l = k)
    (hpost : ∀ l k, pre l k → ∀ n, post flow flow' n n) :
    Matches (hookedComparison env w inside).terms mask pre post
      (Eval.andThen ((tracerOf env store m w).tell events) fun _ => Eval.yield flow)
      (Eval.andThen ((tracerOf env store m w).tell events) fun _ => Eval.yield flow') := by
  refine Matches.andThen (Q := fun _ _ => post flow flow') (Matches.tell fun l k hl => ?_)
    fun _ _ => Matches.yield fun _ _ hl => hl
  rw [hpre l k hl]
  exact hpost l k hl _

/-- A body with the hooks of its plan, next to a tracer that tells its events. -/
theorem SideBySide.finish_matches (h : SideBySide env store m w a b) {sc : ScopeStack}
    {returnTy : Ty} {body woven body' : Body}
    (hin : InCode env store m a.function sc
      (some (a.function, (planOf env store m a.function).leave)))
    (hbody : body.Woven env store sc (some (a.function, (planOf env store m a.function).leave)) woven)
    (hending : (planOf env store m a.function).ending =
      endingOf returnTy (planOf env store m a.function).enter (planOf env store m a.function).leave body)
    (hwoven : BodyWoven env a.function (planOf env store m a.function) woven body')
    (mask : List Bool) :
    FlowsMatch env w (some a.function) a.function mask
      (Eval.andThen ((tracerOf env store m w).tell (planOf env store m a.function).enter.toList)
        fun _ => withValue (body.eval a) ((tracerOf env store m w).finish a.function))
      (body'.eval b) := by
  -- The code itself, before anything is told about the body.
  have hcode := body.eval_woven h hin hbody
  have hown : ∀ v l, (hookedComparison env w (some a.function)).flow a.function ()
      (.ret (.function a.function) v) (.ret (.function a.function) v) l l := by
    intro v l
    exact ⟨rfl, returns_own_iff.mpr ⟨rfl, rfl⟩⟩
  cases hwoven with
  | plain henter hleave =>
    have hthrough : (planOf env store m a.function).ending = .through := by
      rw [hending, henter, hleave]
      cases body <;> simp [endingOf]
    rw [henter, finish_through hthrough]
    simp only [withValue_value]
    exact hcode mask
  | @block stmts enters henters hends =>
    refine h.hooked.entered henters ?_
    obtain hthrough | ⟨hdropped, hreturn⟩ := hends
    · rw [finish_through hthrough]
      simp only [withValue_value]
      exact hcode mask
    · obtain ⟨stmts₀, rfl, hs⟩ := hbody.of_block
      rw [← withValue_value (Eval.inScope _)]
      exact ((stmtsEval_woven h stmts₀ hin.block hs .unit mask).no_value
        (h.hooked.stmtsEval_ne_value hreturn .unit)).inScope.withValue
          fun v v' => Matches.vacuous fun _ _ hl => hl
  | @blockDropped stmts enters ev x henters hdropped hleave hx =>
    rw [List.append_assoc]
    refine h.hooked.entered henters ?_
    obtain ⟨stmts₀, rfl, hs⟩ := hbody.of_block
    rw [finish_dropped hdropped, hleave, stmtsEval_append]
    simp only [stmtsEval, Stmt.eval, withValue_value, h.hooked.eval_tells store m hx]
    refine Matches.inScope_withValue true (fun _ => [ev].flatMap (tracerOf env store m w).shown)
      (fun _ => .value .unit)
      (stmtsEval_woven h stmts₀ hin.block hs .unit mask) (fun _ => .tell _ _) fun v v' => ?_
    exact told_matches [ev] (fun l k hl => hl.2) fun l k hl n => ⟨rfl, rfl⟩
  | expression henters hthrough =>
    refine h.hooked.entered henters (Matches.inScope_right ?_)
    rw [finish_through hthrough]
    simp only [stmtsEval, Stmt.eval, withValue_value]
    exact hcode _
  | @expressionDropped e x enters ev henters hdropped hleave hx =>
    refine h.hooked.entered henters (Matches.inScope_right ?_)
    rw [finish_dropped hdropped, hleave]
    simp only [stmtsEval, Stmt.eval, withValue_value, h.hooked.eval_tells store m hx]
    exact (hcode _).withValue fun v v' =>
      told_matches [ev] (fun l k hl => hl.2) fun l k hl n => ⟨rfl, rfl⟩
  | @expressionKept e x enters ev head span span' henters hreturned hleave hx =>
    refine h.hooked.entered henters ?_
    have hty : e.ty ≠ .nothing := by
      obtain ⟨e₀, rfl, he⟩ := hbody.of_expression
      rw [he.ty_eq]
      intro hnothing
      rw [hreturned, hleave, endingOf, hnothing] at hending
      cases hending
    have hread : (Expr.getVar ⟨span', e.ty⟩ head.id).eval b = evalGet ⟨span', e.ty⟩ head.id := by
      rw [Expr.eval]
      exact h.hooked.seen_of_plain (e := .getVar ⟨span', e.ty⟩ head.id) rfl hty _
    rw [finish_returned hreturned, hleave]
    simp only [stmtsEval, Stmt.eval, optionEval, withValue_value, Expr.ofReturn, h.hooked.eval_ret,
      h.hooked.eval_tells store m hx, withValue_assoc, andThen_withValue, hread]
    simp only [withValue, Eval.yield_andThen]
    refine Matches.inScope_withValue false (fun _ => [ev].flatMap (tracerOf env store m w).shown)
      (.ret (.function a.function)) (hcode _) (fun v' => ?_)
      fun v v' => Matches.assuming fun hv => ?_
    · exact endsWith_withValue (endsWith_bound ⟨span', e.ty⟩ head.id v' _) (.yield _)
    · subst hv
      exact told_matches [ev] (fun l k hl => hl) fun l k hl n => hown v n
  | @expressionReturned e enters span henters hreturned hleave =>
    refine h.hooked.entered henters (Matches.inScope_right ?_)
    rw [finish_returned hreturned, hleave]
    simp only [stmtsEval, Stmt.eval, withValue_value, Expr.ofReturn, h.hooked.eval_ret]
    refine (hcode _).withValue fun v v' => Matches.assuming fun hv => ?_
    subst hv
    exact told_matches [] (fun l k hl => hl) fun l k hl n => hown v n

/-! ## Functions -/

theorem leaveFunction_matches {own : DeclId} (info : FunctionHead) {mask : List Bool}
    {x y : Eval Flow} (h : FlowsMatch env w (some own) own mask x y) :
    Matches (hookedComparison env w none).terms mask Eq (same Eq)
      (Eval.andThen x (leaveFunction own info)) (Eval.andThen y (leaveFunction own info)) := by
  refine h.andThen_flow (fun v v' => ?_) fun target v v' => ?_
  · refine Matches.assuming fun hv => ?_
    subst hv
    exact Matches.yield fun l k hl => ⟨rfl, hl⟩
  · refine leaveFunction_ret (fun hown l k hl => ?_) fun _ _ =>
      Comparison.stopped_of_returns (K := hookedComparison env w (some own))
    subst hown
    exact returns_own_iff.mp hl

namespace SideBySide

theorem paramsMatch (h : SideBySide env store m w a b) {sc : ScopeStack}
    (hin : InCode env store m a.function sc none) : ∀ {params params' : List Param},
    paramsWoven env store sc params params' →
      ParamsMatch (hookedComparison env w none) a.function a b params params'
  | [], _, hp => by
    obtain rfl := hp
    exact .nil
  | ⟨head, none⟩ :: params, _, hp => by
    obtain ⟨_, rest, rfl, hrest, rfl⟩ := hp
    exact .plain (h.paramsMatch hin hrest)
  | ⟨head, some e⟩ :: params, _, hp => by
    obtain ⟨_, rest, ⟨x, he, rfl⟩, hrest, rfl⟩ := hp
    exact .default he.span_eq
      (fun _ mask => Comparison.flow_of_flowOf (e.eval_woven h hin he mask))
      (h.paramsMatch hin hrest)

/-- A function that was woven. -/
theorem runFunction_woven (h : SideBySide env store m w a b) {sc : ScopeStack} {head : DeclHead}
    {info : FunctionHead} {params params' : List Param} {body body' : Body}
    (hid : head.id = a.function)
    (hplan : planOf env store m a.function =
      functionPlan env store sc (.function head info params body))
    (hd : (Decl.function head info params body).Woven env store sc
      (.function head info params' body')) (args : List (Option Value)) :
    Matches (hookedComparison env w none).terms [true] Eq (same Eq)
      (runFunction a info params body args) (runFunction b info params' body' args) := by
  obtain ⟨params'', woven, body'', hparams, hbody, -, hwoven, heq⟩ := hd
  cases heq
  rw [← hplan, hid] at hwoven
  rw [← hplan, hid] at hbody
  rw [hid] at hparams
  have hcalls : callPlan env store (sc.inFunction a.function params) =
      (planOf env store m a.function).call := by
    rw [hplan, ← hid]
    rfl
  have hending : (planOf env store m a.function).ending = endingOf info.returnTy
      (planOf env store m a.function).enter (planOf env store m a.function).leave body := by
    rw [hplan]
    rfl
  refine runFunction_matches (K := hookedComparison env w none) (i := ())
    (h.paramsMatch ⟨hcalls, fun _ hl => nomatch hl⟩ hparams) (fun _ => ?_) args
  unfold complete
  rw [h.observer, h.hooked.observer, h.function]
  refine leaveFunction_matches info (aroundBody_matches ?_)
  refine h.finish_matches ⟨hcalls, fun l hl => (Option.some.inj hl).symm⟩ hbody hending hwoven _

/-- The observers of a function that nothing is told about. -/
theorem observers_of_plan (hplan : planOf env store m a.function = {}) :
    (hookedComparison env w (some a.function)).Observers (fun _ _ => True) a.function
      (tracerOf env store m w).observer w.observer where
  expr e _ x y hxy i mask := by
    have hleft : (tracerOf env store m w).observer.expr a.function e x =
        w.aroundExpr a.function e x := by
      simp only [Tracer.observer, Tracer.aroundExpr, plan_tracerOf, hplan, Tracer.tellAfter_none]
      cases e.callee? <;> rfl
    rw [hleft]
    exact aroundExpr_matches e (hxy i mask)
  returned target e x y hxy i mask := by
    have hleft : (tracerOf env store m w).observer.returned a.function target e x = x := by
      simp only [Tracer.observer, Tracer.aroundReturned, plan_tracerOf, hplan,
        Tracer.tellAfter_none, ite_self]
    rw [hleft]
    refine (hxy i mask).post_mono (Flow.Rel.mono (fun v v' l k hv => ?_) fun _ _ _ _ _ hr => hr)
    cases target with
    | block id => exact ⟨hv.1.1, hv.2⟩
    | function g =>
      by_cases hg : some a.function = some g
      · cases hg
        exact returns_own_iff.mpr ⟨hv.1.1, hv.2⟩
      · exact (returns_other_iff hg).mpr (congrArg (visible _) hv.2)

/-- A function that nothing is told about, and that stayed as it was. -/
theorem runFunction_same (h : SideBySide env store m w a b) (info : FunctionHead)
    (params : List Param) (body : Body) (hplan : planOf env store m a.function = {})
    (args : List (Option Value)) :
    Matches (hookedComparison env w none).terms [true] Eq (same Eq)
      (runFunction a info params body args) (runFunction b info params body args) := by
  have hall : ∀ calls, CallsOnly (fun _ _ => True) calls := fun _ _ _ => trivial
  have hw : Watched (hookedComparison env w (some a.function)) (fun _ _ => True) a.function a b :=
    { left := rfl
      right := h.function
      rounds := h.rounds
      call := fun _ site id _ args => h.call id args site.span
      observers := by
        rw [h.observer, h.hooked.observer]
        exact observers_of_plan hplan }
  refine runFunction_matches (K := hookedComparison env w (some a.function)) (i := ())
    (paramsMatch_watched hw params (hall _)) (fun i => ?_) args
  have hbody : (tracerOf env store m w).observer.body a.function (body.eval a) =
      w.aroundBody a.function (body.eval a) := by
    have hthrough : (planOf env store m a.function).ending = .through := by rw [hplan]
    simp only [Tracer.observer, Tracer.aroundBody, finish_through hthrough, withValue_value,
      plan_tracerOf, hplan]
    rfl
  unfold complete
  rw [h.observer, hbody, h.hooked.observer, h.function]
  refine leaveFunction_matches info (aroundBody_matches ?_)
  have hflow := body.eval_watched hw (hall _) i [true]
  cases body with
  | expression e => exact Comparison.flow_of_flowOf hflow
  | absent | block => exact hflow

end SideBySide

end

end Tracing

end TraceWeave

import TraceWeave.Proofs.Tracing.Woven

/-! # Woven code next to traced code

Code with hooks in it does what the code before does under a tracer. This module has the rules for
the places where hooks were put in; the code between them is compared elsewhere.

A `return` to another function than the one that runs fails in the end, and nothing but the failure
can be seen of it. So on its way only the host calls that no hook made are compared.

A run of code with hooks is `Tracing.Hooked`, and `Tracing.hookedComparison` says how it compares
with a traced one. The rules are `Tracing.surrounds_matches` for events around an expression,
`Tracing.Hooked.stmtsEval_tellsAll` for hook calls in front of statements, and
`Tracing.rewrapped_matches` for such a `return`.
-/

namespace TraceWeave.Tracing

open Interpreter

/-- The host calls that no hook made. -/
def visible (names : HookNames) (log : List HostCall) : List HostCall :=
  log.filter fun call => TraceType.all.all fun ty => names.get ty ≠ call.name

theorem visible_append (names : HookNames) (l k : List HostCall) :
    visible names (l ++ k) = visible names l ++ visible names k := List.filter_append ..

theorem visible_call (names : HookNames) (ev : TraceEvent) : visible names [names.call ev] = [] := by
  cases ev <;> simp [visible, HookNames.call, TraceEvent.traceType, TraceType.all]

/-- What a tracer tells cannot be seen. -/
theorem visible_told (env : PassEnv) (store : Store) (m : Module) (w : Watch)
    (events : List TraceEvent) :
    visible env.options.tracing.hooks (events.flatMap (tracerOf env store m w).shown).reverse = [] := by
  rw [visible, List.filter_reverse, List.filter_flatMap, List.reverse_eq_nil_iff,
    List.flatMap_eq_nil_iff]
  intro ev _
  simp only [tracerOf]
  split
  · split
    · rfl
    · exact visible_call _ ev
  · rfl

/-- The same host calls, apart from those that hooks made. -/
def SameVisible (names : HookNames) (l k : List HostCall) : Prop :=
  visible names l = visible names k

/-- Runs of traced code and of code with hooks: the same host calls, and while a `return` unwinds
to another function than `inside`, the same visible ones. No expression of a type that the watch
stops at comes to a value. -/
def hookedComparison (env : PassEnv) (w : Watch) (inside : Option DeclId) : Comparison Unit where
  terms :=
    { excuses := fun _ => False
      stopped := SameVisible env.options.tracing.hooks }
  logs _ := Eq
  values ty v v' := v = v' ∧ w.never ty = false
  unwinds _ _ g v v' l k :=
    if inside = some g then v = v' ∧ l = k else SameVisible env.options.tracing.hooks l k
  eq_of_values h := h.1
  stopped_of_logs _ _ _ h := congrArg (visible _) h
  stopped_of_unwinds := by
    intro own i g v v' l k h
    split at h
    · exact congrArg (visible _) h.2
    · exact h

theorem stopped_of_eq {env : PassEnv} {w : Watch} {inside : Option DeclId} (l k : List HostCall)
    (h : l = k) : (hookedComparison env w inside).terms.stopped l k :=
  congrArg (visible _) h

theorem returns_own_iff {env : PassEnv} {w : Watch} {own g : DeclId} {v v' : Value}
    {l k : List HostCall} :
    (hookedComparison env w (some g)).returns own () (.function g) v v' l k ↔ v = v' ∧ l = k :=
  iff_of_eq (if_pos rfl)

theorem returns_other_iff {env : PassEnv} {w : Watch} {inside : Option DeclId} {own g : DeclId}
    {v v' : Value} {l k : List HostCall} (hg : inside ≠ some g) :
    (hookedComparison env w inside).returns own () (.function g) v v' l k ↔
      SameVisible env.options.tracing.hooks l k :=
  iff_of_eq (if_neg hg)

/-- Flows of traced code and of code with hooks. -/
abbrev FlowsMatch (env : PassEnv) (w : Watch) (inside : Option DeclId) (own : DeclId)
    (mask : List Bool) (x y : Eval Flow) : Prop :=
  Matches (hookedComparison env w inside).terms mask Eq
    ((hookedComparison env w inside).flow own ()) x y

/-- Traced code of a static type and code with hooks. -/
abbrev ValuesMatch (env : PassEnv) (w : Watch) (inside : Option DeclId) (own : DeclId)
    (mask : List Bool) (ty : Ty) (x y : Eval Flow) : Prop :=
  Matches (hookedComparison env w inside).terms mask Eq
    ((hookedComparison env w inside).flowOf own () ty) x y

/-- A watch that leaves hook calls alone and stops at nothing but values of type `Nothing`. -/
structure Fits (env : PassEnv) (w : Watch) : Prop where
  never : ∀ ty, w.never ty = true → ty = .nothing
  before : ∀ ty id own site, env.linkage.hook? ty = some id → w.before own site id = []
  after : ∀ ty id own site, env.linkage.hook? ty = some id → w.after own site id = []

/-- An activation of code with hooks under a watch, in which hooks can be called. -/
structure Hooked (env : PassEnv) (w : Watch) (b : Activation) : Prop where
  fits : Fits env w
  observer : b.observer = w.observer
  call : ∀ ev id span, env.linkage.hook? ev.traceType = some id →
    b.call id (ev.args.map some) span =
      Eval.andThen (Eval.tell [env.options.tracing.hooks.call ev]) fun _ => Eval.yield .unit

variable {env : PassEnv} {store : Store} {m : Module} {w : Watch} {b : Activation}

theorem Fits.guardType_eq (hw : Fits env w) {ty : Ty} (h : ty ≠ .nothing) (step : Eval Flow) :
    w.guardType ty step = step := by
  rw [Watch.guardType, if_neg fun hn => h (hw.never ty hn)]

/-! ## Hook calls -/

namespace Hooked

theorem seen_eq (hb : Hooked env w b) (e : Expr) (step : Eval Flow) :
    b.seen e step = w.aroundExpr b.function e step := by
  rw [Activation.seen, hb.observer]
  rfl

/-- An expression that is neither a call nor of type `Nothing` is left alone. -/
theorem seen_of_plain (hb : Hooked env w b) {e : Expr} (hcall : e.callee? = none)
    (hty : e.ty ≠ .nothing) (step : Eval Flow) : b.seen e step = step := by
  rw [hb.seen_eq, Watch.aroundExpr, hcall, hb.fits.guardType_eq hty]

theorem eval_descriptor (hb : Hooked env w b) (r : DescriptorRef) (span : Span) :
    (Lowering.descriptorExpr r span).eval b = Eval.yield (.value (.descriptor r)) := by
  unfold Lowering.descriptorExpr
  rw [Expr.eval, hb.seen_of_plain rfl (by simp [Expr.ty, Expr.site, DescriptorRef.runtimeTy, Ty.ofClass])]

theorem eval_string (hb : Hooked env w b) (text : String) (span : Span) :
    (Expr.ofString span text).eval b = Eval.yield (.value (.string text)) := by
  unfold Expr.ofString Expr.ofConst
  rw [Expr.eval, hb.seen_of_plain rfl (by simp [Expr.ty, Expr.site, Const.ty])]
  rfl

theorem eval_unit (hb : Hooked env w b) (span : Span) :
    (Expr.unit span).eval b = Eval.yield (.value .unit) := by
  unfold Expr.unit Expr.ofConst
  rw [Expr.eval, hb.seen_of_plain rfl (by simp [Expr.ty, Expr.site, Const.ty])]
  rfl

/-- The arguments of a hook in code come to the arguments that it is called with. -/
theorem argsEval_argExprs (hb : Hooked env w b) (ev : TraceEvent) (span : Span)
    (next : List (Option Value) → Eval Flow) :
    argsEval b next [] ((ev.argExprs span).map some) = next (ev.args.map some) := by
  cases ev <;>
    simp only [TraceEvent.argExprs, TraceEvent.args, List.map_cons, List.map_nil, argsEval,
      hb.eval_descriptor, hb.eval_string, withValue, Eval.yield_andThen, List.reverse_cons,
      List.reverse_nil, List.nil_append, List.cons_append]

variable (store m) in
/-- A hook call tells its event, and comes to `Unit`. -/
theorem eval_tells (hb : Hooked env w b) {ev : TraceEvent} {x : Expr} (hx : Tells env ev x) :
    x.eval b = Eval.andThen ((tracerOf env store m w).tell [ev]) fun _ =>
      Eval.yield (.value .unit) := by
  obtain ⟨id, span, hid, rfl⟩ := hx
  have hstep : (Lowering.hookCall id (ev.argExprs span.toSynthetic) span).eval b =
      w.aroundCall b.function ⟨span.toSynthetic, .unit⟩ id
        (Eval.andThen (Eval.tell [env.options.tracing.hooks.call ev]) fun _ =>
          Eval.yield (.value .unit)) := by
    unfold Lowering.hookCall
    rw [Expr.eval, hb.seen_eq, Watch.aroundExpr, hb.fits.guardType_eq (by simp [Expr.ty, Expr.site])]
    simp only [Expr.callee?, optionEval, withValue, Eval.yield_andThen, hb.argsEval_argExprs]
    rw [hb.call ev id _ hid]
    rfl
  rw [hstep]
  simp only [Watch.aroundCall, hb.fits.before _ id _ _ hid, hb.fits.after _ id _ _ hid,
    Tracer.tell, tracerOf, hid, List.flatMap_cons, List.flatMap_nil, List.append_nil]
  cases w.silenced id <;> rfl

variable (store m) in
/-- Hook calls in front of other statements. -/
theorem stmtsEval_tellsAll (hb : Hooked env w b) {events : List TraceEvent} {stmts : List Stmt}
    (hs : TellsAll env events stmts) (rest : List Stmt) :
    stmtsEval b .unit (stmts ++ rest) = Eval.andThen ((tracerOf env store m w).tell events) fun _ =>
      stmtsEval b .unit rest := by
  induction hs with
  | nil => rfl
  | @cons ev stmt events stmts hx hs ih =>
    obtain ⟨x, rfl, hx⟩ := hx
    rw [List.cons_append, stmtsEval, Stmt.eval, hb.eval_tells store m hx,
      andThen_withValue]
    simp only [withValue, Eval.yield_andThen, ih, Tracer.tell, List.flatMap_cons, List.flatMap_nil,
      List.append_nil, Eval.tell_append, Eval.andThen_assoc]

end Hooked

/-- A `return` is left alone, as it comes to no value. -/
theorem Hooked.eval_ret (hb : Hooked env w b) (site : Site) (target : ReturnTarget)
    (value : Expr) :
    (Expr.ret site target value).eval b =
      withValue (value.eval b) fun v => Eval.yield (.ret target v) := by
  have hstep : b.observer.returned b.function target value (value.eval b) = value.eval b := by
    rw [hb.observer]
    rfl
  rw [Expr.eval, hstep, hb.seen_eq]
  unfold Watch.aroundExpr Watch.guardType
  simp only [Expr.callee?]
  split
  · rw [withValue_assoc]
    rfl
  · rfl

/-! ## Events around code -/

/-- A value that is bound and read back after host calls. -/
theorem endsWith_bound (site : Site) (var : VarId) (v : Value) (calls : List HostCall) :
    Eval.EndsWith (Eval.andThen (Eval.declare var v) fun _ =>
      Eval.andThen (Eval.tell calls) fun _ => evalGet site var) calls (.value v) := by
  intro s g rest l
  refine ⟨Bindings.bind var v s, ?_⟩
  have hread : evalGet site var ⟨(Bindings.bind var v s :: g) :: rest, calls.reverse ++ l⟩ =
      (.done (.value v), ⟨(Bindings.bind var v s :: g) :: rest, calls.reverse ++ l⟩) := by
    have hfind : Frame.find? (Bindings.bind var v s :: g) var = some v :=
      Frame.find?_declare var v s g
    have hframe : Eval.frame ⟨(Bindings.bind var v s :: g) :: rest, calls.reverse ++ l⟩ =
      (.done (Bindings.bind var v s :: g),
        ⟨(Bindings.bind var v s :: g) :: rest, calls.reverse ++ l⟩) := rfl
    unfold evalGet
    rw [Eval.andThen_done hframe, hfind]
    rfl
  exact hread

section

variable {inside : Option DeclId} {own : DeclId} {t : Terms} {mask : List Bool} {pre pre' : LogRel}
  {values values' : Value → Value → LogRel} {returns : ReturnTarget → Value → Value → LogRel}
  {x y : Eval Flow} {ty : Ty}

/-- What the watch adds to a block has no effect: its value was checked before. -/
theorem guardType_right (hguard : ∀ v v' l k, values v v' l k → w.never ty = false)
    (h : Matches t mask pre (Flow.Rel values returns) x y) :
    Matches t mask pre (Flow.Rel values returns) x (w.guardType ty y) := by
  unfold Watch.guardType
  by_cases hn : w.never ty = true
  · rw [if_pos hn, ← withValue_value x]
    refine h.withValue fun v v' => Matches.vacuous fun l k hl => ?_
    exact absurd (hn.symm.trans (hguard v v' l k hl)) (by simp)
  · rw [if_neg hn]
    exact h

variable (store m) in
/-- The second run has events around an expression. -/
theorem surrounds_right (hb : Hooked env w b) {before : List TraceEvent}
    {after : Option TraceEvent} {core e' : Expr} (hs : Surrounds env before after core e')
    {next : Value → Eval Flow} (hguard : ∀ v v' l k, values v v' l k → w.never core.ty = false)
    (hguard' : ∀ v v' l k, values' v v' l k → w.never core.ty = false)
    (hpre : ∀ l k, pre l k →
      pre' l ((before.flatMap (tracerOf env store m w).shown).reverse ++ k))
    (hcore : ∀ mask, Matches t mask pre' (Flow.Rel values returns) x (core.eval b))
    (hnext : ∀ mask v v', Matches t mask (values v v') (Flow.Rel values' returns) (next v)
      ((tracerOf env store m w).tellThen core.ty after v')) (mask : List Bool) :
    Matches t mask pre (Flow.Rel values' returns) (withValue x next) (e'.eval b) := by
  cases hs with
  | quiet hstmts =>
    unfold Lowering.blockWithResult
    rw [Expr.eval, hb.seen_eq, hb.stmtsEval_tellsAll store m hstmts]
    refine guardType_right hguard' (Matches.inScope_tell (Matches.inScope_right ?_) hpre)
    simp only [stmtsEval, Stmt.eval]
    exact (hcore _).withValue (hnext _)
  | @dropped stmts _ hook ev hstmts hhook hty =>
    unfold Lowering.blockWithResult
    rw [List.append_assoc, Expr.eval, hb.seen_eq,
      hb.stmtsEval_tellsAll store m hstmts]
    rw [show (Expr.unit core.span.toSynthetic).ty = core.ty from hty.symm]
    refine guardType_right hguard' (Matches.inScope_tell (Matches.inScope_right ?_) hpre)
    simp only [List.cons_append, List.nil_append, stmtsEval, Stmt.eval, withValue_value,
      hb.eval_tells store m hhook, hb.eval_unit, andThen_withValue]
    refine (hcore _).withValue fun v v' => ?_
    have hkept : Tracer.kept core.ty (some ev) v' = .unit := by rw [hty]; rfl
    have hn := hnext (false :: mask) v v'
    rwa [Tracer.tellThen, hkept] at hn
  | @kept stmts _ hook ev head span hstmts hhook hty =>
    unfold Lowering.blockWithResult
    rw [List.append_assoc, Expr.eval, hb.seen_eq,
      hb.stmtsEval_tellsAll store m hstmts]
    refine guardType_right hguard' (Matches.inScope_tell ?_ hpre)
    simp only [List.cons_append, List.nil_append, stmtsEval, Stmt.eval, optionEval, withValue_value,
      hb.eval_tells store m hhook, withValue_assoc, andThen_withValue]
    simp only [withValue, Eval.yield_andThen]
    rw [Expr.eval, hb.seen_eq]
    -- With a type that has no value, what comes after the value does not matter.
    by_cases hn : w.never core.ty = true
    · refine Matches.inScope_right ((hcore _).withValue fun v v' => Matches.vacuous fun l k hl => ?_)
      exact absurd (hn.symm.trans (hguard v v' l k hl)) (by simp)
    · have hread : w.aroundExpr b.function (.getVar ⟨span, core.ty⟩ head.id)
          (evalGet ⟨span, core.ty⟩ head.id) = evalGet ⟨span, core.ty⟩ head.id := if_neg hn
      rw [hread]
      refine Matches.inScope_withValue false (fun _ => [ev].flatMap (tracerOf env store m w).shown)
        .value (hcore _)
        (fun v' => endsWith_bound _ _ v' _) fun v v' => ?_
      have hkept : Tracer.kept core.ty (some ev) v' = v' := if_neg fun h => hty h.2
      have hn := hnext mask v v'
      rwa [Tracer.tellThen, hkept] at hn

variable (inside own) in
/-- An expression with events around it, next to a tracer that tells them. -/
theorem surrounds_matches (hb : Hooked env w b) {before : List TraceEvent}
    {after : Option TraceEvent} {core e' : Expr} (hs : Surrounds env before after core e')
    (hcore : ∀ mask, ValuesMatch env w inside own mask core.ty x (core.eval b)) (mask : List Bool) :
    ValuesMatch env w inside own mask core.ty
      (Eval.andThen ((tracerOf env store m w).tell before) fun _ =>
        (tracerOf env store m w).tellAfter core.ty after x) (e'.eval b) := by
  refine Matches.tell_left (P := fun l k =>
    l = (before.flatMap (tracerOf env store m w).shown).reverse ++ k) ?_ fun l k hl => hl ▸ rfl
  refine surrounds_right store m hb hs (fun _ _ _ _ h => h.1.2) (fun _ _ _ _ h => h.1.2)
    (fun _ _ h => h) hcore (fun mask v v' => ?_) mask
  refine Matches.andThen (Q := fun _ _ l k => v = v' ∧ w.never core.ty = false ∧ l = k)
    (Matches.tell fun l k hl => ⟨hl.1.1, hl.1.2, hl.2 ▸ rfl⟩) fun _ _ => ?_
  exact Matches.value fun l k hl => ⟨⟨hl.1 ▸ rfl, hl.2.1⟩, hl.2.2⟩

/-- What a `return` to another function hands over, with any number of hooks. -/
theorem rewrapped_matches (hb : Hooked env w b) {value value' : Expr}
    (hr : Rewrapped env value value')
    (hvalue : ∀ mask, ValuesMatch env w inside own mask value.ty x (value.eval b)) :
    ∀ mask, Matches (hookedComparison env w inside).terms mask Eq
      (Flow.Rel (fun _ _ l k => w.never value.ty = false ∧
        SameVisible env.options.tracing.hooks l k) ((hookedComparison env w inside).returns own ()))
      x (value'.eval b) := by
  induction hr with
  | refl =>
    intro mask
    exact (hvalue mask).post_mono (Flow.Rel.mono
      (fun _ _ _ _ h => ⟨h.1.2, congrArg (visible _) h.2⟩) fun _ _ _ _ _ hr => hr)
  | @step value' value'' ev hr hs ih =>
    intro mask
    rw [← withValue_value x]
    refine surrounds_right default default hb hs
      (fun _ _ _ _ h => hr.ty_eq ▸ h.1) (fun _ _ _ _ h => hr.ty_eq ▸ h.1) (fun _ _ h => h) ih
      (fun mask v v' => ?_) mask
    refine Matches.tell_right (Matches.value fun _ _ h => h) fun l k h => ⟨h.1, ?_⟩
    rw [SameVisible, visible_append, visible_told, List.nil_append]
    exact h.2

end

end TraceWeave.Tracing

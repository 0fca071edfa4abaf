import TraceWeave.Proofs.Program.Calls
import TraceWeave.Proofs.Runs.Programs

/-! # Two observers of the same code

Runs of the same code under two observers match if what the observers do around each expression
matches.

`Comparison.Observers` is what is asked of the observers around one expression;
`Expr.eval_watched` and its companions go through the code, and `Interpreter.callWithin_observed`
is the result.
-/

namespace TraceWeave

/-- Two observers that match in the code of a function. -/
structure Comparison.Observers {ι : Type} (K : Comparison ι) (allowed : Site → DeclId → Prop)
    (own : DeclId) (o o' : Observer) : Prop where
  expr : ∀ e, (∀ callee, e.callee? = some callee → allowed e.site callee) → ∀ x y,
    (∀ i mask, Matches K.terms mask (K.logs i) (K.flow own i) x y) →
    ∀ i mask, Matches K.terms mask (K.logs i) (K.flowOf own i e.ty) (o.expr own e x) (o'.expr own e y)
  returned : ∀ target e x y,
    (∀ i mask, Matches K.terms mask (K.logs i) (K.flowOf own i e.ty) x y) →
    ∀ i mask, Matches K.terms mask (K.logs i) (Flow.Rel (K.returns own i target) (K.returns own i))
      (o.returned own target e x) (o'.returned own target e y)

/-- Two activations of the same function whose observers and calls match. -/
structure Watched {ι : Type} (K : Comparison ι) (allowed : Site → DeclId → Prop) (own : DeclId)
    (a b : Activation) : Prop where
  left : a.function = own
  right : b.function = own
  rounds : b.rounds = a.rounds
  call : ∀ i site id, allowed site id → ∀ args, CallsMatch K.terms (K.logs i) (same (K.logs i))
    (a.call id args site.span) (b.call id args site.span)
  observers : K.Observers allowed own a.observer b.observer

namespace Watched

variable {ι : Type} {K : Comparison ι} {allowed : Site → DeclId → Prop} {own : DeclId}
  {a b : Activation}

theorem expr (w : Watched K allowed own a b) (e : Expr)
    (he : ∀ callee, e.callee? = some callee → allowed e.site callee) (x y : Eval Flow)
    (h : ∀ i mask, Matches K.terms mask (K.logs i) (K.flow own i) x y) (i : ι) (mask : List Bool) :
    Matches K.terms mask (K.logs i) (K.flowOf own i e.ty) (a.seen e x) (b.seen e y) := by
  unfold Activation.seen
  rw [w.left, w.right]
  exact w.observers.expr e he x y h i mask

/-- An expression that is no call. -/
theorem plain (w : Watched K allowed own a b) {e : Expr} {x y : Eval Flow}
    (h : ∀ i mask, Matches K.terms mask (K.logs i) (K.flow own i) x y)
    (hcallee : e.callee? = none := by rfl) (i : ι) (mask : List Bool) :
    Matches K.terms mask (K.logs i) (K.flowOf own i e.ty) (a.seen e x) (b.seen e y) :=
  w.expr e (fun _ hc => nomatch hcallee.symm.trans hc) x y h i mask

theorem returned (w : Watched K allowed own a b) (target : ReturnTarget) (e : Expr)
    (x y : Eval Flow)
    (h : ∀ i mask, Matches K.terms mask (K.logs i) (K.flowOf own i e.ty) x y) (i : ι)
    (mask : List Bool) :
    Matches K.terms mask (K.logs i) (Flow.Rel (K.returns own i target) (K.returns own i))
      (a.observer.returned a.function target e x) (b.observer.returned b.function target e y) := by
  rw [w.left, w.right]
  exact w.observers.returned target e x y h i mask

end Watched

section

open Interpreter

variable {ι : Type} {K : Comparison ι} {allowed : Site → DeclId → Prop} {own : DeclId}
  {a b : Activation}

mutual

-- The code is one and the same, so each case is the rule for its kind of node. Only a call and the
-- value of a `return` are seen by the observers as more than a value of a type.
theorem Expr.eval_watched (w : Watched K allowed own a b) : ∀ e : Expr, CallsOnly allowed e.calls →
    ∀ i mask, Matches K.terms mask (K.logs i) (K.flowOf own i e.ty) (e.eval a) (e.eval b)
  | .const s value, _ => by
    rw [Expr.eval, Expr.eval]
    exact w.plain fun i mask => Matches.value fun _ _ hl => ⟨rfl, hl⟩
  | .getVar s var, _ => by
    rw [Expr.eval, Expr.eval]
    exact w.plain fun i mask => Matches.evalGet (K.stopped_of_logs i) s var
  | .setVar s var value, h => by
    rw [Expr.calls] at h
    rw [Expr.eval, Expr.eval]
    refine w.plain fun i mask => ?_
    exact (Comparison.flow_of_flowOf (value.eval_watched w h i mask)).withValue
      (Matches.of_same fun v => Matches.evalSet (K.stopped_of_logs i) s var v)
  | .call s callee receiver typeArgs args, h => by
    rw [Expr.calls, CallsOnly.cons_iff, CallsOnly.append_iff] at h
    rw [Expr.eval, Expr.eval]
    refine w.expr (.call s callee receiver typeArgs args) (fun _ hc => Option.some.inj hc ▸ h.1) _ _
      fun i mask => ?_
    refine (optionEval_watched w receiver h.2.1 .unit i mask).withValue (Matches.of_same fun _ => ?_)
    refine argsEval_watched w args h.2.2 i mask _ _ (fun vs => ?_) []
    exact (w.call i s callee h.1 vs).inCode.andThen
      (Matches.of_same fun _ => Matches.value fun _ _ hl => ⟨rfl, hl⟩)
  | .functionRef s id, _ => by
    rw [Expr.eval, Expr.eval]
    exact w.plain fun i mask => Matches.fail _ (K.stopped_of_logs i)
  | .propertyRef s id, _ => by
    rw [Expr.eval, Expr.eval]
    exact w.plain fun i mask => Matches.fail _ (K.stopped_of_logs i)
  | .block s stmts, h => by
    rw [Expr.calls] at h
    rw [Expr.eval, Expr.eval]
    exact w.plain fun i mask => (stmtsEval_watched w stmts h .unit i mask).inScope
  | .returnable s id stmts, h => by
    rw [Expr.calls] at h
    rw [Expr.eval, Expr.eval]
    exact w.plain fun i mask =>
      Matches.evalReturnable (fun _ _ _ _ hr => hr) (stmtsEval_watched w stmts h .unit i mask).inScope
  | .ret s target value, h => by
    rw [Expr.calls] at h
    rw [Expr.eval, Expr.eval]
    refine w.plain fun i mask => ?_
    exact (w.returned target value _ _ (value.eval_watched w h) i mask).withValue
      fun v v' => Matches.ret fun _ _ hl => hl
  | .when s branches otherwise, h => by
    rw [Expr.calls, CallsOnly.append_iff] at h
    rw [Expr.eval, Expr.eval]
    exact w.plain fun i mask => branchesEval_watched w branches h.1 i mask _ _
      (optionEval_watched w otherwise h.2 .unit i mask)
  | .loop s condition body, h => by
    rw [Expr.calls, CallsOnly.append_iff] at h
    rw [Expr.eval, Expr.eval, w.rounds]
    refine w.plain fun i mask => ?_
    have hbody := Comparison.flow_of_flowOf (body.eval_watched w h.2 i mask)
    exact Matches.evalLoop (K.stopped_of_logs i)
      (Comparison.flow_of_flowOf (condition.eval_watched w h.1 i mask))
      (hbody.post_mono (Flow.Rel.mono (fun _ _ _ _ hv => hv.2) fun _ _ _ _ _ hr => hr)) a.rounds
  | .binary s op lhs rhs, h => by
    rw [Expr.calls, CallsOnly.append_iff] at h
    rw [Expr.eval, Expr.eval]
    exact w.plain fun i mask => Matches.evalBinary (K.stopped_of_logs i) op
      (Comparison.flow_of_flowOf (lhs.eval_watched w h.1 i mask))
      (Comparison.flow_of_flowOf (rhs.eval_watched w h.2 i mask))
  | .not s operand, h => by
    rw [Expr.calls] at h
    rw [Expr.eval, Expr.eval]
    exact w.plain fun i mask => Matches.withBool (K.stopped_of_logs i)
      (Comparison.flow_of_flowOf (operand.eval_watched w h i mask))
      fun b => Matches.value fun _ _ hl => ⟨rfl, hl⟩
  | .concat s parts, h => by
    rw [Expr.calls] at h
    rw [Expr.eval, Expr.eval]
    exact w.plain fun i mask => partsEval_watched w parts h "" i mask
  | .lambda s decl, _ => by
    rw [Expr.eval, Expr.eval]
    exact w.plain fun i mask => Matches.fail _ (K.stopped_of_logs i)
  | .descriptor s ref, _ => by
    rw [Expr.eval, Expr.eval]
    exact w.plain fun i mask => Matches.value fun _ _ hl => ⟨rfl, hl⟩
  | .captureFrame s capture, _ => by
    rw [Expr.eval, Expr.eval]
    exact w.plain fun i mask =>
      Matches.evalCapture (K.stopped_of_logs i) s capture

theorem optionEval_watched (w : Watched K allowed own a b) : ∀ e : Option Expr,
    CallsOnly allowed (optionCalls e) → ∀ missing i mask,
      Matches K.terms mask (K.logs i) (K.flow own i) (optionEval a missing e) (optionEval b missing e)
  | none, _ => fun missing i mask => by
    rw [optionEval, optionEval]
    exact Matches.value fun _ _ hl => ⟨rfl, hl⟩
  | some e, h => fun missing i mask => by
    rw [optionCalls] at h
    rw [optionEval, optionEval]
    exact Comparison.flow_of_flowOf (e.eval_watched w h i mask)

theorem argsEval_watched (w : Watched K allowed own a b) : ∀ args : List (Option Expr),
    CallsOnly allowed (argsCalls args) → ∀ i mask (next next' : List (Option Value) → Eval Flow),
      (∀ vs, Matches K.terms mask (K.logs i) (K.flow own i) (next vs) (next' vs)) → ∀ seen,
      Matches K.terms mask (K.logs i) (K.flow own i) (argsEval a next seen args)
        (argsEval b next' seen args)
  | [], _ => fun i mask next next' hnext seen => by
    rw [argsEval, argsEval]
    exact hnext seen.reverse
  | none :: args, h => fun i mask next next' hnext seen => by
    rw [argsCalls] at h
    rw [argsEval, argsEval]
    exact argsEval_watched w args h i mask next next' hnext (none :: seen)
  | some e :: args, h => fun i mask next next' hnext seen => by
    rw [argsCalls, CallsOnly.append_iff] at h
    rw [argsEval, argsEval]
    exact (Comparison.flow_of_flowOf (e.eval_watched w h.1 i mask)).withValue
      (Matches.of_same fun v => argsEval_watched w args h.2 i mask next next' hnext (some v :: seen))

theorem partsEval_watched (w : Watched K allowed own a b) : ∀ parts : List Expr,
    CallsOnly allowed (exprsCalls parts) → ∀ text i mask,
      Matches K.terms mask (K.logs i) (K.flow own i) (partsEval a text parts) (partsEval b text parts)
  | [], _ => fun text i mask => by
    rw [partsEval, partsEval]
    exact Matches.value fun _ _ hl => ⟨rfl, hl⟩
  | e :: es, h => fun text i mask => by
    rw [exprsCalls, CallsOnly.append_iff] at h
    rw [partsEval, partsEval]
    exact (Comparison.flow_of_flowOf (e.eval_watched w h.1 i mask)).withValue
      (Matches.of_same fun v => partsEval_watched w es h.2 (text ++ v.text) i mask)

theorem branchesEval_watched (w : Watched K allowed own a b) : ∀ branches : List (Expr × Expr),
    CallsOnly allowed (branchesCalls branches) → ∀ i mask (last last' : Eval Flow),
      Matches K.terms mask (K.logs i) (K.flow own i) last last' →
      Matches K.terms mask (K.logs i) (K.flow own i) (branchesEval a last branches)
        (branchesEval b last' branches)
  | [], _ => fun i mask last last' hlast => by
    rw [branchesEval, branchesEval]
    exact hlast
  | (condition, result) :: branches, h => fun i mask last last' hlast => by
    rw [branchesCalls, CallsOnly.append_iff, CallsOnly.append_iff] at h
    rw [branchesEval, branchesEval]
    refine Matches.withBool (K.stopped_of_logs i)
      (Comparison.flow_of_flowOf (condition.eval_watched w h.1.1 i mask)) fun holds => ?_
    cases holds with
    | true => exact Comparison.flow_of_flowOf (result.eval_watched w h.1.2 i mask)
    | false => exact branchesEval_watched w branches h.2 i mask last last' hlast

theorem stmtsEval_watched (w : Watched K allowed own a b) : ∀ stmts : List Stmt,
    CallsOnly allowed (stmtsCalls stmts) → ∀ last i mask,
      Matches K.terms (true :: mask) (K.logs i) (K.flow own i) (stmtsEval a last stmts)
        (stmtsEval b last stmts)
  | [], _ => fun last i mask => by
    rw [stmtsEval, stmtsEval]
    exact Matches.value fun _ _ hl => ⟨rfl, hl⟩
  | stmt :: stmts, h => fun last i mask => by
    rw [stmtsCalls, CallsOnly.append_iff] at h
    rw [stmtsEval, stmtsEval]
    exact (stmt.eval_watched w h.1 i mask).withValue
      (Matches.of_same fun v => stmtsEval_watched w stmts h.2 v i mask)

theorem Stmt.eval_watched (w : Watched K allowed own a b) : ∀ stmt : Stmt,
    CallsOnly allowed stmt.calls → ∀ i mask,
      Matches K.terms (true :: mask) (K.logs i) (K.flow own i) (stmt.eval a) (stmt.eval b)
  | .expr e, h => fun i mask => by
    rw [Stmt.calls] at h
    rw [Stmt.eval, Stmt.eval]
    exact Comparison.flow_of_flowOf (e.eval_watched w h i (true :: mask))
  | .var head init, h => fun i mask => by
    rw [Stmt.calls] at h
    rw [Stmt.eval, Stmt.eval]
    exact (optionEval_watched w init h .null i (true :: mask)).withValue
      (Matches.of_same fun v => (Matches.declare head.id v).andThen
        fun _ _ => Matches.value fun _ _ hl => ⟨rfl, hl⟩)
  | .decl d, _ => fun i mask => by
    rw [Stmt.eval, Stmt.eval]
    exact Matches.value fun _ _ hl => ⟨rfl, hl⟩

end

/-- The flows of the code of a function. -/
def Comparison.flowOfBody (K : Comparison ι) (own : DeclId) (i : ι) : Body → Flow → Flow → LogRel
  | .expression e => K.flowOf own i e.ty
  | _ => K.flow own i

/-- A body has a value that its type allows. -/
theorem Comparison.of_flowOfBody {body : Body} {i : ι} {mask : List Bool} {pre : LogRel}
    {x y : Eval Flow} (h : Matches K.terms mask pre (K.flowOfBody own i body) x y) :
    Matches K.terms mask pre (Flow.Rel (fun v v' l k =>
      (v = v' ∧ ∀ e, body = .expression e → K.values e.ty v v') ∧ K.logs i l k) (K.returns own i))
      x y := by
  refine h.post_mono ?_
  cases body with
  | expression e =>
    refine Flow.Rel.mono (fun v v' l k hv => ⟨⟨K.eq_of_values hv.1, ?_⟩, hv.2⟩)
      fun _ _ _ _ _ hr => hr
    intro e' he
    cases he
    exact hv.1
  | absent | block =>
    exact Flow.Rel.mono (fun v v' l k hv => ⟨⟨hv.1, nofun⟩, hv.2⟩) fun _ _ _ _ _ hr => hr

theorem Body.eval_watched (w : Watched K allowed own a b) (body : Body)
    (h : CallsOnly allowed body.calls) (i : ι) (mask : List Bool) :
    Matches K.terms mask (K.logs i) (K.flowOfBody own i body) (body.eval a) (body.eval b) := by
  cases body with
  | absent => exact Matches.value fun _ _ hl => ⟨rfl, hl⟩
  | block stmts => exact (stmtsEval_watched w stmts h .unit i mask).inScope
  | expression e => exact e.eval_watched w h i mask

theorem paramsMatch_watched (w : Watched K allowed own a b) : ∀ params : List Param,
    CallsOnly allowed (paramsCalls params) → ParamsMatch K own a b params params
  | [], _ => .nil
  | ⟨head, none⟩ :: params, h => by
    rw [paramsCalls] at h
    exact .plain (paramsMatch_watched w params (CallsOnly.append_iff.mp h).2)
  | ⟨head, some e⟩ :: params, h => by
    rw [paramsCalls] at h
    obtain ⟨he, hps⟩ := CallsOnly.append_iff.mp h
    exact .default rfl (fun i mask => Comparison.flow_of_flowOf (e.eval_watched w he i mask))
      (paramsMatch_watched w params hps)

end

/-! ## Programs -/

namespace Interpreter

/-- A program under an observer. -/
def observed (p : Interpreter) (o : Observer) : Interpreter := { p with observer := o }

theorem alike_observed (p : Interpreter) (o o' : Observer) :
    Alike (p.observed o) (p.observed o') where
  hosts := rfl
  hostName _ _ := rfl
  decl id := by
    change Option.Rel _ (p.decl? id) (p.decl? id)
    cases p.decl? id with
    | none => exact .none
    | some d => exact .some (Decl.Alike.refl d)

/-- Two observers that match in a program: in the code of its functions, whose calls are known to be
allowed ones, and around their bodies. -/
structure ObserversMatch {ι : Type} (K : Comparison ι) (allowed : DeclId → Prop)
    (sites : DeclId → Site → DeclId → Prop) (p : Interpreter) (o o' : Observer) : Prop where
  log : ∀ i id, allowed id → ∀ name, p.HostedAs id name → ∀ args l k, K.logs i l k →
    K.logs i (⟨name, args⟩ :: l) (⟨name, args⟩ :: k)
  calls : ∀ id d, p.decl? id = some d →
    CallsOnly (fun site callee => allowed callee ∧ sites id site callee) d.calls
  code : ∀ id head info ps body, p.decl? id = some (.function head info ps body) →
    K.Observers (fun site callee => allowed callee ∧ sites id site callee) id o o'
  body : ∀ id head info ps body, p.decl? id = some (.function head info ps body) → ∀ x y,
    (∀ i mask, Matches K.terms mask (K.logs i) (K.flowOfBody id i body) x y) →
    ∀ i, Matches K.terms [true] (K.logs i) (same (K.logs i))
      (Eval.andThen (o.body id x) (leaveFunction id info))
      (Eval.andThen (o'.body id y) (leaveFunction id info))

/-- **The same code under two observers.** Runs of a program match if its observers do. -/
theorem callWithin_observed {ι : Type} {K : Comparison ι} {allowed : DeclId → Prop}
    {sites : DeclId → Site → DeclId → Prop} {p : Interpreter} {o o' : Observer}
    (h : ObserversMatch K allowed sites p o o') (id : DeclId) (hid : allowed id) (rounds : Nat)
    (i : ι) (args : List Value) :
    CallsMatch K.terms (K.logs i) (same (K.logs i)) ((p.observed o).callWithin rounds id args)
      ((p.observed o').callWithin rounds id args) := by
  refine callWithin_matches (alike_observed p o o') (fun args span => ?_) args
  refine runWithin_matches allowed (alike_observed p o o') rounds h.log ?_ maxCallDepth i id hid args span
  intro run run' hcalls id head info ps ps' body body' hp hq i args
  obtain ⟨rfl, rfl⟩ : ps' = ps ∧ body' = body := by
    have heq := Option.some.inj (hq.symm.trans hp)
    exact ⟨by injection heq, by injection heq⟩
  obtain ⟨hps, hbody⟩ := CallsOnly.append_iff.mp (h.calls id _ hp)
  have w : Watched K (fun site callee => allowed callee ∧ sites id site callee) id
      ⟨id, rounds, o, (p.observed o).invoke run⟩ ⟨id, rounds, o', (p.observed o').invoke run'⟩ :=
    ⟨rfl, rfl, rfl, fun i site callee hc vs => hcalls i callee hc.1 vs site.span,
      h.code id head info ps' body' hp⟩
  exact runFunction_matches (paramsMatch_watched w ps' hps)
    (h.body id head info ps' body' hp _ _ (Body.eval_watched w body' hbody)) args

end Interpreter

end TraceWeave

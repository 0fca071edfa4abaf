import TraceWeave.Proofs.Runs.Programs
import TraceWeave.Proofs.Snapshot.Standing

/-! # What code knows of its variables

Where code stands says something about the frame that it runs in, such as which variables are bound
there. An `Upkeep` is such a reading of places, next to how code leaves the frame that it found.
`Within` compares two evaluations that start from a frame of which that much is known. It has a rule
for each way in which evaluations are put together, so that code is gone through only once, whatever
it is that is known.

The code itself is gone through in `Expr.eval_within` and its companions, and
`Interpreter.invoke_same` is about calls.
-/

namespace TraceWeave

/-! ## Steps that leave the frames alone -/

namespace Eval

variable {α β : Type}

/-- A step that leaves all frames as they are if it comes to a result. -/
def Stays (x : Eval α) : Prop := ∀ m a n, x m = (.done a, n) → n.frames = m.frames

namespace Stays

theorem yield (a : α) : Stays (Eval.yield a) := by
  rintro m b n ⟨⟩
  rfl

theorem fail (e : Error) : Stays (Eval.fail e : Eval α) := nofun

theorem outOfFuel : Stays (fun m => (.outOfFuel, m) : Eval α) := nofun

theorem ofExcept (r : Except Error α) : Stays (Eval.ofExcept r) := by
  cases r with
  | ok a => exact yield a
  | error e => exact fail e

theorem andThen {x : Eval α} {next : α → Eval β} (hx : Stays x) (hnext : ∀ a, Stays (next a)) :
    Stays (Eval.andThen x next) := by
  intro m b n h
  rcases hstep : x m with ⟨a | e | _, m'⟩
  · rw [andThen_done hstep] at h
    exact (hnext a m' b n h).trans (hx m a m' hstep)
  · rw [andThen_failed hstep] at h
    cases h
  · rw [andThen_outOfFuel hstep] at h
    cases h

theorem frame : Stays Eval.frame := by
  intro m a n h
  unfold Eval.frame at h
  split at h <;> cases h
  rfl

theorem callHost (name : String) (host : Host) (args : List Value) :
    Stays (Eval.callHost name host args) := by
  intro m a n h
  unfold Eval.callHost at h
  dsimp only at h
  split at h <;> cases h
  rfl

end Stays

end Eval

/-- Calls that are the same and leave all frames as they are. -/
structure SameCall {α : Type} (x y : Eval α) : Prop where
  eq : x = y
  stays : x.Stays

/-! ## Readings of places -/

/-- Whether code is an expression, or statements, which may declare variables in the innermost
scope. -/
inductive Reach where
  | expr
  | stmts

/-- What code knows of the frame that it runs in, and how it leaves the frame. -/
structure Upkeep where
  /-- What is known of a frame where some variables can be seen. -/
  Knows : List VarId → Frame → Prop
  /-- How a frame is left by code that it was found by. -/
  Leaves : Reach → Frame → Frame → Prop
  refl : ∀ f, Leaves .expr f f
  trans : ∀ {r f g h}, Leaves .expr f g → Leaves r g h → Leaves r f h
  stmts : ∀ {f g}, Leaves .expr f g → Leaves .stmts f g
  ne_nil : ∀ {f g}, Leaves .stmts f g → f ≠ [] → g ≠ []
  known : ∀ {vars f g}, Leaves .expr f g → Knows vars f → Knows vars g
  assign : ∀ {var value f g}, Frame.assign? var value f = some g → Leaves .expr f g
  declare : ∀ {vars f} var value, f ≠ [] → Knows vars f →
    Knows (vars ++ [var]) (Frame.declare var value f)
  declared : ∀ {var value f g}, f ≠ [] → Leaves .stmts (Frame.declare var value f) g →
    Leaves .stmts f g
  scope : ∀ {vars f}, Knows vars f → Knows vars ([] :: f)
  leaveScope : ∀ {s f g}, f ≠ [] → Leaves .stmts ([] :: f) (s :: g) → Leaves .expr f g

/-- From a frame of which it is known which variables can be seen two evaluations are the same, and
if they come to a result, they leave the frame as code of their kind does. -/
def Within (U : Upkeep) (r : Reach) {α : Type} (vars : List VarId) (x y : Eval α) : Prop :=
  ∀ (f : Frame) (rest : List Frame) (l : List HostCall), f ≠ [] → U.Knows vars f →
    x ⟨f :: rest, l⟩ = y ⟨f :: rest, l⟩ ∧
      ∀ a n, x ⟨f :: rest, l⟩ = (.done a, n) → ∃ g, n.frames = g :: rest ∧ U.Leaves r f g

namespace Within

variable {U : Upkeep} {r : Reach} {α β : Type} {vars : List VarId} {x y : Eval α}

theorem of_expr (h : Within U .expr vars x y) : Within U r vars x y := by
  cases r with
  | expr => exact h
  | stmts =>
    intro f rest l hf hknown
    obtain ⟨heq, hleaves⟩ := h f rest l hf hknown
    refine ⟨heq, fun a n hn => ?_⟩
    obtain ⟨g, hframes, hg⟩ := hleaves a n hn
    exact ⟨g, hframes, U.stmts hg⟩

theorem same (h : x.Stays) : Within U r vars x x := by
  refine of_expr fun f rest l _ _ => ⟨rfl, fun a n hx => ⟨f, h _ a n hx, U.refl f⟩⟩

theorem of_call (h : SameCall x y) : Within U r vars x y := by
  rw [← h.eq]
  exact same h.stays

theorem andThen {next next' : α → Eval β} (h : Within U .expr vars x y)
    (hnext : ∀ a, Within U r vars (next a) (next' a)) :
    Within U r vars (Eval.andThen x next) (Eval.andThen y next') := by
  intro f rest l hf hknown
  obtain ⟨heq, hleaves⟩ := h f rest l hf hknown
  rcases hx : x ⟨f :: rest, l⟩ with ⟨a | e | _, ⟨frames, l'⟩⟩
  · obtain ⟨g, rfl, hg⟩ := hleaves a _ hx
    rw [Eval.andThen_done hx, Eval.andThen_done (heq ▸ hx)]
    obtain ⟨heq', hleaves'⟩ := hnext a g rest l' (U.ne_nil (U.stmts hg) hf) (U.known hg hknown)
    refine ⟨heq', fun b n hn => ?_⟩
    obtain ⟨g', hframes, hg'⟩ := hleaves' b n hn
    exact ⟨g', hframes, U.trans hg hg'⟩
  · rw [Eval.andThen_failed hx, Eval.andThen_failed (heq ▸ hx)]
    exact ⟨rfl, nofun⟩
  · rw [Eval.andThen_outOfFuel hx, Eval.andThen_outOfFuel (heq ▸ hx)]
    exact ⟨rfl, nofun⟩

/-- What comes after a declaration can see the variable. -/
theorem declare {next next' : Eval β} (var : VarId) (value : Value)
    (h : Within U .stmts (vars ++ [var]) next next') :
    Within U .stmts vars (Eval.andThen (Eval.declare var value) fun _ => next)
      (Eval.andThen (Eval.declare var value) fun _ => next') := by
  intro f rest l hf hknown
  have hdeclared : f.declare var value ≠ [] := by
    intro hnil
    exact hf (List.length_eq_zero_iff.mp ((f.length_declare var value).symm.trans
      (List.length_eq_zero_iff.mpr hnil)))
  obtain ⟨heq, hleaves⟩ := h (f.declare var value) rest l hdeclared (U.declare var value hf hknown)
  rw [Eval.andThen_done (Eval.declare_eq var value f rest l),
    Eval.andThen_done (Eval.declare_eq var value f rest l)]
  refine ⟨heq, fun b n hn => ?_⟩
  obtain ⟨g, hframes, hg⟩ := hleaves b n hn
  exact ⟨g, hframes, U.declared hf hg⟩

theorem inScope (h : Within U .stmts vars x y) :
    Within U r vars (Eval.inScope x) (Eval.inScope y) := by
  refine of_expr fun f rest l hf hknown => ?_
  obtain ⟨heq, hleaves⟩ := h ([] :: f) rest l (List.cons_ne_nil _ _) (U.scope hknown)
  unfold Eval.inScope
  dsimp only
  rw [← heq]
  refine ⟨rfl, fun a n hn => ?_⟩
  rcases hx : x ⟨([] :: f) :: rest, l⟩ with ⟨o, ⟨frames, l'⟩⟩
  rw [hx] at hn
  cases frames with
  | nil => cases hn
  | cons g rest' =>
    cases hn
    obtain ⟨g', hframes, hg⟩ := hleaves a _ hx
    cases hframes
    obtain ⟨s, g, rfl⟩ := List.exists_cons_of_ne_nil (U.ne_nil hg (List.cons_ne_nil _ _))
    have hleft := U.leaveScope hf hg
    refine ⟨_, rfl, ?_⟩
    rwa [Frame.popScope_cons (U.ne_nil (U.stmts hleft) hf)]

/-- A function activation of its own is the same from everywhere. -/
theorem inFrame (hstart : U.Knows [] Frame.start) (h : Within U r [] x y) :
    SameCall (Eval.inFrame x) (Eval.inFrame y) := by
  have hrun : ∀ m : Machine, _ := fun m =>
    h Frame.start m.frames m.log (List.cons_ne_nil _ _) hstart
  constructor
  · funext m
    unfold Eval.inFrame
    rw [(hrun m).1]
  · intro m a n hn
    unfold Eval.inFrame at hn
    rcases hx : x { m with frames := Frame.start :: m.frames } with ⟨o, m'⟩
    rw [hx] at hn
    cases hn
    obtain ⟨g, hframes, -⟩ := (hrun m).2 a m' hx
    show m'.frames.tail = m.frames
    rw [hframes]
    rfl

end Within

/-! ## Kinds of expressions -/

namespace Within

open Interpreter

variable {U : Upkeep} {r : Reach} {vars : List VarId} {x y : Eval Flow}

theorem value (v : Value) :
    Within U r vars (Eval.yield (Flow.value v)) (Eval.yield (Flow.value v)) :=
  same (.yield _)

theorem refuseAt {α : Type} (message : String) (span : Span) :
    Within U r vars (Eval.refuseAt message span : Eval α) (Eval.refuseAt message span) :=
  same (.fail _)

theorem withValue {next next' : Value → Eval Flow} (h : Within U .expr vars x y)
    (hnext : ∀ v, Within U r vars (next v) (next' v)) :
    Within U r vars (Interpreter.withValue x next) (Interpreter.withValue y next') := by
  refine h.andThen fun flow => ?_
  cases flow with
  | value v => exact hnext v
  | ret target v => exact same (.yield _)

theorem withBool {next next' : Bool → Eval Flow} (h : Within U .expr vars x y)
    (hnext : ∀ b, Within U r vars (next b) (next' b)) :
    Within U r vars (Interpreter.withBool x next) (Interpreter.withBool y next') :=
  h.withValue fun v => (same (.ofExcept v.asBool)).andThen hnext

theorem evalGet (site : Site) (var : VarId) :
    Within U r vars (Interpreter.evalGet site var) (Interpreter.evalGet site var) := by
  refine (same .frame).andThen fun f => ?_
  split
  · exact same (.yield _)
  · exact refuseAt _ _

theorem evalSet (site : Site) (var : VarId) (v : Value) :
    Within U r vars (Interpreter.evalSet site var v) (Interpreter.evalSet site var v) := by
  refine of_expr fun f rest l _ _ => ⟨rfl, fun a n hn => ?_⟩
  unfold Interpreter.evalSet at hn
  rw [Eval.andThen_done (Eval.frame_eq f rest l)] at hn
  cases hassign : f.assign? var v with
  | none =>
    rw [hassign] at hn
    cases hn
  | some g =>
    rw [hassign] at hn
    cases hn
    exact ⟨g, rfl, U.assign hassign⟩

theorem evalReturnable (id : BlockId) (h : Within U .expr vars x y) :
    Within U r vars (Interpreter.evalReturnable id x) (Interpreter.evalReturnable id y) := by
  refine h.andThen fun flow => ?_
  cases flow <;> exact same (.yield _)

theorem evalBinary (op : BinOp) {x' y' : Eval Flow} (h : Within U .expr vars x y)
    (h' : Within U .expr vars x' y') :
    Within U r vars (Interpreter.evalBinary op x x') (Interpreter.evalBinary op y y') := by
  have hstrict : Within U r vars
      (Interpreter.withValue x fun l => Interpreter.withValue x' fun r =>
        Eval.andThen (Eval.ofExcept (Value.binary op l r)) fun v => Eval.yield (.value v))
      (Interpreter.withValue y fun l => Interpreter.withValue y' fun r =>
        Eval.andThen (Eval.ofExcept (Value.binary op l r)) fun v => Eval.yield (.value v)) :=
    h.withValue fun l => h'.withValue fun r => (same (.ofExcept _)).andThen value
  cases op with
  | and =>
    refine h.withBool fun l => ?_
    cases l with
    | true => exact h'.withBool fun r => value _
    | false => exact value _
  | or =>
    refine h.withBool fun l => ?_
    cases l with
    | true => exact value _
    | false => exact h'.withBool fun r => value _
  | _ => exact hstrict

theorem evalLoop {x' y' : Eval Flow} (h : Within U .expr vars x y)
    (h' : Within U .expr vars x' y') : ∀ rounds,
      Within U r vars (Interpreter.evalLoop x x' rounds) (Interpreter.evalLoop y y' rounds)
  | 0 => same .outOfFuel
  | rounds + 1 => by
    refine h.withBool fun holds => ?_
    cases holds with
    | true => exact h'.withValue fun _ => evalLoop h h' rounds
    | false => exact value _

theorem stays_captureValues (span : Span) (f : Frame) : ∀ entries : List CapturedLocal,
    (captureValues span f entries).Stays
  | [] => .yield _
  | entry :: entries => by
    unfold captureValues
    split
    · exact (stays_captureValues span f entries).andThen fun _ => .yield _
    · exact .fail _

theorem evalCapture (site : Site) (capture : FrameCapture) :
    Within U r vars (Interpreter.evalCapture site capture)
      (Interpreter.evalCapture site capture) :=
  same (Eval.Stays.frame.andThen fun f =>
    (stays_captureValues site.span f capture.entries).andThen fun _ => .yield _)

end Within

/-! ## Code -/

/-- Captures that are fine where they stand, as far as they stand in a body. -/
def AllFine (fine : FrameCapture → List VarId → Prop)
    (found : List (Option Standing × Site × FrameCapture)) : Prop :=
  ∀ y ∈ found, ∀ s, y.1 = some s → fine y.2.2 s.vars

theorem AllFine.append_iff {fine : FrameCapture → List VarId → Prop}
    {xs ys : List (Option Standing × Site × FrameCapture)} :
    AllFine fine (xs ++ ys) ↔ AllFine fine xs ∧ AllFine fine ys := List.forall_mem_append

/-- Activations whose calls are the same and whose observers make the same of all expressions, of
captures as far as they are fine where they stand. -/
structure Activation.SameWithin (U : Upkeep) (fine : FrameCapture → List VarId → Prop)
    (a b : Activation) : Prop where
  rounds : a.rounds = b.rounds
  call : ∀ id args span, SameCall (a.call id args span) (b.call id args span)
  seen : ∀ {e vars x y}, (∀ s c, e ≠ .captureFrame s c) → Within U .expr vars x y →
    Within U .expr vars (a.seen e x) (b.seen e y)
  returned : ∀ target e {vars x y}, Within U .expr vars x y →
    Within U .expr vars (a.observer.returned a.function target e x)
      (b.observer.returned b.function target e y)
  capture : ∀ s c vars, fine c vars → Within U .expr vars
    (a.seen (.captureFrame s c) (Interpreter.evalCapture s c))
    (b.seen (.captureFrame s c) (Interpreter.evalCapture s c))

section

variable {U : Upkeep} {fine : FrameCapture → List VarId → Prop} {a b : Activation}

/-- An expression that is no capture. -/
theorem Activation.SameWithin.expr (h : a.SameWithin U fine b) {e : Expr} {vars : List VarId}
    {x y : Eval Flow} (hxy : Within U .expr vars x y)
    (he : ∀ s c, e ≠ .captureFrame s c := by intro s c hc; cases hc) :
    Within U .expr vars (a.seen e x) (b.seen e y) := h.seen he hxy

open Interpreter

mutual

-- The place of a node says which variables are known there; statements add those that they declare
-- for the statements behind them.
theorem Expr.eval_within (h : a.SameWithin U fine b) : ∀ (e : Expr) (own : DeclId)
    (vars : List VarId), AllFine fine (e.spots .captures (some ⟨own, vars⟩)) →
      Within U .expr vars (e.eval a) (e.eval b)
  | .const s value, own, vars, _ => by
    rw [Expr.eval, Expr.eval]
    exact h.expr (.value _)
  | .getVar s var, own, vars, _ => by
    rw [Expr.eval, Expr.eval]
    exact h.expr (.evalGet s var)
  | .setVar s var value, own, vars, hc => by
    rw [Expr.eval, Expr.eval]
    exact h.expr ((value.eval_within h own vars hc).withValue (.evalSet s var))
  | .call s callee receiver typeArgs args, own, vars, hc => by
    obtain ⟨hreceiver, hargs⟩ := AllFine.append_iff.mp hc
    rw [Expr.eval, Expr.eval]
    refine h.expr ((optionEval_within h receiver own vars hreceiver .unit).withValue fun _ => ?_)
    refine argsEval_within h args own vars hargs (fun vs => ?_) []
    exact (Within.of_call (h.call callee vs s.span)).andThen .value
  | .functionRef s id, own, vars, _ => by
    rw [Expr.eval, Expr.eval]
    exact h.expr (.refuseAt _ _)
  | .propertyRef s id, own, vars, _ => by
    rw [Expr.eval, Expr.eval]
    exact h.expr (.refuseAt _ _)
  | .block s stmts, own, vars, hc => by
    rw [Expr.eval, Expr.eval]
    exact h.expr (stmtsEval_within h stmts own vars hc .unit).inScope
  | .returnable s id stmts, own, vars, hc => by
    rw [Expr.eval, Expr.eval]
    exact h.expr ((stmtsEval_within h stmts own vars hc .unit).inScope.evalReturnable id)
  | .ret s target value, own, vars, hc => by
    rw [Expr.eval, Expr.eval]
    have hvalue := h.returned target value (value.eval_within h own vars hc)
    exact h.expr (hvalue.withValue fun _ => .same (.yield _))
  | .when s branches otherwise, own, vars, hc => by
    obtain ⟨hbranches, hotherwise⟩ := AllFine.append_iff.mp hc
    rw [Expr.eval, Expr.eval]
    exact h.expr (branchesEval_within h branches own vars hbranches
      (optionEval_within h otherwise own vars hotherwise .unit))
  | .loop s condition body, own, vars, hc => by
    obtain ⟨hcondition, hbody⟩ := AllFine.append_iff.mp hc
    rw [Expr.eval, Expr.eval, h.rounds]
    exact h.expr (.evalLoop (condition.eval_within h own vars hcondition)
      (body.eval_within h own vars hbody) _)
  | .binary s op lhs rhs, own, vars, hc => by
    obtain ⟨hlhs, hrhs⟩ := AllFine.append_iff.mp hc
    rw [Expr.eval, Expr.eval]
    exact h.expr (.evalBinary op (lhs.eval_within h own vars hlhs)
      (rhs.eval_within h own vars hrhs))
  | .not s operand, own, vars, hc => by
    rw [Expr.eval, Expr.eval]
    exact h.expr ((operand.eval_within h own vars hc).withBool fun _ => .value _)
  | .concat s parts, own, vars, hc => by
    rw [Expr.eval, Expr.eval]
    exact h.expr (partsEval_within h parts own vars hc "")
  | .lambda s decl, own, vars, _ => by
    rw [Expr.eval, Expr.eval]
    exact h.expr (.refuseAt _ _)
  | .descriptor s ref, own, vars, _ => by
    rw [Expr.eval, Expr.eval]
    exact h.expr (.value _)
  | .captureFrame s capture, own, vars, hc => by
    rw [Expr.eval, Expr.eval]
    exact h.capture s capture vars (hc _ List.mem_cons_self ⟨own, vars⟩ rfl)

theorem optionEval_within (h : a.SameWithin U fine b) : ∀ (e : Option Expr) (own : DeclId)
    (vars : List VarId), AllFine fine (optionSpots .captures (some ⟨own, vars⟩) e) → ∀ missing,
      Within U .expr vars (optionEval a missing e) (optionEval b missing e)
  | none, own, vars, _, missing => by
    rw [optionEval, optionEval]
    exact .value _
  | some e, own, vars, hc, missing => by
    rw [optionEval, optionEval]
    exact e.eval_within h own vars hc

theorem argsEval_within (h : a.SameWithin U fine b) : ∀ (args : List (Option Expr))
    (own : DeclId) (vars : List VarId),
    AllFine fine (argsSpots .captures (some ⟨own, vars⟩) args) →
    ∀ {next next' : List (Option Value) → Eval Flow},
      (∀ vs, Within U .expr vars (next vs) (next' vs)) →
    ∀ seen, Within U .expr vars (argsEval a next seen args) (argsEval b next' seen args)
  | [], own, vars, _, next, next', hnext, seen => by
    rw [argsEval, argsEval]
    exact hnext _
  | none :: args, own, vars, hc, next, next', hnext, seen => by
    rw [argsEval, argsEval]
    exact argsEval_within h args own vars hc hnext _
  | some e :: args, own, vars, hc, next, next', hnext, seen => by
    obtain ⟨he, hargs⟩ := AllFine.append_iff.mp hc
    rw [argsEval, argsEval]
    exact (e.eval_within h own vars he).withValue fun _ =>
      argsEval_within h args own vars hargs hnext _

theorem partsEval_within (h : a.SameWithin U fine b) : ∀ (parts : List Expr) (own : DeclId)
    (vars : List VarId), AllFine fine (exprsSpots .captures (some ⟨own, vars⟩) parts) → ∀ text,
      Within U .expr vars (partsEval a text parts) (partsEval b text parts)
  | [], own, vars, _, text => by
    rw [partsEval, partsEval]
    exact .value _
  | e :: es, own, vars, hc, text => by
    obtain ⟨he, hes⟩ := AllFine.append_iff.mp hc
    rw [partsEval, partsEval]
    exact (e.eval_within h own vars he).withValue fun _ =>
      partsEval_within h es own vars hes _

theorem branchesEval_within (h : a.SameWithin U fine b) : ∀ (branches : List (Expr × Expr))
    (own : DeclId) (vars : List VarId),
    AllFine fine (branchesSpots .captures (some ⟨own, vars⟩) branches) →
    ∀ {last last' : Eval Flow}, Within U .expr vars last last' →
      Within U .expr vars (branchesEval a last branches) (branchesEval b last' branches)
  | [], own, vars, _, last, last', hlast => by
    rw [branchesEval, branchesEval]
    exact hlast
  | (condition, result) :: branches, own, vars, hc, last, last', hlast => by
    obtain ⟨hfirst, hbranches⟩ := AllFine.append_iff.mp hc
    obtain ⟨hcondition, hresult⟩ := AllFine.append_iff.mp hfirst
    rw [branchesEval, branchesEval]
    refine (condition.eval_within h own vars hcondition).withBool fun holds => ?_
    cases holds with
    | true => exact result.eval_within h own vars hresult
    | false => exact branchesEval_within h branches own vars hbranches hlast

/-- A variable can be seen in the statements behind its declaration. -/
theorem stmtsEval_within (h : a.SameWithin U fine b) : ∀ (stmts : List Stmt) (own : DeclId)
    (vars : List VarId), AllFine fine (stmtsSpots .captures (some ⟨own, vars⟩) stmts) → ∀ last,
      Within U .stmts vars (stmtsEval a last stmts) (stmtsEval b last stmts)
  | [], own, vars, _, last => by
    rw [stmtsEval, stmtsEval]
    exact .value _
  | .expr e :: stmts, own, vars, hc, last => by
    obtain ⟨he, hstmts⟩ := AllFine.append_iff.mp hc
    rw [stmtsEval, stmtsEval, Stmt.eval, Stmt.eval]
    exact (e.eval_within h own vars he).withValue fun v =>
      stmtsEval_within h stmts own vars hstmts v
  | .var head init :: stmts, own, vars, hc, last => by
    obtain ⟨hinit, hstmts⟩ := AllFine.append_iff.mp hc
    rw [stmtsEval, stmtsEval, Stmt.eval, Stmt.eval, withValue_assoc, withValue_assoc]
    refine (optionEval_within h init own vars hinit .null).withValue fun v => ?_
    rw [andThen_withValue, andThen_withValue]
    exact .declare head.id v (stmtsEval_within h stmts own (vars ++ [head.id]) hstmts .unit)
  | .decl d :: stmts, own, vars, hc, last => by
    obtain ⟨-, hstmts⟩ := AllFine.append_iff.mp hc
    rw [stmtsEval, stmtsEval, Stmt.eval, Stmt.eval]
    exact stmtsEval_within h stmts own vars hstmts .unit

end

theorem Body.eval_within (h : a.SameWithin U fine b) (body : Body) (own : DeclId)
    (vars : List VarId) (hc : AllFine fine (body.spots .captures (some ⟨own, vars⟩))) :
    Within U .expr vars (body.eval a) (body.eval b) := by
  cases body with
  | absent => exact .value _
  | block stmts => exact (stmtsEval_within h stmts own vars hc .unit).inScope
  | expression e => exact e.eval_within h own vars hc

theorem Interpreter.evalOperand_within (h : a.SameWithin U fine b) (e : Expr) (own : DeclId)
    (vars : List VarId) (hc : AllFine fine (e.spots .captures (some ⟨own, vars⟩))) :
    Within U .expr vars (evalOperand a e) (evalOperand b e) := by
  refine (e.eval_within h own vars hc).andThen fun flow => ?_
  cases flow with
  | value v => exact .same (.yield v)
  | ret target v => exact .refuseAt _ _

end

/-! ## Calls -/

namespace Interpreter

theorem stays_leaveFunction (id : DeclId) (info : FunctionHead) (flow : Flow) :
    (leaveFunction id info flow).Stays := by
  cases flow with
  | value v => exact .yield _
  | ret target v =>
    by_cases htarget : target = .function id
    · rw [leaveFunction, if_pos htarget]
      exact .yield v
    · rw [leaveFunction, if_neg htarget]
      exact .fail _

theorem stays_hostArgs (name : String) (span : Span) : ∀ (index : Nat)
    (args : List (Option Value)), (hostArgs name span index args).Stays
  | _, [] => .yield _
  | index, some _ :: args => (stays_hostArgs name span (index + 1) args).andThen fun _ => .yield _
  | _, none :: _ => .fail _

/-- A step that is only taken below a number of activations. -/
theorem guarded_same {x y : Eval Value} (h : SameCall x y) (limit : Nat) (e : Error) :
    SameCall (fun m => if m.frames.length < limit then x m else Eval.fail e m)
      (fun m => if m.frames.length < limit then y m else Eval.fail e m) := by
  constructor
  · rw [h.eq]
  · intro m v n hn
    dsimp only at hn
    split at hn
    · exact h.stays m v n hn
    · cases hn

/-- A call is the same if the code that it runs is. -/
theorem invoke_same {p : Interpreter} {run run' : Runner}
    (h : ∀ id head info params body, p.decl? id = some (.function head info params body) →
      ∀ args, SameCall (Eval.inFrame (run id info params body args))
        (Eval.inFrame (run' id info params body args)))
    (id : DeclId) (args : List (Option Value)) (span : Span) :
    SameCall (p.invoke run id args span) (p.invoke run' id args span) := by
  unfold invoke
  split
  · exact ⟨rfl, .fail _⟩
  · rename_i head info params body hd
    dsimp only
    split
    · exact ⟨rfl, (stays_hostArgs _ _ _ _).andThen fun _ => .callHost _ _ _⟩
    · have hrun := h id head info params body hd args
      cases body.isPresent with
      | false => exact ⟨rfl, .fail _⟩
      | true => exact guarded_same hrun maxCallDepth _
  · exact ⟨rfl, .fail _⟩

end Interpreter

end TraceWeave

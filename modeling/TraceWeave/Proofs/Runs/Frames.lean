import TraceWeave.Proofs.Runs.SameCode
import TraceWeave.Proofs.Snapshot.Upkeep

/-! # What an evaluation leaves of the activations

Scopes and activations are entered and left by hand around code that may end in a value, in a
`return`, in an error or by being cut short. `Confined` says of an evaluation that however it ends,
the activations below the innermost one are neither read nor changed, and the innermost one binds
the same variables as before. It compares two evaluations, so that the same pass over the code also
shows that nothing is ever evaluated below more than `maxCallDepth` activations: there two programs
may do different things, and no run notices.

* `Interpreter.runWithin_confined`: calls are confined, by induction on how many activations are
  allowed.
* `Interpreter.activations_kept`: so is every evaluation of an expression.
-/

namespace TraceWeave

namespace Bindings

/-- Binding a variable anew changes no variable's being bound. -/
theorem keys_bind {var : VarId} (value : Value) : ∀ {s : Bindings}, (s.lookup var).isSome →
    (bind var value s).map Prod.fst = s.map Prod.fst
  | [], h => nomatch h
  | (v, old) :: rest, h => by
    unfold bind
    by_cases hv : v = var
    · rw [if_pos hv]
      rfl
    · rw [List.lookup_cons, beq_false_of_ne (Ne.symm hv)] at h
      rw [if_neg hv, List.map_cons, List.map_cons, keys_bind value h]

end Bindings

namespace Frame

/-- The variables that the scopes of a frame bind. -/
def boundVars (f : Frame) : List (List VarId) := f.map fun s => s.map Prod.fst

@[simp] theorem boundVars_cons (s : Bindings) (f : Frame) :
    boundVars (s :: f) = s.map Prod.fst :: boundVars f := rfl

theorem boundVars_eq_nil {f : Frame} : f.boundVars = [] ↔ f = [] := List.map_eq_nil_iff

theorem ne_nil_of_boundVars {f g : Frame} (h : g.boundVars = f.boundVars) (hf : f ≠ []) : g ≠ [] :=
  fun hg => hf (boundVars_eq_nil.mp (h.symm.trans (boundVars_eq_nil.mpr hg)))

/-- Overwriting a variable binds no other ones. -/
theorem boundVars_of_assign? {var : VarId} {value : Value} :
    ∀ {f g : Frame}, f.assign? var value = some g → g.boundVars = f.boundVars
  | [], _, h => nomatch h
  | s :: f, g, h => by
    rw [assign?] at h
    by_cases hs : (s.lookup var).isSome
    · rw [if_pos hs] at h
      rw [← Option.some.inj h, boundVars_cons, boundVars_cons, Bindings.keys_bind value hs]
    · rw [if_neg hs] at h
      obtain ⟨f', hf, rfl⟩ := Option.map_eq_some_iff.mp h
      rw [boundVars_cons, boundVars_cons, boundVars_of_assign? hf]

/-- How code leaves the frame that it found: an expression with the same variables, statements with
the same variables outside the innermost scope. -/
def Left : Reach → Frame → Frame → Prop
  | .expr, f, g => g.boundVars = f.boundVars
  | .stmts, f, g => g ≠ [] ∧ g.boundVars.tail = f.boundVars.tail

namespace Left

variable {r : Reach} {f g h : Frame}

theorem refl : ∀ r : Reach, f ≠ [] → Left r f f
  | .expr, _ => rfl
  | .stmts, hf => ⟨hf, rfl⟩

theorem trans (hfg : Left r f g) (hgh : Left r g h) : Left r f h := by
  cases r with
  | expr => exact Eq.trans hgh hfg
  | stmts => exact ⟨hgh.1, hgh.2.trans hfg.2⟩

theorem ne_nil (hfg : Left r f g) (hf : f ≠ []) : g ≠ [] := by
  cases r with
  | expr => exact ne_nil_of_boundVars hfg hf
  | stmts => exact hfg.1

theorem of_expr (hfg : Left .expr f g) (hf : f ≠ []) : Left r f g := by
  cases r with
  | expr => exact hfg
  | stmts => exact ⟨ne_nil_of_boundVars hfg hf, congrArg List.tail hfg⟩

theorem declare (var : VarId) (value : Value) (hf : f ≠ []) :
    Left .stmts f (f.declare var value) := by
  obtain ⟨s, f, rfl⟩ := List.exists_cons_of_ne_nil hf
  exact ⟨List.cons_ne_nil _ _, rfl⟩

/-- The scope of statements takes their variables with it. -/
theorem popScope {s : Bindings} (hf : f ≠ []) (hg : Left .stmts (s :: f) g) :
    Left .expr f g.popScope := by
  obtain ⟨hne, htail⟩ := hg
  obtain ⟨s', g, rfl⟩ := List.exists_cons_of_ne_nil hne
  have hvars : boundVars g = f.boundVars := htail
  rw [popScope_cons (ne_nil_of_boundVars hvars hf)]
  exact hvars

end Left

end Frame

/-! ## Evaluations that stay in their activation -/

/-- With as many activations as `depths` allows, the two evaluations end in the same way, and leave
the innermost frame as code of their kind does. What the frames below are makes no difference, and
they stay as they are. -/
def Confined (depths : Nat → Prop) (r : Reach) {α : Type} (x y : Eval α) : Prop :=
  ∀ (f : Frame) (rest rest' : List Frame) (l : List HostCall), f ≠ [] →
    rest'.length = rest.length → depths (rest.length + 1) →
    ∃ o g l', x ⟨f :: rest, l⟩ = (o, ⟨g :: rest, l'⟩) ∧ y ⟨f :: rest', l⟩ = (o, ⟨g :: rest', l'⟩) ∧
      Frame.Left r f g

/-- With as many activations as `depths` allows, the two calls end in the same way. What the
activations are makes no difference, and they stay as they are. -/
def CallsConfined (depths : Nat → Prop) {α : Type} (x y : Eval α) : Prop :=
  ∀ (fs fs' : List Frame) (l : List HostCall), fs'.length = fs.length → depths fs.length →
    ∃ o l', x ⟨fs, l⟩ = (o, ⟨fs, l'⟩) ∧ y ⟨fs', l⟩ = (o, ⟨fs', l'⟩)

namespace CallsConfined

variable {depths : Nat → Prop} {α β : Type} {x y : Eval α}

/-- A call in the code of an activation. -/
theorem inCode {r : Reach} (h : CallsConfined depths x y) : Confined depths r x y := by
  intro f rest rest' l hf hlen hdepth
  obtain ⟨o, l', hx, hy⟩ := h (f :: rest) (f :: rest') l (congrArg Nat.succ hlen) hdepth
  exact ⟨o, f, l', hx, hy, .refl r hf⟩

theorem yield (a : α) : CallsConfined depths (Eval.yield a) (Eval.yield a) :=
  fun _ _ l _ _ => ⟨.done a, l, rfl, rfl⟩

theorem fail (e : Error) : CallsConfined depths (Eval.fail e : Eval α) (Eval.fail e) :=
  fun _ _ l _ _ => ⟨.failed e, l, rfl, rfl⟩

theorem outOfFuel :
    CallsConfined depths (fun m => (.outOfFuel, m) : Eval α) (fun m => (.outOfFuel, m)) :=
  fun _ _ l _ _ => ⟨.outOfFuel, l, rfl, rfl⟩

theorem ofExcept (r : Except Error α) :
    CallsConfined depths (Eval.ofExcept r) (Eval.ofExcept r) := by
  cases r with
  | ok a => exact yield a
  | error e => exact fail e

theorem andThen {next next' : α → Eval β} (h : CallsConfined depths x y)
    (hnext : ∀ a, CallsConfined depths (next a) (next' a)) :
    CallsConfined depths (Eval.andThen x next) (Eval.andThen y next') := by
  intro fs fs' l hlen hdepth
  obtain ⟨o, l', hx, hy⟩ := h fs fs' l hlen hdepth
  cases o with
  | done a =>
    rw [Eval.andThen_done hx, Eval.andThen_done hy]
    exact hnext a fs fs' l' hlen hdepth
  | failed e => exact ⟨.failed e, l', Eval.andThen_failed hx, Eval.andThen_failed hy⟩
  | outOfFuel => exact ⟨.outOfFuel, l', Eval.andThen_outOfFuel hx, Eval.andThen_outOfFuel hy⟩

theorem callHost (name : String) (host : Host) (args : List Value) :
    CallsConfined depths (Eval.callHost name host args) (Eval.callHost name host args) := by
  intro fs fs' l hlen hdepth
  unfold Eval.callHost
  dsimp only
  cases host.run args with
  | ok v => exact ⟨.done v, _, rfl, rfl⟩
  | error e => exact ⟨.failed e, _, rfl, rfl⟩

theorem hostArgs (name : String) (span : Span) : ∀ (index : Nat) (args : List (Option Value)),
    CallsConfined depths (Interpreter.hostArgs name span index args)
      (Interpreter.hostArgs name span index args)
  | _, [] => yield []
  | index, some v :: args =>
    (hostArgs name span (index + 1) args).andThen fun vs => yield (v :: vs)
  | _, none :: _ => fail _

theorem captureValues (span : Span) (f : Frame) : ∀ entries : List CapturedLocal,
    CallsConfined depths (Interpreter.captureValues span f entries)
      (Interpreter.captureValues span f entries)
  | [] => yield []
  | entry :: entries => by
    rw [Interpreter.captureValues]
    cases f.find? entry.var with
    | some v => exact (captureValues span f entries).andThen fun vs => yield _
    | none => exact fail _

/-- An activation of its own, where there is room for one. -/
theorem inFrame (limit : Nat) (e : Error) (hdepths : ∀ n < limit, depths (n + 1))
    (h : Confined depths .stmts x y) :
    CallsConfined depths
      (fun m => if m.frames.length < limit then Eval.inFrame x m else Eval.fail e m)
      (fun m => if m.frames.length < limit then Eval.inFrame y m else Eval.fail e m) := by
  intro fs fs' l hlen hdepth
  by_cases hroom : fs.length < limit
  · simp only [if_pos hroom, if_pos (hlen ▸ hroom)]
    obtain ⟨o, g, l', hx, hy, -⟩ :=
      h Frame.start fs fs' l (List.cons_ne_nil _ _) hlen (hdepths fs.length hroom)
    exact ⟨o, l', Eval.inFrame_eq hx, Eval.inFrame_eq hy⟩
  · simp only [if_neg hroom, if_neg (hlen ▸ hroom)]
    exact fail e fs fs' l hlen hdepth

/-- A call that comes to the same whatever the activations are. -/
theorem of_length (h : CallsConfined depths x x) (count : Nat) (l : List HostCall)
    (hdepth : depths count) :
    ∃ o l', ∀ frames : List Frame, frames.length = count → x ⟨frames, l⟩ = (o, ⟨frames, l'⟩) := by
  have hcount : (List.replicate count ([] : Frame)).length = count := List.length_replicate
  obtain ⟨o, l', hrun, -⟩ :=
    h (.replicate count []) (.replicate count []) l rfl (hcount.symm ▸ hdepth)
  refine ⟨o, l', fun frames hframes => ?_⟩
  obtain ⟨o', k', hrun', hsame⟩ :=
    h (.replicate count []) frames l (hframes.trans hcount.symm) (hcount.symm ▸ hdepth)
  cases hrun.symm.trans hrun'
  exact hsame

end CallsConfined

namespace Confined

variable {depths : Nat → Prop} {r : Reach} {α β : Type} {x y : Eval α}

theorem of_expr (h : Confined depths .expr x y) : Confined depths r x y := by
  intro f rest rest' l hf hlen hdepth
  obtain ⟨o, g, l', hx, hy, hleft⟩ := h f rest rest' l hf hlen hdepth
  exact ⟨o, g, l', hx, hy, hleft.of_expr hf⟩

theorem yield (a : α) : Confined depths r (Eval.yield a) (Eval.yield a) :=
  (CallsConfined.yield a).inCode

theorem fail (e : Error) : Confined depths r (Eval.fail e : Eval α) (Eval.fail e) :=
  (CallsConfined.fail e).inCode

theorem andThen {next next' : α → Eval β} (h : Confined depths r x y)
    (hnext : ∀ a, Confined depths r (next a) (next' a)) :
    Confined depths r (Eval.andThen x next) (Eval.andThen y next') := by
  intro f rest rest' l hf hlen hdepth
  obtain ⟨o, g, l', hx, hy, hleft⟩ := h f rest rest' l hf hlen hdepth
  cases o with
  | done a =>
    rw [Eval.andThen_done hx, Eval.andThen_done hy]
    obtain ⟨o, g', l'', hx', hy', hleft'⟩ := hnext a g rest rest' l' (hleft.ne_nil hf) hlen hdepth
    exact ⟨o, g', l'', hx', hy', hleft.trans hleft'⟩
  | failed e => exact ⟨.failed e, g, l', Eval.andThen_failed hx, Eval.andThen_failed hy, hleft⟩
  | outOfFuel =>
    exact ⟨.outOfFuel, g, l', Eval.andThen_outOfFuel hx, Eval.andThen_outOfFuel hy, hleft⟩

/-- An evaluation that comes to the same whatever the activations below are. -/
theorem of_length (h : Confined depths .expr x x) (f : Frame) (below : Nat) (l : List HostCall)
    (hf : f ≠ []) (hdepth : depths (below + 1)) :
    ∃ o s g l', Frame.boundVars (s :: g) = f.boundVars ∧ ∀ rest : List Frame, rest.length = below →
      x ⟨f :: rest, l⟩ = (o, ⟨(s :: g) :: rest, l'⟩) := by
  have hbelow : (List.replicate below ([] : Frame)).length = below := List.length_replicate
  have hdepth' : depths ((List.replicate below ([] : Frame)).length + 1) := hbelow.symm ▸ hdepth
  obtain ⟨o, g, l', hrun, -, hleft⟩ :=
    h f (.replicate below []) (.replicate below []) l hf rfl hdepth'
  obtain ⟨s, g, rfl⟩ := List.exists_cons_of_ne_nil (hleft.ne_nil hf)
  refine ⟨o, s, g, l', hleft, fun rest hrest => ?_⟩
  obtain ⟨o', g', k', hrun', hsame, -⟩ :=
    h f (.replicate below []) rest l hf (hrest.trans hbelow.symm) hdepth'
  cases hrun.symm.trans hrun'
  exact hsame

/-- A scope of its own, which ends with the step however the step ends. -/
theorem inScope (h : Confined depths .stmts x y) :
    Confined depths r (Eval.inScope x) (Eval.inScope y) := by
  refine of_expr fun f rest rest' l hf hlen hdepth => ?_
  obtain ⟨o, g, l', hx, hy, hleft⟩ := h ([] :: f) rest rest' l (List.cons_ne_nil _ _) hlen hdepth
  exact ⟨o, g.popScope, l', Eval.inScope_eq hx, Eval.inScope_eq hy, hleft.popScope hf⟩

theorem declare (var : VarId) (value : Value) :
    Confined depths .stmts (Eval.declare var value) (Eval.declare var value) := by
  intro f rest rest' l hf hlen hdepth
  exact ⟨.done (), f.declare var value, l, rfl, rfl, .declare var value hf⟩

section

open Interpreter

variable {x y : Eval Flow}

theorem withValue {next next' : Value → Eval Flow} (h : Confined depths r x y)
    (hnext : ∀ v, Confined depths r (next v) (next' v)) :
    Confined depths r (withValue x next) (withValue y next') := by
  refine h.andThen fun flow => ?_
  cases flow with
  | value v => exact hnext v
  | ret target v => exact yield _

theorem withBool {next next' : Bool → Eval Flow} (h : Confined depths r x y)
    (hnext : ∀ b, Confined depths r (next b) (next' b)) :
    Confined depths r (withBool x next) (withBool y next') :=
  h.withValue fun v => (CallsConfined.ofExcept v.asBool).inCode.andThen hnext

theorem evalGet (site : Site) (var : VarId) :
    Confined depths r (evalGet site var) (evalGet site var) := by
  intro f rest rest' l hf hlen hdepth
  unfold Interpreter.evalGet
  rw [Eval.andThen_done (Eval.frame_eq ..), Eval.andThen_done (Eval.frame_eq ..)]
  cases f.find? var with
  | some v => exact yield _ f rest rest' l hf hlen hdepth
  | none => exact fail _ f rest rest' l hf hlen hdepth

theorem evalSet (site : Site) (var : VarId) (v : Value) :
    Confined depths r (evalSet site var v) (evalSet site var v) := by
  refine of_expr fun f rest rest' l hf hlen hdepth => ?_
  unfold Interpreter.evalSet
  rw [Eval.andThen_done (Eval.frame_eq ..), Eval.andThen_done (Eval.frame_eq ..)]
  cases h : f.assign? var v with
  | some g => exact ⟨.done (.value .unit), g, l, rfl, rfl, Frame.boundVars_of_assign? h⟩
  | none => exact fail _ f rest rest' l hf hlen hdepth

theorem evalCapture (site : Site) (capture : FrameCapture) :
    Confined depths r (evalCapture site capture) (evalCapture site capture) := by
  intro f rest rest' l hf hlen hdepth
  unfold Interpreter.evalCapture
  rw [Eval.andThen_done (Eval.frame_eq ..), Eval.andThen_done (Eval.frame_eq ..)]
  exact (CallsConfined.captureValues site.span f capture.entries).inCode.andThen (fun _ => yield _)
    f rest rest' l hf hlen hdepth

theorem evalReturnable (id : BlockId) (h : Confined depths r x y) :
    Confined depths r (evalReturnable id x) (evalReturnable id y) := by
  refine h.andThen fun flow => ?_
  cases flow with
  | value v => exact yield _
  | ret target v => exact yield _

theorem evalBinary (op : BinOp) {x' y' : Eval Flow} (hx : Confined depths r x y)
    (hy : Confined depths r x' y') :
    Confined depths r (evalBinary op x x') (evalBinary op y y') := by
  cases op with
  | and =>
    refine hx.withBool fun l => ?_
    cases l with
    | true => exact hy.withBool fun _ => yield _
    | false => exact yield _
  | or =>
    refine hx.withBool fun l => ?_
    cases l with
    | true => exact yield _
    | false => exact hy.withBool fun _ => yield _
  | _ =>
    exact hx.withValue fun l => hy.withValue fun r =>
      (CallsConfined.ofExcept (Value.binary _ l r)).inCode.andThen fun _ => yield _

theorem evalLoop {x' y' : Eval Flow} (hx : Confined depths r x y) (hy : Confined depths r x' y') :
    ∀ rounds, Confined depths r (evalLoop x x' rounds) (evalLoop y y' rounds)
  | 0 => CallsConfined.outOfFuel.inCode
  | rounds + 1 => by
    refine hx.withBool fun holds => ?_
    cases holds with
    | true => exact hy.withValue fun _ => evalLoop hx hy rounds
    | false => exact yield _

end

end Confined

/-! ## Code -/

/-- An observer that does nothing where there are as many activations as `depths` allows. -/
structure Observer.QuietAt (depths : Nat → Prop) (o : Observer) : Prop where
  expr : ∀ own e step m, depths m.frames.length → o.expr own e step m = step m
  returned : ∀ own target e step m, depths m.frames.length → o.returned own target e step m = step m
  body : ∀ own step m, depths m.frames.length → o.body own step m = step m

theorem Observer.quietAt_default (depths : Nat → Prop) : QuietAt depths {} :=
  ⟨fun _ _ _ _ _ => rfl, fun _ _ _ _ _ _ => rfl, fun _ _ _ _ => rfl⟩

/-- Evaluations around which two steps do nothing. -/
theorem Confined.around {depths : Nat → Prop} {r : Reach} {α : Type} {x y : Eval α}
    {around around' : Eval α → Eval α} (h : Confined depths r x y)
    (hx : ∀ m, depths m.frames.length → around x m = x m)
    (hy : ∀ m, depths m.frames.length → around' y m = y m) :
    Confined depths r (around x) (around' y) := by
  intro f rest rest' l hf hlen hdepth
  have hdepth' : depths (f :: rest').length := by
    rw [List.length_cons, hlen]
    exact hdepth
  rw [hx ⟨f :: rest, l⟩ hdepth, hy ⟨f :: rest', l⟩ hdepth']
  exact h f rest rest' l hf hlen hdepth

/-- Two activations of a function that nothing stands around, and whose calls are confined. -/
structure Alongside (depths : Nat → Prop) (a b : Activation) : Prop where
  function : b.function = a.function
  rounds : b.rounds = a.rounds
  left : a.observer.QuietAt depths
  right : b.observer.QuietAt depths
  call : ∀ id args span, CallsConfined depths (a.call id args span) (b.call id args span)

section

open Interpreter

variable {depths : Nat → Prop} {a b : Activation}

theorem Alongside.seen (h : Alongside depths a b) {x y : Eval Flow} (e : Expr)
    (hstep : Confined depths .expr x y) : Confined depths .expr (a.seen e x) (b.seen e y) :=
  hstep.around (h.left.expr _ e x) (h.right.expr _ e y)

mutual

-- Each way to put evaluations together has its rule, so the cases say no more than which one is
-- used. What a call does to the activations is known from `h`.
theorem Expr.eval_confined (h : Alongside depths a b) : ∀ e : Expr,
    Confined depths .expr (e.eval a) (e.eval b)
  | .const s value => by
    rw [Expr.eval, Expr.eval]
    exact h.seen _ (.yield _)
  | .getVar s var => by
    rw [Expr.eval, Expr.eval]
    exact h.seen _ (.evalGet s var)
  | .setVar s var value => by
    rw [Expr.eval, Expr.eval]
    exact h.seen _ ((value.eval_confined h).withValue fun v => .evalSet s var v)
  | .call s callee receiver typeArgs args => by
    rw [Expr.eval, Expr.eval]
    refine h.seen _ ((optionEval_confined h .unit receiver).withValue fun _ => ?_)
    exact argsEval_confined h
      (fun vs => (h.call callee vs s.span).inCode.andThen fun v => .yield _) args []
  | .functionRef s id => by
    rw [Expr.eval, Expr.eval]
    exact h.seen _ (.fail _)
  | .propertyRef s id => by
    rw [Expr.eval, Expr.eval]
    exact h.seen _ (.fail _)
  | .block s stmts => by
    rw [Expr.eval, Expr.eval]
    exact h.seen _ (stmtsEval_confined h stmts .unit).inScope
  | .returnable s id stmts => by
    rw [Expr.eval, Expr.eval]
    exact h.seen _ (.evalReturnable id (stmtsEval_confined h stmts .unit).inScope)
  | .ret s target value => by
    rw [Expr.eval, Expr.eval]
    have hvalue := (value.eval_confined h).around (h.left.returned a.function target value _)
      (h.right.returned b.function target value _)
    exact h.seen _ (hvalue.withValue fun v => .yield _)
  | .when s branches otherwise => by
    rw [Expr.eval, Expr.eval]
    exact h.seen _ (branchesEval_confined h branches (optionEval_confined h .unit otherwise))
  | .loop s condition body => by
    rw [Expr.eval, Expr.eval, h.rounds]
    exact h.seen _ (.evalLoop (condition.eval_confined h) (body.eval_confined h) a.rounds)
  | .binary s op lhs rhs => by
    rw [Expr.eval, Expr.eval]
    exact h.seen _ (.evalBinary op (lhs.eval_confined h) (rhs.eval_confined h))
  | .not s operand => by
    rw [Expr.eval, Expr.eval]
    exact h.seen _ ((operand.eval_confined h).withBool fun _ => .yield _)
  | .concat s parts => by
    rw [Expr.eval, Expr.eval]
    exact h.seen _ (partsEval_confined h parts "")
  | .lambda s decl => by
    rw [Expr.eval, Expr.eval]
    exact h.seen _ (.fail _)
  | .descriptor s ref => by
    rw [Expr.eval, Expr.eval]
    exact h.seen _ (.yield _)
  | .captureFrame s capture => by
    rw [Expr.eval, Expr.eval]
    exact h.seen _ (.evalCapture s capture)

theorem optionEval_confined (h : Alongside depths a b) (missing : Value) : ∀ e : Option Expr,
    Confined depths .expr (optionEval a missing e) (optionEval b missing e)
  | none => by
    rw [optionEval, optionEval]
    exact .yield _
  | some e => by
    rw [optionEval, optionEval]
    exact e.eval_confined h

theorem argsEval_confined (h : Alongside depths a b) {next next' : List (Option Value) → Eval Flow}
    (hnext : ∀ vs, Confined depths .expr (next vs) (next' vs)) : ∀ (args : List (Option Expr)) seen,
    Confined depths .expr (argsEval a next seen args) (argsEval b next' seen args)
  | [], seen => by
    rw [argsEval, argsEval]
    exact hnext seen.reverse
  | none :: args, seen => by
    rw [argsEval, argsEval]
    exact argsEval_confined h hnext args (none :: seen)
  | some e :: args, seen => by
    rw [argsEval, argsEval]
    exact (e.eval_confined h).withValue fun v => argsEval_confined h hnext args (some v :: seen)

theorem partsEval_confined (h : Alongside depths a b) : ∀ (parts : List Expr) text,
    Confined depths .expr (partsEval a text parts) (partsEval b text parts)
  | [], text => by
    rw [partsEval, partsEval]
    exact .yield _
  | e :: es, text => by
    rw [partsEval, partsEval]
    exact (e.eval_confined h).withValue fun v => partsEval_confined h es (text ++ v.text)

theorem branchesEval_confined (h : Alongside depths a b) : ∀ (branches : List (Expr × Expr))
    {last last' : Eval Flow}, Confined depths .expr last last' →
    Confined depths .expr (branchesEval a last branches) (branchesEval b last' branches)
  | [], _, _, hlast => by
    rw [branchesEval, branchesEval]
    exact hlast
  | (condition, result) :: branches, _, _, hlast => by
    rw [branchesEval, branchesEval]
    refine (condition.eval_confined h).withBool fun holds => ?_
    cases holds with
    | true => exact result.eval_confined h
    | false => exact branchesEval_confined h branches hlast

theorem stmtsEval_confined (h : Alongside depths a b) : ∀ (stmts : List Stmt) last,
    Confined depths .stmts (stmtsEval a last stmts) (stmtsEval b last stmts)
  | [], last => by
    rw [stmtsEval, stmtsEval]
    exact .yield _
  | stmt :: stmts, last => by
    rw [stmtsEval, stmtsEval]
    exact (stmt.eval_confined h).withValue fun v => stmtsEval_confined h stmts v

theorem Stmt.eval_confined (h : Alongside depths a b) : ∀ stmt : Stmt,
    Confined depths .stmts (stmt.eval a) (stmt.eval b)
  | .expr e => by
    rw [Stmt.eval, Stmt.eval]
    exact (e.eval_confined h).of_expr
  | .var head init => by
    rw [Stmt.eval, Stmt.eval]
    exact (optionEval_confined h .null init).of_expr.withValue fun v =>
      (Confined.declare head.id v).andThen fun _ => .yield _
  | .decl d => by
    rw [Stmt.eval, Stmt.eval]
    exact .yield _

end

theorem Body.eval_confined (h : Alongside depths a b) (body : Body) :
    Confined depths .stmts (body.eval a) (body.eval b) := by
  cases body with
  | absent => exact .yield _
  | block stmts => exact (stmtsEval_confined h stmts .unit).inScope
  | expression e => exact (e.eval_confined h).of_expr

theorem Interpreter.bindParams_confined (h : Alongside depths a b) (name : String) :
    ∀ (params : List Param) (args : List (Option Value)),
      Confined depths .stmts (bindParams a name params args) (bindParams b name params args)
  | [], _ => .yield _
  | p :: ps, args => by
    unfold bindParams
    have hvalue : Confined depths .expr (paramValue a name p args.head?.join)
        (paramValue b name p args.head?.join) := by
      unfold paramValue
      cases args.head?.join with
      | some v => exact .yield v
      | none =>
        cases p.default with
        | none => exact .fail _
        | some e =>
          refine (e.eval_confined h).andThen fun flow => ?_
          cases flow with
          | value v => exact .yield v
          | ret target v => exact .fail _
    exact hvalue.of_expr.andThen fun v => (Confined.declare p.head.id v).andThen fun _ =>
      bindParams_confined h name ps args.tail

theorem Interpreter.runFunction_confined (h : Alongside depths a b) (info : FunctionHead)
    (params : List Param) (body : Body) (args : List (Option Value)) :
    Confined depths .stmts (runFunction a info params body args)
      (runFunction b info params body args) := by
  refine (bindParams_confined h info.name params args).andThen fun _ => ?_
  have hbody := (body.eval_confined h).around (h.left.body a.function _) (h.right.body b.function _)
  refine hbody.andThen fun flow => ?_
  rw [h.function]
  unfold leaveFunction
  cases flow with
  | value v => exact .yield _
  | ret target v =>
    by_cases htarget : target = .function a.function
    · simp only [if_pos htarget]
      exact .yield v
    · simp only [if_neg htarget]
      exact .fail _

end

/-! ## Calls -/

namespace Interpreter

/-- What the code of a function is evaluated in, with at most `depth` activations inside it. -/
def activation (p : Interpreter) (rounds depth : Nat) (id : DeclId) : Activation :=
  { function := id, rounds, observer := p.observer, call := p.invoke (p.runWithin rounds depth) }

variable {depths : Nat → Prop} {p : Interpreter} {o o' : Observer}

theorem invoke_confined (hdepths : ∀ n < maxCallDepth, depths (n + 1)) {run run' : Runner}
    (hrun : ∀ id info ps body args,
      Confined depths .stmts (run id info ps body args) (run' id info ps body args))
    (id : DeclId) (args : List (Option Value)) (span : Span) :
    CallsConfined depths (p.invoke run id args span) (p.invoke run' id args span) := by
  unfold invoke
  cases p.decl? id with
  | none => exact .fail _
  | some d =>
    cases d with
    | function head info ps body =>
      dsimp only
      cases p.hosts.lookup (p.hostName id info) with
      | some host =>
        exact (CallsConfined.hostArgs _ span 0 args).andThen fun vs => .callHost _ host vs
      | none =>
        cases body.isPresent with
        | false => exact .fail _
        | true => exact .inFrame maxCallDepth _ hdepths (hrun id info ps body args)
    | _ => exact .fail _

/-- An activation of its own, where there is room for one: how the step goes on elsewhere makes no
difference. -/
theorem inFrame_congr {α : Type} {x y : Eval α} {limit : Nat} {refusal : Eval α}
    (h : ∀ m, m.frames.length ≤ limit → x m = y m) :
    (fun m => if m.frames.length < limit then Eval.inFrame x m else refusal m : Eval α) =
      fun m => if m.frames.length < limit then Eval.inFrame y m else refusal m := by
  funext m
  by_cases hroom : m.frames.length < limit
  · rw [if_pos hroom, if_pos hroom, Eval.inFrame, Eval.inFrame,
      h ⟨Frame.start :: m.frames, m.log⟩ hroom]
  · rw [if_neg hroom, if_neg hroom]

/-- Code is only ever run with at most `maxCallDepth` activations, its own among them. -/
theorem invoke_congr {run run' : Runner}
    (h : ∀ id info ps body args (m : Machine), m.frames.length ≤ maxCallDepth →
      run id info ps body args m = run' id info ps body args m) :
    p.invoke run = p.invoke run' := by
  funext id args span
  unfold invoke
  cases p.decl? id with
  | none => rfl
  | some d =>
    cases d with
    | function head info ps body =>
      dsimp only
      cases p.hosts.lookup (p.hostName id info) with
      | some host => rfl
      | none =>
        cases body.isPresent with
        | false => rfl
        | true => exact inFrame_congr (h id info ps body args)
    | _ => rfl

/-- What one activation allows, activations inside each other allow. -/
theorem runWithin_confined (hdepths : ∀ n < maxCallDepth, depths (n + 1)) (ho : o.QuietAt depths)
    (ho' : o'.QuietAt depths) (rounds : Nat) : ∀ depth id info ps body args,
      Confined depths .stmts ((p.observed o).runWithin rounds depth id info ps body args)
        ((p.observed o').runWithin rounds depth id info ps body args)
  | 0, _, _, _, _, _ => CallsConfined.outOfFuel.inCode
  | depth + 1, id, info, ps, body, args =>
    runFunction_confined (a := (p.observed o).activation rounds depth id)
      (b := (p.observed o').activation rounds depth id)
      ⟨rfl, rfl, ho, ho', invoke_confined hdepths (runWithin_confined hdepths ho ho' rounds depth)⟩
      info ps body args

theorem activation_alongside (hdepths : ∀ n < maxCallDepth, depths (n + 1)) (ho : o.QuietAt depths)
    (ho' : o'.QuietAt depths) (rounds depth : Nat) (id : DeclId) :
    Alongside depths ((p.observed o).activation rounds depth id)
      ((p.observed o').activation rounds depth id) :=
  ⟨rfl, rfl, ho, ho', invoke_confined hdepths (runWithin_confined hdepths ho ho' rounds depth)⟩

theorem callWithin_confined (hdepths : ∀ n < maxCallDepth, depths (n + 1)) (ho : o.QuietAt depths)
    (ho' : o'.QuietAt depths) (rounds : Nat) (id : DeclId) (args : List Value) :
    CallsConfined depths ((p.observed o).callWithin rounds id args)
      ((p.observed o').callWithin rounds id args) :=
  invoke_confined hdepths (runWithin_confined hdepths ho ho' rounds maxCallDepth) id
    (args.map some) (p.callSpan id)

/-- **Evaluations leave the activations as they found them.** However the evaluation of an
expression ends, there are as many activations as before, those below the innermost one are
untouched, and the innermost one has the same scopes with the same variables. So a call leaves all
activations as they were, nothing it comes to depends on them, and whatever is done to evaluations
with more than `maxCallDepth` activations goes unnoticed, because there are none. -/
theorem activations_kept (m : Module) (hosts : HostTable) (rounds : Nat) :
    (∀ depth own (e : Expr) (s : Bindings) (f : Frame) (below : Nat) (l : List HostCall),
      ∃ r s' g l', Frame.boundVars (s' :: g) = Frame.boundVars (s :: f) ∧
        ∀ rest : List Frame, rest.length = below →
          e.eval ((ofModule m hosts).activation rounds depth own) ⟨(s :: f) :: rest, l⟩ =
            (r, ⟨(s' :: g) :: rest, l'⟩)) ∧
    (∀ depth id args span (count : Nat) (l : List HostCall), ∃ r l',
      ∀ frames : List Frame, frames.length = count →
        (ofModule m hosts).invoke ((ofModule m hosts).runWithin rounds depth) id args span
          ⟨frames, l⟩ = (r, ⟨frames, l'⟩)) ∧
    (∀ id args n, ((ofModule m hosts).callWithin rounds id args n).2.frames = n.frames) ∧
    (∀ o : Observer, o.QuietAt (· ≤ maxCallDepth) → ∀ id args n, n.frames.length ≤ maxCallDepth →
      ((ofModule m hosts).observed o).callWithin rounds id args n =
        (ofModule m hosts).callWithin rounds id args n) ∧
    ∀ run run' : Runner,
      (∀ id info ps body args (n : Machine), n.frames.length ≤ maxCallDepth →
        run id info ps body args n = run' id info ps body args n) →
      (ofModule m hosts).invoke run = (ofModule m hosts).invoke run' := by
  have hquiet := Observer.quietAt_default fun _ => True
  have hfits := Observer.quietAt_default (· ≤ maxCallDepth)
  refine ⟨fun depth own e s f below l => ?_, fun depth id args span count l => ?_,
    fun id args n => ?_, fun o ho id args n hn => ?_, fun run run' h => invoke_congr h⟩
  · have hcode := e.eval_confined (activation_alongside (p := ofModule m hosts)
      (fun _ _ => trivial) hquiet hquiet rounds depth own)
    exact hcode.of_length (s :: f) below l (List.cons_ne_nil _ _) trivial
  · have hcall := invoke_confined (p := ofModule m hosts) (fun _ _ => trivial)
      (runWithin_confined (p := ofModule m hosts) (fun _ _ => trivial) hquiet hquiet rounds depth)
      id args span
    exact hcall.of_length count l trivial
  · obtain ⟨r, l', hrun, -⟩ := callWithin_confined (p := ofModule m hosts) (fun _ _ => trivial)
      hquiet hquiet rounds id args n.frames n.frames n.log rfl trivial
    exact congrArg (fun x => x.2.frames) hrun
  · obtain ⟨r, l', hrun, hsame⟩ := callWithin_confined (p := ofModule m hosts)
      (fun _ hn => hn) ho hfits rounds id args n.frames n.frames n.log rfl hn
    exact hrun.trans hsame.symm

/-! ### A function that only calls itself -/

namespace Diving

/-- The call of the function. -/
def again : Expr := .call ⟨.undefined ⟨0⟩, .int⟩ ⟨0⟩ none [] []

/-- A function that keeps what it comes to in a variable. -/
def dive : Decl :=
  .function { id := ⟨0⟩, span := .undefined ⟨0⟩ } { name := "dive", returnTy := .int } []
    (.block [.var { id := ⟨0⟩, name := "below", ty := .int, span := .undefined ⟨0⟩ } (some again),
      .expr (.ofReturn (.undefined ⟨0⟩) (.function ⟨0⟩) (.getVar ⟨.undefined ⟨0⟩, .int⟩ ⟨0⟩))])

def program : Module where
  name := "diving"
  files := [{ id := ⟨0⟩, path := "Dive.kt", declarations := [dive] }]

/-- Stops a run at an expression or a body with too many activations. -/
def lookout : Observer where
  expr _ _ step m :=
    if m.frames.length ≤ maxCallDepth then step m else Eval.refuse "too many activations" m
  body _ step m :=
    if m.frames.length ≤ maxCallDepth then step m else Eval.refuse "too many activations" m

theorem quietAt_lookout : lookout.QuietAt (· ≤ maxCallDepth) :=
  ⟨fun _ _ _ _ h => if_pos h, fun _ _ _ _ _ _ => rfl, fun _ _ _ h => if_pos h⟩

end Diving

open Diving in
/-- The lookout sees nothing of the function that only calls itself, and the variables around a call
of it stay as they are. -/
theorem Diving.nothing_seen :
    ((ofModule program []).observed lookout).callWithin 1 ⟨0⟩ [] {} =
        (ofModule program []).callWithin 1 ⟨0⟩ [] {} ∧
      (again.eval ((ofModule program []).activation 1 3 ⟨0⟩)
          ⟨[[[(⟨7⟩, .int 1)]], [[(⟨8⟩, .int 2)]]], []⟩).2.frames.tail = [[[(⟨8⟩, .int 2)]]] := by
  obtain ⟨hexpr, -, -, hdepth, -⟩ := activations_kept program [] 1
  refine ⟨hdepth lookout quietAt_lookout ⟨0⟩ [] {} (by decide), ?_⟩
  obtain ⟨r, s, g, l, -, hrun⟩ := hexpr 3 ⟨0⟩ again [(⟨7⟩, .int 1)] [] 1 []
  rw [hrun [[[(⟨8⟩, .int 2)]]] rfl]
  rfl

end Interpreter

end TraceWeave

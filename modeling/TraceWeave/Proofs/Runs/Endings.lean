import TraceWeave.Proofs.Program.Index
import TraceWeave.Proofs.Program.Loops
import TraceWeave.Proofs.Runs.Frames

/-! # Runs that come to an end

Only a loop can go on forever. Recursion of a program cannot: there is room for so many activations,
and a call that finds none fails. So what decreases on the way down is the room that is left and,
within an activation, the code.

`Concludes` compares two evaluations whose loops may take a different number of rounds, and below
which there may be a different number of activations. Where neither is ever cut short, what they
come to is what the program comes to, and no bound is part of it.

* `Interpreter.invoke_runWithin_concludes`: calls come to an end, by induction on the room that is
  left.
* `Interpreter.loop_free_calls_end`: so does every call from outside.
-/

namespace TraceWeave

open Interpreter

/-- With room for at most `room` more activations, the two evaluations come to the same end, which
is not that of being cut short, and with as many activations as before. -/
def Concludes (room : Nat) {α : Type} (x y : Eval α) : Prop :=
  ∀ n : Machine, maxCallDepth ≤ n.frames.length + room →
    ∃ o n', x n = (o, n') ∧ y n = (o, n') ∧ o ≠ .outOfFuel ∧ n'.frames.length = n.frames.length

namespace Concludes

variable {room : Nat} {α β : Type} {x y : Eval α}

theorem yield (a : α) : Concludes room (Eval.yield a) (Eval.yield a) :=
  fun n _ => ⟨.done a, n, rfl, rfl, nofun, rfl⟩

theorem fail (e : Error) : Concludes room (Eval.fail e : Eval α) (Eval.fail e) :=
  fun n _ => ⟨.failed e, n, rfl, rfl, nofun, rfl⟩

theorem ofExcept (r : Except Error α) : Concludes room (Eval.ofExcept r) (Eval.ofExcept r) := by
  cases r with
  | ok a => exact yield a
  | error e => exact fail e

theorem andThen {next next' : α → Eval β} (h : Concludes room x y)
    (hnext : ∀ a, Concludes room (next a) (next' a)) :
    Concludes room (Eval.andThen x next) (Eval.andThen y next') := by
  intro n hroom
  obtain ⟨o, n', hx, hy, ho, hlen⟩ := h n hroom
  cases o with
  | done a =>
    rw [Eval.andThen_done hx, Eval.andThen_done hy]
    obtain ⟨o', n'', hx', hy', ho', hlen'⟩ := hnext a n' (by omega)
    exact ⟨o', n'', hx', hy', ho', hlen'.trans hlen⟩
  | failed e =>
    exact ⟨.failed e, n', Eval.andThen_failed hx, Eval.andThen_failed hy, nofun, hlen⟩
  | outOfFuel => exact absurd rfl ho

/-! ### Variables and scopes -/

theorem frame : Concludes room Eval.frame Eval.frame := by
  rintro ⟨_ | ⟨f, rest⟩, l⟩ _
  · exact ⟨.failed (.generic "no active call frame"), ⟨[], l⟩, rfl, rfl, nofun, rfl⟩
  · exact ⟨.done f, ⟨f :: rest, l⟩, rfl, rfl, nofun, rfl⟩

theorem setFrame (f : Frame) : Concludes room (Eval.setFrame f) (Eval.setFrame f) := by
  rintro ⟨_ | ⟨g, rest⟩, l⟩ _
  · exact ⟨.failed (.generic "no active call frame"), ⟨[], l⟩, rfl, rfl, nofun, rfl⟩
  · exact ⟨.done (), ⟨f :: rest, l⟩, rfl, rfl, nofun, rfl⟩

theorem declare (var : VarId) (value : Value) :
    Concludes room (Eval.declare var value) (Eval.declare var value) :=
  frame.andThen fun f => setFrame (f.declare var value)

theorem inScope (h : Concludes room x y) : Concludes room (Eval.inScope x) (Eval.inScope y) := by
  rintro ⟨_ | ⟨f, rest⟩, l⟩ hroom
  · exact ⟨.failed (.generic "no active call frame"), ⟨[], l⟩, rfl, rfl, nofun, rfl⟩
  · obtain ⟨o, ⟨frames, l'⟩, hx, hy, ho, hlen⟩ := h ⟨([] :: f) :: rest, l⟩ hroom
    obtain ⟨g, rest', rfl⟩ := List.exists_cons_of_length_eq_add_one hlen
    refine ⟨o, ⟨g.popScope :: rest', l'⟩, ?_, ?_, ho, hlen⟩
    · simp only [Eval.inScope, hx]
    · simp only [Eval.inScope, hy]

/-! ### Activations -/

/-- A step in an activation of its own, where there is room for one, and a refusal elsewhere. -/
theorem inFrame (e : Error) (h : ∀ left, room = left + 1 → Concludes left x y) :
    Concludes room
      (fun n => if n.frames.length < maxCallDepth then Eval.inFrame x n else Eval.fail e n)
      (fun n => if n.frames.length < maxCallDepth then Eval.inFrame y n else Eval.fail e n) := by
  rintro ⟨frames, l⟩ hroom
  dsimp only at hroom ⊢
  by_cases hfits : frames.length < maxCallDepth
  · rw [if_pos hfits, if_pos hfits]
    obtain ⟨left, rfl⟩ : ∃ left, room = left + 1 := Nat.exists_eq_succ_of_ne_zero (by omega)
    have hleft : maxCallDepth ≤ (Frame.start :: frames).length + left := by
      rw [List.length_cons]
      omega
    obtain ⟨o, ⟨frames', l'⟩, hx, hy, ho, hlen⟩ := h left rfl ⟨Frame.start :: frames, l⟩ hleft
    obtain ⟨g, rest, rfl⟩ := List.exists_cons_of_length_eq_add_one hlen
    exact ⟨o, ⟨rest, l'⟩, Eval.inFrame_eq hx, Eval.inFrame_eq hy, ho, Nat.succ.inj hlen⟩
  · rw [if_neg hfits, if_neg hfits]
    exact fail e ⟨frames, l⟩ hroom

/-! ### Host calls -/

theorem callHost (name : String) (host : Host) (args : List Value) :
    Concludes room (Eval.callHost name host args) (Eval.callHost name host args) := by
  rintro ⟨frames, l⟩ _
  unfold Eval.callHost
  dsimp only
  cases host.run args with
  | ok v => exact ⟨.done v, _, rfl, rfl, nofun, rfl⟩
  | error e => exact ⟨.failed e, _, rfl, rfl, nofun, rfl⟩

theorem hostArgs (name : String) (span : Span) : ∀ (index : Nat) (args : List (Option Value)),
    Concludes room (hostArgs name span index args) (Interpreter.hostArgs name span index args)
  | _, [] => yield []
  | index, some v :: args => (hostArgs name span (index + 1) args).andThen fun vs => yield (v :: vs)
  | _, none :: _ => fail _

/-! ### The kinds of expressions -/

section

variable {x y x' y' : Eval Flow}

theorem withValue {next next' : Value → Eval Flow} (h : Concludes room x y)
    (hnext : ∀ v, Concludes room (next v) (next' v)) :
    Concludes room (withValue x next) (withValue y next') := by
  apply h.andThen
  intro flow
  cases flow with
  | value v => exact hnext v
  | ret target v => exact yield _

theorem withBool {next next' : Bool → Eval Flow} (h : Concludes room x y)
    (hnext : ∀ b, Concludes room (next b) (next' b)) :
    Concludes room (withBool x next) (withBool y next') :=
  h.withValue fun v => (ofExcept v.asBool).andThen hnext

theorem evalGet (site : Site) (var : VarId) :
    Concludes room (evalGet site var) (evalGet site var) := by
  apply frame.andThen
  intro f
  cases f.find? var with
  | some v => exact yield _
  | none => exact fail _

theorem evalSet (site : Site) (var : VarId) (v : Value) :
    Concludes room (evalSet site var v) (evalSet site var v) := by
  apply frame.andThen
  intro f
  cases f.assign? var v with
  | some g => exact (setFrame g).andThen fun _ => yield _
  | none => exact fail _

theorem captureValues (span : Span) (f : Frame) : ∀ entries : List CapturedLocal,
    Concludes room (captureValues span f entries) (Interpreter.captureValues span f entries)
  | [] => yield []
  | entry :: entries => by
    unfold Interpreter.captureValues
    cases f.find? entry.var with
    | some v => exact (captureValues span f entries).andThen fun vs => yield ((entry.info, v) :: vs)
    | none => exact fail _

theorem evalCapture (site : Site) (capture : FrameCapture) :
    Concludes room (evalCapture site capture) (evalCapture site capture) :=
  frame.andThen fun f => (captureValues site.span f capture.entries).andThen fun _ => yield _

theorem evalReturnable (id : BlockId) (h : Concludes room x y) :
    Concludes room (evalReturnable id x) (evalReturnable id y) := by
  apply h.andThen
  intro flow
  cases flow with
  | value v => exact yield _
  | ret target v => exact yield _

theorem evalBinary (op : BinOp) (hx : Concludes room x y) (hx' : Concludes room x' y') :
    Concludes room (evalBinary op x x') (evalBinary op y y') := by
  cases op with
  | and =>
    refine hx.withBool fun l => ?_
    cases l with
    | true => exact hx'.withBool fun _ => yield _
    | false => exact yield _
  | or =>
    refine hx.withBool fun l => ?_
    cases l with
    | true => exact yield _
    | false => exact hx'.withBool fun _ => yield _
  | _ =>
    exact hx.withValue fun _ => hx'.withValue fun _ => (ofExcept _).andThen fun _ => yield _

end

end Concludes

/-! ## Code without loops -/

/-- Two activations of a function that nothing stands around, and in which calls come to an end. -/
structure CallsConclude (room : Nat) (a b : Activation) : Prop where
  function : b.function = a.function
  left : a.observer = {}
  right : b.observer = {}
  call : ∀ id args span, Concludes room (a.call id args span) (b.call id args span)

namespace CallsConclude

variable {room : Nat} {a b : Activation} {x y : Eval Flow}

theorem seen (h : CallsConclude room a b) (e : Expr) (hstep : Concludes room x y) :
    Concludes room (a.seen e x) (b.seen e y) := by
  unfold Activation.seen
  rw [h.left, h.right]
  exact hstep

theorem returned (h : CallsConclude room a b) (target : ReturnTarget) (e : Expr)
    (hstep : Concludes room x y) :
    Concludes room (a.observer.returned a.function target e x)
      (b.observer.returned b.function target e y) := by
  rw [h.left, h.right]
  exact hstep

theorem body (h : CallsConclude room a b) (hstep : Concludes room x y) :
    Concludes room (a.observer.body a.function x) (b.observer.body b.function y) := by
  rw [h.left, h.right]
  exact hstep

end CallsConclude

section

variable {room : Nat} {a b : Activation}

-- The induction is on the code. A loop is no case of it: the node itself says that there is none.
mutual

-- By recursion on the code. A call is the one node that leads to other code, and there `h` has less
-- room. A loop has nothing to show, as there is none.
theorem Expr.eval_concludes (h : CallsConclude room a b) : ∀ e : Expr, LoopFree e.nodes →
    Concludes room (e.eval a) (e.eval b)
  | .const s value, _ => by
    rw [Expr.eval, Expr.eval]
    exact h.seen _ (.yield _)
  | .getVar s var, _ => by
    rw [Expr.eval, Expr.eval]
    exact h.seen _ (.evalGet s var)
  | .setVar s var value, hfree => by
    rw [Expr.eval, Expr.eval]
    exact h.seen _ ((value.eval_concludes h hfree.tail).withValue (.evalSet s var))
  | .call s callee receiver typeArgs args, hfree => by
    rw [Expr.eval, Expr.eval]
    have hreceiver := optionEval_concludes h .unit receiver hfree.tail.left
    apply h.seen
    apply hreceiver.withValue
    intro _
    apply argsEval_concludes h _ args [] hfree.tail.right
    intro vs
    exact (h.call callee vs s.span).andThen fun v => .yield _
  | .functionRef s id, _ => by
    rw [Expr.eval, Expr.eval]
    exact h.seen _ (.fail _)
  | .propertyRef s id, _ => by
    rw [Expr.eval, Expr.eval]
    exact h.seen _ (.fail _)
  | .block s stmts, hfree => by
    rw [Expr.eval, Expr.eval]
    exact h.seen _ (stmtsEval_concludes h stmts .unit hfree.tail).inScope
  | .returnable s id stmts, hfree => by
    rw [Expr.eval, Expr.eval]
    exact h.seen _ (.evalReturnable id (stmtsEval_concludes h stmts .unit hfree.tail).inScope)
  | .ret s target value, hfree => by
    rw [Expr.eval, Expr.eval]
    have hvalue := h.returned target value (value.eval_concludes h hfree.tail)
    exact h.seen _ (hvalue.withValue fun v => .yield _)
  | .when s branches otherwise, hfree => by
    rw [Expr.eval, Expr.eval]
    have hotherwise := optionEval_concludes h .unit otherwise hfree.tail.right
    exact h.seen _ (branchesEval_concludes h hotherwise branches hfree.tail.left)
  | .loop s condition body, hfree => absurd List.mem_cons_self (hfree s condition body)
  | .binary s op lhs rhs, hfree => by
    rw [Expr.eval, Expr.eval]
    exact h.seen _ (.evalBinary op (lhs.eval_concludes h hfree.tail.left)
      (rhs.eval_concludes h hfree.tail.right))
  | .not s operand, hfree => by
    rw [Expr.eval, Expr.eval]
    exact h.seen _ ((operand.eval_concludes h hfree.tail).withBool fun _ => .yield _)
  | .concat s parts, hfree => by
    rw [Expr.eval, Expr.eval]
    exact h.seen _ (partsEval_concludes h parts "" hfree.tail)
  | .lambda s decl, _ => by
    rw [Expr.eval, Expr.eval]
    exact h.seen _ (.fail _)
  | .descriptor s ref, _ => by
    rw [Expr.eval, Expr.eval]
    exact h.seen _ (.yield _)
  | .captureFrame s capture, _ => by
    rw [Expr.eval, Expr.eval]
    exact h.seen _ (.evalCapture s capture)

theorem optionEval_concludes (h : CallsConclude room a b) (missing : Value) : ∀ e : Option Expr,
    LoopFree (optionNodes e) → Concludes room (optionEval a missing e) (optionEval b missing e)
  | none, _ => by
    rw [optionEval, optionEval]
    exact .yield _
  | some e, hfree => by
    rw [optionEval, optionEval]
    exact e.eval_concludes h hfree

theorem argsEval_concludes (h : CallsConclude room a b)
    {next next' : List (Option Value) → Eval Flow}
    (hnext : ∀ vs, Concludes room (next vs) (next' vs)) : ∀ (args : List (Option Expr)) seen,
    LoopFree (argsNodes args) →
    Concludes room (argsEval a next seen args) (argsEval b next' seen args)
  | [], seen, _ => by
    rw [argsEval, argsEval]
    exact hnext seen.reverse
  | none :: args, seen, hfree => by
    rw [argsEval, argsEval]
    exact argsEval_concludes h hnext args (none :: seen) hfree
  | some e :: args, seen, hfree => by
    rw [argsEval, argsEval]
    apply (e.eval_concludes h hfree.left).withValue
    intro v
    exact argsEval_concludes h hnext args (some v :: seen) hfree.right

theorem partsEval_concludes (h : CallsConclude room a b) : ∀ (parts : List Expr) text,
    LoopFree (exprsNodes parts) → Concludes room (partsEval a text parts) (partsEval b text parts)
  | [], text, _ => by
    rw [partsEval, partsEval]
    exact .yield _
  | e :: es, text, hfree => by
    rw [partsEval, partsEval]
    apply (e.eval_concludes h hfree.left).withValue
    intro v
    exact partsEval_concludes h es (text ++ v.text) hfree.right

theorem branchesEval_concludes (h : CallsConclude room a b) {last last' : Eval Flow}
    (hlast : Concludes room last last') : ∀ branches : List (Expr × Expr),
    LoopFree (branchesNodes branches) →
    Concludes room (branchesEval a last branches) (branchesEval b last' branches)
  | [], _ => by
    rw [branchesEval, branchesEval]
    exact hlast
  | (condition, result) :: branches, hfree => by
    rw [branchesEval, branchesEval]
    apply (condition.eval_concludes h hfree.left.left).withBool
    intro holds
    cases holds with
    | true => exact result.eval_concludes h hfree.left.right
    | false => exact branchesEval_concludes h hlast branches hfree.right

theorem stmtsEval_concludes (h : CallsConclude room a b) : ∀ (stmts : List Stmt) last,
    LoopFree (stmtsNodes stmts) → Concludes room (stmtsEval a last stmts) (stmtsEval b last stmts)
  | [], last, _ => by
    rw [stmtsEval, stmtsEval]
    exact .yield _
  | stmt :: stmts, last, hfree => by
    rw [stmtsEval, stmtsEval]
    apply (stmt.eval_concludes h hfree.left).withValue
    intro v
    exact stmtsEval_concludes h stmts v hfree.right

theorem Stmt.eval_concludes (h : CallsConclude room a b) : ∀ stmt : Stmt, LoopFree stmt.nodes →
    Concludes room (stmt.eval a) (stmt.eval b)
  | .expr e, hfree => by
    rw [Stmt.eval, Stmt.eval]
    exact e.eval_concludes h hfree
  | .var head init, hfree => by
    rw [Stmt.eval, Stmt.eval]
    apply (optionEval_concludes h .null init hfree.tail).withValue
    intro v
    exact (Concludes.declare head.id v).andThen fun _ => .yield _
  | .decl d, _ => by
    rw [Stmt.eval, Stmt.eval]
    exact .yield _

end

theorem Body.eval_concludes (h : CallsConclude room a b) (body : Body)
    (hfree : LoopFree body.nodes) : Concludes room (body.eval a) (body.eval b) := by
  cases body with
  | absent => exact .yield _
  | block stmts => exact (stmtsEval_concludes h stmts .unit hfree).inScope
  | expression e => exact e.eval_concludes h hfree

namespace Interpreter

theorem evalOperand_concludes (h : CallsConclude room a b) (e : Expr) (hfree : LoopFree e.nodes) :
    Concludes room (evalOperand a e) (evalOperand b e) := by
  apply (e.eval_concludes h hfree).andThen
  intro flow
  cases flow with
  | value v => exact .yield v
  | ret target v => exact .fail _

/-- A default may call other functions; what it comes to is an argument like the ones given. -/
theorem bindParams_concludes (h : CallsConclude room a b) (name : String) :
    ∀ (params : List Param) (args : List (Option Value)), LoopFree (paramsNodes params) →
      Concludes room (bindParams a name params args) (bindParams b name params args)
  | [], _, _ => .yield ()
  | ⟨head, default⟩ :: ps, args, hfree => by
    unfold bindParams
    have hvalue : Concludes room (paramValue a name ⟨head, default⟩ args.head?.join)
        (paramValue b name ⟨head, default⟩ args.head?.join) := by
      unfold paramValue
      cases args.head?.join with
      | some v => exact .yield v
      | none =>
        cases default with
        | some e => exact evalOperand_concludes h e hfree.tail.left
        | none => exact .fail _
    apply hvalue.andThen
    intro v
    apply (Concludes.declare head.id v).andThen
    intro _
    exact bindParams_concludes h name ps args.tail hfree.tail.right

theorem runFunction_concludes (h : CallsConclude room a b) (info : FunctionHead)
    (params : List Param) (body : Body) (args : List (Option Value))
    (hfree : LoopFree (paramsNodes params ++ body.nodes)) :
    Concludes room (runFunction a info params body args) (runFunction b info params body args) := by
  apply (bindParams_concludes h info.name params args hfree.left).andThen
  intro _
  apply (h.body (body.eval_concludes h hfree.right)).andThen
  intro flow
  rw [h.function]
  unfold leaveFunction
  cases flow with
  | value v => exact .yield _
  | ret target v =>
    by_cases htarget : target = .function a.function
    · simp only [if_pos htarget]
      exact .yield v
    · simp only [if_neg htarget]
      exact .fail _

end Interpreter

end

/-! ## Calls -/

namespace Interpreter

variable {p : Interpreter}

theorem invoke_concludes {room : Nat} {run run' : Runner} {id : DeclId}
    (hrun : ∀ head info ps body, p.decl? id = some (.function head info ps body) → ∀ left,
      room = left + 1 → ∀ args,
        Concludes left (run id info ps body args) (run' id info ps body args))
    (args : List (Option Value)) (span : Span) :
    Concludes room (p.invoke run id args span) (p.invoke run' id args span) := by
  unfold invoke
  cases hd : p.decl? id with
  | none => exact .fail _
  | some d =>
    cases d with
    | function head info ps body =>
      dsimp only
      cases p.hosts.lookup (p.hostName id info) with
      | some host =>
        exact (Concludes.hostArgs _ span 0 args).andThen fun vs => .callHost _ host vs
      | none =>
        cases body.isPresent with
        | false => exact .fail _
        | true => exact .inFrame _ fun left hleft => hrun head info ps body hd left hleft args
    | _ => exact .fail _

/-- **Calls come to an end** where no function that is declared has a loop, whatever the bounds are
that two runs are given, as long as both leave the activations that there is room for. -/
theorem invoke_runWithin_concludes (hquiet : p.observer = {})
    (hfree : ∀ id d, p.decl? id = some d → LoopFree d.nodes) :
    ∀ room rounds rounds' depth depth', room ≤ depth → room ≤ depth' → ∀ id args span,
      Concludes room (p.invoke (p.runWithin rounds depth) id args span)
        (p.invoke (p.runWithin rounds' depth') id args span) := by
  intro room
  induction room with
  | zero =>
    intro rounds rounds' depth depth' _ _ id args span
    apply invoke_concludes
    intro head info ps body hd left hleft
    exact absurd hleft.symm (Nat.succ_ne_zero left)
  | succ room ih =>
    intro rounds rounds' depth depth' hdepth hdepth' id args span
    obtain ⟨depth, rfl⟩ := Nat.exists_eq_add_of_lt hdepth
    obtain ⟨depth', rfl⟩ := Nat.exists_eq_add_of_lt hdepth'
    apply invoke_concludes
    intro head info ps body hd left hleft args
    obtain rfl : room = left := Nat.succ.inj hleft
    have hcode : LoopFree (paramsNodes ps ++ body.nodes) := (hfree id _ hd).tail
    have hcalls := ih rounds rounds' (room + depth) (room + depth') (Nat.le_add_right ..)
      (Nat.le_add_right ..)
    exact runFunction_concludes (a := p.activation rounds (room + depth) id)
      (b := p.activation rounds' (room + depth') id) ⟨rfl, hquiet, hquiet, hcalls⟩ info ps body args
      hcode

/-- **Programs without loops end.** If no expression of a program is a loop, every call of a
function ends with a value or with an error, also where the functions call each other without end,
and whatever the host functions do. What the call comes to is the same however many rounds a loop
could take, and however many activations there could be, if only they are as many as there is room
for. -/
theorem loop_free_calls_end {m : Module} (hm : LoopFree m.nodes) (hosts : HostTable) (id : DeclId)
    (args : List Value) (n : Machine) :
    ∃ o n', ((∃ v, o = .done v) ∨ ∃ e, o = .failed e) ∧
      (ofModule m hosts).call id args n = (o, n') ∧
      ∀ rounds depth, maxCallDepth ≤ n.frames.length + depth →
        (ofModule m hosts).invoke ((ofModule m hosts).runWithin rounds depth) id (args.map some)
          ((ofModule m hosts).callSpan id) n = (o, n') := by
  have hfree : ∀ id d, (ofModule m hosts).decl? id = some d → LoopFree d.nodes := by
    intro id d hd
    exact hm.decl (mem_of_decl? hd).1
  have hends := fun rounds depth hdepth =>
    invoke_runWithin_concludes (p := ofModule m hosts) rfl hfree (maxCallDepth - n.frames.length)
      ample rounds maxCallDepth depth (Nat.sub_le ..) hdepth id (args.map some)
      ((ofModule m hosts).callSpan id) n (by omega)
  obtain ⟨o, n', hcall, -, ho, -⟩ := hends 0 maxCallDepth (Nat.sub_le ..)
  refine ⟨o, n', ?_, hcall, fun rounds depth hdepth => ?_⟩
  · cases o with
    | done v => exact .inl ⟨v, rfl⟩
    | failed e => exact .inr ⟨e, rfl⟩
    | outOfFuel => exact absurd rfl ho
  · obtain ⟨o', k, hcall', hrun, -⟩ := hends rounds depth (by omega)
    cases hcall.symm.trans hcall'
    exact hrun

/-! ### Functions that call each other without end -/

namespace Rally

def nowhere : Span := .undefined ⟨0⟩

def call (id : DeclId) : Expr := .call ⟨nowhere, .int⟩ id none [] []

/-- A function with a default that asks the other one. -/
def ping : Decl :=
  .function { id := ⟨0⟩, span := nowhere } { name := "ping", returnTy := .int }
    [⟨{ id := ⟨0⟩, name := "x", ty := .int, span := nowhere }, some (call ⟨1⟩)⟩]
    (.expression (.getVar ⟨nowhere, .int⟩ ⟨0⟩))

def pong : Decl :=
  .function { id := ⟨1⟩, span := nowhere } { name := "pong", returnTy := .int } []
    (.expression (call ⟨0⟩))

/-- A function that goes round and round. -/
def spin : Decl :=
  .function { id := ⟨0⟩, span := nowhere } { name := "spin", returnTy := .unit } []
    (.expression (.loop ⟨nowhere, .unit⟩ (.ofConst nowhere (.boolean true)) (.unit nowhere)))

def program (declarations : List Decl) : Module where
  name := "rally"
  files := [{ id := ⟨0⟩, path := "Rally.kt", declarations }]

end Rally

open Rally in
/-- The two functions come to the end of the activations, and that is what they report. -/
theorem Rally.limit_reached :
    LoopFree (program [ping, pong]).nodes ∧
      ∀ rounds, ((ofModule (program [ping, pong]) []).callWithin rounds ⟨0⟩ [] {}).1 =
        .failed (.generic "call depth limit reached calling `ping` [at #0:<undefined>]") := by
  have hfree : LoopFree (program [ping, pong]).nodes := by decide +kernel
  refine ⟨hfree, fun rounds => ?_⟩
  obtain ⟨o, n', -, -, hruns⟩ := loop_free_calls_end hfree [] ⟨0⟩ [] {}
  have hrounds := hruns rounds maxCallDepth (Nat.le_add_left ..)
  have hlimit : ((ofModule (program [ping, pong]) []).callWithin 0 ⟨0⟩ [] {}).1 =
      .failed (.generic "call depth limit reached calling `ping` [at #0:<undefined>]") := by
    decide +kernel
  rw [callWithin, hruns 0 maxCallDepth (Nat.le_add_left ..)] at hlimit
  rw [callWithin, hrounds]
  exact hlimit

/-- A loop that goes on is cut short by every bound. -/
theorem evalLoop_outOfFuel {condition body : Eval Flow} {n : Machine}
    (hcondition : condition n = (.done (.value (.bool true)), n))
    (hbody : body n = (.done (.value .unit), n)) :
    ∀ rounds, evalLoop condition body rounds n = (.outOfFuel, n)
  | 0 => rfl
  | rounds + 1 => by
    rw [evalLoop, withBool, withValue, Eval.andThen_done hcondition]
    exact (Eval.andThen_done hbody).trans (evalLoop_outOfFuel hcondition hbody rounds)

open Rally in
/-- With a loop in it, a program may have no end. -/
theorem Rally.spins (rounds : Nat) :
    ((ofModule (program [spin]) []).callWithin rounds ⟨0⟩ [] {}).1 = .outOfFuel := by
  have hloop : evalLoop (Eval.yield (.value (.bool true))) (Eval.yield (.value .unit)) rounds
      ⟨[Frame.start], []⟩ = (.outOfFuel, ⟨[Frame.start], []⟩) :=
    evalLoop_outOfFuel rfl rfl rounds
  have hrun : (ofModule (program [spin]) []).runWithin rounds maxCallDepth ⟨0⟩
      { name := "spin", returnTy := .unit } []
      (.expression (.loop ⟨nowhere, .unit⟩ (.ofConst nowhere (.boolean true)) (.unit nowhere))) []
      ⟨[Frame.start], []⟩ = (.outOfFuel, ⟨[Frame.start], []⟩) :=
    Eval.andThen_outOfFuel hloop
  exact congrArg Prod.fst (Eval.inFrame_eq hrun)

end Interpreter

end TraceWeave

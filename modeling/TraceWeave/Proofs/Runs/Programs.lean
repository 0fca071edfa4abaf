import TraceWeave.Proofs.Runs.Flows

/-! # Programs side by side

Two programs whose declarations differ in code only. If the code of each function matches as long
as the calls in it do, then all calls match: activations are nested only so deep.

A `Comparison` says what is compared, `Interpreter.Alike` that only code differs.
`Interpreter.runWithin_matches` goes by induction on the depth, and
`Interpreter.callWithin_matches` is about calls from outside.
-/

namespace TraceWeave

/-- How the runs of two programs are compared. The index is what a proof keeps in mind from the
start of a stretch of code to its end. -/
structure Comparison (ι : Type) where
  terms : Terms
  /-- What the host calls have in common while both programs run. -/
  logs : ι → LogRel
  /-- What the values of expressions of a static type have in common. -/
  values : Ty → Value → Value → Prop
  /-- What a `return` in the code of a function, here the first one, has in common while it unwinds
  to a function, here the second one. -/
  unwinds : DeclId → ι → DeclId → Value → Value → LogRel
  eq_of_values : ∀ {ty v w}, values ty v w → v = w
  stopped_of_logs : ∀ i l k, logs i l k → terms.stopped l k
  stopped_of_unwinds : ∀ {own i g v w l k}, unwinds own i g v w l k → terms.stopped l k

namespace Comparison

variable {ι : Type} (K : Comparison ι)

/-- What a `return` in the code of a function has in common while it unwinds. -/
def returns (own : DeclId) (i : ι) : ReturnTarget → Value → Value → LogRel
  | .block _ => same (K.logs i)
  | .function g => K.unwinds own i g

/-- Flows in the code of a function. -/
def flow (own : DeclId) (i : ι) : Flow → Flow → LogRel :=
  Flow.Rel (same (K.logs i)) (K.returns own i)

/-- Flows of an expression of a static type in the code of a function. -/
def flowOf (own : DeclId) (i : ι) (ty : Ty) : Flow → Flow → LogRel :=
  Flow.Rel (fun v w l k => K.values ty v w ∧ K.logs i l k) (K.returns own i)

variable {K} {own : DeclId} {i : ι} {mask : List Bool}

theorem stopped_of_returns {target : ReturnTarget} {v w : Value} {l k : List HostCall}
    (h : K.returns own i target v w l k) : K.terms.stopped l k := by
  cases target with
  | block b => exact K.stopped_of_logs i _ _ h.2
  | function g => exact K.stopped_of_unwinds h

theorem flow_of_flowOf {ty : Ty} {pre : LogRel} {x y : Eval Flow}
    (h : Matches K.terms mask pre (K.flowOf own i ty) x y) :
    Matches K.terms mask pre (K.flow own i) x y :=
  h.post_mono (Flow.Rel.mono (fun _ _ _ _ hv => ⟨K.eq_of_values hv.1, hv.2⟩) fun _ _ _ _ _ hr => hr)

end Comparison

/-! ## Functions -/

namespace Interpreter

variable {ι : Type} {K : Comparison ι} {own : DeclId} {i : ι} {mask : List Bool}

theorem evalOperand_matches {a b : Activation} {e e' : Expr} (hspan : e'.span = e.span)
    (h : Matches K.terms mask (K.logs i) (K.flow own i) (e.eval a) (e'.eval b)) :
    Matches K.terms mask (K.logs i) (same (K.logs i)) (evalOperand a e) (evalOperand b e') := by
  refine h.andThen_flow (fun _ _ => Matches.yield fun _ _ hl => hl) fun _ _ _ => ?_
  rw [hspan]
  exact Matches.fail _ fun _ _ => K.stopped_of_returns

/-- Parameters with the same heads whose default values match. -/
inductive ParamsMatch (K : Comparison ι) (own : DeclId) (a b : Activation) :
    List Param → List Param → Prop
  | nil : ParamsMatch K own a b [] []
  | plain {head : ParamHead} {ps ps' : List Param} :
    ParamsMatch K own a b ps ps' →
      ParamsMatch K own a b (⟨head, none⟩ :: ps) (⟨head, none⟩ :: ps')
  | default {head : ParamHead} {e e' : Expr} {ps ps' : List Param} :
    e'.span = e.span →
    (∀ i mask, Matches K.terms mask (K.logs i) (K.flow own i) (e.eval a) (e'.eval b)) →
    ParamsMatch K own a b ps ps' →
      ParamsMatch K own a b (⟨head, some e⟩ :: ps) (⟨head, some e'⟩ :: ps')

theorem bindParams_matches {a b : Activation} {ps ps' : List Param} (name : String)
    (h : ParamsMatch K own a b ps ps') (args : List (Option Value)) :
    Matches K.terms (true :: mask) (K.logs i) (fun _ _ => K.logs i) (bindParams a name ps args)
      (bindParams b name ps' args) := by
  induction h generalizing args with
  | nil => exact Matches.yield fun _ _ hl => hl
  | plain _ ih =>
    refine Matches.andThen (Q := same (K.logs i)) ?_ (Matches.of_same fun v =>
      (Matches.declare _ v).andThen fun _ _ => ih args.tail)
    cases args.head?.join with
    | some v => exact Matches.yield fun _ _ hl => ⟨rfl, hl⟩
    | none => exact Matches.fail _ (K.stopped_of_logs i)
  | default hspan he _ ih =>
    refine Matches.andThen (Q := same (K.logs i)) ?_ (Matches.of_same fun v =>
      (Matches.declare _ v).andThen fun _ _ => ih args.tail)
    cases args.head?.join with
    | some v => exact Matches.yield fun _ _ hl => ⟨rfl, hl⟩
    | none => exact evalOperand_matches hspan (he i _)

/-- Bodies that unwind: a function ends with its own `return`, and is refused with any other. -/
theorem leaveFunction_ret {t : Terms} {pre : LogRel} {post : Value → Value → LogRel}
    {info : FunctionHead} {target : ReturnTarget} {v w : Value}
    (hown : target = .function own → ∀ l k, pre l k → post v w l k)
    (hother : ∀ l k, pre l k → t.stopped l k) :
    Matches t mask pre post (leaveFunction own info (.ret target v))
      (leaveFunction own info (.ret target w)) := by
  unfold leaveFunction
  by_cases htarget : target = .function own
  · simp only [if_pos htarget]
    exact Matches.yield (hown htarget)
  · simp only [if_neg htarget]
    exact Matches.fail _ hother

/-- What the body of a function comes to, as the result of the call. -/
def complete (a : Activation) (info : FunctionHead) (body : Body) : Eval Value :=
  Eval.andThen (a.observer.body a.function (body.eval a)) (leaveFunction a.function info)

theorem runFunction_matches {a b : Activation} {info : FunctionHead} {ps ps' : List Param}
    {body body' : Body} (hparams : ParamsMatch K own a b ps ps')
    (hbody : ∀ i, Matches K.terms [true] (K.logs i) (same (K.logs i)) (complete a info body)
      (complete b info body')) (args : List (Option Value)) :
    Matches K.terms [true] (K.logs i) (same (K.logs i)) (runFunction a info ps body args)
      (runFunction b info ps' body' args) :=
  (bindParams_matches info.name hparams args).andThen fun _ _ => hbody i

end Interpreter

/-! ## Calls -/

/-- Whether two declarations differ in code only. -/
def Decl.Alike : Decl → Decl → Prop
  | .function head info _ body, .function head' info' _ body' =>
    head' = head ∧ info' = info ∧ body'.isPresent = body.isPresent
  | .function .., _ | _, .function .. => False
  | d, d' => d'.head = d.head

theorem Decl.Alike.refl : ∀ d : Decl, d.Alike d
  | .function _ _ _ _ => ⟨rfl, rfl, rfl⟩
  | .classDecl _ _ _ | .property _ _ _ _ _ | .field _ _ _ | .initializer _ _ => rfl

theorem Decl.Alike.head_eq {d d' : Decl} (h : d.Alike d') : d'.head = d.head := by
  cases d <;> cases d' <;> first | exact h.1 | exact h | exact h.elim

namespace Interpreter

/-- Two programs whose declarations differ in code only. -/
structure Alike (p q : Interpreter) : Prop where
  hosts : q.hosts = p.hosts
  hostName : ∀ id info, q.hostName id info = p.hostName id info
  decl : ∀ id, Option.Rel Decl.Alike (p.decl? id) (q.decl? id)

/-- The name by which the host knows a function. -/
def HostedAs (p : Interpreter) (id : DeclId) (name : String) : Prop :=
  ∃ head info ps body, p.decl? id = some (.function head info ps body) ∧ p.hostName id info = name

/-- A way to run the code of functions. -/
abbrev Runner := DeclId → FunctionHead → List Param → Body → List (Option Value) → Eval Value

variable {ι : Type} {K : Comparison ι} {p q : Interpreter}

/-- Calls of a host function note the same host call. -/
theorem callHost_matches {name : String} {host : Host} {span : Span} {i : ι}
    (hlog : ∀ args l k, K.logs i l k → K.logs i (⟨name, args⟩ :: l) (⟨name, args⟩ :: k)) :
    ∀ (args : List (Option Value)) (next : List Value → List Value) (n : Nat),
      CallsMatch K.terms (K.logs i) (same (K.logs i))
        (Eval.andThen (hostArgs name span n args) fun vs => Eval.callHost name host (next vs))
        (Eval.andThen (hostArgs name span n args) fun vs => Eval.callHost name host (next vs))
  | [], next, n => by
    intro fs fs' l k hlen hl
    have hcall : ∀ gs m, Eval.andThen (hostArgs name span n [])
        (fun vs => Eval.callHost name host (next vs)) ⟨gs, m⟩ =
          Eval.callHost name host (next []) ⟨gs, m⟩ := fun _ _ => rfl
    rw [hcall, hcall, Eval.callHost, Eval.callHost]
    have hl' := hlog (next []) l k hl
    cases host.run (next []) with
    | ok v => exact ⟨_, _, rfl, .inr ⟨_, _, rfl, rfl, hl'⟩⟩
    | error e => exact ⟨_, _, rfl, .inr ⟨_, _, rfl, rfl, K.stopped_of_logs i _ _ hl'⟩⟩
  | none :: args, next, n => CallsMatch.fail _ (K.stopped_of_logs i)
  | some v :: args, next, n => by
    rw [hostArgs, Eval.andThen_assoc]
    exact callHost_matches hlog args (fun vs => next (v :: vs)) (n + 1)

/-- A step that is only taken below a number of activations. -/
theorem guarded_matches {α β : Type} {t : Terms} {pre : LogRel} {post : α → β → LogRel}
    {x : Eval α} {y : Eval β} (limit : Nat) (e : Error) (hstop : ∀ l k, pre l k → t.stopped l k)
    (h : CallsMatch t pre post x y) :
    CallsMatch t pre post (fun m => if m.frames.length < limit then x m else Eval.fail e m)
      (fun m => if m.frames.length < limit then y m else Eval.fail e m) := by
  intro fs fs' l k hlen hl
  by_cases hlimit : fs.length < limit
  · simp only [if_pos hlimit, if_pos (hlen ▸ hlimit)]
    exact h fs fs' l k hlen hl
  · simp only [if_neg hlimit, if_neg (hlen ▸ hlimit)]
    exact CallsMatch.fail e hstop fs fs' l k hlen hl

/-- A call matches if the code that it runs does. -/
theorem invoke_matches (h : Alike p q) {run run' : Runner} {i : ι} {id : DeclId}
    (hlog : ∀ name, p.HostedAs id name → ∀ args l k, K.logs i l k →
      K.logs i (⟨name, args⟩ :: l) (⟨name, args⟩ :: k))
    (hrun : ∀ head info ps ps' body body', p.decl? id = some (.function head info ps body) →
      q.decl? id = some (.function head info ps' body') → ∀ args,
        Matches K.terms [true] (K.logs i) (same (K.logs i)) (run id info ps body args)
          (run' id info ps' body' args))
    (args : List (Option Value)) (span : Span) :
    CallsMatch K.terms (K.logs i) (same (K.logs i)) (p.invoke run id args span)
      (q.invoke run' id args span) := by
  have hstop := K.stopped_of_logs i
  have hdecl := h.decl id
  unfold invoke
  -- Both programs have the same declaration but for its code, so both refuse, both ask the host, or
  -- both run code.
  cases hp : p.decl? id with
  | none =>
    rw [hp] at hdecl
    cases hq : q.decl? id with
    | none => exact CallsMatch.fail _ hstop
    | some d' => rw [hq] at hdecl; nomatch hdecl
  | some d =>
    rw [hp] at hdecl
    cases hq : q.decl? id with
    | none => rw [hq] at hdecl; nomatch hdecl
    | some d' =>
      rw [hq] at hdecl
      obtain hd : d.Alike d' := by cases hdecl; assumption
      cases d with
      | function head info ps body =>
        cases d' with
        | function head' info' ps' body' =>
          obtain ⟨rfl, rfl, hpresent⟩ := hd
          simp only [h.hosts, h.hostName, hpresent]
          cases p.hosts.lookup (p.hostName id info') with
          | some host => exact callHost_matches (hlog _ ⟨head', info', ps, body, hp, rfl⟩) args (fun vs => vs) 0
          | none =>
            cases body.isPresent with
            | false => exact CallsMatch.fail _ hstop
            | true =>
              exact guarded_matches maxCallDepth _ hstop
                (CallsMatch.inFrame (hrun head' info' ps ps' body body' hp hq args))
        | _ => exact hd.elim
      | _ =>
        cases d' with
        | function => exact hd.elim
        | _ => exact CallsMatch.fail _ hstop

variable (allowed : DeclId → Prop)

/-- **Calls match.** If the code of every function matches whenever the calls in it match, then
calls match, however deep they go. -/
theorem runWithin_matches (h : Alike p q) (rounds : Nat)
    (hlog : ∀ i id, allowed id → ∀ name, p.HostedAs id name → ∀ args l k, K.logs i l k →
      K.logs i (⟨name, args⟩ :: l) (⟨name, args⟩ :: k))
    (hcode : ∀ run run' : Runner, (∀ i id, allowed id → ∀ args span,
        CallsMatch K.terms (K.logs i) (same (K.logs i)) (p.invoke run id args span)
          (q.invoke run' id args span)) →
      ∀ id head info ps ps' body body', p.decl? id = some (.function head info ps body) →
        q.decl? id = some (.function head info ps' body') → ∀ i args,
        Matches K.terms [true] (K.logs i) (same (K.logs i))
          (runFunction ⟨id, rounds, p.observer, p.invoke run⟩ info ps body args)
          (runFunction ⟨id, rounds, q.observer, q.invoke run'⟩ info ps' body' args)) :
    ∀ depth i id, allowed id → ∀ args span,
      CallsMatch K.terms (K.logs i) (same (K.logs i)) (p.invoke (p.runWithin rounds depth) id args span)
        (q.invoke (q.runWithin rounds depth) id args span) := by
  intro depth
  induction depth with
  | zero =>
    intro i id hid args span
    refine invoke_matches h (hlog i id hid) ?_ args span
    intro head info ps ps' body body' _ _ args
    exact Matches.outOfFuel (K.stopped_of_logs i)
  | succ depth ih =>
    intro i id hid args span
    refine invoke_matches h (hlog i id hid) ?_ args span
    intro head info ps ps' body body' hp hq args
    exact hcode _ _ (fun i id hid => ih i id hid) id head info ps ps' body body' hp hq i args

theorem callSpan_eq (h : Alike p q) (id : DeclId) : q.callSpan id = p.callSpan id := by
  have hdecl := h.decl id
  unfold callSpan
  cases hp : p.decl? id with
  | none =>
    cases hq : q.decl? id with
    | none => rfl
    | some d' => rw [hp, hq] at hdecl; nomatch hdecl
  | some d =>
    cases hq : q.decl? id with
    | none => rw [hp, hq] at hdecl; nomatch hdecl
    | some d' =>
      rw [hp, hq] at hdecl
      cases hdecl with
      | some hd => exact congrArg DeclHead.span hd.head_eq

/-- Calls from outside match if calls from code do. -/
theorem callWithin_matches (h : Alike p q) {rounds : Nat} {i : ι} {id : DeclId}
    (hcalls : ∀ args span, CallsMatch K.terms (K.logs i) (same (K.logs i))
      (p.invoke (p.runWithin rounds maxCallDepth) id args span)
      (q.invoke (q.runWithin rounds maxCallDepth) id args span)) (args : List Value) :
    CallsMatch K.terms (K.logs i) (same (K.logs i)) (p.callWithin rounds id args)
      (q.callWithin rounds id args) := by
  unfold callWithin
  rw [callSpan_eq h id]
  exact hcalls (args.map some) (p.callSpan id)

end Interpreter

end TraceWeave

import TraceWeave.Proofs.Runs.Coupling

/-! # Flows side by side

The rules for what the kinds of expressions do with the flows of their parts.

`Flow.Rel` relates two flows, and `Matches.andThen_flow` is the rule for what goes on from them.
`Matches.evalReturnable`, `Matches.evalLoop` and `Matches.evalCapture` are rules for code around
parts that match; `Matches.inScope_withValue` and `Matches.no_value` are for runs of which only one
goes on.
-/

namespace TraceWeave

/-- Both runs come to a value, or both unwind to the same target. -/
def Flow.Rel (values : Value → Value → LogRel) (returns : ReturnTarget → Value → Value → LogRel) :
    Flow → Flow → LogRel
  | .value v, .value w => values v w
  | .ret target v, .ret target' w => fun l k => target = target' ∧ returns target v w l k
  | _, _ => fun _ _ => False

/-- The host calls of code that a value goes on to. Unwinding skips it. -/
def Flow.callsThen (calls : Value → List HostCall) : Flow → List HostCall
  | .value v => calls v
  | .ret _ _ => []

/-- What code that a value goes on to comes to. Unwinding skips it. -/
def Flow.resultThen (result : Value → Flow) : Flow → Flow
  | .value v => result v
  | .ret target v => .ret target v

/-- The same result, with host calls in a relation. -/
def same {α : Type} (logs : LogRel) (a b : α) : LogRel := fun l k => a = b ∧ logs l k

/-- Runs with the same results end in the same way. -/
theorem Terms.Agree.outcome_eq {α : Type} {t : Terms} {logs : LogRel} {o o' : Outcome α}
    {l k : List HostCall} (h : t.Agree (same logs) o o' l k)
    (hstop : ∀ l k, logs l k → t.stopped l k) : o' = o ∧ t.stopped l k := by
  cases o with
  | done a =>
    cases o' with
    | done b => exact ⟨congrArg Outcome.done h.1.symm, hstop l k h.2⟩
    | failed e => exact h.elim
    | outOfFuel => exact h.elim
  | failed e =>
    cases o' with
    | done b => exact h.elim
    | failed e' => exact ⟨congrArg Outcome.failed h.1.symm, h.2⟩
    | outOfFuel => exact h.elim
  | outOfFuel =>
    cases o' with
    | done b => exact h.elim
    | failed e => exact h.elim
    | outOfFuel => exact ⟨rfl, h⟩

/-- A call from outside that finishes, next to one that matches it. -/
theorem CallsMatch.of_done {α : Type} {t : Terms} {pre logs : LogRel} {x y : Eval α}
    (h : CallsMatch t pre (same logs) x y) (hpre : pre [] []) {a : α} (hx : (x {}).1 = .done a) :
    (y {}).1 = .done a ∧ logs (x {}).2.log (y {}).2.log := by
  obtain ⟨o, l, hrun, hright⟩ := h [] [] [] [] rfl hpre
  rw [show x {} = _ from hrun] at hx ⊢
  obtain rfl : o = .done a := hx
  obtain hexcused | ⟨o', k, hrun', hag⟩ := hright
  · exact hexcused.elim
  · rw [show y {} = _ from hrun']
    cases o' with
    | done b => exact ⟨congrArg Outcome.done hag.1.symm, hag.2⟩
    | failed e => exact hag.elim
    | outOfFuel => exact hag.elim

theorem Flow.Rel.mono {values values' : Value → Value → LogRel}
    {returns returns' : ReturnTarget → Value → Value → LogRel}
    (hv : ∀ v w l k, values v w l k → values' v w l k)
    (hr : ∀ target v w l k, returns target v w l k → returns' target v w l k) :
    ∀ a b l k, Flow.Rel values returns a b l k → Flow.Rel values' returns' a b l k
  | .value _, .value _, _, _, h => hv _ _ _ _ h
  | .ret _ _, .ret _ _, _, _, h => ⟨h.1, hr _ _ _ _ _ h.2⟩
  | .value _, .ret _ _, _, _, h => h.elim
  | .ret _ _, .value _, _, _, h => h.elim

namespace Interpreter

theorem withValue_value (step : Eval Flow) :
    withValue step (fun v => Eval.yield (.value v)) = step := by
  funext m
  unfold withValue Eval.andThen
  rcases step m with ⟨(v | ⟨target, v⟩) | _ | _, n⟩ <;> rfl

theorem withValue_assoc (step : Eval Flow) (next last : Value → Eval Flow) :
    withValue (withValue step next) last = withValue step fun v => withValue (next v) last := by
  funext m
  unfold withValue Eval.andThen
  rcases step m with ⟨(v | ⟨target, v⟩) | _ | _, n⟩ <;> rfl

/-- A value can only come from the last step. -/
theorem withValue_ne_value {next : Value → Eval Flow}
    (h : ∀ u m v n, next u m ≠ (.done (.value v), n)) (step : Eval Flow) (m : Machine) (v : Value)
    (n : Machine) : withValue step next m ≠ (.done (.value v), n) := by
  unfold withValue Eval.andThen
  rcases step m with ⟨(u | ⟨target, u⟩) | e | _, n'⟩
  · exact h u n' v n
  all_goals simp [Eval.yield]

/-- Statements in two parts. -/
theorem stmtsEval_append (a : Activation) : ∀ (last : Value) (xs ys : List Stmt),
    stmtsEval a last (xs ++ ys) = withValue (stmtsEval a last xs) fun v => stmtsEval a v ys
  | last, [], ys => by
    rw [List.nil_append, stmtsEval]
    rfl
  | last, x :: xs, ys => by
    rw [List.cons_append, stmtsEval, stmtsEval, withValue_assoc]
    simp only [stmtsEval_append a _ xs ys]

theorem andThen_withValue {α : Type} (step : Eval α) (next : α → Eval Flow)
    (last : Value → Eval Flow) :
    withValue (Eval.andThen step next) last = Eval.andThen step fun a => withValue (next a) last :=
  Eval.andThen_assoc step next _

/-- Going on with a value without a host call. -/
theorem endsWith_withValue {step : Eval Flow} {next : Value → Eval Flow} {calls : List HostCall}
    {v : Value} {flow : Flow} (h : step.EndsWith calls (.value v))
    (hnext : (next v).EndsWith [] flow) : (withValue step next).EndsWith calls flow := by
  have hboth : (withValue step next).EndsWith (calls ++ []) flow := Eval.EndsWith.andThen h hnext
  rwa [List.append_nil] at hboth

end Interpreter

namespace Matches

open Interpreter

variable {t : Terms} {mask : List Bool} {pre logs : LogRel} {values values' : Value → Value → LogRel}
  {returns : ReturnTarget → Value → Value → LogRel} {x y : Eval Flow}

/-- A precondition that two results are the same. -/
theorem of_same {α β γ : Type} {post : β → γ → LogRel} {x : α → Eval β} {y : α → Eval γ}
    (h : ∀ a, Matches t mask logs post (x a) (y a)) (a b : α) :
    Matches t mask (same logs a b) post (x a) (y b) :=
  assuming fun hab => hab ▸ h a

theorem value {v w : Value} (h : ∀ l k, pre l k → values v w l k) :
    Matches t mask pre (Flow.Rel values returns) (Eval.yield (.value v)) (Eval.yield (.value w)) :=
  yield h

theorem ret {target : ReturnTarget} {v w : Value} (h : ∀ l k, pre l k → returns target v w l k) :
    Matches t mask pre (Flow.Rel values returns) (Eval.yield (.ret target v))
      (Eval.yield (.ret target w)) :=
  yield fun l k hl => ⟨rfl, h l k hl⟩

/-- Runs that go on from matching flows, which are of the same kind. -/
theorem andThen_flow {α β : Type} {post : α → β → LogRel} {next : Flow → Eval α}
    {next' : Flow → Eval β} (h : Matches t mask pre (Flow.Rel values returns) x y)
    (hvalue : ∀ v w, Matches t mask (values v w) post (next (.value v)) (next' (.value w)))
    (hret : ∀ target v w,
      Matches t mask (returns target v w) post (next (.ret target v)) (next' (.ret target w))) :
    Matches t mask pre post (Eval.andThen x next) (Eval.andThen y next') := by
  refine andThen h ?_
  rintro (v | ⟨target, v⟩) (w | ⟨target', w⟩)
  · exact hvalue v w
  · exact vacuous fun _ _ hl => hl
  · exact vacuous fun _ _ hl => hl
  · exact assuming fun htarget => htarget ▸ hret target v w

theorem withValue {next next' : Value → Eval Flow}
    (h : Matches t mask pre (Flow.Rel values returns) x y)
    (hnext : ∀ v w, Matches t mask (values v w) (Flow.Rel values' returns) (next v) (next' w)) :
    Matches t mask pre (Flow.Rel values' returns) (withValue x next) (withValue y next') :=
  h.andThen_flow hnext fun _ _ _ => ret fun _ _ hl => hl

/-- The second run goes on with a value in its scope, where the first one has left it. -/
theorem inScope_withValue (scope : Bool) {next next' : Value → Eval Flow}
    (calls : Value → List HostCall) (result : Value → Flow)
    (h : Matches t (scope :: mask) pre (Flow.Rel values returns) x y)
    (hends : ∀ w, Eval.EndsWith (next' w) (calls w) (result w))
    (hnext : ∀ v w, Matches t mask (values v w) (Flow.Rel values' returns) (next v)
      (Eval.andThen (Eval.tell (calls w)) fun _ => Eval.yield (result w))) :
    Matches t mask pre (Flow.Rel values' returns)
      (Interpreter.withValue (Eval.inScopeIf scope x) next)
      (Eval.inScope (Interpreter.withValue y next')) := by
  refine inScope_andThen (Flow.callsThen calls) (Flow.resultThen result) h ?_ ?_
  · rintro (w | ⟨target, w⟩)
    · exact hends w
    · exact .yield _
  · rintro (v | ⟨target, v⟩) (w | ⟨target', w⟩)
    · exact hnext v w
    · exact vacuous fun _ _ hl => hl
    · exact vacuous fun _ _ hl => hl
    · exact assuming fun htarget => htarget ▸ ret fun _ _ hl => hl

/-- A second run that never comes to a value. -/
theorem no_value (h : Matches t mask pre (Flow.Rel values returns) x y)
    (hy : ∀ m v n, y m ≠ (.done (.value v), n)) :
    Matches t mask pre (Flow.Rel (fun _ _ _ _ => False) returns) x y := by
  intro f rest rest' l k hf hlen hl
  obtain ⟨o, g, l', hx, hg, ho⟩ := h f rest rest' l k hf hlen hl
  refine ⟨o, g, l', hx, hg, ho.imp_right ?_⟩
  rintro ⟨o', k', hrun, hag⟩
  refine ⟨o', k', hrun, ?_⟩
  rcases o with (v | ⟨target, v⟩) | e | _ <;> rcases o' with (w | ⟨target', w⟩) | e' | _ <;>
    first
    | exact hag
    | exact (hy _ _ _ hrun).elim

theorem withBool {next next' : Bool → Eval Flow} (hstop : ∀ l k, logs l k → t.stopped l k)
    (h : Matches t mask pre (Flow.Rel (same logs) returns) x y)
    (hnext : ∀ b, Matches t mask logs (Flow.Rel values' returns) (next b) (next' b)) :
    Matches t mask pre (Flow.Rel values' returns) (withBool x next) (withBool y next') :=
  withValue h (of_same fun v => andThen (ofExcept v.asBool hstop) (of_same hnext))

/-! ## Variables -/

theorem evalGet (hstop : ∀ l k, logs l k → t.stopped l k) (site : Site) (var : VarId) :
    Matches t mask logs (Flow.Rel (same logs) returns) (evalGet site var) (evalGet site var) := by
  intro f rest rest' l k hf hlen hl
  unfold Interpreter.evalGet
  rw [Eval.andThen_done (Eval.frame_eq ..), Eval.andThen_done (Eval.frame_eq ..), Frame.find?_pad]
  cases f.find? var with
  | some v => exact value (fun _ _ hl => ⟨rfl, hl⟩) f rest rest' l k hf hlen hl
  | none => exact fail _ hstop f rest rest' l k hf hlen hl

theorem evalSet (hstop : ∀ l k, logs l k → t.stopped l k) (site : Site) (var : VarId) (v : Value) :
    Matches t mask logs (Flow.Rel (same logs) returns) (evalSet site var v) (evalSet site var v) := by
  intro f rest rest' l k hf hlen hl
  unfold Interpreter.evalSet
  rw [Eval.andThen_done (Eval.frame_eq ..), Eval.andThen_done (Eval.frame_eq ..), Frame.assign?_pad]
  cases h : f.assign? var v with
  | some g =>
    exact ⟨_, g, l, rfl, Frame.length_of_assign? h, .inr ⟨_, k, rfl, rfl, hl⟩⟩
  | none => exact fail _ hstop f rest rest' l k hf hlen hl

/-- A capture sees the variables and not the scopes they are in. -/
theorem captureValues_pad (span : Span) (mask : List Bool) (f : Frame) :
    ∀ entries, captureValues span (f.pad mask) entries = captureValues span f entries
  | [] => rfl
  | entry :: entries => by
    rw [captureValues, captureValues, Frame.find?_pad, captureValues_pad span mask f entries]

theorem captureValues_matches (hstop : ∀ l k, logs l k → t.stopped l k) (span : Span) (f : Frame) :
    ∀ entries, Matches t mask logs (same logs) (captureValues span f entries)
      (captureValues span f entries)
  | [] => yield fun _ _ hl => ⟨rfl, hl⟩
  | entry :: entries => by
    rw [captureValues]
    cases f.find? entry.var with
    | some v =>
      exact andThen (captureValues_matches hstop span f entries)
        (of_same fun vs => yield fun _ _ hl => ⟨rfl, hl⟩)
    | none => exact fail _ hstop

theorem evalCapture (hstop : ∀ l k, logs l k → t.stopped l k) (site : Site)
    (capture : FrameCapture) :
    Matches t mask logs (Flow.Rel (same logs) returns) (evalCapture site capture)
      (evalCapture site capture) := by
  intro f rest rest' l k hf hlen hl
  have eval_frame : ∀ (g : Frame) (fs : List Frame) (n : List HostCall),
      Interpreter.evalCapture site capture ⟨g :: fs, n⟩ =
        Eval.andThen (captureValues site.span g capture.entries) (fun values =>
          Eval.yield (.value (.snapshot ⟨capture.location, values⟩))) ⟨g :: fs, n⟩ :=
    fun _ _ _ => rfl
  rw [eval_frame, eval_frame, captureValues_pad]
  exact andThen (captureValues_matches hstop site.span f capture.entries)
    (of_same fun vs => value fun _ _ hl => ⟨rfl, hl⟩) f rest rest' l k hf hlen hl

/-! ## Blocks, operators and loops -/

/-- A returnable block turns unwinding into a value. -/
theorem evalReturnable {id : BlockId}
    (hblock : ∀ v w l k, returns (.block id) v w l k → values v w l k)
    (h : Matches t mask pre (Flow.Rel values returns) x y) :
    Matches t mask pre (Flow.Rel values returns) (evalReturnable id x) (evalReturnable id y) := by
  refine h.andThen_flow (fun _ _ => value fun _ _ hl => hl) fun target v w => ?_
  by_cases hid : target = .block id
  · subst hid
    simp only [if_true]
    exact value (hblock v w)
  · simp only [if_neg hid]
    exact ret fun _ _ hl => hl

theorem evalBinary (hstop : ∀ l k, logs l k → t.stopped l k) (op : BinOp) {x' y' : Eval Flow}
    (hx : Matches t mask pre (Flow.Rel (same logs) returns) x y)
    (hy : Matches t mask logs (Flow.Rel (same logs) returns) x' y') :
    Matches t mask pre (Flow.Rel (same logs) returns) (evalBinary op x x') (evalBinary op y y') := by
  have hvalue : ∀ v : Value, Matches t mask logs (Flow.Rel (same logs) returns)
      (Eval.yield (.value v)) (Eval.yield (.value v)) :=
    fun v => value fun _ _ hl => ⟨rfl, hl⟩
  cases op with
  | and =>
    refine withBool hstop hx fun l => ?_
    cases l with
    | true => exact withBool hstop hy fun r => hvalue (.bool r)
    | false => exact hvalue (.bool false)
  | or =>
    refine withBool hstop hx fun l => ?_
    cases l with
    | true => exact hvalue (.bool true)
    | false => exact withBool hstop hy fun r => hvalue (.bool r)
  | _ =>
    exact withValue hx (of_same fun l => withValue hy (of_same fun r =>
      andThen (ofExcept (Value.binary _ l r) hstop) (of_same hvalue)))

/-- Rounds of a loop: what one round keeps, all of them keep. The value of the body is not used. -/
theorem evalLoop (hstop : ∀ l k, logs l k → t.stopped l k) {x' y' : Eval Flow}
    (hx : Matches t mask logs (Flow.Rel (same logs) returns) x y)
    (hy : Matches t mask logs (Flow.Rel (fun _ _ => logs) returns) x' y') :
    ∀ rounds, Matches t mask logs (Flow.Rel (same logs) returns) (evalLoop x x' rounds)
      (evalLoop y y' rounds)
  | 0 => outOfFuel hstop
  | rounds + 1 => by
    refine withBool hstop hx fun holds => ?_
    cases holds with
    | true => exact withValue hy fun _ _ => evalLoop hstop hx hy rounds
    | false => exact value fun _ _ hl => ⟨rfl, hl⟩

end Matches

end TraceWeave

import TraceWeave.Proofs.Program.Index
import TraceWeave.Proofs.Runs.Programs
import TraceWeave.Proofs.Snapshot.Bound
import TraceWeave.Proofs.Snapshot.Standing

/-! # Captures in runs

A run can be recorded: every capture in the body of a function takes the current values of its
variables from the machine, and an alarm ends the run if one of them is not bound. If all captures
in bodies list variables that code can count on where they stand, a recorded run is the run itself.
So no alarm is ever given, and what a capture comes to are the current values.

`Eval.record` takes a snapshot, `Observer.recording` does so at every capture, and
`Interpreter.callBodies_recording` says that a recorded run is the run itself.
-/

namespace TraceWeave

open Interpreter

/-! ## Current values -/

namespace Machine

/-- The current value of a variable: its innermost binding in the innermost activation. -/
def current? (m : Machine) (var : VarId) : Option Value := m.frames.head?.bind (·.find? var)

/-- The current values of the variables of a capture, if all of them are bound. -/
def snapshot? (m : Machine) (capture : FrameCapture) : Option (FrameSnapshot Value) := do
  let values ← capture.entries.mapM fun entry => (m.current? entry.var).map (entry.info, ·)
  return ⟨capture.location, values⟩

end Machine

/-- The values of variables that are bound. -/
theorem Interpreter.captureValues_eq (span : Span) (f : Frame) : ∀ entries : List CapturedLocal,
    f.Binds (entries.map CapturedLocal.var) → ∃ values,
      entries.mapM (fun entry => (f.find? entry.var).map (entry.info, ·)) = some values ∧
        captureValues span f entries = Eval.yield values
  | [], _ => ⟨[], rfl, rfl⟩
  | entry :: entries, h => by
    obtain ⟨v, hv⟩ := Option.isSome_iff_exists.mp (h entry.var List.mem_cons_self)
    obtain ⟨values, hvalues, hcapture⟩ :=
      captureValues_eq span f entries fun w hw => h w (List.mem_cons_of_mem _ hw)
    refine ⟨(entry.info, v) :: values, ?_, ?_⟩
    · rw [List.mapM_cons, hv, hvalues]
      rfl
    · rw [captureValues, hv, hcapture]
      rfl

/-! ## Recording -/

/-- Takes a snapshot from the machine, or gives an alarm. -/
def Eval.record (alarm : Error) (capture : FrameCapture) : Eval Flow := fun m =>
  match m.snapshot? capture with
  | some snapshot => (.done (.value (.snapshot snapshot)), m)
  | none => (.failed alarm, m)

/-- Puts current values in the place of what captures come to. -/
def Observer.recording (alarm : Error) : Observer where
  expr _ e step :=
    match e with
    | .captureFrame _ capture => Eval.record alarm capture
    | _ => step

/-- A capture of variables that are bound comes to their current values. -/
theorem Within.record {U : Upkeep} {vars : List VarId} {capture : FrameCapture}
    (h : ∀ f, U.Knows vars f → f.Binds capture.vars) (alarm : Error) (site : Site) :
    Within U .expr vars (Eval.record alarm capture) (Interpreter.evalCapture site capture) := by
  intro f rest l _ hknown
  obtain ⟨values, hvalues, hcapture⟩ := captureValues_eq site.span f capture.entries (h f hknown)
  have hsnapshot : Machine.snapshot? ⟨f :: rest, l⟩ capture = some ⟨capture.location, values⟩ := by
    unfold Machine.snapshot?
    change (capture.entries.mapM fun entry => (f.find? entry.var).map (entry.info, ·)).bind _ = _
    rw [hvalues]
    rfl
  have hrecord : Eval.record alarm capture ⟨f :: rest, l⟩ =
      (.done (.value (.snapshot ⟨capture.location, values⟩)), ⟨f :: rest, l⟩) := by
    rw [Eval.record, hsnapshot]
  have heval : Interpreter.evalCapture site capture ⟨f :: rest, l⟩ =
      (.done (.value (.snapshot ⟨capture.location, values⟩)), ⟨f :: rest, l⟩) := by
    rw [Interpreter.evalCapture, Eval.andThen_done (Eval.frame_eq f rest l), hcapture]
    rfl
  refine ⟨hrecord.trans heval.symm, fun a n hn => ?_⟩
  rw [hrecord] at hn
  cases hn
  exact ⟨f, rfl, U.refl f⟩

/-! ## Functions -/

namespace Interpreter

/-- Code behind the parameters can count on all of them. -/
theorem bindParams_bound {α : Type} {a b : Activation}
    (h : a.SameWithin .bound (fun _ _ => True) b) (name : String) {next next' : Eval α} :
    ∀ (params : List Param) (args : List (Option Value)) (vars : List VarId),
      Within .bound .stmts (vars ++ params.map fun p => p.head.id) next next' →
      Within .bound .stmts vars (Eval.andThen (bindParams a name params args) fun _ => next)
        (Eval.andThen (bindParams b name params args) fun _ => next')
  | [], args, vars, hnext => by
    rw [List.map_nil, List.append_nil] at hnext
    exact hnext
  | p :: params, args, vars, hnext => by
    rw [bindParams, bindParams, Eval.andThen_assoc, Eval.andThen_assoc]
    have hvalue : Within .bound .expr vars (paramValue a name p args.head?.join)
        (paramValue b name p args.head?.join) := by
      unfold paramValue
      split
      · exact .same (.yield _)
      · split
        · exact evalOperand_within h _ a.function vars fun _ _ _ _ => trivial
        · exact .same (.fail _)
    refine hvalue.andThen fun v => ?_
    rw [Eval.andThen_assoc, Eval.andThen_assoc]
    refine .declare p.head.id v (bindParams_bound h name params args.tail _ ?_)
    rwa [List.append_assoc]

/-- The bodies of functions are run under another observer than the defaults of parameters. -/
def runBodies (p : Interpreter) (inBody : Observer) (rounds : Nat) :
    Nat → DeclId → FunctionHead → List Param → Body → List (Option Value) → Eval Value
  | 0, _, _, _, _, _ => fun m => (.outOfFuel, m)
  | depth + 1, id, info, params, body, args =>
    let call := p.invoke (p.runBodies inBody rounds depth)
    Eval.andThen (bindParams ⟨id, rounds, p.observer, call⟩ info.name params args) fun _ =>
      Eval.andThen (inBody.body id (body.eval ⟨id, rounds, inBody, call⟩)) (leaveFunction id info)

/-- Calls a function with all arguments given, and observes the bodies that are run. -/
def callBodies (p : Interpreter) (inBody : Observer) (rounds : Nat) (id : DeclId)
    (args : List Value) : Eval Value :=
  p.invoke (p.runBodies inBody rounds maxCallDepth) id (args.map some) (p.callSpan id)

end Interpreter

/-! ## Programs -/

namespace Interpreter

/-- Activations with the same calls, of which the first one is recorded. -/
theorem sameWithin_recording (alarm : Error) (id : DeclId) (rounds : Nat)
    {call call' : DeclId → List (Option Value) → Span → Eval Value}
    (hcall : ∀ id args span, SameCall (call id args span) (call' id args span)) :
    Activation.SameWithin .bound (fun c vars => c.vars = vars)
      ⟨id, rounds, .recording alarm, call⟩ ⟨id, rounds, {}, call'⟩ where
  rounds := rfl
  call := hcall
  seen {e vars x y} he h := by
    cases e with
    | captureFrame s c => exact absurd rfl (he s c)
    | _ => exact h
  returned _ _ _ _ _ h := h
  capture s c vars hc := .record (fun f hf => hc ▸ hf) alarm s

theorem runBodies_within {m : Module} (hm : AllFine (fun c vars => c.vars = vars) m.captures)
    (hosts : HostTable) (alarm : Error) (rounds : Nat) : ∀ depth id head info params body,
      (ofModule m hosts).decl? id = some (.function head info params body) → ∀ args,
      Within .bound .stmts []
        ((ofModule m hosts).runBodies (.recording alarm) rounds depth id info params body args)
        ((ofModule m hosts).runWithin rounds depth id info params body args)
  | 0, _, _, _, _, _, _, _ => .same .outOfFuel
  | depth + 1, id, head, info, params, body, hd, args => by
    have hcall := invoke_same fun id head info params body hd args =>
      (runBodies_within hm hosts alarm rounds depth id head info params body hd args).inFrame
        Upkeep.bound_start
    obtain ⟨hmem, hid⟩ := mem_of_decl? hd
    have hfine : AllFine (fun c vars => c.vars = vars)
        (body.spots .captures (some (.start id params))) := by
      intro y hy
      refine hm y (m.locates.decls _ hmem (List.mem_append_right _ ?_))
      rw [show head.id = id from hid]
      exact hy
    refine bindParams_bound ?_ info.name params args [] ?_
    · -- nothing is recorded in the defaults of parameters
      exact ⟨rfl, hcall, fun _ h => h, fun _ _ _ _ _ h => h, fun s c _ _ => .evalCapture s c⟩
    · refine Within.of_expr ?_
      exact (body.eval_within (sameWithin_recording alarm id rounds hcall) id _ hfine).andThen
        fun flow => .same (stays_leaveFunction id info flow)

/-- **Recorded runs.** If captures in bodies list the variables that code can count on, a run that
is recorded is the run itself. -/
theorem callBodies_recording {m : Module} (hm : AllFine (fun c vars => c.vars = vars) m.captures)
    (hosts : HostTable) (alarm : Error) (rounds : Nat) (id : DeclId) (args : List Value) :
    (ofModule m hosts).callBodies (.recording alarm) rounds id args =
      (ofModule m hosts).callWithin rounds id args := by
  refine (invoke_same (fun id head info params body hd args => ?_) id _ _).eq
  exact (runBodies_within hm hosts alarm rounds maxCallDepth id head info params body hd args).inFrame
    Upkeep.bound_start

end Interpreter

end TraceWeave

import TraceWeave.Eval.Host

/-! # The state of a run

Call frames with their lexical scopes, and the host calls so far. An evaluation step yields a
result, an error, or the notice that it was cut short, together with the state it leaves behind.

`Machine` is the state, `Frame` the scopes of one activation, `Outcome` the three ends of a step
and `Eval` the monad of steps. `Eval.inScope` and `Eval.inFrame` leave a scope or frame on every
way out; `Eval.callHost` records the call that it makes.
-/

namespace TraceWeave

/-- The variables of one lexical scope. -/
abbrev Bindings := List (VarId × Value)

namespace Bindings

/-- Binds a variable, or binds it anew. -/
def bind (var : VarId) (value : Value) : Bindings → Bindings
  | [] => [(var, value)]
  | (v, old) :: rest => if v = var then (v, value) :: rest else (v, old) :: bind var value rest

end Bindings

/-- The lexical scopes of a function activation, innermost first. -/
abbrev Frame := List Bindings

namespace Frame

/-- The scopes of a function that starts. -/
def start : Frame := [[]]

/-- Leaves the innermost scope; the outermost one stays. -/
def popScope : Frame → Frame
  | _ :: s :: rest => s :: rest
  | f => f

/-- Binds a variable in the innermost scope. -/
def declare (var : VarId) (value : Value) : Frame → Frame
  | [] => []
  | s :: rest => Bindings.bind var value s :: rest

/-- The innermost binding of a variable. -/
def find? (f : Frame) (var : VarId) : Option Value := f.findSome? fun s => s.lookup var

/-- Overwrites the innermost binding of a variable, if it is bound. -/
def assign? (var : VarId) (value : Value) : Frame → Option Frame
  | [] => none
  | s :: rest =>
    if (s.lookup var).isSome then some (Bindings.bind var value s :: rest)
    else (assign? var value rest).map (s :: ·)

end Frame

/-- The state of a run. -/
structure Machine where
  /-- The function activations, innermost first. -/
  frames : List Frame := []
  /-- The host calls so far, the latest first. -/
  log : List HostCall := []
  deriving Inhabited

/-- How an evaluation step ends. -/
inductive Outcome (α : Type) where
  | done (value : α)
  | failed (error : Error)
  /-- The step was cut short before it ended. -/
  | outOfFuel
  deriving DecidableEq

/-- An evaluation step. -/
def Eval (α : Type) : Type := Machine → Outcome α × Machine

namespace Eval

variable {α β : Type}

@[always_inline, inline]
def yield (a : α) : Eval α := fun m => (.done a, m)

@[always_inline, inline]
def andThen (step : Eval α) (next : α → Eval β) : Eval β := fun m =>
  match step m with
  | (.done a, m) => next a m
  | (.failed e, m) => (.failed e, m)
  | (.outOfFuel, m) => (.outOfFuel, m)

instance : Monad Eval where
  pure := yield
  bind := andThen

/-- Fails with an error. -/
def fail (e : Error) : Eval α := fun m => (.failed e, m)

/-- Fails with a message. -/
def refuse (message : String) : Eval α := fail (.generic message)

/-- Fails with a message about a place. -/
def refuseAt (message : String) (span : Span) : Eval α :=
  refuse s!"{message} [at {span.text}]"

def ofExcept : Except Error α → Eval α
  | .ok a => yield a
  | .error e => fail e

/-- A value that must be there. -/
def require (value : Option α) (orElse : Eval α) : Eval α :=
  match value with
  | some a => yield a
  | none => orElse

/-- The innermost function activation. -/
def frame : Eval Frame := fun m =>
  match m.frames with
  | f :: _ => (.done f, m)
  | [] => (.failed (.generic "no active call frame"), m)

/-- Replaces the innermost function activation. -/
def setFrame (f : Frame) : Eval Unit := fun m =>
  match m.frames with
  | _ :: rest => (.done (), { m with frames := f :: rest })
  | [] => (.failed (.generic "no active call frame"), m)

/-- Binds a variable in the innermost scope. -/
def declare (var : VarId) (value : Value) : Eval Unit := do
  setFrame ((← frame).declare var value)

/-- Runs a step in a scope of its own, which ends with it however it ends. -/
def inScope (step : Eval α) : Eval α := fun m =>
  match m.frames with
  | [] => (.failed (.generic "no active call frame"), m)
  | f :: rest =>
    match step { m with frames := ([] :: f) :: rest } with
    | (result, m) =>
      match m.frames with
      | [] => (.failed (.generic "no active call frame"), m)
      | f :: rest => (result, { m with frames := f.popScope :: rest })

/-- Runs a step in a function activation of its own, which ends with it however it ends. -/
def inFrame (step : Eval α) : Eval α := fun m =>
  match step { m with frames := Frame.start :: m.frames } with
  | (result, m) => (result, { m with frames := m.frames.tail })

/-- Calls a host function and notes the call. -/
def callHost (name : String) (host : Host) (args : List Value) : Eval Value := fun m =>
  let m := { m with log := ⟨name, args⟩ :: m.log }
  match host.run args with
  | .ok v => (.done v, m)
  | .error e => (.failed e, m)

end Eval

end TraceWeave

import TraceWeave.Proofs.Snapshot.Dispatched
import TraceWeave.Proofs.Snapshot.Kept
import TraceWeave.Proofs.Snapshot.Recorded
import TraceWeave.Proofs.Tracing.Instrumented

/-! # Frame snapshots capture what is bound

The scopes that dispatch sees around a snapshot call and the scopes of the run that comes to its
capture are kept apart, one by the walk and one by the machine. Both follow where code stands. So
the variables that a capture lists are bound whenever it is evaluated, also in a module that trace
calls were taken out of and that was instrumented later.

`Module.Reworked` is what may happen to the module in between. `Dispatch.snapshots_capture_bound`
puts together what dispatch writes (`Dispatch.captures_of_run`), what is kept of it
(`Module.Reworked.sublist`), and what a recorded run shows (`Interpreter.callBodies_recording`).
-/

namespace TraceWeave

/-- A module that trace calls were taken out of, or that was instrumented, any number of times. -/
inductive Module.Reworked (m : Module) : Module → Prop
  | done : Reworked m m
  | removal {m₁ m₂ : Module} {env : PassEnv} {removed : Nat} :
    Reworked m m₁ → Removal.run env m₁ = .ok (m₂, removed) → Reworked m m₂
  | instrumentation {m₁ : Module} {env : PassEnv} {store : Store} {n : Nat} :
    Reworked m m₁ → (Instrument.run env m₁ store).outcome = .ok n →
      Reworked m (Instrument.run env m₁ store).module

/-- Whatever comes after, a capture that is left stands where it stood. -/
theorem Module.Reworked.sublist {m m' : Module} (h : m.Reworked m') :
    m'.captures.Sublist m.captures := by
  induction h with
  | done => exact .refl _
  | removal _ hrun ih => exact (Removal.captures_sublist hrun).trans ih
  | instrumentation _ hrun ih =>
    rw [Instrument.captures_of_run hrun]
    exact ih

/-- Captures that replace calls list the variables of their places. -/
theorem allFine_of_replaces {calls : List (Option Standing × Site)}
    {found : List (Option Standing × Site × FrameCapture)} (h : List.Forall₂ Replaces calls found) :
    AllFine (fun c vars => c.vars = vars) found := by
  induction h with
  | nil => nofun
  | cons hy _ ih =>
    intro y hmem s hs
    obtain rfl | hmem := List.mem_cons.mp hmem
    · exact hy.2.2 s (hy.1.symm.trans hs)
    · exact ih y hmem s hs

namespace Dispatch

open Interpreter

variable {env : PassEnv} {m m' : Module} {store : Store} {n : Nat}

/-- **Frame snapshots capture what is bound.** Dispatch puts a capture in the place of every
snapshot call, and in the body of a function the capture lists the parameters and the variables of
earlier statements around the call. Later passes keep the captures that they leave as they are and
where they stand. And whatever alarm is given when a capture in a body lists a variable that is not
bound, a run in which such captures take the current values of their variables is the run itself. -/
theorem snapshots_capture_bound (hm : ∀ site capture, .expr (.captureFrame site capture) ∉ m.nodes)
    (hdispatch : (run Handlers.defaults env m store).outcome = .ok n)
    (hreworked : (run Handlers.defaults env m store).module.Reworked m') :
    List.Forall₂ Replaces (m.snapshotCalls env)
        (run Handlers.defaults env m store).module.captures ∧
      m'.captures.Sublist (run Handlers.defaults env m store).module.captures ∧
      ∀ hosts alarm rounds id args,
        (ofModule m' hosts).callBodies (.recording alarm) rounds id args =
          (ofModule m' hosts).callWithin rounds id args := by
  have hreplaced := captures_of_run hm hdispatch
  have hleft := hreworked.sublist
  refine ⟨hreplaced, hleft, fun hosts alarm rounds id args => ?_⟩
  have hfine : AllFine (fun c vars => c.vars = vars) m'.captures :=
    fun y hy => allFine_of_replaces hreplaced y (hleft.subset hy)
  exact callBodies_recording hfine hosts alarm rounds id args

/-! ### A function that takes two snapshots -/

namespace Sample

open TraceWeave.Sample (span hook)

def snapshotTy : Ty := .ofClass "spyglass.FrameSnapshot"

/-- The intrinsic for snapshots, and hooks for functions and events. -/
def library : List SourceFile :=
  [{ id := ⟨1⟩, path := "Spyglass.kt", package := "spyglass",
     declarations :=
       [.function
         { id := ⟨100⟩, span := .undefined ⟨1⟩, origin := .library,
           annotations := [{ className := "spyglass.Intrinsic", span := .undefined ⟨1⟩ }] }
         { name := "frameSnapshot", returnTy := snapshotTy } [] .absent] },
   { id := ⟨2⟩, path := "Tracer.kt", package := "spyglass.trace.Tracer",
     declarations := [hook 101 "enterFunction", hook 102 "leaveFunction", hook 103 "event"] }]

def snapshotSite (start : Int32) : Site := ⟨span start, snapshotTy⟩

def snapshotCall (start : Int32) : Expr := .call (snapshotSite start) ⟨100⟩ none [] []

def intVar (id : UInt32) (start : Int32) (init : Expr) : Stmt :=
  .var { id := ⟨id⟩, name := "x", ty := .int, span := span start } (some init)

/-- A function of one parameter that tells an event about a snapshot, and returns another one that
it takes in a block of its own. -/
def main : Decl :=
  .function { id := ⟨0⟩, span := span 1 } { name := "main", returnTy := snapshotTy }
    [⟨{ id := ⟨0⟩, name := "a", ty := .int, span := span 2 }, none⟩]
    (.block
      [intVar 1 3 (.getVar ⟨span 4, .int⟩ ⟨0⟩),
        .expr (.call ⟨span 5, .unit⟩ ⟨103⟩ none [] [some (snapshotCall 6)]),
        .expr (.ofReturn (span 7) (.function ⟨0⟩) (.block ⟨span 8, snapshotTy⟩
          [intVar 2 9 (.ofInt (span 10) 5), .expr (snapshotCall 11)]))])

def program : Module where
  name := "sample"
  files := [{ id := ⟨0⟩, path := "Main.kt", declarations := [main] }]
  external := library
  ids := { nextDecl := 200, nextVar := 200, nextBlock := 200 }

/-- Functions are traced, and events are not active. -/
def options : Options where
  tracing := { defaultTypes := [.functionEnter, .functionLeave] }

/-- The environment that passes over a module next to `library` have. -/
def envOf (m : Module) : PassEnv where
  options := options
  symbols := SymbolTable.build m
  linkage :=
    { intrinsicKinds := [(⟨100⟩, .frameSnapshot)]
      intrinsicDecls := [(.frameSnapshot, ⟨100⟩)]
      hooks := [(.functionEnter, ⟨101⟩), (.functionLeave, ⟨102⟩), (.event, ⟨103⟩)] }
  factory := { symbols := SymbolTable.build m, sources := default, moduleName := m.name }

def dispatched : PassResult := run Handlers.defaults (envOf program) program {}

/-- What removal leaves. -/
def left : Module :=
  match Removal.run (envOf dispatched.module) dispatched.module with
  | .ok (m, _) => m
  | .error _ => default

def traced : PassResult := Instrument.run (envOf left) left dispatched.store

/-- A call of the function, recorded. -/
def recordedRun : Outcome Value :=
  ((ofModule traced.module (HostTable.withHooks [] options.tracing.hooks)).callBodies
    (.recording (.generic "a variable is not bound")) 1 ⟨0⟩ [.int 3] {}).1

/-- The values of a snapshot that a run comes to. -/
def valuesOf : Outcome Value → List Value
  | .done (.snapshot s) => s.values.map Prod.snd
  | _ => []

theorem reworked : dispatched.module.Reworked traced.module := by
  have ⟨hremoval, htraced⟩ : (Removal.run (envOf dispatched.module) dispatched.module).isOk ∧
      traced.outcome.isOk := by
    decide +kernel
  obtain ⟨⟨m, removed⟩, hm⟩ := Except.exists_ok hremoval
  obtain ⟨n, hn⟩ := Except.exists_ok htraced
  have hleft : left = m := by rw [left, hm]
  exact .instrumentation (.removal .done (hleft ▸ hm)) hn

end Sample

/-- The first snapshot goes away with the event. The second one lists the parameter and both
variables, and has their values. -/
theorem Sample.second_snapshot_bound :
    program.snapshotCalls (envOf program) =
        [(some ⟨⟨0⟩, [⟨0⟩, ⟨1⟩]⟩, snapshotSite 6),
          (some ⟨⟨0⟩, [⟨0⟩, ⟨1⟩, ⟨2⟩]⟩, snapshotSite 11)] ∧
      traced.module.captures.map (fun y => (y.1, y.2.2.vars)) =
        [(some ⟨⟨0⟩, [⟨0⟩, ⟨1⟩, ⟨2⟩]⟩, [⟨0⟩, ⟨1⟩, ⟨2⟩])] ∧
      valuesOf recordedRun = [.int 3, .int 3, .int 5] := by
  have hnone : ∀ site capture, .expr (.captureFrame site capture) ∉ program.nodes :=
    captureFrame_notMem (by decide +kernel)
  have hdispatched : dispatched.outcome.isOk := by decide +kernel
  obtain ⟨n, hn⟩ := Except.exists_ok hdispatched
  obtain ⟨-, -, hruns⟩ := snapshots_capture_bound hnone hn reworked
  rw [recordedRun, hruns]
  decide +kernel

end Dispatch

end TraceWeave

import TraceWeave.Diagnostic
import TraceWeave.Pass.CallerCapture
import TraceWeave.Pass.Handlers
import TraceWeave.Pass.Instrument
import TraceWeave.Pass.Removal
import TraceWeave.Program.Nodes

/-! # The pipeline

The enabled passes, run over a module in their fixed order. Before each pass the symbols and the
linkage are looked up again. Hooks that the module asks for must be there before anything changes.

`Pipeline.run` goes from a `PipelineSetup` and a module to a `PipelineState`, in the order
`PassName.all`; `Pipeline.checkLinkage` is the check on hooks, `PipelineState.runPass` one pass,
and `PipelineState.runPasses` a list of them.
-/

namespace TraceWeave

/-- The passes. -/
inductive PassName where
  | extractCallerDefaults | injectCallerArguments | intrinsicDispatch | traceRemoval
  | tracingInstrumentation
  deriving DecidableEq, Repr, Inhabited

namespace PassName

def name : PassName → String
  | .extractCallerDefaults => "extract-caller-defaults"
  | .injectCallerArguments => "inject-caller-arguments"
  | .intrinsicDispatch => "intrinsic-dispatch"
  | .traceRemoval => "trace-removal"
  | .tracingInstrumentation => "tracing-instrumentation"

/-- All passes, in the order in which they run. -/
def all : List PassName :=
  [.extractCallerDefaults, .injectCallerArguments, .intrinsicDispatch, .traceRemoval,
    .tracingInstrumentation]

def isEnabled (o : Options) : PassName → Bool
  | .extractCallerDefaults | .injectCallerArguments => o.callerCapture.enabled
  | .intrinsicDispatch => o.intrinsics.enabled
  | .traceRemoval => o.tracing.remove
  | .tracingInstrumentation => o.tracing.instrument

end PassName

/-- What the passes change: the module, the descriptors and the captured defaults. -/
structure PipelineState where
  module : Module
  store : Store
  captured : CapturedDefaults := []
  deriving Inhabited

/-- What stays the same during a run. -/
structure PipelineSetup where
  options : Options
  sources : Source.Provider
  registry : Registry := Handlers.defaults

namespace PipelineState

/-- The state that a pass leaves behind. -/
def ofResult (s : PipelineState) (r : PassResult) : Except Error Nat × PipelineState :=
  (r.outcome, { s with module := r.module, store := r.store })

/-- Runs one pass in an environment. -/
def runPassIn (setup : PipelineSetup) (env : PassEnv) (s : PipelineState) :
    PassName → Except Error Nat × PipelineState
  | .extractCallerDefaults =>
    let (m, x) := CallerCapture.extract env s.module s.captured
    (.ok x.marked, { s with module := m, captured := x.captured })
  | .injectCallerArguments =>
    s.ofResult (CallerCapture.inject env s.captured s.module s.store)
  | .intrinsicDispatch => s.ofResult (Dispatch.run setup.registry env s.module s.store)
  | .traceRemoval =>
    match Removal.run env s.module with
    | .ok (m, removed) => (.ok removed, { s with module := m })
    | .error e => (.error e, s)
  | .tracingInstrumentation => s.ofResult (Instrument.run env s.module s.store)

/-- Runs one pass in the environment of the module as it stands. -/
def runPass (setup : PipelineSetup) (s : PipelineState) (pass : PassName) :
    Except Error Nat × PipelineState :=
  match PassEnv.build setup.options setup.sources s.module with
  | .error e => (.error e, s)
  | .ok env => s.runPassIn setup env pass

/-- Runs passes one after the other, until one fails. -/
def runPasses (setup : PipelineSetup) :
    List PassName → PipelineState → Except Error (List (PassName × Nat)) × PipelineState
  | [], s => (.ok [], s)
  | pass :: passes, s =>
    match s.runPass setup pass with
    | (.error e, s) => (.error e, s)
    | (.ok changed, s) =>
      match runPasses setup passes s with
      | (.error e, s) => (.error e, s)
      | (.ok outcomes, s) => (.ok ((pass, changed) :: outcomes), s)

section

variable {setup : PipelineSetup} {pass : PassName} {passes : List PassName} {s t : PipelineState}

/-- If a list of passes succeeds, its first one does, and the others on what that one leaves. -/
theorem of_runPasses_cons {outcomes : List (PassName × Nat)}
    (h : s.runPasses setup (pass :: passes) = (.ok outcomes, t)) :
    ∃ n u outcomes', s.runPass setup pass = (.ok n, u) ∧
      u.runPasses setup passes = (.ok outcomes', t) ∧ outcomes = (pass, n) :: outcomes' := by
  unfold runPasses at h
  split at h
  · cases h
  · rename_i n u hpass
    split at h
    · cases h
    · rename_i outcomes' v hrest
      cases h
      exact ⟨n, u, outcomes', hpass, hrest, rfl⟩

/-- If a list of passes fails, its first one does, or the others on what that one leaves. -/
theorem of_runPasses_cons_error {e : Error}
    (h : s.runPasses setup (pass :: passes) = (.error e, t)) :
    s.runPass setup pass = (.error e, t) ∨
      ∃ n u, s.runPass setup pass = (.ok n, u) ∧ u.runPasses setup passes = (.error e, t) := by
  unfold runPasses at h
  split at h
  · rename_i e' u hpass
    cases h
    exact .inl hpass
  · rename_i n u hpass
    split at h
    · rename_i e' v hrest
      cases h
      exact .inr ⟨n, u, hpass, hrest⟩
    · cases h

end

end PipelineState

namespace Pipeline

mutual

/-- A declaration and its members and accessors whose annotations can select trace types. The
last ones come first, and each comes before those inside it. -/
def traceable : Decl → List Decl
  | .classDecl head info members => .classDecl head info members :: traceables members
  | .property head info backing getter setter =>
    .property head info backing getter setter ::
      (traceableOption setter ++ traceableOption getter)
  | .function head info params body => [.function head info params body]
  | .field head info init => [.field head info init]
  | .initializer head body => [.initializer head body]

def traceableOption : Option Decl → List Decl
  | none => []
  | some d => traceable d

def traceables : List Decl → List Decl
  | [] => []
  | d :: ds => traceables ds ++ traceable d

end

/-- The types whose hooks instrumentation calls. -/
def instrumented : TraceSet :=
  .ofList [.functionEnter, .functionLeave, .beforeCall, .afterCall, .suspensionPoint]

/-- Adds the types that declarations select, one after the other. -/
def addRequested (o : Options) : List Decl → TraceSet → Except Error TraceSet
  | [], set => .ok set
  | d :: ds, set =>
    match addTraced (AnnotationUse.ofClass d.head.annotations o.tracing.selectedBy) set with
    | .ok set => addRequested o ds set
    | .error e => .error e

/-- The types that a module asks for, by default or by the annotations of its declarations. -/
def requestedTypes (o : Options) (m : Module) : Except Error TraceSet :=
  addRequested o (traceables (m.files.flatMap SourceFile.declarations)) o.tracing.defaultSet

/-- Fails unless every hook that instrumentation will call is there. -/
def checkLinkage (o : Options) (m : Module) (l : Linkage) : Except Error Unit :=
  if o.tracing.instrument then
    match requestedTypes o m with
    | .error e => .error e
    | .ok requested => l.requireHooks o.tracing.hooks (requested.inter instrumented).types
  else .ok ()

/-- The passes of a run. -/
def passes (o : Options) : List PassName := PassName.all.filter (PassName.isEnabled o)

/-- Looks up the linkage and runs the passes. -/
def runFrom (setup : PipelineSetup) (s : PipelineState) :
    Except Error (List (PassName × Nat)) × PipelineState :=
  match PassEnv.build setup.options setup.sources s.module with
  | .error e => (.error e, s)
  | .ok env =>
    match checkLinkage setup.options s.module env.linkage with
    | .error e => (.error e, s)
    | .ok () => PipelineState.runPasses setup (passes setup.options) s

/-- Runs the pipeline: the changes of each pass, or the error, and what it left behind. -/
def run (setup : PipelineSetup) (m : Module) (store : Store) :
    Except Error (List (PassName × Nat)) × PipelineState :=
  runFrom setup { module := m.syncIds, store }

/-- The number of all changes. -/
def totalChanges (outcomes : List (PassName × Nat)) : Nat :=
  outcomes.foldr (fun outcome total => outcome.2 + total) 0

/-- The number of changes of a pass. -/
def changesOf (outcomes : List (PassName × Nat)) (pass : PassName) : Nat :=
  totalChanges (outcomes.filter (·.1 == pass))

/-- What is reported about a failed run: the error, and its place if the file is known. -/
def diagnose (sources : Source.Provider) (texts : Source.Cache) (m : Module) (e : Error) :
    Diagnostic :=
  let location := do
    let span ← e.span?
    let file ← m.file? span.file
    let (position, _) := texts.resolve sources file.path span.start span.stop
    return s!"{file.path}:{position.text}"
  { Diagnostic.ofError e with location }

end Pipeline

end TraceWeave

import TraceWeave.Intrinsic
import TraceWeave.TraceType

/-! # Options of a run

Which passes run, on which kinds and types they work, and the names of the runtime library.

`Options` holds one record for each pass. `Options.accepts` says whether a kind of intrinsic is
resolved, `TracingOptions.defaultSet` which trace types are active everywhere, and
`Options.withoutTracing` and `Options.withoutIntrinsics` switch passes off.
-/

namespace TraceWeave

/-- The qualified names of the trace hooks. -/
structure HookNames where
  functionEnter : String := "spyglass.trace.Tracer.enterFunction"
  functionLeave : String := "spyglass.trace.Tracer.leaveFunction"
  beforeCall : String := "spyglass.trace.Tracer.beforeCall"
  afterCall : String := "spyglass.trace.Tracer.afterCall"
  suspensionPoint : String := "spyglass.trace.Tracer.suspensionPoint"
  spanEnter : String := "spyglass.trace.Tracer.spanEnter"
  spanLeave : String := "spyglass.trace.Tracer.spanLeave"
  event : String := "spyglass.trace.Tracer.event"
  deriving DecidableEq, Repr, Inhabited

namespace HookNames

/-- The name of the hook of a type. -/
def get (h : HookNames) : TraceType → String
  | .functionEnter => h.functionEnter
  | .functionLeave => h.functionLeave
  | .beforeCall => h.beforeCall
  | .afterCall => h.afterCall
  | .suspensionPoint => h.suspensionPoint
  | .spanEnter => h.spanEnter
  | .spanLeave => h.spanLeave
  | .event => h.event

end HookNames

structure IntrinsicOptions where
  enabled : Bool := true
  /-- The annotation that marks a runtime declaration as an intrinsic. -/
  markedBy : String := "spyglass.Intrinsic"
  /-- The kinds that are replaced; calls of other kinds are left alone. -/
  kinds : List IntrinsicKind := IntrinsicKind.all
  deriving DecidableEq, Repr, Inhabited

structure CallerCaptureOptions where
  enabled : Bool := true
  /-- The annotation on declarations whose defaults were taken out. -/
  marker : String := "spyglass.internal.CallerCapture"
  deriving DecidableEq, Repr, Inhabited

structure TracingOptions where
  /-- Whether enter, leave, call and suspension hooks are put in. -/
  instrument : Bool := true
  /-- Whether span and event calls are taken out where they are not active. -/
  remove : Bool := true
  /-- The annotation that selects the trace types of a class or function. -/
  selectedBy : String := "spyglass.trace.Traced"
  /-- The types that are active everywhere. -/
  defaultTypes : List TraceType := []
  hooks : HookNames := {}
  deriving DecidableEq, Repr, Inhabited

namespace TracingOptions

def defaultSet (o : TracingOptions) : TraceSet := .ofList o.defaultTypes

end TracingOptions

/-- The options of a run. -/
structure Options where
  /-- The module name in source locations, if it is not the module's own. -/
  moduleName : Option String := none
  intrinsics : IntrinsicOptions := {}
  callerCapture : CallerCaptureOptions := {}
  tracing : TracingOptions := {}
  deriving DecidableEq, Repr, Inhabited

namespace Options

/-- Whether calls of a kind are replaced. -/
def accepts (o : Options) (kind : IntrinsicKind) : Bool :=
  o.intrinsics.enabled && o.intrinsics.kinds.contains kind

/-- Turns off both tracing passes. -/
def withoutTracing (o : Options) : Options :=
  { o with tracing := { o.tracing with instrument := false, remove := false } }

/-- Turns off caller capture and intrinsics. -/
def withoutIntrinsics (o : Options) : Options :=
  { o with
    intrinsics := { o.intrinsics with enabled := false }
    callerCapture := { o.callerCapture with enabled := false } }

end Options

end TraceWeave

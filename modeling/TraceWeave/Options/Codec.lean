import TraceWeave.Json.Codec
import TraceWeave.Options.Basic

/-! # JSON form of options

Trace types, intrinsics and options. Every field of options may be missing and then has its
default.

`Options.toJson` and `Options.ofJson?`, from the readers and writers of the records inside.
-/

namespace TraceWeave

open Json (withDefault recordIn? choice? list? nullable?)

namespace IntrinsicKind

def ofJson? : Json → Option IntrinsicKind := choice? (all.map fun kind => (kind.name, kind))

end IntrinsicKind

namespace IntrinsicSpec

def toJson (s : IntrinsicSpec) : Json :=
  .obj [("name", .str s.name), ("kind", .str s.kind.name), ("symbol", .str s.symbol),
    ("aliases", Json.ofList .str s.aliases), ("shape", .str s.shape.name),
    ("display", .str s.kind.name), ("shape_again", .str s.kind.shape.name)]

end IntrinsicSpec

namespace TraceType

def ofJson? : Json → Option TraceType := choice? (all.map fun ty => (ty.name, ty))

end TraceType

namespace TraceSet

def toJson (s : TraceSet) : Json :=
  .obj [("text", .str s.text), ("bits", .int s.bits),
    ("types", Json.ofList (fun ty => .str (TraceType.name ty)) s.types),
    ("has", Json.ofList (fun ty => .bool (s.has ty)) TraceType.all),
    ("empty", .bool s.types.isEmpty)]

end TraceSet

namespace HookNames

def toJson (h : HookNames) : Json :=
  .obj [("function-enter", .str h.functionEnter), ("function-leave", .str h.functionLeave),
    ("before-call", .str h.beforeCall), ("after-call", .str h.afterCall),
    ("suspension-point", .str h.suspensionPoint), ("span-enter", .str h.spanEnter),
    ("span-leave", .str h.spanLeave), ("event", .str h.event)]

def ofJson? (format : Json.Format) (j : Json) : Option HookNames := do
  let fields ← recordIn? format ["function-enter", "function-leave", "before-call", "after-call",
    "suspension-point", "span-enter", "span-leave", "event"] j
  let base : HookNames := {}
  some {
    functionEnter := ← withDefault fields "function-enter" base.functionEnter Json.str?
    functionLeave := ← withDefault fields "function-leave" base.functionLeave Json.str?
    beforeCall := ← withDefault fields "before-call" base.beforeCall Json.str?
    afterCall := ← withDefault fields "after-call" base.afterCall Json.str?
    suspensionPoint := ← withDefault fields "suspension-point" base.suspensionPoint Json.str?
    spanEnter := ← withDefault fields "span-enter" base.spanEnter Json.str?
    spanLeave := ← withDefault fields "span-leave" base.spanLeave Json.str?
    event := ← withDefault fields "event" base.event Json.str? }

end HookNames

namespace IntrinsicOptions

def toJson (o : IntrinsicOptions) : Json :=
  .obj [("enabled", .bool o.enabled), ("annotation", .str o.markedBy),
    ("kinds", Json.ofList (fun k => .str (IntrinsicKind.name k)) o.kinds)]

def ofJson? (format : Json.Format) (j : Json) : Option IntrinsicOptions := do
  let fields ← recordIn? format ["enabled", "annotation", "kinds"] j
  let base : IntrinsicOptions := {}
  some {
    enabled := ← withDefault fields "enabled" base.enabled Json.bool?
    markedBy := ← withDefault fields "annotation" base.markedBy Json.str?
    kinds := ← withDefault fields "kinds" base.kinds (list? IntrinsicKind.ofJson?) }

end IntrinsicOptions

namespace CallerCaptureOptions

def toJson (o : CallerCaptureOptions) : Json :=
  .obj [("enabled", .bool o.enabled), ("marker", .str o.marker)]

def ofJson? (format : Json.Format) (j : Json) : Option CallerCaptureOptions := do
  let fields ← recordIn? format ["enabled", "marker"] j
  let base : CallerCaptureOptions := {}
  some {
    enabled := ← withDefault fields "enabled" base.enabled Json.bool?
    marker := ← withDefault fields "marker" base.marker Json.str? }

end CallerCaptureOptions

namespace TracingOptions

def toJson (o : TracingOptions) : Json :=
  .obj [("instrument", .bool o.instrument), ("remove", .bool o.remove),
    ("annotation", .str o.selectedBy),
    ("default-types", Json.ofList (fun ty => .str (TraceType.name ty)) o.defaultTypes),
    ("hooks", o.hooks.toJson)]

def ofJson? (format : Json.Format) (j : Json) : Option TracingOptions := do
  let fields ← recordIn? format ["instrument", "remove", "annotation", "default-types", "hooks"] j
  let base : TracingOptions := {}
  some {
    instrument := ← withDefault fields "instrument" base.instrument Json.bool?
    remove := ← withDefault fields "remove" base.remove Json.bool?
    selectedBy := ← withDefault fields "annotation" base.selectedBy Json.str?
    defaultTypes := ← withDefault fields "default-types" base.defaultTypes
      (list? TraceType.ofJson?)
    hooks := ← withDefault fields "hooks" base.hooks (HookNames.ofJson? format) }

end TracingOptions

namespace Options

def toJson (o : Options) : Json :=
  .obj [("module-name", Json.ofNullable .str o.moduleName), ("intrinsics", o.intrinsics.toJson),
    ("caller-capture", o.callerCapture.toJson), ("tracing", o.tracing.toJson)]

def ofJson? (format : Json.Format) (j : Json) : Option Options := do
  let fields ← recordIn? format ["module-name", "intrinsics", "caller-capture", "tracing"] j
  some {
    moduleName := ← withDefault fields "module-name" none (nullable? Json.str?)
    intrinsics := ← withDefault fields "intrinsics" {} (IntrinsicOptions.ofJson? format)
    callerCapture := ← withDefault fields "caller-capture" {} (CallerCaptureOptions.ofJson? format)
    tracing := ← withDefault fields "tracing" {} (TracingOptions.ofJson? format) }

end Options

end TraceWeave

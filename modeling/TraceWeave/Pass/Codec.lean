import TraceWeave.Pass.Dispatch
import TraceWeave.Program.Codec.Leaf

/-! # JSON form of resolved intrinsics

`Resolved.toJson` writes what a handler resolved a call to, `Resolved.ofJson` reads it back.
-/

namespace TraceWeave

open Json (Fault)
open Json.Fault (unlessForm unlessContent)

namespace Resolved

def toJson : Resolved → Json
  | .int n => Json.ofVariant "Int" (Json.ofInt32 n)
  | .string s => Json.ofVariant "String" (.str s)
  | .descriptor ref => Json.ofVariant "Descriptor" ref.toJson
  | .snapshot capture => Json.ofVariant "Snapshot" capture.toJson

def ofJson : Json → Except Fault Resolved
  | .obj [("Int", data)] => (unlessContent data.int32?).map .int
  | .obj [("String", data)] => (unlessForm data.str?).map .string
  | .obj [("Descriptor", data)] => (unlessContent (DescriptorRef.ofJson? data)).map .descriptor
  | .obj [("Snapshot", data)] => (unlessContent (FrameCapture.ofJson? data)).map .snapshot
  | _ => .error .form

end Resolved

end TraceWeave

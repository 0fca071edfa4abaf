import TraceWeave.Eval.Host
import TraceWeave.Program.Codec.Leaf

/-! # JSON form of values

Values, snapshots with the changes between them, and trace events.

`Value.toJson` and `Value.ofJson` for values, `FrameSnapshot.ofJson` and `FrameChange.toJson` for
what a snapshot captured, `TraceEvent.toJson` for the events of a run.
-/

namespace TraceWeave

open Json (Fault ofVariant)
open Json.Fault (unlessForm unlessContent)

namespace Value

mutual

def toJson : Value → Json
  | .unit => .str "Unit"
  | .null => .str "Null"
  | .bool b => ofVariant "Bool" (.bool b)
  | .int n => ofVariant "Int" (Json.ofInt32 n)
  | .long n => ofVariant "Long" (Json.ofInt64 n)
  | .string s => ofVariant "String" (.str s)
  | .descriptor ref => ofVariant "Descriptor" ref.toJson
  | .snapshot ⟨location, values⟩ =>
    ofVariant "Snapshot" (.obj [("location", location.toJson), ("values", .arr (toJsons values))])

/-- Pairs of a variable and its value. -/
def toJsons : List (Handle .localInfo × Value) → List Json
  | [] => []
  | (h, v) :: rest => .arr [h.toJson, toJson v] :: toJsons rest

end

end Value

namespace FrameSnapshot

/-- A variable and its value: the first two items of an array. -/
def readEntry (readValue : Json → Except Fault Value) :
    Json → Except Fault (Handle .localInfo × Value)
  | .arr (var :: value :: _) => do
    return (← unlessContent (Handle.ofJson? var), ← readValue value)
  | _ => .error .form

/-- A snapshot whose values are read by `readValue`. -/
def read (readValue : Json → Except Fault Value) (j : Json) :
    Except Fault (FrameSnapshot Value) := do
  let location ← unlessContent (Handle.ofJson? (← unlessForm (j.field? "location")))
  let entries ← unlessForm ((j.field? "values").bind Json.items?)
  return { location, values := ← entries.mapM (readEntry readValue) }

end FrameSnapshot

namespace Value

/-- The value of a variant with data, where `nested` reads the values inside it. -/
def readVariant (nested : Json → Except Fault Value) (name : String) (data : Json) :
    Except Fault Value :=
  match name with
  | "Bool" => (unlessForm data.bool?).map .bool
  | "Int" => (unlessContent data.int32?).map .int
  | "Long" => (unlessContent data.int64?).map .long
  | "String" => (unlessForm data.str?).map .string
  | "Descriptor" => (unlessContent (DescriptorRef.ofJson? data)).map .descriptor
  | "Snapshot" => (FrameSnapshot.read nested data).map .snapshot
  | _ => .error .form

/-- Reads a value of at most `fuel` nested snapshots. -/
def read : Nat → Json → Except Fault Value
  | 0, _ => .error .form
  | _ + 1, .str "Unit" => .ok .unit
  | _ + 1, .str "Null" => .ok .null
  | fuel + 1, .obj [(name, data)] => readVariant (read fuel) name data
  | _ + 1, _ => .error .form

def ofJson (j : Json) : Except Fault Value := read (j.depth + 1) j

end Value

namespace FrameSnapshot

def ofJson : Json → Except Fault (FrameSnapshot Value) := read Value.ofJson

end FrameSnapshot

namespace FrameChange

def toJson : FrameChange Value → Json
  | .defined var v =>
    ofVariant "Defined" (.obj [("local", var.toJson), ("value", v.toJson)])
  | .changed var before after =>
    ofVariant "Changed"
      (.obj [("local", var.toJson), ("before", before.toJson), ("after", after.toJson)])

end FrameChange

namespace TraceEvent

/-- The type of an event, followed by what its hook was told. -/
def toJson (e : TraceEvent) : Json :=
  let ty := Json.str e.traceType.name
  match e with
  | .enter f | .leave f => .arr [ty, f.toJson]
  | .beforeCall f l | .afterCall f l | .suspension f l => .arr [ty, f.toJson, l.toJson]
  | .spanEnter name | .spanLeave name | .event name => .arr [ty, .str name]

end TraceEvent

end TraceWeave

import TraceWeave.Program.Codec.Index
import TraceWeave.Scope

/-! # JSON form of scopes

Executables and frames, and a summary of what can be seen from a point.

`ScopeStack.summary` is the summary, `ScopeFrame.toJson` and `Executable.toJson` are its parts.
-/

namespace TraceWeave

open Json (ofVariant ofNullable)

def DeclId.ofJson? (j : Json) : Option DeclId := (Json.uint32? j).map (⟨·⟩)

def VarId.ofJson? (j : Json) : Option VarId := (Json.uint32? j).map (⟨·⟩)

namespace Executable

def toJson : Executable → Json
  | .function id => ofVariant "Function" id.toJson
  | .initializer id inClass =>
    ofVariant "Initializer" (.obj [("id", id.toJson), ("class", ofNullable DeclId.toJson inClass)])

end Executable

namespace FrameKind

def name : FrameKind → String
  | .classFrame => "Class"
  | .function => "Function"
  | .initializer => "Initializer"
  | .body => "Body"

end FrameKind

namespace ScopeFrame

def toJson (f : ScopeFrame) : Json :=
  .obj [("kind", .str f.kind.name), ("decl", ofNullable DeclId.toJson f.decl),
    ("locals", .int f.locals.length)]

end ScopeFrame

namespace ScopeStack

/-- The fields that say what can be seen from a point. -/
def summary (s : ScopeStack) : List (String × Json) :=
  let decl := ofNullable DeclId.toJson
  [("depth", .int s.depth), ("empty", .bool s.frames.isEmpty), ("frames", .int s.frames.length),
    ("class", decl s.currentClass?), ("function", decl s.currentFunction?),
    ("initializer", decl s.currentInitializer?),
    ("executable", ofNullable Executable.toJson s.currentExecutable?),
    ("innermost", decl s.innermostDecl?),
    ("declarations", Json.ofList DeclId.toJson s.declarations),
    ("visible", Json.ofList (fun v => .arr [Json.ofUInt32 (VisibleLocal.var v).val, .str v.name,
      .bool v.mutable]) s.visibleLocals)]

end ScopeStack

end TraceWeave

import TraceWeave.Program.Codec.Leaf

/-! # Writing programs as JSON

Every field is written, also where it has its default.

`Module.toJson`, `SourceFile.toJson`, `Decl.toJson` and `Expr.toJson`. What a node says about
itself is wrapped around its own fields by `Site.wrap` and `DeclHead.wrap`.
-/

namespace TraceWeave

open Json (ofVariant)

/-- The JSON form of an expression, from its site and the form of its kind. -/
def Site.wrap (site : Site) (kind : Json) : Json :=
  .obj [("span", site.span.toJson), ("ty", site.ty.toJson), ("kind", kind)]

/-- The JSON form of a declaration, from its head and the form of its kind. -/
def DeclHead.wrap (head : DeclHead) (kind : Json) : Json :=
  .obj [("id", Json.ofUInt32 head.id.val), ("span", head.span.toJson),
    ("origin", .str head.origin.name),
    ("annotations", Json.ofList AnnotationUse.toJson head.annotations), ("kind", kind)]

/-- The JSON form of a list of names. -/
def Json.ofNames (names : List String) : Json := Json.ofList .str names

mutual

def Expr.toJson : Expr → Json
  | .const s value => s.wrap (ofVariant "Const" value.toJson)
  | .getVar s var => s.wrap (ofVariant "GetVar" (Json.ofUInt32 var.val))
  | .setVar s var value =>
    s.wrap (ofVariant "SetVar" (.obj [("var", Json.ofUInt32 var.val), ("value", value.toJson)]))
  | .call s callee receiver typeArgs args =>
    s.wrap (ofVariant "Call"
      (.obj [("callee", Json.ofUInt32 callee.val), ("receiver", optionToJson receiver),
        ("type_args", Json.ofList Ty.toJson typeArgs), ("args", .arr (argsToJson args))]))
  | .functionRef s decl => s.wrap (ofVariant "FunctionReference" (Json.ofUInt32 decl.val))
  | .propertyRef s decl => s.wrap (ofVariant "PropertyReference" (Json.ofUInt32 decl.val))
  | .block s stmts => s.wrap (ofVariant "Block" (.obj [("stmts", .arr (stmtsToJson stmts))]))
  | .returnable s id stmts =>
    s.wrap (ofVariant "ReturnableBlock"
      (.obj [("id", Json.ofUInt32 id.val), ("block", .obj [("stmts", .arr (stmtsToJson stmts))])]))
  | .ret s target value =>
    s.wrap (ofVariant "Return" (.obj [("target", target.toJson), ("value", value.toJson)]))
  | .when s branches otherwise =>
    s.wrap (ofVariant "When"
      (.obj [("branches", .arr (branchesToJson branches)), ("otherwise", optionToJson otherwise)]))
  | .loop s condition body =>
    s.wrap (ofVariant "While" (.obj [("condition", condition.toJson), ("body", body.toJson)]))
  | .binary s op lhs rhs =>
    s.wrap (ofVariant "Binary"
      (.obj [("op", .str op.name), ("lhs", lhs.toJson), ("rhs", rhs.toJson)]))
  | .not s operand => s.wrap (ofVariant "Not" operand.toJson)
  | .concat s parts => s.wrap (ofVariant "StringConcat" (.arr (exprsToJson parts)))
  | .lambda s decl => s.wrap (ofVariant "Lambda" decl.toJson)
  | .descriptor s ref => s.wrap (ofVariant "Descriptor" ref.toJson)
  | .captureFrame s capture => s.wrap (ofVariant "CaptureFrame" capture.toJson)

def optionToJson : Option Expr → Json
  | none => .null
  | some e => e.toJson

def argsToJson : List (Option Expr) → List Json
  | [] => []
  | none :: args => .null :: argsToJson args
  | some e :: args => e.toJson :: argsToJson args

def exprsToJson : List Expr → List Json
  | [] => []
  | e :: es => e.toJson :: exprsToJson es

def branchesToJson : List (Expr × Expr) → List Json
  | [] => []
  | (condition, result) :: branches =>
    .obj [("condition", condition.toJson), ("result", result.toJson)] :: branchesToJson branches

def stmtsToJson : List Stmt → List Json
  | [] => []
  | stmt :: stmts => stmt.toJson :: stmtsToJson stmts

def Stmt.toJson : Stmt → Json
  | .expr e => ofVariant "Expr" e.toJson
  | .var head init =>
    ofVariant "Var"
      (.obj [("id", Json.ofUInt32 head.id.val), ("name", .str head.name), ("ty", head.ty.toJson),
        ("mutable", .bool head.mutable), ("init", optionToJson init), ("span", head.span.toJson),
        ("origin", .str head.origin.name),
        ("annotations", Json.ofList AnnotationUse.toJson head.annotations)])
  | .decl d => ofVariant "Decl" d.toJson

def paramsToJson : List Param → List Json
  | [] => []
  | ⟨head, default⟩ :: params =>
    .obj [("id", Json.ofUInt32 head.id.val), ("name", .str head.name), ("ty", head.ty.toJson),
      ("default", optionToJson default), ("span", head.span.toJson),
      ("annotations", Json.ofList AnnotationUse.toJson head.annotations)] :: paramsToJson params

def Body.toJson : Body → Json
  | .absent => .null
  | .block stmts => ofVariant "Block" (.obj [("stmts", .arr (stmtsToJson stmts))])
  | .expression e => ofVariant "Expression" e.toJson

def Decl.toJson : Decl → Json
  | .classDecl head info members =>
    head.wrap (ofVariant "Class"
      (.obj [("name", .str info.name), ("kind", .str info.kind.name),
        ("is_companion", .bool info.isCompanion),
        ("structural", Json.ofNullable (fun k => .str (StructuralKind.name k)) info.structural),
        ("visibility", .str info.visibility.name), ("modality", .str info.modality.name),
        ("type_params", Json.ofNames info.typeParams), ("members", .arr (declsToJson members))]))
  | .function head info params body =>
    head.wrap (ofVariant "Function"
      (.obj [("name", .str info.name), ("kind", info.kind.toJson),
        ("visibility", .str info.visibility.name), ("modality", .str info.modality.name),
        ("type_params", Json.ofNames info.typeParams), ("params", .arr (paramsToJson params)),
        ("return_ty", info.returnTy.toJson), ("is_suspend", .bool info.isSuspend),
        ("is_expect", .bool info.isExpect), ("body", body.toJson)]))
  | .property head info backing getter setter =>
    head.wrap (ofVariant "Property"
      (.obj [("name", .str info.name), ("mutable", .bool info.mutable),
        ("visibility", .str info.visibility.name), ("modality", .str info.modality.name),
        ("getter", accessorToJson getter), ("setter", accessorToJson setter),
        ("backing_field", accessorToJson backing)]))
  | .field head info init =>
    head.wrap (ofVariant "Field"
      (.obj [("name", .str info.name), ("ty", info.ty.toJson), ("is_static", .bool info.isStatic),
        ("is_external", .bool info.isExternal), ("is_final", .bool info.isFinal),
        ("initializer", optionToJson init)]))
  | .initializer head body =>
    head.wrap (ofVariant "Initializer"
      (.obj [("body", .obj [("stmts", .arr (stmtsToJson body))])]))

def accessorToJson : Option Decl → Json
  | none => .null
  | some d => d.toJson

def declsToJson : List Decl → List Json
  | [] => []
  | d :: ds => d.toJson :: declsToJson ds

end

namespace SourceFile

def toJson (f : SourceFile) : Json :=
  .obj [("id", Json.ofUInt32 f.id.val), ("path", .str f.path), ("package", .str f.package),
    ("declarations", .arr (declsToJson f.declarations))]

end SourceFile

namespace Module

def toJson (m : Module) : Json :=
  .obj [("name", .str m.name), ("files", Json.ofList SourceFile.toJson m.files),
    ("external", Json.ofList SourceFile.toJson m.external), ("ids", m.ids.toJson)]

end Module

end TraceWeave

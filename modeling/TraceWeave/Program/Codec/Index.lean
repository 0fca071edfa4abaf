import TraceWeave.Program.Codec.Encode
import TraceWeave.Program.Symbols

/-! # JSON form of the index

The symbols of a module, each with the declarations around it.

`SymbolTable.toJson` writes the table, `SymbolTable.symbolJson` one symbol of it.
-/

namespace TraceWeave

open Json (ofVariant ofNullable)

def DeclId.toJson (id : DeclId) : Json := Json.ofUInt32 id.val

namespace ParamSymbol

def toJson (p : ParamSymbol) : Json :=
  .obj [("id", Json.ofUInt32 p.head.id.val), ("name", .str p.head.name), ("ty", p.head.ty.toJson),
    ("span", .str p.head.span.text), ("annotations", .int p.head.annotations.length),
    ("has_default", .bool p.hasDefault)]

end ParamSymbol

namespace VarHead

def summaryJson (v : VarHead) : Json :=
  .obj [("id", Json.ofUInt32 v.id.val), ("name", .str v.name), ("ty", v.ty.toJson),
    ("mutable", .bool v.mutable), ("span", .str v.span.text),
    ("annotations", .int v.annotations.length)]

end VarHead

namespace SymbolKind

def toJson : SymbolKind → Json
  | .classSymbol i => ofVariant "Class" (.obj [("kind", .str i.head.kind.name),
      ("is_companion", .bool i.head.isCompanion),
      ("structural", ofNullable (fun k => .str (StructuralKind.name k)) i.head.structural),
      ("visibility", .str i.head.visibility.name), ("modality", .str i.head.modality.name),
      ("type_params", Json.ofNames i.head.typeParams),
      ("members", Json.ofList DeclId.toJson i.members),
      ("primary_constructor", ofNullable DeclId.toJson i.primaryConstructor)])
  | .function i => ofVariant "Function" (.obj [("kind", i.head.kind.toJson),
      ("visibility", .str i.head.visibility.name), ("modality", .str i.head.modality.name),
      ("type_params", Json.ofNames i.head.typeParams),
      ("params", Json.ofList ParamSymbol.toJson i.params),
      ("return_ty", i.head.returnTy.toJson), ("is_suspend", .bool i.head.isSuspend),
      ("is_expect", .bool i.head.isExpect), ("has_body", .bool i.hasBody),
      ("locals", Json.ofList VarHead.summaryJson i.locals),
      ("is_constructor", .bool i.head.kind.isConstructor)])
  | .property i => ofVariant "Property" (.obj [("mutable", .bool i.head.mutable),
      ("visibility", .str i.head.visibility.name), ("modality", .str i.head.modality.name),
      ("getter", ofNullable DeclId.toJson i.getter), ("setter", ofNullable DeclId.toJson i.setter),
      ("backing_field", ofNullable DeclId.toJson i.backing)])
  | .field i => ofVariant "Field" (.obj [("ty", i.ty.toJson), ("is_static", .bool i.isStatic),
      ("is_external", .bool i.isExternal), ("is_final", .bool i.isFinal)])
  | .initializer => .str "Initializer"

end SymbolKind

namespace SymbolTable

def symbolJson (t : SymbolTable) (s : Symbol) : Json :=
  .obj [("id", s.id.toJson), ("parent", ofNullable DeclId.toJson s.parent),
    ("file", Json.ofUInt32 s.file.val), ("fq_name", .str s.fqName), ("name", .str s.name),
    ("span", .str s.head.span.text), ("origin", .str s.head.origin.name),
    ("external", .bool s.external),
    ("annotations", Json.ofList AnnotationUse.toJson s.head.annotations),
    ("kind", s.kind.toJson),
    ("ancestors", Json.ofList (fun a => (Symbol.id a).toJson) (t.ancestors s.id)),
    ("enclosing_class", ofNullable DeclId.toJson (t.enclosingClass? s.id))]

/-- The symbols of a module, sorted by identity. -/
def toJson (t : SymbolTable) : Json :=
  .obj [("module", .str t.moduleName), ("len", .int t.entries.length),
    ("is_empty", .bool t.entries.isEmpty), ("symbols", Json.ofList t.symbolJson t.entries)]

end SymbolTable

end TraceWeave

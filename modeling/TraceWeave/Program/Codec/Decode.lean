import TraceWeave.Program.Codec.Leaf

/-! # Reading programs from JSON

The readers recurse on a bound for the nesting of the value, which the outer functions take from
the value itself. Unknown fields are ignored; a field with a default may be missing.

`Module.ofJson?`, `SourceFile.ofJson?`, `Decl.ofJson?` and `Expr.ofJson?` read a whole value;
`readDecl?`, `readBody?`, `readStmt?` and `readExpr?` read within a bound.
-/

namespace TraceWeave

open Json (required withDefault record? variant? data? list? nullable?)

/-- The statements of a block. -/
def readBlock? (readStmt : Json → Option Stmt) (j : Json) : Option (List Stmt) := do
  let fields ← record? ["stmts"] j
  required fields "stmts" (list? readStmt)

/-- The head of a declaration, and the JSON form of its kind. -/
def readDeclHead? (j : Json) : Option (DeclHead × Json) := do
  let fields ← record? ["id", "span", "origin", "annotations", "kind"] j
  let head : DeclHead := {
    id := ⟨← required fields "id" Json.uint32?⟩
    span := ← required fields "span" Span.ofJson?
    origin := ← withDefault fields "origin" .source Origin.ofJson?
    annotations := ← withDefault fields "annotations" [] (list? AnnotationUse.ofJson?) }
  some (head, ← required fields "kind" some)

section

variable (format : Json.Format)

mutual

/-- Reads an expression of at most `fuel` nested parts. -/
def readExpr? : Nat → Json → Option Expr
  | 0, _ => none
  | fuel + 1, j => do
    let fields ← record? ["span", "ty", "kind"] j
    let site : Site := {
      span := ← required fields "span" Span.ofJson?
      ty := ← required fields "ty" Ty.ofJson? }
    required fields "kind" (readExprKind? fuel site)

/-- Reads the kind of an expression that stands at `site`. -/
def readExprKind? : Nat → Site → Json → Option Expr
  | 0, _, _ => none
  | fuel + 1, site, j => do
    let (name, data) ← variant? j
    match name with
    | "Const" => (data? Const.ofJson? data).map (.const site)
    | "GetVar" => (data? Json.uint32? data).map fun n => .getVar site ⟨n⟩
    | "SetVar" =>
      let fields ← data? (record? ["var", "value"]) data
      some (.setVar site ⟨← required fields "var" Json.uint32?⟩
        (← required fields "value" (readExpr? fuel)))
    | "Call" =>
      let fields ← data? (record? ["callee", "receiver", "type_args", "args"]) data
      some (.call site ⟨← required fields "callee" Json.uint32?⟩
        (← withDefault fields "receiver" none (nullable? (readExpr? fuel)))
        (← withDefault fields "type_args" [] (list? Ty.ofJson?))
        (← withDefault fields "args" [] (list? (nullable? (readExpr? fuel)))))
    | "FunctionReference" => (data? Json.uint32? data).map fun n => .functionRef site ⟨n⟩
    | "PropertyReference" => (data? Json.uint32? data).map fun n => .propertyRef site ⟨n⟩
    | "Block" => (data? (readBlock? (readStmt? fuel)) data).map (.block site)
    | "ReturnableBlock" =>
      let fields ← data? (record? ["id", "block"]) data
      some (.returnable site ⟨← required fields "id" Json.uint32?⟩
        (← required fields "block" (readBlock? (readStmt? fuel))))
    | "Return" =>
      let fields ← data? (record? ["target", "value"]) data
      some (.ret site (← required fields "target" ReturnTarget.ofJson?)
        (← required fields "value" (readExpr? fuel)))
    | "When" =>
      let fields ← data? (record? ["branches", "otherwise"]) data
      some (.when site (← required fields "branches" (list? (readBranch? fuel)))
        (← withDefault fields "otherwise" none (nullable? (readExpr? fuel))))
    | "While" =>
      let fields ← data? (record? ["condition", "body"]) data
      some (.loop site (← required fields "condition" (readExpr? fuel))
        (← required fields "body" (readExpr? fuel)))
    | "Binary" =>
      let fields ← data? (record? ["op", "lhs", "rhs"]) data
      some (.binary site (← required fields "op" BinOp.ofJson?)
        (← required fields "lhs" (readExpr? fuel)) (← required fields "rhs" (readExpr? fuel)))
    | "Not" => (data? (readExpr? fuel) data).map (.not site)
    | "StringConcat" => (data? (list? (readExpr? fuel)) data).map (.concat site)
    | "Lambda" => (data? (readDecl? fuel) data).map (.lambda site)
    | "Descriptor" => (data? DescriptorRef.ofJson? data).map (.descriptor site)
    | "CaptureFrame" => (data? FrameCapture.ofJson? data).map (.captureFrame site)
    | _ => none

/-- Reads a condition with its result. -/
def readBranch? : Nat → Json → Option (Expr × Expr)
  | 0, _ => none
  | fuel + 1, j => do
    let fields ← record? ["condition", "result"] j
    some (← required fields "condition" (readExpr? fuel),
      ← required fields "result" (readExpr? fuel))

/-- Reads a statement of at most `fuel` nested parts. -/
def readStmt? : Nat → Json → Option Stmt
  | 0, _ => none
  | fuel + 1, j => do
    let (name, data) ← variant? j
    match name with
    | "Expr" => (data? (readExpr? fuel) data).map .expr
    | "Var" =>
      let fields ← data?
        (record? ["id", "name", "ty", "mutable", "init", "span", "origin", "annotations"]) data
      let head : VarHead := {
        id := ⟨← required fields "id" Json.uint32?⟩
        name := ← required fields "name" Json.str?
        ty := ← required fields "ty" Ty.ofJson?
        mutable := ← withDefault fields "mutable" false Json.bool?
        span := ← required fields "span" Span.ofJson?
        origin := ← withDefault fields "origin" .source Origin.ofJson?
        annotations := ← withDefault fields "annotations" [] (list? AnnotationUse.ofJson?) }
      some (.var head (← withDefault fields "init" none (nullable? (readExpr? fuel))))
    | "Decl" => (data? (readDecl? fuel) data).map .decl
    | _ => none

/-- Reads a parameter of at most `fuel` nested parts. -/
def readParam? : Nat → Json → Option Param
  | 0, _ => none
  | fuel + 1, j => do
    let fields ← record? ["id", "name", "ty", "default", "span", "annotations"] j
    let head : ParamHead := {
      id := ⟨← required fields "id" Json.uint32?⟩
      name := ← required fields "name" Json.str?
      ty := ← required fields "ty" Ty.ofJson?
      span := ← required fields "span" Span.ofJson?
      annotations := ← withDefault fields "annotations" [] (list? AnnotationUse.ofJson?) }
    some ⟨head, ← withDefault fields "default" none (nullable? (readExpr? fuel))⟩

/-- Reads the code of a function. -/
def readBody? : Nat → Json → Option Body
  | 0, _ => none
  | fuel + 1, j =>
    match j with
    | .null => some .absent
    | j => do
      let (name, data) ← variant? j
      match name with
      | "Block" => (data? (readBlock? (readStmt? fuel)) data).map .block
      | "Expression" => (data? (readExpr? fuel) data).map .expression
      | _ => none

/-- Reads a declaration of at most `fuel` nested parts. -/
def readDecl? : Nat → Json → Option Decl
  | 0, _ => none
  | fuel + 1, j => do
    let (head, kind) ← readDeclHead? j
    let (name, data) ← variant? kind
    match name with
    | "Class" =>
      let fields ← data? (record? ["name", "kind", "is_companion", "structural", "visibility",
        "modality", "type_params", "members"]) data
      let info : ClassHead := {
        name := ← required fields "name" Json.str?
        kind := ← withDefault fields "kind" .plain ClassKind.ofJson?
        isCompanion := ← withDefault fields "is_companion" false Json.bool?
        structural := ← withDefault fields "structural" none (nullable? StructuralKind.ofJson?)
        visibility := ← withDefault fields "visibility" .isPublic Visibility.ofJson?
        modality := ← withDefault fields "modality" .isFinal Modality.ofJson?
        typeParams := ← withDefault fields "type_params" [] (list? Json.str?) }
      some (.classDecl head info (← withDefault fields "members" [] (list? (readDecl? fuel))))
    | "Function" =>
      let fields ← data? (record? ["name", "kind", "visibility", "modality", "type_params",
        "params", "return_ty", "is_suspend", "is_expect", "body"]) data
      let info : FunctionHead := {
        name := ← required fields "name" Json.str?
        kind := ← withDefault fields "kind" .plain (FunctionKind.ofJson? format)
        visibility := ← withDefault fields "visibility" .isPublic Visibility.ofJson?
        modality := ← withDefault fields "modality" .isFinal Modality.ofJson?
        typeParams := ← withDefault fields "type_params" [] (list? Json.str?)
        returnTy := ← required fields "return_ty" Ty.ofJson?
        isSuspend := ← withDefault fields "is_suspend" false Json.bool?
        isExpect := ← withDefault fields "is_expect" false Json.bool? }
      some (.function head info (← withDefault fields "params" [] (list? (readParam? fuel)))
        (← withDefault fields "body" .absent (readBody? fuel)))
    | "Property" =>
      let fields ← data? (record? ["name", "mutable", "visibility", "modality", "getter", "setter",
        "backing_field"]) data
      let info : PropertyHead := {
        name := ← required fields "name" Json.str?
        mutable := ← withDefault fields "mutable" false Json.bool?
        visibility := ← withDefault fields "visibility" .isPublic Visibility.ofJson?
        modality := ← withDefault fields "modality" .isFinal Modality.ofJson? }
      let getter ← withDefault fields "getter" none (nullable? (readDecl? fuel))
      let setter ← withDefault fields "setter" none (nullable? (readDecl? fuel))
      let backing ← withDefault fields "backing_field" none (nullable? (readDecl? fuel))
      some (.property head info backing getter setter)
    | "Field" =>
      let fields ← data?
        (record? ["name", "ty", "is_static", "is_external", "is_final", "initializer"]) data
      let info : FieldHead := {
        name := ← required fields "name" Json.str?
        ty := ← required fields "ty" Ty.ofJson?
        isStatic := ← withDefault fields "is_static" false Json.bool?
        isExternal := ← withDefault fields "is_external" false Json.bool?
        isFinal := ← withDefault fields "is_final" false Json.bool? }
      some (.field head info (← withDefault fields "initializer" none (nullable? (readExpr? fuel))))
    | "Initializer" =>
      let fields ← data? (record? ["body"]) data
      some (.initializer head (← required fields "body" (readBlock? (readStmt? fuel))))
    | _ => none

end

end

namespace Expr

def ofJson? (format : Json.Format) (j : Json) : Option Expr := readExpr? format (j.depth + 1) j

end Expr

namespace Block

def ofJson? (format : Json.Format) (j : Json) : Option (List Stmt) :=
  readBlock? (readStmt? format (j.depth + 1)) j

end Block

namespace Decl

def ofJson? (format : Json.Format) (j : Json) : Option Decl := readDecl? format (j.depth + 1) j

end Decl

namespace SourceFile

def ofJson? (format : Json.Format) (j : Json) : Option SourceFile := do
  let fields ← record? ["id", "path", "package", "declarations"] j
  some {
    id := ⟨← required fields "id" Json.uint32?⟩
    path := ← required fields "path" Json.str?
    package := ← withDefault fields "package" "" Json.str?
    declarations := ← withDefault fields "declarations" [] (list? (Decl.ofJson? format)) }

end SourceFile

namespace Module

def ofJson? (format : Json.Format) (j : Json) : Option Module := do
  let fields ← record? ["name", "files", "external", "ids"] j
  some {
    name := ← required fields "name" Json.str?
    files := ← withDefault fields "files" [] (list? (SourceFile.ofJson? format))
    external := ← withDefault fields "external" [] (list? (SourceFile.ofJson? format))
    ids := ← withDefault fields "ids" {} IdAllocator.ofJson? }

end Module

end TraceWeave

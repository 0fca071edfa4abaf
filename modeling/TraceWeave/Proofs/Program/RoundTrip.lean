import TraceWeave.Program.Codec.Decode
import TraceWeave.Program.Codec.Encode
import TraceWeave.Proofs.Program.Encoding

/-! # Programs survive their JSON form

A reader of some fuel takes every value that is nested less deeply. So the proof goes by the fuel:
if all readers with less fuel give back what was written, so do all readers with one unit more,
each by one look at the value in front of it.

`ReadsBack` is what is proved by induction on the fuel (`ReadsBack.all`), `Module.roundTrip` the
result for modules, and `Module.roundTrip_sparse` a module that was read from JSON with gaps.
-/

namespace TraceWeave

open Json (data? list? nullable? ofVariant uint32? str? depth_lt_of_field depth_lt_of_variant
  depth_lt_of_data_field record?_obj data?_obj uint32?_ofUInt32 str?_str bool?_bool
  variant?_ofVariant bind_of_read required_of_lookup withDefault_of_lookup)

/-! ## What is written for lists and for what may be absent -/

def branchToJson (branch : Expr × Expr) : Json :=
  .obj [("condition", branch.1.toJson), ("result", branch.2.toJson)]

def Param.toJson (p : Param) : Json :=
  .obj [("id", Json.ofUInt32 p.head.id.val), ("name", .str p.head.name),
    ("ty", p.head.ty.toJson), ("default", optionToJson p.default), ("span", p.head.span.toJson),
    ("annotations", Json.ofList AnnotationUse.toJson p.head.annotations)]

theorem argsToJson_eq_map : ∀ args : List (Option Expr), argsToJson args = args.map optionToJson
  | [] => rfl
  | none :: args => by rw [argsToJson, argsToJson_eq_map args, List.map_cons, optionToJson]
  | some e :: args => by rw [argsToJson, argsToJson_eq_map args, List.map_cons, optionToJson]

theorem exprsToJson_eq_map : ∀ es : List Expr, exprsToJson es = es.map Expr.toJson
  | [] => rfl
  | e :: es => by rw [exprsToJson, exprsToJson_eq_map es, List.map_cons]

theorem branchesToJson_eq_map :
    ∀ branches : List (Expr × Expr), branchesToJson branches = branches.map branchToJson
  | [] => rfl
  | (_, _) :: branches => by
    rw [branchesToJson, branchesToJson_eq_map branches, List.map_cons, branchToJson]

theorem stmtsToJson_eq_map : ∀ stmts : List Stmt, stmtsToJson stmts = stmts.map Stmt.toJson
  | [] => rfl
  | stmt :: stmts => by rw [stmtsToJson, stmtsToJson_eq_map stmts, List.map_cons]

theorem paramsToJson_eq_map : ∀ params : List Param, paramsToJson params = params.map Param.toJson
  | [] => rfl
  | ⟨_, _⟩ :: params => by
    rw [paramsToJson, paramsToJson_eq_map params, List.map_cons, Param.toJson]

theorem declsToJson_eq_map : ∀ ds : List Decl, declsToJson ds = ds.map Decl.toJson
  | [] => rfl
  | d :: ds => by rw [declsToJson, declsToJson_eq_map ds, List.map_cons]

/-- The JSON form of an expression without its site. -/
def Expr.kindToJson (e : Expr) : Json := (e.toJson.field? "kind").getD .null

theorem Expr.toJson_eq_wrap (e : Expr) : e.toJson = e.site.wrap e.kindToJson := by
  cases e <;> rfl

theorem Expr.toJson_ne_null (e : Expr) : e.toJson ≠ .null := by
  rw [e.toJson_eq_wrap]
  exact nofun

theorem Decl.toJson_ne_null (d : Decl) : d.toJson ≠ .null := by
  cases d <;> exact nofun

/-! ## The readers, one look at a time

Each variant is read from an object whose fields are read, whatever they are. The proofs go field
by field in the order of the reader; each field is found by evaluating the lookup of its name. -/

-- The equations of the readers are worked out here, once for all lemmas below.
attribute [grind =] readExpr? readExprKind? readBranch? readStmt? readParam? readBody? readDecl?

theorem readBlock?_obj {readStmt : Json → Option Stmt} {stmts : Json} {body : List Stmt}
    (h : list? readStmt stmts = some body) :
    readBlock? readStmt (.obj [("stmts", stmts)]) = some body :=
  bind_of_read (record?_obj (by simp)) (required_of_lookup rfl h)

theorem readDeclHead?_obj {head : DeclHead} {id span annotations kind : Json}
    (hid : uint32? id = some head.id.val) (hspan : Span.ofJson? span = some head.span)
    (hannotations : list? AnnotationUse.ofJson? annotations = some head.annotations) :
    readDeclHead? (.obj [("id", id), ("span", span), ("origin", .str head.origin.name),
      ("annotations", annotations), ("kind", kind)]) = some (head, kind) :=
  bind_of_read (record?_obj (by simp)) <|
    bind_of_read (required_of_lookup rfl hid) <|
    bind_of_read (required_of_lookup rfl hspan) <|
    bind_of_read (withDefault_of_lookup rfl (Origin.ofJson?_name _)) <|
    bind_of_read (withDefault_of_lookup rfl hannotations) <|
    bind_of_read (required_of_lookup rfl rfl) rfl

theorem readDeclHead?_wrap (head : DeclHead) (kind : Json) :
    readDeclHead? (head.wrap kind) = some (head, kind) :=
  readDeclHead?_obj (uint32?_ofUInt32 _) (Span.ofJson?_toJson _) (AnnotationUse.list?_toJson _)

section

variable {format : Json.Format} {fuel : Nat} {site : Site}

theorem readExpr?_obj {e : Expr} {span ty kind : Json}
    (hspan : Span.ofJson? span = some site.span) (hty : Ty.ofJson? ty = some site.ty)
    (hkind : readExprKind? format fuel site kind = some e) :
    readExpr? format (fuel + 1) (.obj [("span", span), ("ty", ty), ("kind", kind)]) = some e := by
  rw [readExpr?]
  exact bind_of_read (record?_obj (by simp)) <|
    bind_of_read (required_of_lookup rfl hspan) <|
    bind_of_read (required_of_lookup rfl hty) <|
    required_of_lookup rfl hkind

theorem readExprKind?_getVar {var : VarId} {data : Json} (h : uint32? data = some var.val) :
    readExprKind? format (fuel + 1) site (ofVariant "GetVar" data) = some (.getVar site var) := by
  rw [readExprKind?]
  exact bind_of_read (variant?_ofVariant _ _) (congrArg (Option.map _) h)

theorem readExprKind?_functionRef {decl : DeclId} {data : Json}
    (h : uint32? data = some decl.val) :
    readExprKind? format (fuel + 1) site (ofVariant "FunctionReference" data) =
      some (.functionRef site decl) := by
  rw [readExprKind?]
  exact bind_of_read (variant?_ofVariant _ _) (congrArg (Option.map _) h)

theorem readExprKind?_propertyRef {decl : DeclId} {data : Json}
    (h : uint32? data = some decl.val) :
    readExprKind? format (fuel + 1) site (ofVariant "PropertyReference" data) =
      some (.propertyRef site decl) := by
  rw [readExprKind?]
  exact bind_of_read (variant?_ofVariant _ _) (congrArg (Option.map _) h)

theorem readExprKind?_descriptor {ref : DescriptorRef} {data : Json}
    (h : DescriptorRef.ofJson? data = some ref) :
    readExprKind? format (fuel + 1) site (ofVariant "Descriptor" data) =
      some (.descriptor site ref) := by
  rw [readExprKind?]
  exact bind_of_read (variant?_ofVariant _ _) (congrArg (Option.map _) h)

theorem readExprKind?_captureFrame {capture : FrameCapture} {data : Json}
    (h : FrameCapture.ofJson? data = some capture) :
    readExprKind? format (fuel + 1) site (ofVariant "CaptureFrame" data) =
      some (.captureFrame site capture) := by
  rw [readExprKind?]
  exact bind_of_read (variant?_ofVariant _ _) (congrArg (Option.map _) h)

theorem readExprKind?_setVar {id : VarId} {e : Expr} {var value : Json}
    (hvar : uint32? var = some id.val) (hvalue : readExpr? format fuel value = some e) :
    readExprKind? format (fuel + 1) site
      (ofVariant "SetVar" (.obj [("var", var), ("value", value)])) = some (.setVar site id e) := by
  rw [readExprKind?]
  exact bind_of_read (variant?_ofVariant _ _) <|
    bind_of_read (data?_obj (by simp)) <|
    bind_of_read (required_of_lookup rfl hvar) <|
    bind_of_read (required_of_lookup rfl hvalue) rfl

theorem readExprKind?_call {id : DeclId} {object : Option Expr} {tys : List Ty}
    {given : List (Option Expr)} {callee receiver typeArgs args : Json}
    (hcallee : uint32? callee = some id.val)
    (hreceiver : nullable? (readExpr? format fuel) receiver = some object)
    (htypeArgs : list? Ty.ofJson? typeArgs = some tys)
    (hargs : list? (nullable? (readExpr? format fuel)) args = some given) :
    readExprKind? format (fuel + 1) site
      (ofVariant "Call" (.obj [("callee", callee), ("receiver", receiver),
        ("type_args", typeArgs), ("args", args)])) = some (.call site id object tys given) := by
  rw [readExprKind?]
  exact bind_of_read (variant?_ofVariant _ _) <|
    bind_of_read (data?_obj (by simp)) <|
    bind_of_read (required_of_lookup rfl hcallee) <|
    bind_of_read (withDefault_of_lookup rfl hreceiver) <|
    bind_of_read (withDefault_of_lookup rfl htypeArgs) <|
    bind_of_read (withDefault_of_lookup rfl hargs) rfl

theorem readExprKind?_returnable {blockId : BlockId} {stmts : List Stmt} {id block : Json}
    (hid : uint32? id = some blockId.val)
    (hblock : readBlock? (readStmt? format fuel) block = some stmts) :
    readExprKind? format (fuel + 1) site
      (ofVariant "ReturnableBlock" (.obj [("id", id), ("block", block)])) =
      some (.returnable site blockId stmts) := by
  rw [readExprKind?]
  exact bind_of_read (variant?_ofVariant _ _) <|
    bind_of_read (data?_obj (by simp)) <|
    bind_of_read (required_of_lookup rfl hid) <|
    bind_of_read (required_of_lookup rfl hblock) rfl

theorem readExprKind?_ret {goal : ReturnTarget} {e : Expr} {target value : Json}
    (htarget : ReturnTarget.ofJson? target = some goal)
    (hvalue : readExpr? format fuel value = some e) :
    readExprKind? format (fuel + 1) site
      (ofVariant "Return" (.obj [("target", target), ("value", value)])) =
      some (.ret site goal e) := by
  rw [readExprKind?]
  exact bind_of_read (variant?_ofVariant _ _) <|
    bind_of_read (data?_obj (by simp)) <|
    bind_of_read (required_of_lookup rfl htarget) <|
    bind_of_read (required_of_lookup rfl hvalue) rfl

theorem readStmt?_var {head : VarHead} {value : Option Expr} {id ty init span annotations : Json}
    (hid : uint32? id = some head.id.val) (hty : Ty.ofJson? ty = some head.ty)
    (hinit : nullable? (readExpr? format fuel) init = some value)
    (hspan : Span.ofJson? span = some head.span)
    (hannotations : list? AnnotationUse.ofJson? annotations = some head.annotations) :
    readStmt? format (fuel + 1)
      (ofVariant "Var" (.obj [("id", id), ("name", .str head.name), ("ty", ty),
        ("mutable", .bool head.mutable), ("init", init), ("span", span),
        ("origin", .str head.origin.name), ("annotations", annotations)])) =
      some (.var head value) := by
  rw [readStmt?]
  exact bind_of_read (variant?_ofVariant _ _) <|
    bind_of_read (data?_obj (by simp)) <|
    bind_of_read (required_of_lookup rfl hid) <|
    bind_of_read (required_of_lookup rfl (str?_str _)) <|
    bind_of_read (required_of_lookup rfl hty) <|
    bind_of_read (withDefault_of_lookup rfl (bool?_bool _)) <|
    bind_of_read (required_of_lookup rfl hspan) <|
    bind_of_read (withDefault_of_lookup rfl (Origin.ofJson?_name _)) <|
    bind_of_read (withDefault_of_lookup rfl hannotations) <|
    bind_of_read (withDefault_of_lookup rfl hinit) rfl

theorem readParam?_obj {head : ParamHead} {value : Option Expr}
    {id ty default span annotations : Json}
    (hid : uint32? id = some head.id.val) (hty : Ty.ofJson? ty = some head.ty)
    (hdefault : nullable? (readExpr? format fuel) default = some value)
    (hspan : Span.ofJson? span = some head.span)
    (hannotations : list? AnnotationUse.ofJson? annotations = some head.annotations) :
    readParam? format (fuel + 1) (.obj [("id", id), ("name", .str head.name), ("ty", ty),
      ("default", default), ("span", span), ("annotations", annotations)]) =
      some ⟨head, value⟩ := by
  rw [readParam?]
  exact bind_of_read (record?_obj (by simp)) <|
    bind_of_read (required_of_lookup rfl hid) <|
    bind_of_read (required_of_lookup rfl (str?_str _)) <|
    bind_of_read (required_of_lookup rfl hty) <|
    bind_of_read (required_of_lookup rfl hspan) <|
    bind_of_read (withDefault_of_lookup rfl hannotations) <|
    bind_of_read (withDefault_of_lookup rfl hdefault) rfl

theorem readDecl?_class {head : DeclHead} {info : ClassHead} {inner : List Decl}
    {structural typeParams members : Json}
    (hstructural : nullable? StructuralKind.ofJson? structural = some info.structural)
    (htypeParams : list? str? typeParams = some info.typeParams)
    (hmembers : list? (readDecl? format fuel) members = some inner) :
    readDecl? format (fuel + 1) (head.wrap (ofVariant "Class"
      (.obj [("name", .str info.name), ("kind", .str info.kind.name),
        ("is_companion", .bool info.isCompanion), ("structural", structural),
        ("visibility", .str info.visibility.name), ("modality", .str info.modality.name),
        ("type_params", typeParams), ("members", members)]))) =
      some (.classDecl head info inner) := by
  rw [readDecl?]
  exact bind_of_read (readDeclHead?_wrap _ _) <|
    bind_of_read (variant?_ofVariant _ _) <|
    bind_of_read (data?_obj (by simp)) <|
    bind_of_read (required_of_lookup rfl (str?_str _)) <|
    bind_of_read (withDefault_of_lookup rfl (ClassKind.ofJson?_name _)) <|
    bind_of_read (withDefault_of_lookup rfl (bool?_bool _)) <|
    bind_of_read (withDefault_of_lookup rfl hstructural) <|
    bind_of_read (withDefault_of_lookup rfl (Visibility.ofJson?_name _)) <|
    bind_of_read (withDefault_of_lookup rfl (Modality.ofJson?_name _)) <|
    bind_of_read (withDefault_of_lookup rfl htypeParams) <|
    bind_of_read (withDefault_of_lookup rfl hmembers) rfl

theorem readDecl?_function {head : DeclHead} {info : FunctionHead} {formals : List Param}
    {code : Body} {kind typeParams params returnTy body : Json}
    (hkind : FunctionKind.ofJson? format kind = some info.kind)
    (htypeParams : list? str? typeParams = some info.typeParams)
    (hparams : list? (readParam? format fuel) params = some formals)
    (hreturnTy : Ty.ofJson? returnTy = some info.returnTy)
    (hbody : readBody? format fuel body = some code) :
    readDecl? format (fuel + 1) (head.wrap (ofVariant "Function"
      (.obj [("name", .str info.name), ("kind", kind), ("visibility", .str info.visibility.name),
        ("modality", .str info.modality.name), ("type_params", typeParams), ("params", params),
        ("return_ty", returnTy), ("is_suspend", .bool info.isSuspend),
        ("is_expect", .bool info.isExpect), ("body", body)]))) =
      some (.function head info formals code) := by
  rw [readDecl?]
  exact bind_of_read (readDeclHead?_wrap _ _) <|
    bind_of_read (variant?_ofVariant _ _) <|
    bind_of_read (data?_obj (by simp)) <|
    bind_of_read (required_of_lookup rfl (str?_str _)) <|
    bind_of_read (withDefault_of_lookup rfl hkind) <|
    bind_of_read (withDefault_of_lookup rfl (Visibility.ofJson?_name _)) <|
    bind_of_read (withDefault_of_lookup rfl (Modality.ofJson?_name _)) <|
    bind_of_read (withDefault_of_lookup rfl htypeParams) <|
    bind_of_read (required_of_lookup rfl hreturnTy) <|
    bind_of_read (withDefault_of_lookup rfl (bool?_bool _)) <|
    bind_of_read (withDefault_of_lookup rfl (bool?_bool _)) <|
    bind_of_read (withDefault_of_lookup rfl hparams) <|
    bind_of_read (withDefault_of_lookup rfl hbody) rfl

theorem readDecl?_property {head : DeclHead} {info : PropertyHead}
    {backing? getter? setter? : Option Decl} {getter setter backing : Json}
    (hgetter : nullable? (readDecl? format fuel) getter = some getter?)
    (hsetter : nullable? (readDecl? format fuel) setter = some setter?)
    (hbacking : nullable? (readDecl? format fuel) backing = some backing?) :
    readDecl? format (fuel + 1) (head.wrap (ofVariant "Property"
      (.obj [("name", .str info.name), ("mutable", .bool info.mutable),
        ("visibility", .str info.visibility.name), ("modality", .str info.modality.name),
        ("getter", getter), ("setter", setter), ("backing_field", backing)]))) =
      some (.property head info backing? getter? setter?) := by
  rw [readDecl?]
  exact bind_of_read (readDeclHead?_wrap _ _) <|
    bind_of_read (variant?_ofVariant _ _) <|
    bind_of_read (data?_obj (by simp)) <|
    bind_of_read (required_of_lookup rfl (str?_str _)) <|
    bind_of_read (withDefault_of_lookup rfl (bool?_bool _)) <|
    bind_of_read (withDefault_of_lookup rfl (Visibility.ofJson?_name _)) <|
    bind_of_read (withDefault_of_lookup rfl (Modality.ofJson?_name _)) <|
    bind_of_read (withDefault_of_lookup rfl hgetter) <|
    bind_of_read (withDefault_of_lookup rfl hsetter) <|
    bind_of_read (withDefault_of_lookup rfl hbacking) rfl

theorem readDecl?_field {head : DeclHead} {info : FieldHead} {init? : Option Expr} {ty init : Json}
    (hty : Ty.ofJson? ty = some info.ty)
    (hinit : nullable? (readExpr? format fuel) init = some init?) :
    readDecl? format (fuel + 1) (head.wrap (ofVariant "Field"
      (.obj [("name", .str info.name), ("ty", ty), ("is_static", .bool info.isStatic),
        ("is_external", .bool info.isExternal), ("is_final", .bool info.isFinal),
        ("initializer", init)]))) = some (.field head info init?) := by
  rw [readDecl?]
  exact bind_of_read (readDeclHead?_wrap _ _) <|
    bind_of_read (variant?_ofVariant _ _) <|
    bind_of_read (data?_obj (by simp)) <|
    bind_of_read (required_of_lookup rfl (str?_str _)) <|
    bind_of_read (required_of_lookup rfl hty) <|
    bind_of_read (withDefault_of_lookup rfl (bool?_bool _)) <|
    bind_of_read (withDefault_of_lookup rfl (bool?_bool _)) <|
    bind_of_read (withDefault_of_lookup rfl (bool?_bool _)) <|
    bind_of_read (withDefault_of_lookup rfl hinit) rfl

theorem readDecl?_initializer {head : DeclHead} {stmts : List Stmt} {body : Json}
    (hbody : readBlock? (readStmt? format fuel) body = some stmts) :
    readDecl? format (fuel + 1) (head.wrap (ofVariant "Initializer" (.obj [("body", body)]))) =
      some (.initializer head stmts) := by
  rw [readDecl?]
  exact bind_of_read (readDeclHead?_wrap _ _) <|
    bind_of_read (variant?_ofVariant _ _) <|
    bind_of_read (data?_obj (by simp)) <|
    bind_of_read (required_of_lookup rfl hbody) rfl

end

/-! ## One unit of fuel more -/

/-- Readers with `fuel` give back everything that is written with less nesting. -/
structure ReadsBack (format : Json.Format) (fuel : Nat) : Prop where
  expr : ∀ e : Expr, e.toJson.depth < fuel → readExpr? format fuel e.toJson = some e
  kind : ∀ e : Expr, e.kindToJson.depth < fuel →
    readExprKind? format fuel e.site e.kindToJson = some e
  branch : ∀ b : Expr × Expr, (branchToJson b).depth < fuel →
    readBranch? format fuel (branchToJson b) = some b
  stmt : ∀ stmt : Stmt, stmt.toJson.depth < fuel → readStmt? format fuel stmt.toJson = some stmt
  param : ∀ p : Param, p.toJson.depth < fuel → readParam? format fuel p.toJson = some p
  body : ∀ b : Body, b.toJson.depth < fuel → readBody? format fuel b.toJson = some b
  decl : ∀ d : Decl, d.toJson.depth < fuel → readDecl? format fuel d.toJson = some d

namespace ReadsBack

variable {format : Json.Format} {fuel : Nat}

theorem option (ih : ReadsBack format fuel) :
    ∀ {e? : Option Expr}, (optionToJson e?).depth < fuel →
      nullable? (readExpr? format fuel) (optionToJson e?) = some e?
  | none, _ => rfl
  | some e, h => Json.nullable?_of_read (ih.expr e h) e.toJson_ne_null

theorem accessor (ih : ReadsBack format fuel) :
    ∀ {d? : Option Decl}, (accessorToJson d?).depth < fuel →
      nullable? (readDecl? format fuel) (accessorToJson d?) = some d?
  | none, _ => rfl
  | some d, h => Json.nullable?_of_read (ih.decl d h) d.toJson_ne_null

theorem args (ih : ReadsBack format fuel) {args : List (Option Expr)}
    (h : (Json.arr (argsToJson args)).depth < fuel) :
    list? (nullable? (readExpr? format fuel)) (.arr (argsToJson args)) = some args := by
  rw [argsToJson_eq_map] at h ⊢
  exact Json.list?_of_depth (fun _ => ih.option) h

theorem exprs (ih : ReadsBack format fuel) {es : List Expr}
    (h : (Json.arr (exprsToJson es)).depth < fuel) :
    list? (readExpr? format fuel) (.arr (exprsToJson es)) = some es := by
  rw [exprsToJson_eq_map] at h ⊢
  exact Json.list?_of_depth ih.expr h

theorem branches (ih : ReadsBack format fuel) {branches : List (Expr × Expr)}
    (h : (Json.arr (branchesToJson branches)).depth < fuel) :
    list? (readBranch? format fuel) (.arr (branchesToJson branches)) = some branches := by
  rw [branchesToJson_eq_map] at h ⊢
  exact Json.list?_of_depth ih.branch h

theorem params (ih : ReadsBack format fuel) {params : List Param}
    (h : (Json.arr (paramsToJson params)).depth < fuel) :
    list? (readParam? format fuel) (.arr (paramsToJson params)) = some params := by
  rw [paramsToJson_eq_map] at h ⊢
  exact Json.list?_of_depth ih.param h

theorem decls (ih : ReadsBack format fuel) {ds : List Decl}
    (h : (Json.arr (declsToJson ds)).depth < fuel) :
    list? (readDecl? format fuel) (.arr (declsToJson ds)) = some ds := by
  rw [declsToJson_eq_map] at h ⊢
  exact Json.list?_of_depth ih.decl h

theorem block (ih : ReadsBack format fuel) {stmts : List Stmt}
    (h : (Json.obj [("stmts", .arr (stmtsToJson stmts))]).depth < fuel) :
    readBlock? (readStmt? format fuel) (.obj [("stmts", .arr (stmtsToJson stmts))]) =
      some stmts := by
  have hitems := depth_lt_of_field "stmts" (Nat.le_of_lt h) List.mem_cons_self
  rw [stmtsToJson_eq_map] at hitems ⊢
  exact readBlock?_obj (Json.list?_of_depth ih.stmt hitems)

theorem expr_succ (ih : ReadsBack format fuel) (e : Expr) (h : e.toJson.depth < fuel + 1) :
    readExpr? format (fuel + 1) e.toJson = some e := by
  rw [e.toJson_eq_wrap] at h ⊢
  have hkind := ih.kind e (depth_lt_of_field "kind" (Nat.le_of_lt_succ h) (by simp))
  exact readExpr?_obj (Span.ofJson?_toJson _) (Ty.ofJson?_toJson _) hkind

theorem kind_succ (ih : ReadsBack format fuel) (e : Expr) (h : e.kindToJson.depth < fuel + 1) :
    readExprKind? format (fuel + 1) e.site e.kindToJson = some e := by
  cases e with
  | const s value =>
    rw [readExprKind?]
    have hvalue := Const.ofJson?_toJson value
    exact bind_of_read (variant?_ofVariant _ _) (congrArg (Option.map _) hvalue)
  | getVar s var => exact readExprKind?_getVar (uint32?_ofUInt32 _)
  | setVar s var value =>
    exact readExprKind?_setVar (uint32?_ofUInt32 _)
      (ih.expr value (depth_lt_of_data_field "value" h (by simp)))
  | call s callee receiver typeArgs args =>
    exact readExprKind?_call (uint32?_ofUInt32 _)
      (ih.option (depth_lt_of_data_field "receiver" h (by simp)))
      (Json.list?_ofList Ty.ofJson?_toJson _)
      (ih.args (depth_lt_of_data_field "args" h (by simp)))
  | functionRef s decl => exact readExprKind?_functionRef (uint32?_ofUInt32 _)
  | propertyRef s decl => exact readExprKind?_propertyRef (uint32?_ofUInt32 _)
  | block s stmts =>
    have hstmts := ih.block (depth_lt_of_variant h)
    rw [readExprKind?]
    exact bind_of_read (variant?_ofVariant _ _) (congrArg (Option.map _) hstmts)
  | returnable s id stmts =>
    exact readExprKind?_returnable (uint32?_ofUInt32 _)
      (ih.block (depth_lt_of_data_field "block" h (by simp)))
  | ret s target value =>
    exact readExprKind?_ret (ReturnTarget.ofJson?_toJson _)
      (ih.expr value (depth_lt_of_data_field "value" h (by simp)))
  | «when» s branches otherwise =>
    have hbranches : list? (readBranch? format fuel) (.arr (branchesToJson branches)) =
        some branches := ih.branches (depth_lt_of_data_field "branches" h (by simp))
    have hotherwise : nullable? (readExpr? format fuel) (optionToJson otherwise) =
        some otherwise := ih.option (depth_lt_of_data_field "otherwise" h (by simp))
    rw [readExprKind?]
    exact bind_of_read (variant?_ofVariant _ _) <|
      bind_of_read (data?_obj (by simp)) <|
      bind_of_read (required_of_lookup rfl hbranches) <|
      bind_of_read (withDefault_of_lookup rfl hotherwise) rfl
  | loop s condition body =>
    have hcondition := ih.expr condition (depth_lt_of_data_field "condition" h (by simp))
    have hbody := ih.expr body (depth_lt_of_data_field "body" h (by simp))
    rw [readExprKind?]
    exact bind_of_read (variant?_ofVariant _ _) <|
      bind_of_read (data?_obj (by simp)) <|
      bind_of_read (required_of_lookup rfl hcondition) <|
      bind_of_read (required_of_lookup rfl hbody) rfl
  | binary s op lhs rhs =>
    have hlhs := ih.expr lhs (depth_lt_of_data_field "lhs" h (by simp))
    have hrhs := ih.expr rhs (depth_lt_of_data_field "rhs" h (by simp))
    rw [readExprKind?]
    exact bind_of_read (variant?_ofVariant _ _) <|
      bind_of_read (data?_obj (by simp)) <|
      bind_of_read (required_of_lookup rfl (BinOp.ofJson?_name op)) <|
      bind_of_read (required_of_lookup rfl hlhs) <|
      bind_of_read (required_of_lookup rfl hrhs) rfl
  | not s operand =>
    have hoperand := ih.expr operand (depth_lt_of_variant h)
    rw [readExprKind?]
    exact bind_of_read (variant?_ofVariant _ _) (congrArg (Option.map _) hoperand)
  | concat s parts =>
    have hparts := ih.exprs (depth_lt_of_variant h)
    rw [readExprKind?]
    exact bind_of_read (variant?_ofVariant _ _) (congrArg (Option.map _) hparts)
  | lambda s decl =>
    have hdecl := ih.decl decl (depth_lt_of_variant h)
    rw [readExprKind?]
    exact bind_of_read (variant?_ofVariant _ _) (congrArg (Option.map _) hdecl)
  | descriptor s ref => exact readExprKind?_descriptor (DescriptorRef.ofJson?_toJson _)
  | captureFrame s capture => exact readExprKind?_captureFrame (FrameCapture.ofJson?_toJson _)

theorem branch_succ (ih : ReadsBack format fuel) (b : Expr × Expr)
    (h : (branchToJson b).depth < fuel + 1) :
    readBranch? format (fuel + 1) (branchToJson b) = some b := by
  have hcondition := ih.expr b.1 (depth_lt_of_field "condition" (Nat.le_of_lt_succ h) (by simp))
  have hresult := ih.expr b.2 (depth_lt_of_field "result" (Nat.le_of_lt_succ h) (by simp))
  rw [readBranch?]
  exact bind_of_read (record?_obj (by simp)) <|
    bind_of_read (required_of_lookup rfl hcondition) <|
    bind_of_read (required_of_lookup rfl hresult) rfl

theorem stmt_succ (ih : ReadsBack format fuel) (stmt : Stmt) (h : stmt.toJson.depth < fuel + 1) :
    readStmt? format (fuel + 1) stmt.toJson = some stmt := by
  cases stmt with
  | expr e =>
    have he := ih.expr e (depth_lt_of_variant h)
    rw [readStmt?]
    exact bind_of_read (variant?_ofVariant _ _) (congrArg (Option.map _) he)
  | var head init =>
    exact readStmt?_var (uint32?_ofUInt32 _) (Ty.ofJson?_toJson _)
      (ih.option (depth_lt_of_data_field "init" h (by simp))) (Span.ofJson?_toJson _)
      (AnnotationUse.list?_toJson _)
  | decl d =>
    have hd := ih.decl d (depth_lt_of_variant h)
    rw [readStmt?]
    exact bind_of_read (variant?_ofVariant _ _) (congrArg (Option.map _) hd)

theorem param_succ (ih : ReadsBack format fuel) (p : Param) (h : p.toJson.depth < fuel + 1) :
    readParam? format (fuel + 1) p.toJson = some p := by
  obtain ⟨head, default⟩ := p
  exact readParam?_obj (uint32?_ofUInt32 _) (Ty.ofJson?_toJson _)
    (ih.option (depth_lt_of_field "default" (Nat.le_of_lt_succ h) (by simp)))
    (Span.ofJson?_toJson _) (AnnotationUse.list?_toJson _)

theorem body_succ (ih : ReadsBack format fuel) (b : Body) (h : b.toJson.depth < fuel + 1) :
    readBody? format (fuel + 1) b.toJson = some b := by
  cases b with
  | absent => rfl
  | block stmts =>
    have hstmts := ih.block (depth_lt_of_variant h)
    change (data? (readBlock? (readStmt? format fuel)) (some _)).map Body.block = _
    simp [hstmts]
  | expression e =>
    have he := ih.expr e (depth_lt_of_variant h)
    change (data? (readExpr? format fuel) (some _)).map Body.expression = _
    simp [he]

/-- What stands in the kind of a declaration has room where the declaration has. -/
theorem depth_lt_of_wrap {head : DeclHead} {kind : Json} (h : (head.wrap kind).depth < fuel + 1) :
    kind.depth < fuel + 1 :=
  Nat.lt_succ_of_lt (depth_lt_of_field "kind" (Nat.le_of_lt_succ h) (by simp))

theorem decl_succ (ih : ReadsBack format fuel) (d : Decl) (h : d.toJson.depth < fuel + 1) :
    readDecl? format (fuel + 1) d.toJson = some d := by
  cases d with
  | classDecl head info members =>
    have hkind := depth_lt_of_wrap h
    refine readDecl?_class ?_ (Json.str?_names _)
      (ih.decls (depth_lt_of_data_field "members" hkind (by simp)))
    exact Json.nullable?_ofNullable StructuralKind.ofJson?_name (by simp)
  | function head info params body =>
    have hkind := depth_lt_of_wrap h
    exact readDecl?_function (FunctionKind.ofJson?_toJson _ _) (Json.str?_names _)
      (ih.params (depth_lt_of_data_field "params" hkind (by simp))) (Ty.ofJson?_toJson _)
      (ih.body body (depth_lt_of_data_field "body" hkind (by simp)))
  | property head info backing getter setter =>
    have hkind := depth_lt_of_wrap h
    exact readDecl?_property (ih.accessor (depth_lt_of_data_field "getter" hkind (by simp)))
      (ih.accessor (depth_lt_of_data_field "setter" hkind (by simp)))
      (ih.accessor (depth_lt_of_data_field "backing_field" hkind (by simp)))
  | field head info init =>
    have hkind := depth_lt_of_wrap h
    exact readDecl?_field (Ty.ofJson?_toJson _)
      (ih.option (depth_lt_of_data_field "initializer" hkind (by simp)))
  | initializer head body =>
    have hkind := depth_lt_of_wrap h
    exact readDecl?_initializer (ih.block (depth_lt_of_data_field "body" hkind (by simp)))

/-- Readers of any fuel give back what they have fuel for. -/
theorem all (format : Json.Format) : ∀ fuel : Nat, ReadsBack format fuel
  | 0 => {
      expr := fun _ h => absurd h (Nat.not_lt_zero _)
      kind := fun _ h => absurd h (Nat.not_lt_zero _)
      branch := fun _ h => absurd h (Nat.not_lt_zero _)
      stmt := fun _ h => absurd h (Nat.not_lt_zero _)
      param := fun _ h => absurd h (Nat.not_lt_zero _)
      body := fun _ h => absurd h (Nat.not_lt_zero _)
      decl := fun _ h => absurd h (Nat.not_lt_zero _) }
  | fuel + 1 =>
    have ih := all format fuel
    { expr := ih.expr_succ
      kind := ih.kind_succ
      branch := ih.branch_succ
      stmt := ih.stmt_succ
      param := ih.param_succ
      body := ih.body_succ
      decl := ih.decl_succ }

end ReadsBack

/-! ## Files and modules -/

theorem Decl.ofJson?_toJson (format : Json.Format) (d : Decl) :
    Decl.ofJson? format d.toJson = some d :=
  (ReadsBack.all format _).decl d (Nat.lt_succ_self _)

theorem SourceFile.ofJson?_obj {format : Json.Format} {f : SourceFile} {id declarations : Json}
    (hid : uint32? id = some f.id.val)
    (hdeclarations : list? (Decl.ofJson? format) declarations = some f.declarations) :
    SourceFile.ofJson? format (.obj [("id", id), ("path", .str f.path),
      ("package", .str f.package), ("declarations", declarations)]) = some f :=
  bind_of_read (record?_obj (by simp)) <|
    bind_of_read (required_of_lookup rfl hid) <|
    bind_of_read (required_of_lookup rfl (str?_str _)) <|
    bind_of_read (withDefault_of_lookup rfl (str?_str _)) <|
    bind_of_read (withDefault_of_lookup rfl hdeclarations) rfl

theorem SourceFile.ofJson?_toJson (format : Json.Format) (f : SourceFile) :
    SourceFile.ofJson? format f.toJson = some f := by
  refine ofJson?_obj (uint32?_ofUInt32 _) ?_
  rw [declsToJson_eq_map]
  exact Json.list?_ofList (Decl.ofJson?_toJson format) f.declarations

theorem Module.ofJson?_obj {format : Json.Format} {m : Module} {files external ids : Json}
    (hfiles : list? (SourceFile.ofJson? format) files = some m.files)
    (hexternal : list? (SourceFile.ofJson? format) external = some m.external)
    (hids : IdAllocator.ofJson? ids = some m.ids) :
    Module.ofJson? format (.obj [("name", .str m.name), ("files", files),
      ("external", external), ("ids", ids)]) = some m :=
  bind_of_read (record?_obj (by simp)) <|
    bind_of_read (required_of_lookup rfl (str?_str _)) <|
    bind_of_read (withDefault_of_lookup rfl hfiles) <|
    bind_of_read (withDefault_of_lookup rfl hexternal) <|
    bind_of_read (withDefault_of_lookup rfl hids) rfl

theorem Module.ofJson?_toJson (format : Json.Format) (m : Module) :
    Module.ofJson? format m.toJson = some m :=
  ofJson?_obj (Json.list?_ofList (SourceFile.ofJson?_toJson format) _)
    (Json.list?_ofList (SourceFile.ofJson?_toJson format) _) (IdAllocator.ofJson?_toJson _)

/-- Every module is read back from its JSON form exactly; and whatever JSON a module was read
from, with fields left out or fields that nobody knows, its own form stands for the same module. -/
theorem Module.roundTrip (format : Json.Format) :
    (∀ m : Module, Module.ofJson? format m.toJson = some m) ∧
      ∀ (j : Json) (m : Module), Module.ofJson? format j = some m →
        Module.ofJson? format m.toJson = some m :=
  ⟨ofJson?_toJson format, fun _ m _ => ofJson?_toJson format m⟩

namespace SparseSample

def span : Json := .obj [("file", .int 0), ("start", .int 3), ("end", .int 9)]

/-- A class with a function, both written without their defaulted fields. The module, the class and
the function have a field that nobody knows. -/
def json : Json := .obj [
  ("name", .str "app"),
  ("notes", .arr [.null]),
  ("files", .arr [.obj [
    ("id", .int 0),
    ("path", .str "a.kt"),
    ("declarations", .arr [.obj [
      ("id", .int 1),
      ("span", span),
      ("kind", .obj [("Class", .obj [
        ("name", .str "Box"),
        ("comment", .str "sparse"),
        ("members", .arr [.obj [
          ("id", .int 2),
          ("span", span),
          ("line", .int 1),
          ("kind", .obj [("Function", .obj [("name", .str "run"), ("return_ty", .str "Unit")])])]])])])]])]])]

/-- What is read: all that was left out has its default. -/
def read : Module where
  name := "app"
  files := [{
    id := ⟨0⟩
    path := "a.kt"
    declarations := [.classDecl { id := ⟨1⟩, span := ⟨⟨0⟩, 3, 9⟩ } { name := "Box" }
      [.function { id := ⟨2⟩, span := ⟨⟨0⟩, 3, 9⟩ } { name := "run", returnTy := .unit } []
        .absent]] }]

end SparseSample

open SparseSample in
/-- Nested declarations are read back too, with fields missing or unknown at every level. -/
theorem Module.roundTrip_sparse :
    Module.ofJson? .value json = some read ∧ Module.ofJson? .value read.toJson = some read := by
  have hread : Module.ofJson? .value json = some read := rfl
  exact ⟨hread, (Module.roundTrip .value).2 json read hread⟩

end TraceWeave

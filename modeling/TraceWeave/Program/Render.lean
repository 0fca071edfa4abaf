import TraceWeave.Program.Symbols
import TraceWeave.Text.Escape

/-! # Programs as text

An indented pseudo-source for people. Declarations end their lines; expressions do not.

`Module.render`, `Decl.render`, `Stmt.render` and `Expr.render`, under a `Layout` that says which
notes on places and types are added.
-/

namespace TraceWeave

/-- How a program is laid out. -/
structure Layout where
  indentSize : Nat := 4
  showSpans : Bool := false
  showTypes : Bool := false
  /-- The name that a declaration goes by where it is referred to. -/
  nameOf : DeclId → String := DeclId.text

namespace Layout

/-- The spaces in front of a line. -/
def margin (indent : Nat) : String := "".pushn ' ' indent

/-- The remark that shows the span of a declaration. -/
def spanNote (o : Layout) (span : Span) : String :=
  if o.showSpans then s!" // {span.text}" else ""

/-- The remark that shows the type of an expression. -/
def typeNote (o : Layout) (ty : Ty) : String :=
  if o.showTypes then s!" /*: {ty.text}*/" else ""

end Layout

open Layout (margin)

/-- Words with commas between them. -/
def commaList (items : List String) : String := ", ".intercalate items

namespace Const

def render : Const → String
  | .null => "null"
  | .unit => "Unit"
  | .boolean b => if b then "true" else "false"
  | .int n => s!"{n}"
  | .long n => s!"{n}L"
  | .string s => "\"" ++ Text.escape s ++ "\""

end Const

namespace AnnotationArg

mutual

def render : AnnotationArg → String
  | .const value => value.render
  | .type ty => s!"{ty.text}::class"
  | .array items => "[" ++ commaList (renders items) ++ "]"

def renders : List AnnotationArg → List String
  | [] => []
  | item :: items => render item :: renders items

end

end AnnotationArg

namespace AnnotationUse

def render (a : AnnotationUse) : String :=
  if a.arguments.isEmpty then s!"@{a.className}"
  else
    let args := commaList (a.arguments.map fun arg => s!"{arg.name} = {arg.value.render}")
    s!"@{a.className}({args})"

end AnnotationUse

namespace ClassKind

def keyword : ClassKind → String
  | .plain => "class"
  | .interface => "interface"
  | .object => "object"
  | .anonymousObject => "anonymousobject"

end ClassKind

namespace FunctionKind

def keyword : FunctionKind → String
  | .constructor true => "constructor /*primary*/"
  | .constructor false => "constructor"
  | .lambda => "lambda"
  | _ => "fun"

end FunctionKind

namespace DescriptorRef

def render (r : DescriptorRef) : String := s!"<{r.kind.name} {r.index}>"

end DescriptorRef

namespace FrameCapture

def render (c : FrameCapture) : String :=
  let vars := commaList (c.entries.map fun entry => entry.var.text)
  s!"<snapshot [{vars}]>"

end FrameCapture

/-- The keyword of something that may be assigned again. -/
def bindingKeyword (mutable : Bool) : String := if mutable then "var" else "val"

/-- Annotations, one on each line. -/
def annotationLines (indent : Nat) (uses : List AnnotationUse) : String :=
  String.join (uses.map fun a => margin indent ++ a.render ++ "\n")

/-- Lines between braces, the closing one at the margin. -/
def braced (indent : Nat) (content : String) : String :=
  "\x7b\n" ++ content ++ margin indent ++ "\x7d"

mutual

def Expr.render (o : Layout) (indent : Nat) : Expr → String
  | .const s value => value.render ++ o.typeNote s.ty
  | .getVar s var => var.text ++ o.typeNote s.ty
  | .setVar s var value => var.text ++ " = " ++ value.render o indent ++ o.typeNote s.ty
  | .call s callee receiver typeArgs args =>
    let receiver := match receiver with
      | none => ""
      | some e => e.render o indent ++ "."
    let typeArgs := match typeArgs with
      | [] => ""
      | tys => "<" ++ commaList (tys.map Ty.text) ++ ">"
    receiver ++ o.nameOf callee ++ typeArgs ++ "(" ++ commaList (argsRender o indent args) ++ ")"
      ++ o.typeNote s.ty
  | .functionRef s decl => "::" ++ o.nameOf decl ++ o.typeNote s.ty
  | .propertyRef s decl => "::" ++ o.nameOf decl ++ o.typeNote s.ty
  | .block s stmts => braced indent (stmtsRender o (indent + o.indentSize) stmts) ++ o.typeNote s.ty
  | .returnable s id stmts =>
    id.text ++ "@" ++ braced indent (stmtsRender o (indent + o.indentSize) stmts) ++ o.typeNote s.ty
  | .ret s target value =>
    let target := match target with
      | .function id => o.nameOf id
      | .block id => id.text
    "return@" ++ target ++ " " ++ value.render o indent ++ o.typeNote s.ty
  | .when s branches otherwise =>
    let inner := indent + o.indentSize
    let otherwise := match otherwise with
      | none => ""
      | some e => margin inner ++ "else -> " ++ e.render o inner ++ "\n"
    "when " ++ braced indent (branchesRender o inner branches ++ otherwise) ++ o.typeNote s.ty
  | .loop s condition body =>
    "while (" ++ condition.render o indent ++ ") " ++ body.render o indent ++ o.typeNote s.ty
  | .binary s op lhs rhs =>
    "(" ++ lhs.render o indent ++ " " ++ op.symbol ++ " " ++ rhs.render o indent ++ ")"
      ++ o.typeNote s.ty
  | .not s operand => "!" ++ operand.render o indent ++ o.typeNote s.ty
  | .concat s parts =>
    "concat(" ++ commaList (exprsRender o indent parts) ++ ")" ++ o.typeNote s.ty
  | .lambda s decl =>
    braced indent (decl.render o (indent + o.indentSize)) ++ o.typeNote s.ty
  | .descriptor s ref => ref.render ++ o.typeNote s.ty
  | .captureFrame s capture => capture.render ++ o.typeNote s.ty

def argsRender (o : Layout) (indent : Nat) : List (Option Expr) → List String
  | [] => []
  | none :: args => "_" :: argsRender o indent args
  | some e :: args => e.render o indent :: argsRender o indent args

def exprsRender (o : Layout) (indent : Nat) : List Expr → List String
  | [] => []
  | e :: es => e.render o indent :: exprsRender o indent es

def branchesRender (o : Layout) (indent : Nat) : List (Expr × Expr) → String
  | [] => ""
  | (condition, result) :: branches =>
    margin indent ++ condition.render o indent ++ " -> " ++ result.render o indent ++ "\n"
      ++ branchesRender o indent branches

def stmtsRender (o : Layout) (indent : Nat) : List Stmt → String
  | [] => ""
  | stmt :: stmts => stmt.render o indent ++ stmtsRender o indent stmts

def Stmt.render (o : Layout) (indent : Nat) : Stmt → String
  | .expr e => margin indent ++ e.render o indent ++ "\n"
  | .var head init =>
    let init := match init with
      | none => ""
      | some e => " = " ++ e.render o indent
    margin indent ++ s!"{bindingKeyword head.mutable} {head.name}#{head.id.text}: {head.ty.text}"
      ++ init ++ "\n"
  | .decl d => d.render o indent

/-- Parameters with their defaults, which are laid out as if they stood alone. -/
def paramsRender (o : Layout) : List Param → List String
  | [] => []
  | ⟨head, default⟩ :: params =>
    let default := match default with
      | none => ""
      | some e => " = " ++ e.render o 0
    (s!"{head.name}: {head.ty.text}" ++ default) :: paramsRender o params

def Body.render (o : Layout) (indent : Nat) : Body → String
  | .absent => ""
  | .block stmts => " " ++ braced indent (stmtsRender o (indent + o.indentSize) stmts)
  | .expression e => " = " ++ e.render o indent

def Decl.render (o : Layout) (indent : Nat) : Decl → String
  | .classDecl head info members =>
    annotationLines indent head.annotations ++ margin indent
      ++ info.kind.keyword ++ " " ++ info.name ++ " \x7b" ++ o.spanNote head.span ++ "\n"
      ++ declsRender o (indent + o.indentSize) members ++ margin indent ++ "\x7d\n"
  | .function head info params body =>
    let suspend := if info.isSuspend then "suspend " else ""
    annotationLines indent head.annotations ++ margin indent
      ++ suspend ++ info.kind.keyword ++ " " ++ info.name
      ++ "(" ++ commaList (paramsRender o params) ++ "): "
      ++ info.returnTy.text ++ body.render o indent ++ o.spanNote head.span ++ "\n"
  | .property head info backing getter setter =>
    annotationLines indent head.annotations ++ margin indent
      ++ bindingKeyword info.mutable ++ " " ++ info.name ++ " \x7b" ++ o.spanNote head.span ++ "\n"
      ++ accessorRender o (indent + o.indentSize) backing
      ++ accessorRender o (indent + o.indentSize) getter
      ++ accessorRender o (indent + o.indentSize) setter ++ margin indent ++ "\x7d\n"
  | .field head info init =>
    let init := match init with
      | none => ""
      | some e => " = " ++ e.render o indent
    annotationLines indent head.annotations ++ margin indent
      ++ s!"field {info.name}: {info.ty.text}" ++ init ++ o.spanNote head.span ++ "\n"
  | .initializer head body =>
    annotationLines indent head.annotations ++ margin indent
      ++ "init " ++ braced indent (stmtsRender o (indent + o.indentSize) body)
      ++ o.spanNote head.span ++ "\n"

def accessorRender (o : Layout) (indent : Nat) : Option Decl → String
  | none => ""
  | some d => d.render o indent

def declsRender (o : Layout) (indent : Nat) : List Decl → String
  | [] => ""
  | d :: ds => d.render o indent ++ declsRender o indent ds

end

namespace SourceFile

def render (o : Layout) (f : SourceFile) : String :=
  s!"// file {f.path} (package {f.package})\n" ++ declsRender o 0 f.declarations

end SourceFile

namespace Module

/-- The own files of a module. -/
def render (o : Layout) (m : Module) : String :=
  s!"module {m.name}\n" ++ String.join (m.files.map (SourceFile.render o))

end Module

end TraceWeave

import TraceWeave.Span
import TraceWeave.Program.Ids
import TraceWeave.Program.Ty
import TraceWeave.Descriptor.Handle

/-! # Programs

A program is a tree of files, declarations, statements and expressions. What a node says about
itself, apart from the nodes below it, is kept in a record of its own: `Site` for expressions and
the `…Head` records for declarations, parameters and variables. A transformation that leaves the
heads alone changes nothing but code.

The tree is `Module`, `SourceFile`, `Decl`, `Body`, `Stmt` and `Expr`, where `Decl`, `Body`,
`Stmt` and `Expr` are mutually inductive: a lambda and a local declaration hold whole functions.
-/

namespace TraceWeave

/-- A constant. -/
inductive Const where
  | null
  | unit
  | boolean (value : Bool)
  | int (value : Int32)
  | long (value : Int64)
  | string (value : String)
  deriving DecidableEq, Repr, Inhabited

namespace Const

/-- The static type of a constant. -/
def ty : Const → Ty
  | .null => .any
  | .unit => .unit
  | .boolean _ => .boolean
  | .int _ => .int
  | .long _ => .long
  | .string _ => .string

end Const

/-- A value passed to an argument of an annotation. -/
inductive AnnotationArg where
  | const (value : Const)
  | type (ty : Ty)
  | array (items : List AnnotationArg)
  deriving Inhabited

namespace AnnotationArg

def ofString (value : String) : AnnotationArg := .const (.string value)

def ofStrings (values : List String) : AnnotationArg := .array (values.map ofString)

def string? : AnnotationArg → Option String
  | .const (.string value) => some value
  | _ => none

def array? : AnnotationArg → Option (List AnnotationArg)
  | .array items => some items
  | _ => none

/-- The items of an array, if all of them are strings. -/
def strings? (arg : AnnotationArg) : Option (List String) :=
  arg.array?.bind (·.mapM string?)

end AnnotationArg

/-- A named argument of an annotation. -/
structure AnnotationArgument where
  name : String
  value : AnnotationArg
  deriving Inhabited

/-- One application of an annotation class. -/
structure AnnotationUse where
  className : String
  span : Span
  arguments : List AnnotationArgument := []
  deriving Inhabited

namespace AnnotationUse

/-- The first argument with a name. -/
def argument? (use : AnnotationUse) (name : String) : Option AnnotationArg :=
  (use.arguments.find? (·.name == name)).map (·.value)

def ty (use : AnnotationUse) : Ty := Ty.ofClass use.className

/-- The first use of a class in a list. -/
def find? (uses : List AnnotationUse) (className : String) : Option AnnotationUse :=
  uses.find? (·.className == className)

/-- All uses of a class in a list. -/
def ofClass (uses : List AnnotationUse) (className : String) : List AnnotationUse :=
  uses.filter (·.className == className)

end AnnotationUse

/-- Where a declaration came from. -/
inductive Origin where
  | source
  /-- Created by the compiler or by a pass. -/
  | synthetic
  /-- An inherited member without a body of its own. -/
  | fakeOverride
  /-- Declared in a dependency, without source text. -/
  | library
  deriving DecidableEq, Repr, Inhabited

inductive Visibility where
  | isPublic | isProtected | isInternal | isPrivate | isLocal
  deriving DecidableEq, Repr, Inhabited

inductive Modality where
  | isFinal | isOpen | isAbstract | isSealed
  deriving DecidableEq, Repr, Inhabited

inductive ClassKind where
  | plain | interface | object | anonymousObject
  deriving DecidableEq, Repr, Inhabited

inductive StructuralKind where
  | enum | data | value | annotationClass
  deriving DecidableEq, Repr, Inhabited

inductive FunctionKind where
  | plain | constructor (primary : Bool) | getter | setter | lambda
  deriving DecidableEq, Repr, Inhabited

/-- What a `return` leaves. -/
inductive ReturnTarget where
  | function (id : DeclId)
  | block (id : BlockId)
  deriving DecidableEq, Repr, Inhabited

inductive BinOp where
  | add | sub | mul | div | rem | eq | ne | lt | le | gt | ge | and | or
  deriving DecidableEq, Repr, Inhabited

namespace BinOp

def symbol : BinOp → String
  | .add => "+"
  | .sub => "-"
  | .mul => "*"
  | .div => "/"
  | .rem => "%"
  | .eq => "=="
  | .ne => "!="
  | .lt => "<"
  | .le => "<="
  | .gt => ">"
  | .ge => ">="
  | .and => "&&"
  | .or => "||"

end BinOp

/-- A variable in a frame capture, and the descriptor it is recorded under. -/
structure CapturedLocal where
  info : Handle .localInfo
  var : VarId
  deriving DecidableEq, Repr, Inhabited

/-- The variables that are recorded when a frame capture is evaluated. -/
structure FrameCapture where
  location : Handle .location
  entries : List CapturedLocal
  deriving DecidableEq, Repr, Inhabited

/-- Where an expression stands, and its static type. -/
structure Site where
  span : Span
  ty : Ty
  deriving DecidableEq, Inhabited

/-- What every declaration says about itself. -/
structure DeclHead where
  id : DeclId
  span : Span
  origin : Origin := .source
  annotations : List AnnotationUse := []
  deriving Inhabited

structure ClassHead where
  name : String
  kind : ClassKind := .plain
  isCompanion : Bool := false
  structural : Option StructuralKind := none
  visibility : Visibility := .isPublic
  modality : Modality := .isFinal
  typeParams : List String := []
  deriving DecidableEq, Inhabited

structure FunctionHead where
  name : String
  kind : FunctionKind := .plain
  visibility : Visibility := .isPublic
  modality : Modality := .isFinal
  typeParams : List String := []
  returnTy : Ty
  isSuspend : Bool := false
  isExpect : Bool := false
  deriving DecidableEq, Inhabited

structure PropertyHead where
  name : String
  mutable : Bool := false
  visibility : Visibility := .isPublic
  modality : Modality := .isFinal
  deriving DecidableEq, Inhabited

structure FieldHead where
  name : String
  ty : Ty
  isStatic : Bool := false
  isExternal : Bool := false
  isFinal : Bool := false
  deriving DecidableEq, Inhabited

structure ParamHead where
  id : VarId
  name : String
  ty : Ty
  span : Span
  annotations : List AnnotationUse := []
  deriving Inhabited

structure VarHead where
  id : VarId
  name : String
  ty : Ty
  mutable : Bool := false
  span : Span
  origin : Origin := .source
  annotations : List AnnotationUse := []
  deriving Inhabited

mutual

/-- An expression. -/
inductive Expr where
  | const (site : Site) (value : Const)
  | getVar (site : Site) (var : VarId)
  | setVar (site : Site) (var : VarId) (value : Expr)
  /-- A call or a constructor invocation; an omitted argument is `none`. -/
  | call (site : Site) (callee : DeclId) (receiver : Option Expr) (typeArgs : List Ty)
      (args : List (Option Expr))
  | functionRef (site : Site) (decl : DeclId)
  | propertyRef (site : Site) (decl : DeclId)
  | block (site : Site) (stmts : List Stmt)
  /-- A block that a `return` can leave. -/
  | returnable (site : Site) (id : BlockId) (stmts : List Stmt)
  | ret (site : Site) (target : ReturnTarget) (value : Expr)
  /-- Conditions with their results, tried in order. -/
  | when (site : Site) (branches : List (Expr × Expr)) (otherwise : Option Expr)
  | loop (site : Site) (condition body : Expr)
  | binary (site : Site) (op : BinOp) (lhs rhs : Expr)
  | not (site : Site) (operand : Expr)
  | concat (site : Site) (parts : List Expr)
  | lambda (site : Site) (decl : Decl)
  | descriptor (site : Site) (ref : DescriptorRef)
  | captureFrame (site : Site) (capture : FrameCapture)

/-- A statement of a block. -/
inductive Stmt where
  | expr (e : Expr)
  | var (head : VarHead) (init : Option Expr)
  | decl (d : Decl)

/-- A value parameter. -/
structure Param where
  head : ParamHead
  default : Option Expr

/-- The code of a function. -/
inductive Body where
  | absent
  | block (stmts : List Stmt)
  | expression (e : Expr)

/-- A declaration. -/
inductive Decl where
  | classDecl (head : DeclHead) (info : ClassHead) (members : List Decl)
  | function (head : DeclHead) (info : FunctionHead) (params : List Param) (body : Body)
  | property (head : DeclHead) (info : PropertyHead) (backing getter setter : Option Decl)
  | field (head : DeclHead) (info : FieldHead) (init : Option Expr)
  /-- An anonymous block that runs when its class is constructed. -/
  | initializer (head : DeclHead) (body : List Stmt)

end

instance : Inhabited Expr := ⟨.const default .unit⟩

instance : Inhabited Decl := ⟨.initializer default []⟩

/-- A source file. -/
structure SourceFile where
  id : FileId
  path : String
  package : String := ""
  declarations : List Decl := []
  deriving Inhabited

/-- A compilation unit. External files are declarations of dependencies: they are looked at and
never changed. -/
structure Module where
  name : String
  files : List SourceFile := []
  external : List SourceFile := []
  ids : IdAllocator := {}
  deriving Inhabited

namespace Module

/-- The own files of a module and then the external ones. -/
def allFiles (m : Module) : List SourceFile := m.files ++ m.external

/-- The first file with an identity. -/
def file? (m : Module) (id : FileId) : Option SourceFile := m.allFiles.find? (·.id == id)

end Module

namespace Expr

def site : Expr → Site
  | .const s _ | .getVar s _ | .setVar s _ _ | .call s _ _ _ _ | .functionRef s _
  | .propertyRef s _ | .block s _ | .returnable s _ _ | .ret s _ _ | .when s _ _ | .loop s _ _
  | .binary s _ _ _ | .not s _ | .concat s _ | .lambda s _ | .descriptor s _
  | .captureFrame s _ => s

def span (e : Expr) : Span := e.site.span

def ty (e : Expr) : Ty := e.site.ty

/-- A constant, typed by itself. -/
def ofConst (span : Span) (value : Const) : Expr := .const ⟨span, value.ty⟩ value

def unit (span : Span) : Expr := ofConst span .unit

def ofInt (span : Span) (value : Int32) : Expr := ofConst span (.int value)

def ofString (span : Span) (value : String) : Expr := ofConst span (.string value)

/-- A `return`, which has no value of its own. -/
def ofReturn (span : Span) (target : ReturnTarget) (value : Expr) : Expr :=
  .ret ⟨span, .nothing⟩ target value

def isReturn : Expr → Bool
  | .ret _ _ _ => true
  | _ => false

end Expr

namespace Block

/-- The last statement of a block, if it is an expression. -/
def lastExpr? (stmts : List Stmt) : Option Expr :=
  match stmts.getLast? with
  | some (.expr e) => some e
  | _ => none

/-- Whether the last statement of a block is a `return`. -/
def endsWithReturn (stmts : List Stmt) : Bool :=
  match lastExpr? stmts with
  | some e => e.isReturn
  | none => false

end Block

namespace Decl

def head : Decl → DeclHead
  | .classDecl h _ _ | .function h _ _ _ | .property h _ _ _ _ | .field h _ _
  | .initializer h _ => h

def id (d : Decl) : DeclId := d.head.id

def span (d : Decl) : Span := d.head.span

end Decl

namespace FunctionKind

def isConstructor : FunctionKind → Bool
  | .constructor _ => true
  | _ => false

end FunctionKind

end TraceWeave

import TraceWeave.Program.Locals
import TraceWeave.Program.Codec.Leaf

/-! # Symbols

An index of the declarations of a module. Every declaration, wherever it is nested, has a symbol
with its qualified name and its parent. Symbols are added after those of the declarations below
them; of two symbols with the same identity the later one counts.

`SymbolTable.build` makes the index, from the `Symbol`s that `declsSymbols` collects below a
`SymbolScope`. `SymbolTable.get?` and `SymbolTable.lookup` look a symbol up by identity and by
name; `SymbolTable.ancestors` and `SymbolTable.enclosingClass?` follow the parents.
-/

namespace TraceWeave

/-- What the index knows about a parameter. -/
structure ParamSymbol where
  head : ParamHead
  hasDefault : Bool
  deriving Inhabited

structure ClassSymbol where
  head : ClassHead
  members : List DeclId
  primaryConstructor : Option DeclId
  deriving Inhabited

structure FunctionSymbol where
  head : FunctionHead
  params : List ParamSymbol
  hasBody : Bool
  /-- The variables of the body, without those of nested declarations. -/
  locals : List VarHead
  deriving Inhabited

structure PropertySymbol where
  head : PropertyHead
  getter : Option DeclId
  setter : Option DeclId
  backing : Option DeclId
  deriving Inhabited

/-- What the index knows about a declaration, by kind. -/
inductive SymbolKind where
  | classSymbol (info : ClassSymbol)
  | function (info : FunctionSymbol)
  | property (info : PropertySymbol)
  | field (info : FieldHead)
  | initializer
  deriving Inhabited

/-- The index entry of a declaration. -/
structure Symbol where
  head : DeclHead
  parent : Option DeclId
  file : FileId
  fqName : String
  name : String
  external : Bool
  kind : SymbolKind
  deriving Inhabited

namespace Symbol

def id (s : Symbol) : DeclId := s.head.id

def function? (s : Symbol) : Option FunctionSymbol :=
  match s.kind with
  | .function info => some info
  | _ => none

def class? (s : Symbol) : Option ClassSymbol :=
  match s.kind with
  | .classSymbol info => some info
  | _ => none

def property? (s : Symbol) : Option PropertySymbol :=
  match s.kind with
  | .property info => some info
  | _ => none

def field? (s : Symbol) : Option FieldHead :=
  match s.kind with
  | .field info => some info
  | _ => none

end Symbol

/-- The name that a declaration has in qualified names. -/
def Decl.symbolName : Decl → String
  | .classDecl _ info _ => if info.kind = .anonymousObject then "<anonymous>" else info.name
  | .function _ info _ _ =>
    match info.kind with
    | .constructor _ => "<init>"
    | .lambda => "<anonymous>"
    | _ => info.name
  | .property _ info _ _ _ => info.name
  | .field _ info _ => info.name
  | .initializer _ _ => "<init-block>"

/-- A name below a scope; the empty scope adds nothing. -/
def qualify (scope name : String) : String :=
  if scope.isEmpty then name else s!"{scope}.{name}"

/-- Whether a declaration is a primary constructor. -/
def Decl.isPrimaryConstructor : Decl → Bool
  | .function _ info _ _ => info.kind == .constructor true
  | _ => false

def Body.isPresent : Body → Bool
  | .absent => false
  | _ => true

/-- Where the declarations of a piece of tree belong. -/
structure SymbolScope where
  file : FileId
  external : Bool
  parent : Option DeclId := none
  /-- The qualified name that the names below start with. -/
  scope : String
  deriving Inhabited

namespace SymbolScope

/-- The symbol of a declaration in a scope. -/
def symbol (sc : SymbolScope) (d : Decl) (kind : SymbolKind) : Symbol :=
  { head := d.head, parent := sc.parent, file := sc.file,
    fqName := qualify sc.scope d.symbolName, name := d.symbolName, external := sc.external, kind }

/-- The scope of what is nested in a declaration. -/
def inside (sc : SymbolScope) (d : Decl) : SymbolScope :=
  { sc with parent := some d.id, scope := qualify sc.scope d.symbolName }

/-- The scope of the accessors of a property: its own scope, with the property as parent. -/
def accessors (sc : SymbolScope) (d : Decl) : SymbolScope := { sc with parent := some d.id }

end SymbolScope

mutual

/-- The symbols of the declarations nested in an expression. -/
def Expr.symbols (sc : SymbolScope) : Expr → List Symbol
  | .setVar _ _ value => value.symbols sc
  | .call _ _ receiver _ args => optionSymbols sc receiver ++ argsSymbols sc args
  | .block _ stmts => stmtsSymbols sc stmts
  | .returnable _ _ stmts => stmtsSymbols sc stmts
  | .ret _ _ value => value.symbols sc
  | .when _ branches otherwise => branchesSymbols sc branches ++ optionSymbols sc otherwise
  | .loop _ condition body => condition.symbols sc ++ body.symbols sc
  | .binary _ _ lhs rhs => lhs.symbols sc ++ rhs.symbols sc
  | .not _ operand => operand.symbols sc
  | .concat _ parts => exprsSymbols sc parts
  | .lambda _ decl => decl.symbols sc
  | .const _ _ | .getVar _ _ | .functionRef _ _ | .propertyRef _ _ | .descriptor _ _
  | .captureFrame _ _ => []

def optionSymbols (sc : SymbolScope) : Option Expr → List Symbol
  | none => []
  | some e => e.symbols sc

def argsSymbols (sc : SymbolScope) : List (Option Expr) → List Symbol
  | [] => []
  | none :: args => argsSymbols sc args
  | some e :: args => e.symbols sc ++ argsSymbols sc args

def exprsSymbols (sc : SymbolScope) : List Expr → List Symbol
  | [] => []
  | e :: es => e.symbols sc ++ exprsSymbols sc es

def branchesSymbols (sc : SymbolScope) : List (Expr × Expr) → List Symbol
  | [] => []
  | (condition, result) :: branches =>
    condition.symbols sc ++ result.symbols sc ++ branchesSymbols sc branches

def stmtsSymbols (sc : SymbolScope) : List Stmt → List Symbol
  | [] => []
  | stmt :: stmts => stmt.symbols sc ++ stmtsSymbols sc stmts

def Stmt.symbols (sc : SymbolScope) : Stmt → List Symbol
  | .expr e => e.symbols sc
  | .var _ init => optionSymbols sc init
  | .decl d => d.symbols sc

def paramsSymbols (sc : SymbolScope) : List Param → List Symbol
  | [] => []
  | ⟨_, default⟩ :: params => optionSymbols sc default ++ paramsSymbols sc params

def Body.symbols (sc : SymbolScope) : Body → List Symbol
  | .absent => []
  | .block stmts => stmtsSymbols sc stmts
  | .expression e => e.symbols sc

/-- The symbols of a declaration and of all that is nested in it, in the order of adding. -/
def Decl.symbols (sc : SymbolScope) : Decl → List Symbol
  | .classDecl head info members =>
    let d := Decl.classDecl head info members
    declsSymbols (sc.inside d) members ++
      [sc.symbol d (.classSymbol {
        head := info
        members := members.map Decl.id
        primaryConstructor := (members.find? Decl.isPrimaryConstructor).map Decl.id })]
  | .function head info params body =>
    let d := Decl.function head info params body
    paramsSymbols (sc.inside d) params ++ body.symbols (sc.inside d) ++
      [sc.symbol d (.function {
        head := info
        params := params.map fun p => ⟨p.head, p.default.isSome⟩
        hasBody := body.isPresent
        locals := body.locals })]
  | .property head info backing getter setter =>
    let d := Decl.property head info backing getter setter
    accessorSymbols (sc.accessors d) backing ++ accessorSymbols (sc.accessors d) getter ++
      accessorSymbols (sc.accessors d) setter ++
      [sc.symbol d (.property {
        head := info
        getter := getter.map Decl.id
        setter := setter.map Decl.id
        backing := backing.map Decl.id })]
  | .field head info init =>
    let d := Decl.field head info init
    optionSymbols (sc.inside d) init ++ [sc.symbol d (.field info)]
  | .initializer head body =>
    let d := Decl.initializer head body
    stmtsSymbols (sc.inside d) body ++ [sc.symbol d .initializer]

def accessorSymbols (sc : SymbolScope) : Option Decl → List Symbol
  | none => []
  | some d => d.symbols sc

def declsSymbols (sc : SymbolScope) : List Decl → List Symbol
  | [] => []
  | d :: ds => d.symbols sc ++ declsSymbols sc ds

end

/-- What the index knows about a file. -/
structure FileSymbol where
  path : String
  package : String
  external : Bool
  deriving DecidableEq, Inhabited

/-- The index of a module. -/
structure SymbolTable where
  moduleName : String := ""
  /-- All symbols, the last added first. -/
  newest : List Symbol := []
  /-- All files, the last added first. -/
  newestFiles : List (FileId × FileSymbol) := []
  deriving Inhabited

namespace SymbolTable

/-- Adds the declarations of a file. -/
def addFile (external : Bool) (t : SymbolTable) (f : SourceFile) : SymbolTable :=
  let added := declsSymbols { file := f.id, external, scope := f.package } f.declarations
  { t with
    newest := added.reverse ++ t.newest
    newestFiles := (f.id, ⟨f.path, f.package, external⟩) :: t.newestFiles }

/-- The index of a module: its own files, then the external ones. -/
def build (m : Module) : SymbolTable :=
  m.external.foldl (addFile true) (m.files.foldl (addFile false) { moduleName := m.name })

def get? (t : SymbolTable) (id : DeclId) : Option Symbol := t.newest.find? (·.id == id)

def file? (t : SymbolTable) (id : FileId) : Option FileSymbol := t.newestFiles.lookup id

/-- The symbol of a function, with what the index knows about it. -/
def function? (t : SymbolTable) (id : DeclId) : Option (Symbol × FunctionSymbol) := do
  let symbol ← t.get? id
  let info ← symbol.function?
  some (symbol, info)

/-- The symbol of a class, with what the index knows about it. -/
def class? (t : SymbolTable) (id : DeclId) : Option (Symbol × ClassSymbol) := do
  let symbol ← t.get? id
  let info ← symbol.class?
  some (symbol, info)

/-- The symbol of a property, with what the index knows about it. -/
def property? (t : SymbolTable) (id : DeclId) : Option (Symbol × PropertySymbol) := do
  let symbol ← t.get? id
  let info ← symbol.property?
  some (symbol, info)

/-- The symbol of a field, with what the index knows about it. -/
def fieldOf? (t : SymbolTable) (id : DeclId) : Option (Symbol × FieldHead) := do
  let symbol ← t.get? id
  let info ← symbol.field?
  some (symbol, info)

/-- The declarations with a qualified name, in the order they were added. -/
def lookup (t : SymbolTable) (fqName : String) : List DeclId :=
  (t.newest.filter (·.fqName == fqName)).reverse.map Symbol.id

def lookupFunction? (t : SymbolTable) (fqName : String) : Option DeclId :=
  (t.lookup fqName).find? fun id => (t.function? id).isSome

def lookupClass? (t : SymbolTable) (fqName : String) : Option DeclId :=
  (t.lookup fqName).find? fun id => (t.class? id).isSome

/-- The chain of parents that starts at `next`, at most `fuel` of them. -/
def chain (t : SymbolTable) : Nat → Option DeclId → List Symbol
  | 0, _ => []
  | _, none => []
  | fuel + 1, some id =>
    match t.get? id with
    | none => []
    | some symbol => symbol :: t.chain fuel symbol.parent

/-- The declarations around a declaration, innermost first. A parent is added after its child, so
there are at most as many as symbols. -/
def ancestors (t : SymbolTable) (id : DeclId) : List Symbol :=
  t.chain t.newest.length ((t.get? id).bind Symbol.parent)

/-- The innermost class around a declaration. -/
def enclosingClass? (t : SymbolTable) (id : DeclId) : Option DeclId :=
  ((t.ancestors id).find? (·.class?.isSome)).map Symbol.id

/-- Puts a symbol into a list that is sorted by identity, unless it is there already. -/
def insertById (s : Symbol) : List Symbol → List Symbol
  | [] => [s]
  | t :: ts =>
    if s.id.val < t.id.val then s :: t :: ts
    else if s.id = t.id then t :: ts
    else t :: insertById s ts

/-- One symbol for each identity, sorted by identity. -/
def entries (t : SymbolTable) : List Symbol :=
  t.newest.foldl (fun sorted s => insertById s sorted) []

/-- The qualified name of a declaration, or its identity if it has no symbol. -/
def nameOf (t : SymbolTable) (id : DeclId) : String :=
  match t.get? id with
  | some symbol => symbol.fqName
  | none => id.text

end SymbolTable

end TraceWeave

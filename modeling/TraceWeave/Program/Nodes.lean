import TraceWeave.Program.Tree

/-! # Nodes of a program

The declarations, parameters, variables and expressions below a node, each before the nodes
below it, from left to right. The accessors of a property come in the order backing field,
getter, setter.

`Module.nodes` lists them as `Node`s. From the list come `Module.decl?`, the declaration of an
identity, and `Module.syncIds`, the allocator that no number of the module clashes with.
-/

namespace TraceWeave

/-- A node that a look through a program comes by. -/
inductive Node where
  | decl (d : Decl)
  | param (head : ParamHead)
  | var (head : VarHead)
  | expr (e : Expr)

mutual

def Expr.nodes : Expr → List Node
  | .setVar s v value => .expr (.setVar s v value) :: value.nodes
  | .call s callee receiver typeArgs args =>
    .expr (.call s callee receiver typeArgs args) :: (optionNodes receiver ++ argsNodes args)
  | .block s stmts => .expr (.block s stmts) :: stmtsNodes stmts
  | .returnable s id stmts => .expr (.returnable s id stmts) :: stmtsNodes stmts
  | .ret s target value => .expr (.ret s target value) :: value.nodes
  | .when s branches otherwise =>
    .expr (.when s branches otherwise) :: (branchesNodes branches ++ optionNodes otherwise)
  | .loop s condition body => .expr (.loop s condition body) :: (condition.nodes ++ body.nodes)
  | .binary s op lhs rhs => .expr (.binary s op lhs rhs) :: (lhs.nodes ++ rhs.nodes)
  | .not s operand => .expr (.not s operand) :: operand.nodes
  | .concat s parts => .expr (.concat s parts) :: exprsNodes parts
  | .lambda s decl => .expr (.lambda s decl) :: decl.nodes
  | .const s value => [.expr (.const s value)]
  | .getVar s v => [.expr (.getVar s v)]
  | .functionRef s id => [.expr (.functionRef s id)]
  | .propertyRef s id => [.expr (.propertyRef s id)]
  | .descriptor s ref => [.expr (.descriptor s ref)]
  | .captureFrame s capture => [.expr (.captureFrame s capture)]

def optionNodes : Option Expr → List Node
  | none => []
  | some e => e.nodes

def argsNodes : List (Option Expr) → List Node
  | [] => []
  | none :: args => argsNodes args
  | some e :: args => e.nodes ++ argsNodes args

def exprsNodes : List Expr → List Node
  | [] => []
  | e :: es => e.nodes ++ exprsNodes es

def branchesNodes : List (Expr × Expr) → List Node
  | [] => []
  | (condition, result) :: branches => condition.nodes ++ result.nodes ++ branchesNodes branches

def stmtsNodes : List Stmt → List Node
  | [] => []
  | stmt :: stmts => stmt.nodes ++ stmtsNodes stmts

def Stmt.nodes : Stmt → List Node
  | .expr e => e.nodes
  | .var head init => .var head :: optionNodes init
  | .decl d => d.nodes

def paramsNodes : List Param → List Node
  | [] => []
  | ⟨head, default⟩ :: params => .param head :: (optionNodes default ++ paramsNodes params)

def Body.nodes : Body → List Node
  | .absent => []
  | .block stmts => stmtsNodes stmts
  | .expression e => e.nodes

def Decl.nodes : Decl → List Node
  | .classDecl head info members => .decl (.classDecl head info members) :: declsNodes members
  | .function head info params body =>
    .decl (.function head info params body) :: (paramsNodes params ++ body.nodes)
  | .property head info backing getter setter =>
    .decl (.property head info backing getter setter) ::
      (accessorNodes backing ++ accessorNodes getter ++ accessorNodes setter)
  | .field head info init => .decl (.field head info init) :: optionNodes init
  | .initializer head body => .decl (.initializer head body) :: stmtsNodes body

def accessorNodes : Option Decl → List Node
  | none => []
  | some d => d.nodes

def declsNodes : List Decl → List Node
  | [] => []
  | d :: ds => d.nodes ++ declsNodes ds

end

theorem stmtsNodes_append : ∀ xs ys : List Stmt,
    stmtsNodes (xs ++ ys) = stmtsNodes xs ++ stmtsNodes ys
  | [], ys => rfl
  | x :: xs, ys => by
    rw [List.cons_append, stmtsNodes, stmtsNodes, stmtsNodes_append xs ys, List.append_assoc]

namespace Module

/-- The nodes of all files, own files first. -/
def nodes (m : Module) : List Node := m.allFiles.flatMap fun f => declsNodes f.declarations

end Module

namespace IdAllocator

/-- Moves past the identity that a node introduces. -/
def observe (ids : IdAllocator) : Node → IdAllocator
  | .decl d => ids.observeDecl d.id
  | .param head => ids.observeVar head.id
  | .var head => ids.observeVar head.id
  | .expr (.returnable _ id _) => ids.observeBlock id
  | .expr _ => ids

end IdAllocator

namespace Module

/-- Moves the allocator past every identity of the tree. -/
def syncIds (m : Module) : Module :=
  { m with ids := m.nodes.foldl IdAllocator.observe m.ids }

/-- The declaration with an identity; of several, the last one in node order. -/
def decl? (m : Module) (id : DeclId) : Option Decl :=
  m.nodes.reverse.findSome? fun
    | .decl d => if d.id = id then some d else none
    | _ => none

end Module

end TraceWeave

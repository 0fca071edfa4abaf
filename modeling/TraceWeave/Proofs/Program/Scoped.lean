import TraceWeave.Eval.Interpreter
import TraceWeave.Pass.Walk

/-! # Declarations with their scopes

The declarations below a node in node order, each with the scopes around it. The scopes are those
that a walk visits a declaration with, and the declarations are those that an interpreter finds.

`declsOf` picks declarations out of nodes, `Module.decls` are all of a module and
`Module.ownDecls` those of its own files, with scopes. `Module.ownDecl?` finds one by its
identity.
-/

namespace TraceWeave

/-- The declaration that a node is. -/
def Node.decl? : Node → Option Decl
  | .decl d => some d
  | _ => none

/-- The declarations among nodes. -/
def declsOf (nodes : List Node) : List Decl := nodes.filterMap Node.decl?

@[simp] theorem declsOf_nil : declsOf [] = [] := rfl

@[simp] theorem declsOf_decl (d : Decl) (nodes : List Node) :
    declsOf (.decl d :: nodes) = d :: declsOf nodes := rfl

@[simp] theorem declsOf_param (head : ParamHead) (nodes : List Node) :
    declsOf (.param head :: nodes) = declsOf nodes := rfl

@[simp] theorem declsOf_var (head : VarHead) (nodes : List Node) :
    declsOf (.var head :: nodes) = declsOf nodes := rfl

@[simp] theorem declsOf_expr (e : Expr) (nodes : List Node) :
    declsOf (.expr e :: nodes) = declsOf nodes := rfl

@[simp] theorem declsOf_append (xs ys : List Node) :
    declsOf (xs ++ ys) = declsOf xs ++ declsOf ys := by
  unfold declsOf
  exact List.filterMap_append

theorem mem_declsOf {d : Decl} {nodes : List Node} : d ∈ declsOf nodes ↔ Node.decl d ∈ nodes := by
  unfold declsOf
  rw [List.mem_filterMap]
  constructor
  · rintro ⟨n, hn, hd⟩
    cases n <;> simp_all [Node.decl?]
  · intro h
    exact ⟨_, h, rfl⟩

mutual

def Expr.scoped (sc : ScopeStack) : Expr → List (ScopeStack × Decl)
  | .setVar _ _ value => value.scoped sc
  | .call _ _ receiver _ args => optionScoped sc receiver ++ argsScoped sc args
  | .block _ stmts => stmtsScoped (sc.push .ofBody) stmts
  | .returnable _ _ stmts => stmtsScoped (sc.push .ofBody) stmts
  | .ret _ _ value => value.scoped sc
  | .when _ branches otherwise => branchesScoped sc branches ++ optionScoped sc otherwise
  | .loop _ condition body => condition.scoped sc ++ body.scoped sc
  | .binary _ _ lhs rhs => lhs.scoped sc ++ rhs.scoped sc
  | .not _ operand => operand.scoped sc
  | .concat _ parts => exprsScoped sc parts
  | .lambda _ decl => decl.scoped sc
  | .const _ _ | .getVar _ _ | .functionRef _ _ | .propertyRef _ _ | .descriptor _ _
  | .captureFrame _ _ => []

def optionScoped (sc : ScopeStack) : Option Expr → List (ScopeStack × Decl)
  | none => []
  | some e => e.scoped sc

def argsScoped (sc : ScopeStack) : List (Option Expr) → List (ScopeStack × Decl)
  | [] => []
  | none :: args => argsScoped sc args
  | some e :: args => e.scoped sc ++ argsScoped sc args

def exprsScoped (sc : ScopeStack) : List Expr → List (ScopeStack × Decl)
  | [] => []
  | e :: es => e.scoped sc ++ exprsScoped sc es

def branchesScoped (sc : ScopeStack) : List (Expr × Expr) → List (ScopeStack × Decl)
  | [] => []
  | (condition, result) :: branches =>
    condition.scoped sc ++ result.scoped sc ++ branchesScoped sc branches

def stmtsScoped (sc : ScopeStack) : List Stmt → List (ScopeStack × Decl)
  | [] => []
  | stmt :: stmts => stmt.scoped sc ++ stmtsScoped (sc.after stmt) stmts

def Stmt.scoped (sc : ScopeStack) : Stmt → List (ScopeStack × Decl)
  | .expr e => e.scoped sc
  | .var _ init => optionScoped sc init
  | .decl d => d.scoped sc

def paramsScoped (sc : ScopeStack) : List Param → List (ScopeStack × Decl)
  | [] => []
  | ⟨_, default⟩ :: params => optionScoped sc default ++ paramsScoped sc params

def Body.scoped (sc : ScopeStack) : Body → List (ScopeStack × Decl)
  | .absent => []
  | .block stmts => stmtsScoped (sc.push .ofBody) stmts
  | .expression e => e.scoped sc

/-- A declaration and those nested in it, each with the scopes around it. -/
def Decl.scoped (sc : ScopeStack) : Decl → List (ScopeStack × Decl)
  | .classDecl head info members =>
    (sc, .classDecl head info members) :: declsScoped (sc.push (.ofClass head.id)) members
  | .function head info params body =>
    (sc, .function head info params body) ::
      (paramsScoped (sc.inFunction head.id params) params ++
        body.scoped (sc.inFunction head.id params))
  | .property head info backing getter setter =>
    (sc, .property head info backing getter setter) ::
      (accessorScoped sc backing ++ accessorScoped sc getter ++ accessorScoped sc setter)
  | .field head info init =>
    (sc, .field head info init) :: optionScoped (sc.push (.ofInitializer head.id)) init
  | .initializer head body =>
    (sc, .initializer head body) ::
      stmtsScoped ((sc.push (.ofInitializer head.id)).push .ofBody) body

def accessorScoped (sc : ScopeStack) : Option Decl → List (ScopeStack × Decl)
  | none => []
  | some d => d.scoped sc

def declsScoped (sc : ScopeStack) : List Decl → List (ScopeStack × Decl)
  | [] => []
  | d :: ds => d.scoped sc ++ declsScoped sc ds

end

mutual

theorem Expr.map_scoped (sc : ScopeStack) : ∀ e : Expr,
    (e.scoped sc).map Prod.snd = declsOf e.nodes
  | .setVar _ _ value => by simp [Expr.scoped, Expr.nodes, value.map_scoped sc]
  | .call _ _ receiver _ args => by
    simp [Expr.scoped, Expr.nodes, map_optionScoped sc receiver, map_argsScoped sc args]
  | .block _ stmts | .returnable _ _ stmts => by
    simp [Expr.scoped, Expr.nodes, map_stmtsScoped _ stmts]
  | .ret _ _ value => by simp [Expr.scoped, Expr.nodes, value.map_scoped sc]
  | .when _ branches otherwise => by
    simp [Expr.scoped, Expr.nodes, map_branchesScoped sc branches, map_optionScoped sc otherwise]
  | .loop _ condition body => by
    simp [Expr.scoped, Expr.nodes, condition.map_scoped sc, body.map_scoped sc]
  | .binary _ _ lhs rhs => by
    simp [Expr.scoped, Expr.nodes, lhs.map_scoped sc, rhs.map_scoped sc]
  | .not _ operand => by simp [Expr.scoped, Expr.nodes, operand.map_scoped sc]
  | .concat _ parts => by simp [Expr.scoped, Expr.nodes, map_exprsScoped sc parts]
  | .lambda _ decl => by simp [Expr.scoped, Expr.nodes, decl.map_scoped sc]
  | .const _ _ | .getVar _ _ | .functionRef _ _ | .propertyRef _ _ | .descriptor _ _
  | .captureFrame _ _ => by simp [Expr.scoped, Expr.nodes]

theorem map_optionScoped (sc : ScopeStack) : ∀ e : Option Expr,
    (optionScoped sc e).map Prod.snd = declsOf (optionNodes e)
  | none => rfl
  | some e => e.map_scoped sc

theorem map_argsScoped (sc : ScopeStack) : ∀ args : List (Option Expr),
    (argsScoped sc args).map Prod.snd = declsOf (argsNodes args)
  | [] => rfl
  | none :: args => map_argsScoped sc args
  | some e :: args => by simp [argsScoped, argsNodes, e.map_scoped sc, map_argsScoped sc args]

theorem map_exprsScoped (sc : ScopeStack) : ∀ es : List Expr,
    (exprsScoped sc es).map Prod.snd = declsOf (exprsNodes es)
  | [] => rfl
  | e :: es => by simp [exprsScoped, exprsNodes, e.map_scoped sc, map_exprsScoped sc es]

theorem map_branchesScoped (sc : ScopeStack) : ∀ branches : List (Expr × Expr),
    (branchesScoped sc branches).map Prod.snd = declsOf (branchesNodes branches)
  | [] => rfl
  | (condition, result) :: branches => by
    simp [branchesScoped, branchesNodes, condition.map_scoped sc, result.map_scoped sc,
      map_branchesScoped sc branches]

theorem map_stmtsScoped (sc : ScopeStack) : ∀ stmts : List Stmt,
    (stmtsScoped sc stmts).map Prod.snd = declsOf (stmtsNodes stmts)
  | [] => rfl
  | stmt :: stmts => by
    simp [stmtsScoped, stmtsNodes, stmt.map_scoped sc, map_stmtsScoped _ stmts]

theorem Stmt.map_scoped (sc : ScopeStack) : ∀ stmt : Stmt,
    (stmt.scoped sc).map Prod.snd = declsOf stmt.nodes
  | .expr e => e.map_scoped sc
  | .var _ init => map_optionScoped sc init
  | .decl d => d.map_scoped sc

theorem map_paramsScoped (sc : ScopeStack) : ∀ params : List Param,
    (paramsScoped sc params).map Prod.snd = declsOf (paramsNodes params)
  | [] => rfl
  | ⟨_, default⟩ :: params => by
    simp [paramsScoped, paramsNodes, map_optionScoped sc default, map_paramsScoped sc params]

theorem Body.map_scoped (sc : ScopeStack) : ∀ body : Body,
    (body.scoped sc).map Prod.snd = declsOf body.nodes
  | .absent => rfl
  | .block stmts => map_stmtsScoped _ stmts
  | .expression e => e.map_scoped sc

theorem Decl.map_scoped (sc : ScopeStack) : ∀ d : Decl,
    (d.scoped sc).map Prod.snd = declsOf d.nodes
  | .classDecl _ _ members => by simp [Decl.scoped, Decl.nodes, map_declsScoped _ members]
  | .function _ _ params body => by
    simp [Decl.scoped, Decl.nodes, map_paramsScoped _ params, body.map_scoped]
  | .property _ _ backing getter setter => by
    simp [Decl.scoped, Decl.nodes, map_accessorScoped sc backing, map_accessorScoped sc getter,
      map_accessorScoped sc setter]
  | .field _ _ init => by simp [Decl.scoped, Decl.nodes, map_optionScoped _ init]
  | .initializer _ body => by simp [Decl.scoped, Decl.nodes, map_stmtsScoped _ body]

theorem map_accessorScoped (sc : ScopeStack) : ∀ d : Option Decl,
    (accessorScoped sc d).map Prod.snd = declsOf (accessorNodes d)
  | none => rfl
  | some d => d.map_scoped sc

theorem map_declsScoped (sc : ScopeStack) : ∀ ds : List Decl,
    (declsScoped sc ds).map Prod.snd = declsOf (declsNodes ds)
  | [] => rfl
  | d :: ds => by simp [declsScoped, declsNodes, d.map_scoped sc, map_declsScoped sc ds]

end

namespace Module

/-- The declarations of all files, own files first. -/
def decls (m : Module) : List Decl := declsOf m.nodes

/-- The declarations of the own files of a module, each with the scopes around it. -/
def ownDecls (m : Module) : List (ScopeStack × Decl) :=
  m.files.flatMap fun f => declsScoped {} f.declarations

/-- The declaration of an own file with an identity, with the scopes around it. -/
def ownDecl? (m : Module) (id : DeclId) : Option (ScopeStack × Decl) :=
  m.ownDecls.find? fun x => x.2.id == id

/-- The identities of all declarations of a module. -/
def declIds (m : Module) : List DeclId := m.decls.map Decl.id

theorem map_ownDecls (m : Module) :
    m.ownDecls.map Prod.snd = m.files.flatMap fun f => declsOf (declsNodes f.declarations) := by
  unfold ownDecls
  rw [List.map_flatMap]
  simp only [map_declsScoped]

/-- The declarations of own files come before those of external ones. -/
theorem decls_eq (m : Module) : m.decls =
    m.ownDecls.map Prod.snd ++ m.external.flatMap fun f => declsOf (declsNodes f.declarations) := by
  rw [map_ownDecls, decls, nodes, allFiles, declsOf, List.filterMap_flatMap, List.flatMap_append]
  rfl

end Module

namespace Interpreter

theorem declIndex_eq (m : Module) :
    declIndex m = (m.decls.map fun d => (d.id, d)).reverse := by
  unfold declIndex Module.decls declsOf
  rw [List.map_filterMap]
  congr 2
  funext n
  cases n <;> rfl

end Interpreter

end TraceWeave

import TraceWeave.Proofs.Tracing.Reads

/-! # Reads with what is bound before them

A read can see the variables that are bound before it in its block, as far as it stands there as a
statement or in a return. Every read of a program is listed here with the variables that it can see;
the stray reads are those that do not see what they read.

* `Module.map_sights`: all reads are listed, in node order.
* `Module.stray_eq`: a read is stray if its variable is not among those that it can see.
-/

namespace TraceWeave

mutual

/-- The reads in an expression, each with the variables bound `here`, before it in the block that it
is a statement of, and those that are `held` for it, before it in the block of its return. -/
def Expr.sights (here held : List VarId) : Expr → List (VarId × List VarId)
  | .getVar _ v => [(v, here ++ held)]
  | .ret _ _ value => value.sights [] (here ++ held)
  | .block _ stmts => stmtsSights [] held stmts
  | .returnable _ _ stmts => stmtsSights [] held stmts
  | .setVar _ _ value => value.sights [] held
  | .call _ _ receiver _ args => optionSights held receiver ++ argsSights held args
  | .when _ branches otherwise => branchesSights held branches ++ optionSights held otherwise
  | .loop _ condition body => condition.sights [] held ++ body.sights [] held
  | .binary _ _ lhs rhs => lhs.sights [] held ++ rhs.sights [] held
  | .not _ operand => operand.sights [] held
  | .concat _ parts => exprsSights held parts
  | .lambda _ decl => decl.sights
  | .const _ _ | .functionRef _ _ | .propertyRef _ _ | .descriptor _ _ | .captureFrame _ _ => []

def optionSights (held : List VarId) : Option Expr → List (VarId × List VarId)
  | none => []
  | some e => e.sights [] held

def argsSights (held : List VarId) : List (Option Expr) → List (VarId × List VarId)
  | [] => []
  | none :: args => argsSights held args
  | some e :: args => e.sights [] held ++ argsSights held args

def exprsSights (held : List VarId) : List Expr → List (VarId × List VarId)
  | [] => []
  | e :: es => e.sights [] held ++ exprsSights held es

def branchesSights (held : List VarId) : List (Expr × Expr) → List (VarId × List VarId)
  | [] => []
  | (condition, result) :: branches =>
    condition.sights [] held ++ result.sights [] held ++ branchesSights held branches

/-- A statement can see what the statements before it bind. -/
def stmtsSights (here held : List VarId) : List Stmt → List (VarId × List VarId)
  | [] => []
  | stmt :: stmts => stmt.sights here held ++ stmtsSights (stmt.binds ++ here) held stmts

def Stmt.sights (here held : List VarId) : Stmt → List (VarId × List VarId)
  | .expr e => e.sights here held
  | .var _ init => optionSights held init
  | .decl d => d.sights

def paramsSights : List Param → List (VarId × List VarId)
  | [] => []
  | ⟨_, default⟩ :: params => optionSights [] default ++ paramsSights params

def Body.sights : Body → List (VarId × List VarId)
  | .absent => []
  | .block stmts => stmtsSights [] [] stmts
  | .expression e => e.sights [] []

def Decl.sights : Decl → List (VarId × List VarId)
  | .classDecl _ _ members => declsSights members
  | .function _ _ params body => paramsSights params ++ body.sights
  | .property _ _ backing getter setter =>
    accessorSights backing ++ accessorSights getter ++ accessorSights setter
  | .field _ _ init => optionSights [] init
  | .initializer _ body => stmtsSights [] [] body

def accessorSights : Option Decl → List (VarId × List VarId)
  | none => []
  | some d => d.sights

def declsSights : List Decl → List (VarId × List VarId)
  | [] => []
  | d :: ds => d.sights ++ declsSights ds

end

def filesSights (fs : List SourceFile) : List (VarId × List VarId) :=
  fs.flatMap fun f => declsSights f.declarations

/-- The reads of a module, each with the variables that it can see. -/
def Module.sights (m : Module) : List (VarId × List VarId) :=
  filesSights m.files ++ filesSights m.external

/-! ## All reads, and the stray ones -/

/-- Sights that list the reads among nodes, of which some are stray. -/
structure Sighted (sights : List (VarId × List VarId)) (stray : List VarId) (nodes : List Node) :
    Prop where
  reads : sights.map Prod.fst = readsOf nodes
  stray : stray = (sights.filter fun read => read.1 ∉ read.2).map Prod.fst

namespace Sighted

variable {xs ys : List (VarId × List VarId)} {us vs : List VarId} {as bs : List Node}

theorem nil : Sighted [] [] [] := ⟨rfl, rfl⟩

theorem append (hx : Sighted xs us as) (hy : Sighted ys vs bs) :
    Sighted (xs ++ ys) (us ++ vs) (as ++ bs) where
  reads := by rw [List.map_append, hx.reads, hy.reads, readsOf_append]
  stray := by rw [List.filter_append, List.map_append, ← hx.stray, ← hy.stray]

/-- In front of a node that reads nothing itself. -/
theorem below {n : Node} (h : Sighted xs us as) (hn : n.read? = none := by rfl) :
    Sighted xs us (n :: as) :=
  ⟨h.reads.trans (List.filterMap_cons_none hn).symm, h.stray⟩

theorem read (v : VarId) (s : Site) (here held : List VarId) :
    Sighted [(v, here ++ held)] (if v ∈ here ∨ v ∈ held then [] else [v]) [.expr (.getVar s v)] where
  reads := rfl
  stray := by
    simp only [← List.mem_append]
    by_cases h : v ∈ here ++ held <;> simp only [h, List.filter_cons, not_true, not_false_iff,
      decide_true, decide_false, if_true, if_false, Bool.false_eq_true] <;> rfl

end Sighted

mutual

-- What a read can see goes down with the recursion exactly as it does for the stray reads.
theorem Expr.sighted : ∀ (e : Expr) (here held : List VarId),
    Sighted (e.sights here held) (e.stray here held) e.nodes
  | .setVar _ _ value => fun _ held => (value.sighted [] held).below
  | .call _ _ receiver _ args => fun _ held =>
    ((option_sighted receiver held).append (args_sighted args held)).below
  | .block _ stmts | .returnable _ _ stmts => fun _ held => (stmts_sighted stmts [] held).below
  | .ret _ _ value => fun here held => (value.sighted [] (here ++ held)).below
  | .when _ branches otherwise => fun _ held =>
    ((branches_sighted branches held).append (option_sighted otherwise held)).below
  | .loop _ condition body => fun _ held =>
    ((condition.sighted [] held).append (body.sighted [] held)).below
  | .binary _ _ lhs rhs => fun _ held => ((lhs.sighted [] held).append (rhs.sighted [] held)).below
  | .not _ operand => fun _ held => (operand.sighted [] held).below
  | .concat _ parts => fun _ held => (exprs_sighted parts held).below
  | .lambda _ decl => fun _ _ => decl.sighted.below
  | .getVar s v => .read v s
  | .const _ _ | .functionRef _ _ | .propertyRef _ _ | .descriptor _ _ | .captureFrame _ _ =>
    fun _ _ => Sighted.nil.below

theorem option_sighted : ∀ (e : Option Expr) (held : List VarId),
    Sighted (optionSights held e) (optionStray held e) (optionNodes e)
  | none => fun _ => .nil
  | some e => e.sighted []

theorem args_sighted : ∀ (args : List (Option Expr)) (held : List VarId),
    Sighted (argsSights held args) (argsStray held args) (argsNodes args)
  | [] => fun _ => .nil
  | none :: args => args_sighted args
  | some e :: args => fun held => (e.sighted [] held).append (args_sighted args held)

theorem exprs_sighted : ∀ (es : List Expr) (held : List VarId),
    Sighted (exprsSights held es) (exprsStray held es) (exprsNodes es)
  | [] => fun _ => .nil
  | e :: es => fun held => (e.sighted [] held).append (exprs_sighted es held)

theorem branches_sighted : ∀ (branches : List (Expr × Expr)) (held : List VarId),
    Sighted (branchesSights held branches) (branchesStray held branches) (branchesNodes branches)
  | [] => fun _ => .nil
  | (condition, result) :: branches => fun held =>
    ((condition.sighted [] held).append (result.sighted [] held)).append
      (branches_sighted branches held)

theorem stmts_sighted : ∀ (stmts : List Stmt) (here held : List VarId),
    Sighted (stmtsSights here held stmts) (stmtsStray here held stmts) (stmtsNodes stmts)
  | [] => fun _ _ => .nil
  | stmt :: stmts => fun here held =>
    (stmt.sighted here held).append (stmts_sighted stmts (stmt.binds ++ here) held)

theorem Stmt.sighted : ∀ (stmt : Stmt) (here held : List VarId),
    Sighted (stmt.sights here held) (stmt.stray here held) stmt.nodes
  | .expr e => e.sighted
  | .var _ init => fun _ held => (option_sighted init held).below
  | .decl d => fun _ _ => d.sighted

theorem params_sighted : ∀ params : List Param,
    Sighted (paramsSights params) (paramsStray params) (paramsNodes params)
  | [] => .nil
  | ⟨_, default⟩ :: params => ((option_sighted default []).append (params_sighted params)).below

theorem Body.sighted : ∀ body : Body, Sighted body.sights body.stray body.nodes
  | .absent => .nil
  | .block stmts => stmts_sighted stmts [] []
  | .expression e => e.sighted [] []

theorem Decl.sighted : ∀ d : Decl, Sighted d.sights d.stray d.nodes
  | .classDecl _ _ members => (decls_sighted members).below
  | .function _ _ params body => ((params_sighted params).append body.sighted).below
  | .property _ _ backing getter setter =>
    (((accessor_sighted backing).append (accessor_sighted getter)).append
      (accessor_sighted setter)).below
  | .field _ _ init => (option_sighted init []).below
  | .initializer _ body => (stmts_sighted body [] []).below

theorem accessor_sighted : ∀ d : Option Decl,
    Sighted (accessorSights d) (accessorStray d) (accessorNodes d)
  | none => .nil
  | some d => d.sighted

theorem decls_sighted : ∀ ds : List Decl, Sighted (declsSights ds) (declsStray ds) (declsNodes ds)
  | [] => .nil
  | d :: ds => d.sighted.append (decls_sighted ds)

end

theorem files_sighted : ∀ fs : List SourceFile,
    Sighted (filesSights fs) (filesStray fs) (filesNodes fs)
  | [] => .nil
  | f :: fs => by
    rw [filesSights, filesStray, filesNodes, List.flatMap_cons, List.flatMap_cons, List.flatMap_cons]
    exact (decls_sighted f.declarations).append (files_sighted fs)

namespace Module

theorem sighted (m : Module) : Sighted m.sights m.stray m.nodes := by
  rw [nodes_eq]
  exact (files_sighted m.files).append (files_sighted m.external)

/-- Every read is listed once. -/
theorem map_sights (m : Module) : m.sights.map Prod.fst = readsOf m.nodes := m.sighted.reads

/-- The stray reads are those that do not see what they read. -/
theorem stray_eq (m : Module) :
    m.stray = (m.sights.filter fun read => read.1 ∉ read.2).map Prod.fst := m.sighted.stray

theorem stray_subset (m : Module) : m.stray ⊆ readsOf m.nodes := by
  rw [stray_eq, ← map_sights]
  exact List.map_subset _ (List.filter_subset_self _)

end Module

end TraceWeave

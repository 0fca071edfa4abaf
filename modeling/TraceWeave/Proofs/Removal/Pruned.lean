import TraceWeave.Pass.Removal
import TraceWeave.Proofs.Program.References
import TraceWeave.Proofs.Tracing.Instrumented

/-! # The declarations of pruned code

Trace calls that do nothing but tell a name declare nothing. So code that they were taken out of has
the declarations that it had before, in the same order, each of them pruned, and with the same
qualified names.

`Removal.prunedDecl` is a declaration afterwards. `Removal.SameOutline` relates a piece of code to
what is left of it, and holds by recursion (`Removal.declsPrune_outline`).
-/

namespace TraceWeave

namespace Removal

/-- Whether an expression is a call with a name for its only operand. -/
def tellsName : Expr → Bool
  | .call _ _ none _ [some (.const _ (.string _))] => true
  | _ => false

theorem exists_of_tellsName {e : Expr} (h : tellsName e) :
    ∃ s callee typeArgs s' name,
      e = .call s callee none typeArgs [some (.const s' (.string name))] := by
  unfold tellsName at h
  split at h
  · exact ⟨_, _, _, _, _, rfl⟩
  · exact absurd h Bool.false_ne_true

/-- The scheduled calls among nodes do nothing but tell a name. -/
def Plain (keys : List CallKey) (nodes : List Node) : Prop :=
  ∀ e owner, .expr e ∈ nodes → isScheduled keys owner e → tellsName e

namespace Plain

variable {keys : List CallKey} {n : Node} {xs ys : List Node}

theorem cons (h : Plain keys (n :: xs)) : Plain keys xs :=
  fun e owner he => h e owner (List.mem_cons_of_mem _ he)

theorem left (h : Plain keys (xs ++ ys)) : Plain keys xs :=
  fun e owner he => h e owner (List.mem_append_left _ he)

theorem right (h : Plain keys (xs ++ ys)) : Plain keys ys :=
  fun e owner he => h e owner (List.mem_append_right _ he)

end Plain

theorem mem_nodes_self (e : Expr) : .expr e ∈ e.nodes := by
  cases e <;> simp [Expr.nodes]

/-- A statement that is taken out. -/
theorem Plain.exists_of_isScheduledStmt {keys : List CallKey} {owner : Option DeclId} {stmt : Stmt}
    (h : Plain keys stmt.nodes) (hstmt : isScheduledStmt keys owner stmt) :
    ∃ e, stmt = .expr e ∧ isScheduled keys owner e ∧ tellsName e := by
  cases stmt with
  | expr e => exact ⟨e, rfl, hstmt, h e owner (mem_nodes_self e) hstmt⟩
  | var | decl => exact absurd hstmt Bool.false_ne_true

variable (keys : List CallKey)

mutual

/-- Code belongs to the declaration right around it, so nothing else matters to a declaration. -/
theorem declPrune_owner (owner owner' : Option DeclId) : ∀ d : Decl,
    declPrune keys owner d = declPrune keys owner' d
  | .classDecl _ _ _ | .function _ _ _ _ | .field _ _ _ | .initializer _ _ => by
    simp only [declPrune]
  | .property _ _ backing getter setter => by
    simp only [declPrune, accessorPrune_owner owner owner' backing,
      accessorPrune_owner owner owner' getter, accessorPrune_owner owner owner' setter]

theorem accessorPrune_owner (owner owner' : Option DeclId) : ∀ d : Option Decl,
    accessorPrune keys owner d = accessorPrune keys owner' d
  | none => by simp only [accessorPrune]
  | some d => by simp only [accessorPrune, declPrune_owner owner owner' d]

end

/-- A declaration without the scheduled calls. -/
def prunedDecl (d : Decl) : Decl := (declPrune keys none d).1

theorem prunedDecl_function (head : DeclHead) (info : FunctionHead) (params : List Param)
    (body : Body) : prunedDecl keys (.function head info params body) =
      .function head info (paramsPrune keys (some head.id) params).1
        (bodyPrune keys (some head.id) body).1 := rfl

theorem isPresent_bodyPrune (owner : Option DeclId) (body : Body) :
    (bodyPrune keys owner body).1.isPresent = body.isPresent := by
  cases body with
  | absent | block => rfl
  | expression e =>
    rw [bodyPrune]
    split <;> rfl

theorem alike_prunedDecl (d : Decl) : d.Alike (prunedDecl keys d) := by
  cases d with
  | function head info params body => exact ⟨rfl, rfl, isPresent_bodyPrune keys _ body⟩
  | classDecl | property | field | initializer => rfl

/-- The declarations and names of a piece of code, against those of the code that is left of it. -/
structure SameOutline (decls decls' : List Decl) (symbols symbols' : SymbolScope → List Symbol) :
    Prop where
  plain : ∀ d ∈ decls, Plain keys d.nodes
  decls : decls' = decls.map (prunedDecl keys)
  names : ∀ sc, (symbols' sc).map Symbol.key = (symbols sc).map Symbol.key

variable {keys}

namespace SameOutline

variable {ns ns' ms ms' : List Node} {symbols symbols' syms syms' : SymbolScope → List Symbol}

theorem empty : SameOutline keys [] [] (fun _ => []) (fun _ => []) :=
  ⟨nofun, rfl, fun _ => rfl⟩

theorem append (h : SameOutline keys (declsOf ns) (declsOf ns') symbols symbols')
    (h' : SameOutline keys (declsOf ms) (declsOf ms') syms syms') :
    SameOutline keys (declsOf (ns ++ ms)) (declsOf (ns' ++ ms')) (fun sc => symbols sc ++ syms sc)
      (fun sc => symbols' sc ++ syms' sc) := by
  constructor
  · rw [declsOf_append]
    exact List.forall_mem_append.mpr ⟨h.plain, h'.plain⟩
  · rw [declsOf_append, declsOf_append, List.map_append, h.decls, h'.decls]
  · intro sc
    rw [List.map_append, List.map_append, h.names, h'.names]

/-- A declaration after those nested in it. -/
theorem decl {owner : Option DeclId} {d : Decl} {inner : SymbolScope → SymbolScope}
    {own own' : SymbolScope → Symbol}
    (h : SameOutline keys (declsOf ns) (declsOf ns') symbols symbols') (hd : Plain keys d.nodes)
    (hsymbols : ∀ sc, d.symbols sc = symbols (inner sc) ++ [own sc])
    (hsymbols' : ∀ sc, (declPrune keys owner d).1.symbols sc = symbols' (inner sc) ++ [own' sc])
    (hkey : ∀ sc, (own' sc).key = (own sc).key) :
    SameOutline keys (d :: declsOf ns) ((declPrune keys owner d).1 :: declsOf ns') d.symbols
      (declPrune keys owner d).1.symbols := by
  constructor
  · exact List.forall_mem_cons.mpr ⟨hd, h.plain⟩
  · rw [List.map_cons, h.decls, prunedDecl, declPrune_owner keys owner none]
  · intro sc
    rw [hsymbols, hsymbols', List.map_append, List.map_append, h.names, List.map_singleton,
      List.map_singleton, hkey]

end SameOutline

mutual

-- The calls that go away tell a name and declare nothing, so outlines are put together from those
-- of the parts that are left.
theorem exprPrune_outline (owner : Option DeclId) : ∀ e : Expr, Plain keys e.nodes →
    SameOutline keys (declsOf e.nodes) (declsOf (exprPrune keys owner e).1.nodes) e.symbols
      (exprPrune keys owner e).1.symbols
  | .const _ _, _ | .getVar _ _, _ | .functionRef _ _, _ | .propertyRef _ _, _
  | .descriptor _ _, _ | .captureFrame _ _, _ => .empty
  | .setVar _ _ value, h => exprPrune_outline owner value h.cons
  | .call _ _ receiver _ args, h =>
    (optionPrune_outline owner receiver h.cons.left).append
      (argsPrune_outline owner args h.cons.right)
  | .block _ stmts, h | .returnable _ _ stmts, h => stmtsPrune_outline owner stmts h.cons
  | .ret _ _ value, h => exprPrune_outline owner value h.cons
  | .when _ branches otherwise, h =>
    (branchesPrune_outline owner branches h.cons.left).append
      (optionPrune_outline owner otherwise h.cons.right)
  | .loop _ condition body, h =>
    (exprPrune_outline owner condition h.cons.left).append (exprPrune_outline owner body h.cons.right)
  | .binary _ _ lhs rhs, h =>
    (exprPrune_outline owner lhs h.cons.left).append (exprPrune_outline owner rhs h.cons.right)
  | .not _ operand, h => exprPrune_outline owner operand h.cons
  | .concat _ parts, h => exprsPrune_outline owner parts h.cons
  | .lambda _ decl, h => declPrune_outline owner decl h.cons

theorem optionPrune_outline (owner : Option DeclId) : ∀ e : Option Expr,
    Plain keys (optionNodes e) → SameOutline keys (declsOf (optionNodes e))
      (declsOf (optionNodes (optionPrune keys owner e).1)) (fun sc => optionSymbols sc e)
      (fun sc => optionSymbols sc (optionPrune keys owner e).1)
  | none, _ => .empty
  | some e, h => exprPrune_outline owner e h

theorem argsPrune_outline (owner : Option DeclId) : ∀ args : List (Option Expr),
    Plain keys (argsNodes args) → SameOutline keys (declsOf (argsNodes args))
      (declsOf (argsNodes (argsPrune keys owner args).1)) (fun sc => argsSymbols sc args)
      (fun sc => argsSymbols sc (argsPrune keys owner args).1)
  | [], _ => .empty
  | none :: args, h => argsPrune_outline owner args h
  | some e :: args, h =>
    (exprPrune_outline owner e h.left).append (argsPrune_outline owner args h.right)

theorem exprsPrune_outline (owner : Option DeclId) : ∀ es : List Expr,
    Plain keys (exprsNodes es) → SameOutline keys (declsOf (exprsNodes es))
      (declsOf (exprsNodes (exprsPrune keys owner es).1)) (fun sc => exprsSymbols sc es)
      (fun sc => exprsSymbols sc (exprsPrune keys owner es).1)
  | [], _ => .empty
  | e :: es, h => (exprPrune_outline owner e h.left).append (exprsPrune_outline owner es h.right)

theorem branchesPrune_outline (owner : Option DeclId) : ∀ branches : List (Expr × Expr),
    Plain keys (branchesNodes branches) → SameOutline keys (declsOf (branchesNodes branches))
      (declsOf (branchesNodes (branchesPrune keys owner branches).1))
      (fun sc => branchesSymbols sc branches)
      (fun sc => branchesSymbols sc (branchesPrune keys owner branches).1)
  | [], _ => .empty
  | (condition, result) :: branches, h =>
    ((exprPrune_outline owner condition h.left.left).append
      (exprPrune_outline owner result h.left.right)).append
        (branchesPrune_outline owner branches h.right)

theorem stmtsPrune_outline (owner : Option DeclId) : ∀ stmts : List Stmt,
    Plain keys (stmtsNodes stmts) → SameOutline keys (declsOf (stmtsNodes stmts))
      (declsOf (stmtsNodes (stmtsPrune keys owner stmts).1)) (fun sc => stmtsSymbols sc stmts)
      (fun sc => stmtsSymbols sc (stmtsPrune keys owner stmts).1)
  | [], _ => .empty
  | stmt :: stmts, h => by
    rw [stmtsPrune]
    split
    · rename_i hstmt
      obtain ⟨e, rfl, -, he⟩ := h.left.exists_of_isScheduledStmt hstmt
      obtain ⟨_, _, _, _, _, rfl⟩ := exists_of_tellsName he
      exact stmtsPrune_outline owner stmts h.right
    · exact (stmtPrune_outline owner stmt h.left).append (stmtsPrune_outline owner stmts h.right)

theorem stmtPrune_outline (owner : Option DeclId) : ∀ stmt : Stmt, Plain keys stmt.nodes →
    SameOutline keys (declsOf stmt.nodes) (declsOf (stmtPrune keys owner stmt).1.nodes) stmt.symbols
      (stmtPrune keys owner stmt).1.symbols
  | .expr e, h => exprPrune_outline owner e h
  | .var _ init, h => optionPrune_outline owner init h.cons
  | .decl d, h => declPrune_outline owner d h

theorem paramsPrune_outline (owner : Option DeclId) : ∀ params : List Param,
    Plain keys (paramsNodes params) → SameOutline keys (declsOf (paramsNodes params))
      (declsOf (paramsNodes (paramsPrune keys owner params).1)) (fun sc => paramsSymbols sc params)
      (fun sc => paramsSymbols sc (paramsPrune keys owner params).1)
  | [], _ => .empty
  | ⟨_, default⟩ :: params, h =>
    (optionPrune_outline owner default h.cons.left).append
      (paramsPrune_outline owner params h.cons.right)

theorem bodyPrune_outline (owner : Option DeclId) : ∀ body : Body, Plain keys body.nodes →
    SameOutline keys (declsOf body.nodes) (declsOf (bodyPrune keys owner body).1.nodes) body.symbols
      (bodyPrune keys owner body).1.symbols
  | .absent, _ => .empty
  | .block stmts, h => stmtsPrune_outline owner stmts h
  | .expression e, h => by
    rw [bodyPrune]
    split
    · rename_i he
      obtain ⟨_, _, _, _, _, rfl⟩ := exists_of_tellsName (h e owner (mem_nodes_self e) he)
      exact .empty
    · exact exprPrune_outline owner e h

theorem declPrune_outline (owner : Option DeclId) : ∀ d : Decl, Plain keys d.nodes →
    SameOutline keys (declsOf d.nodes) (declsOf (declPrune keys owner d).1.nodes) d.symbols
      (declPrune keys owner d).1.symbols
  | .classDecl _ _ members, h =>
    (declsPrune_outline _ members h.cons).decl h (fun _ => rfl) (fun _ => rfl) fun _ => rfl
  | .function _ _ params body, h =>
    ((paramsPrune_outline _ params h.cons.left).append (bodyPrune_outline _ body h.cons.right)).decl
      h (fun _ => rfl) (fun _ => rfl) fun _ => rfl
  | .property _ _ backing getter setter, h =>
    (((accessorPrune_outline owner backing h.cons.left.left).append
      (accessorPrune_outline owner getter h.cons.left.right)).append
        (accessorPrune_outline owner setter h.cons.right)).decl
      h (fun _ => rfl) (fun _ => rfl) fun _ => rfl
  | .field _ _ init, h =>
    (optionPrune_outline _ init h.cons).decl h (fun _ => rfl) (fun _ => rfl) fun _ => rfl
  | .initializer _ body, h =>
    (stmtsPrune_outline _ body h.cons).decl h (fun _ => rfl) (fun _ => rfl) fun _ => rfl

theorem accessorPrune_outline (owner : Option DeclId) : ∀ d : Option Decl,
    Plain keys (accessorNodes d) → SameOutline keys (declsOf (accessorNodes d))
      (declsOf (accessorNodes (accessorPrune keys owner d).1)) (fun sc => accessorSymbols sc d)
      (fun sc => accessorSymbols sc (accessorPrune keys owner d).1)
  | none, _ => .empty
  | some d, h => declPrune_outline owner d h

theorem declsPrune_outline (owner : Option DeclId) : ∀ ds : List Decl,
    Plain keys (declsNodes ds) → SameOutline keys (declsOf (declsNodes ds))
      (declsOf (declsNodes (declsPrune keys owner ds).1)) (fun sc => declsSymbols sc ds)
      (fun sc => declsSymbols sc (declsPrune keys owner ds).1)
  | [], _ => .empty
  | d :: ds, h => (declPrune_outline owner d h.left).append (declsPrune_outline owner ds h.right)

end

end Removal

end TraceWeave

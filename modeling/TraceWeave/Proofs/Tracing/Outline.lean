import TraceWeave.Proofs.Tracing.Woven

/-! # The declarations of woven code

Weaving declares nothing. The declarations of woven code are those of the code before, in the same
order, each of them woven, and with the same qualified names.

`SameDecls` compares the declarations of two pieces of code, `WovenDecls` those of code and of
what it becomes; `Decl.woven_decls` and its companions are the recursion.
-/

namespace TraceWeave

theorem stmtsSymbols_append (sc : SymbolScope) : ∀ xs ys : List Stmt,
    stmtsSymbols sc (xs ++ ys) = stmtsSymbols sc xs ++ stmtsSymbols sc ys
  | [], ys => rfl
  | x :: xs, ys => by
    rw [List.cons_append, stmtsSymbols, stmtsSymbols, stmtsSymbols_append sc xs ys,
      List.append_assoc]

/-- Two pieces of code with the same declarations. -/
structure SameDecls (decls decls' : List Decl) (symbols symbols' : SymbolScope → List Symbol) :
    Prop where
  decls : decls' = decls
  symbols : ∀ sc, symbols' sc = symbols sc

/-- Two expressions with the same declarations. -/
def Expr.SameDecls (e e' : Expr) : Prop :=
  TraceWeave.SameDecls (declsOf e.nodes) (declsOf e'.nodes) e.symbols e'.symbols

namespace Tracing

variable {env : PassEnv} {before : List TraceEvent} {after : Option TraceEvent}

theorem Tells.declsOf_nodes {ev : TraceEvent} {x : Expr} (hx : Tells env ev x) :
    declsOf x.nodes = [] := by
  obtain ⟨id, span, -, rfl⟩ := hx
  cases ev <;> rfl

theorem Tells.symbols {ev : TraceEvent} {x : Expr} (hx : Tells env ev x) (sc : SymbolScope) :
    x.symbols sc = [] := by
  obtain ⟨id, span, -, rfl⟩ := hx
  cases ev <;> rfl

theorem TellsAll.declsOf_nodes {events : List TraceEvent} {stmts : List Stmt}
    (hs : TellsAll env events stmts) : declsOf (stmtsNodes stmts) = [] := by
  induction hs with
  | nil => rfl
  | cons hx _ ih =>
    obtain ⟨x, rfl, hx⟩ := hx
    rw [stmtsNodes, declsOf_append, Stmt.nodes, hx.declsOf_nodes, ih]
    rfl

theorem TellsAll.symbols {events : List TraceEvent} {stmts : List Stmt}
    (hs : TellsAll env events stmts) (sc : SymbolScope) : stmtsSymbols sc stmts = [] := by
  induction hs with
  | nil => rfl
  | cons hx _ ih =>
    obtain ⟨x, rfl, hx⟩ := hx
    rw [stmtsSymbols, Stmt.symbols, hx.symbols, ih]
    rfl

theorem Surrounds.sameDecls {core e' : Expr} (hs : Surrounds env before after core e') :
    core.SameDecls e' := by
  cases hs with
  | quiet hstmts =>
    constructor
    · simp [Lowering.blockWithResult, Expr.nodes, stmtsNodes_append, stmtsNodes, Stmt.nodes,
        hstmts.declsOf_nodes]
    · simp [Lowering.blockWithResult, Expr.symbols, stmtsSymbols_append, stmtsSymbols, Stmt.symbols,
        hstmts.symbols]
  | dropped hstmts hx hty =>
    constructor
    · simp [Lowering.blockWithResult, Expr.nodes, stmtsNodes_append, stmtsNodes, Stmt.nodes,
        hstmts.declsOf_nodes, hx.declsOf_nodes, Expr.unit, Expr.ofConst]
    · simp [Lowering.blockWithResult, Expr.symbols, stmtsSymbols_append, stmtsSymbols, Stmt.symbols,
        hstmts.symbols, hx.symbols, Expr.unit, Expr.ofConst]
  | kept hstmts hx hty =>
    constructor
    · simp [Lowering.blockWithResult, Expr.nodes, stmtsNodes_append, stmtsNodes, Stmt.nodes,
        optionNodes, hstmts.declsOf_nodes, hx.declsOf_nodes]
    · simp [Lowering.blockWithResult, Expr.symbols, stmtsSymbols_append, stmtsSymbols, Stmt.symbols,
        optionSymbols, hstmts.symbols, hx.symbols]

theorem CallWoven.sameDecls {plan : CallPlan} {core e' : Expr} (hc : CallWoven env plan core e') :
    core.SameDecls e' := by
  obtain ⟨-, -, rfl⟩ | hs := hc
  · exact ⟨rfl, fun _ => rfl⟩
  · exact hs.sameDecls

theorem Rewrapped.sameDecls {value value' : Expr} (hr : Rewrapped env value value') :
    value.SameDecls value' := by
  induction hr with
  | refl => exact ⟨rfl, fun _ => rfl⟩
  | step _ hs ih =>
    exact ⟨hs.sameDecls.decls.trans ih.decls,
      fun sc => (hs.sameDecls.symbols sc).trans (ih.symbols sc)⟩

theorem LeaveWoven.sameDecls {leave : Option TraceEvent} {value value' : Expr}
    (hl : LeaveWoven env leave value value') : value.SameDecls value' := by
  unfold LeaveWoven at hl
  split at hl
  · exact hl.sameDecls
  · rw [hl]
    exact ⟨rfl, fun _ => rfl⟩

theorem ReturnWoven.sameDecls {lv : Leaves} {target : ReturnTarget} {value value' : Expr}
    (hr : ReturnWoven env lv target value value') : value.SameDecls value' := by
  unfold ReturnWoven at hr
  split at hr
  · rw [hr]
    exact ⟨rfl, fun _ => rfl⟩
  · exact hr.sameDecls
  · split at hr
    · exact hr.sameDecls
    · exact hr.sameDecls

theorem BodyWoven.sameDecls {own : DeclId} {plan : FunctionPlan} {body body' : Body}
    (hb : BodyWoven env own plan body body') :
    SameDecls (declsOf body.nodes) (declsOf body'.nodes) body.symbols body'.symbols := by
  cases hb with
  | plain => exact ⟨rfl, fun _ => rfl⟩
  | block henters =>
    constructor
    · simp [Body.nodes, stmtsNodes_append, henters.declsOf_nodes]
    · simp [Body.symbols, stmtsSymbols_append, henters.symbols]
  | blockDropped henters _ _ hx =>
    constructor
    · simp [Body.nodes, stmtsNodes_append, stmtsNodes, Stmt.nodes, henters.declsOf_nodes,
        hx.declsOf_nodes]
    · simp [Body.symbols, stmtsSymbols_append, stmtsSymbols, Stmt.symbols, henters.symbols,
        hx.symbols]
  | expression henters =>
    constructor
    · simp [Body.nodes, stmtsNodes_append, stmtsNodes, Stmt.nodes, henters.declsOf_nodes]
    · simp [Body.symbols, stmtsSymbols_append, stmtsSymbols, Stmt.symbols, henters.symbols]
  | expressionDropped henters _ _ hx =>
    constructor
    · simp [Body.nodes, stmtsNodes_append, stmtsNodes, Stmt.nodes, henters.declsOf_nodes,
        hx.declsOf_nodes]
    · simp [Body.symbols, stmtsSymbols_append, stmtsSymbols, Stmt.symbols, henters.symbols,
        hx.symbols]
  | expressionKept henters _ _ hx =>
    constructor
    · simp [Body.nodes, stmtsNodes_append, stmtsNodes, Stmt.nodes, optionNodes, Expr.ofReturn,
        Expr.nodes, henters.declsOf_nodes, hx.declsOf_nodes]
    · simp [Body.symbols, stmtsSymbols_append, stmtsSymbols, Stmt.symbols, optionSymbols,
        Expr.ofReturn, Expr.symbols, henters.symbols, hx.symbols]
  | expressionReturned henters =>
    constructor
    · simp [Body.nodes, stmtsNodes_append, stmtsNodes, Stmt.nodes, Expr.ofReturn, Expr.nodes,
        henters.declsOf_nodes]
    · simp [Body.symbols, stmtsSymbols_append, stmtsSymbols, Stmt.symbols, Expr.ofReturn,
        Expr.symbols, henters.symbols]

end Tracing

/-! ## Declarations and their names -/

open Tracing

/-- What a declaration is found by: its identity and its qualified name. -/
def Symbol.key (s : Symbol) : DeclId × String := (s.id, s.fqName)

/-- The declarations of a piece of code with their scopes, against those of the code that it
becomes. -/
structure WovenDecls (env : PassEnv) (store : Store) (decls : List (ScopeStack × Decl))
    (decls' : List Decl) (symbols symbols' : SymbolScope → List Symbol) : Prop where
  decls : List.Forall₂ (fun x d' => x.2.Woven env store x.1 d') decls decls'
  names : ∀ sc, (symbols' sc).map Symbol.key = (symbols sc).map Symbol.key

namespace WovenDecls

variable {env : PassEnv} {store : Store} {ds es : List (ScopeStack × Decl)} {ns ns' : List Node}
  {symbols symbols' syms syms' : SymbolScope → List Symbol}

theorem empty : WovenDecls env store [] [] (fun _ => []) (fun _ => []) :=
  ⟨.nil, fun _ => rfl⟩

theorem append (h : WovenDecls env store ds (declsOf ns) symbols symbols')
    (h' : WovenDecls env store es (declsOf ns') syms syms') :
    WovenDecls env store (ds ++ es) (declsOf (ns ++ ns')) (fun sc => symbols sc ++ syms sc)
      (fun sc => symbols' sc ++ syms' sc) := by
  constructor
  · rw [declsOf_append]
    exact List.rel_append h.decls h'.decls
  · intro sc
    rw [List.map_append, List.map_append, h.names, h'.names]

theorem trans {ds' ds'' : List Decl} (h : WovenDecls env store ds ds' symbols symbols')
    (hs : SameDecls ds' ds'' symbols' syms) : WovenDecls env store ds ds'' symbols syms := by
  constructor
  · rw [hs.decls]
    exact h.decls
  · intro sc
    rw [hs.symbols, h.names]

/-- A declaration after those nested in it. -/
theorem decl {sc : ScopeStack} {d d' : Decl} {inner : SymbolScope → SymbolScope}
    {own own' : SymbolScope → Symbol} (h : WovenDecls env store ds (declsOf ns) symbols symbols')
    (hd : d.Woven env store sc d') (hsymbols : ∀ sc, d.symbols sc = symbols (inner sc) ++ [own sc])
    (hsymbols' : ∀ sc, d'.symbols sc = symbols' (inner sc) ++ [own' sc])
    (hkey : ∀ sc, (own' sc).key = (own sc).key) :
    WovenDecls env store ((sc, d) :: ds) (d' :: declsOf ns) d.symbols d'.symbols := by
  constructor
  · exact .cons hd h.decls
  · intro sc
    rw [hsymbols, hsymbols', List.map_append, List.map_append, h.names, List.map_singleton,
      List.map_singleton, hkey]

end WovenDecls

section

variable {env : PassEnv} {store : Store}

mutual

-- Hook calls declare nothing, so what was put around a node leaves its declarations to be those of
-- the parts.
theorem Expr.woven_decls : ∀ (e : Expr) (sc : ScopeStack) (lv : Leaves) (e' : Expr),
    e.Woven env store sc lv e' →
      WovenDecls env store (e.scoped sc) (declsOf e'.nodes) e.symbols e'.symbols
  | .const _ _ | .getVar _ _ | .functionRef _ _ | .propertyRef _ _ | .descriptor _ _
  | .captureFrame _ _ => by
    rintro sc lv _ rfl
    exact .empty
  | .setVar _ _ value => by
    rintro sc lv _ ⟨value', hv, rfl⟩
    exact value.woven_decls sc lv value' hv
  | .call _ _ receiver _ args => by
    rintro sc lv _ ⟨receiver', args', hr, ha, -, hc⟩
    exact ((option_woven_decls receiver sc lv receiver' hr).append
      (args_woven_decls args sc lv args' ha)).trans hc.sameDecls
  | .block _ stmts => by
    rintro sc lv _ ⟨stmts', hs, rfl⟩
    exact stmts_woven_decls stmts _ lv stmts' hs
  | .returnable _ _ stmts => by
    rintro sc lv _ ⟨stmts', hs, rfl⟩
    exact stmts_woven_decls stmts _ lv stmts' hs
  | .ret _ _ value => by
    rintro sc lv _ ⟨value', value'', hv, hr, rfl⟩
    exact (value.woven_decls sc lv value' hv).trans hr.sameDecls
  | .when _ branches otherwise => by
    rintro sc lv _ ⟨branches', otherwise', hb, ho, rfl⟩
    exact (branches_woven_decls branches sc lv branches' hb).append
      (option_woven_decls otherwise sc lv otherwise' ho)
  | .loop _ condition body => by
    rintro sc lv _ ⟨condition', body', hc, hb, rfl⟩
    exact (condition.woven_decls sc lv condition' hc).append (body.woven_decls sc lv body' hb)
  | .binary _ _ lhs rhs => by
    rintro sc lv _ ⟨lhs', rhs', hl, hr, rfl⟩
    exact (lhs.woven_decls sc lv lhs' hl).append (rhs.woven_decls sc lv rhs' hr)
  | .not _ operand => by
    rintro sc lv _ ⟨operand', ho, rfl⟩
    exact operand.woven_decls sc lv operand' ho
  | .concat _ parts => by
    rintro sc lv _ ⟨parts', hp, rfl⟩
    exact exprs_woven_decls parts sc lv parts' hp
  | .lambda _ decl => by
    rintro sc lv _ ⟨decl', hd, rfl⟩
    exact decl.woven_decls sc decl' hd

theorem option_woven_decls : ∀ (e : Option Expr) (sc : ScopeStack) (lv : Leaves)
    (e' : Option Expr), optionWoven env store sc lv e e' →
      WovenDecls env store (optionScoped sc e) (declsOf (optionNodes e')) (fun s => optionSymbols s e)
        (fun s => optionSymbols s e')
  | none => by
    rintro sc lv _ rfl
    exact .empty
  | some e => by
    rintro sc lv _ ⟨x, he, rfl⟩
    exact e.woven_decls sc lv x he

theorem args_woven_decls : ∀ (args : List (Option Expr)) (sc : ScopeStack) (lv : Leaves)
    (args' : List (Option Expr)), argsWoven env store sc lv args args' →
      WovenDecls env store (argsScoped sc args) (declsOf (argsNodes args')) (fun s => argsSymbols s args)
        (fun s => argsSymbols s args')
  | [] => by
    rintro sc lv _ rfl
    exact .empty
  | none :: args => by
    rintro sc lv _ ⟨rest, hr, rfl⟩
    exact args_woven_decls args sc lv rest hr
  | some e :: args => by
    rintro sc lv _ ⟨x, rest, he, hr, rfl⟩
    exact (e.woven_decls sc lv x he).append (args_woven_decls args sc lv rest hr)

theorem exprs_woven_decls : ∀ (es : List Expr) (sc : ScopeStack) (lv : Leaves) (es' : List Expr),
    exprsWoven env store sc lv es es' →
      WovenDecls env store (exprsScoped sc es) (declsOf (exprsNodes es')) (fun s => exprsSymbols s es)
        (fun s => exprsSymbols s es')
  | [] => by
    rintro sc lv _ rfl
    exact .empty
  | e :: es => by
    rintro sc lv _ ⟨x, rest, he, hr, rfl⟩
    exact (e.woven_decls sc lv x he).append (exprs_woven_decls es sc lv rest hr)

theorem branches_woven_decls : ∀ (branches : List (Expr × Expr)) (sc : ScopeStack) (lv : Leaves)
    (branches' : List (Expr × Expr)), branchesWoven env store sc lv branches branches' →
      WovenDecls env store (branchesScoped sc branches) (declsOf (branchesNodes branches'))
        (fun s => branchesSymbols s branches) (fun s => branchesSymbols s branches')
  | [] => by
    rintro sc lv _ rfl
    exact .empty
  | (condition, result) :: branches => by
    rintro sc lv _ ⟨x, y, rest, hc, hr, hb, rfl⟩
    exact ((condition.woven_decls sc lv x hc).append (result.woven_decls sc lv y hr)).append
      (branches_woven_decls branches sc lv rest hb)

theorem stmts_woven_decls : ∀ (stmts : List Stmt) (sc : ScopeStack) (lv : Leaves)
    (stmts' : List Stmt), stmtsWoven env store sc lv stmts stmts' →
      WovenDecls env store (stmtsScoped sc stmts) (declsOf (stmtsNodes stmts')) (fun s => stmtsSymbols s stmts)
        (fun s => stmtsSymbols s stmts')
  | [] => by
    rintro sc lv _ rfl
    exact .empty
  | stmt :: stmts => by
    rintro sc lv _ ⟨x, rest, hs, hr, rfl⟩
    exact (stmt.woven_decls sc lv x hs).append (stmts_woven_decls stmts _ lv rest hr)

theorem Stmt.woven_decls : ∀ (stmt : Stmt) (sc : ScopeStack) (lv : Leaves) (stmt' : Stmt),
    stmt.Woven env store sc lv stmt' →
      WovenDecls env store (stmt.scoped sc) (declsOf stmt'.nodes) stmt.symbols stmt'.symbols
  | .expr e => by
    rintro sc lv _ ⟨x, he, rfl⟩
    exact e.woven_decls sc lv x he
  | .var _ init => by
    rintro sc lv _ ⟨init', hi, rfl⟩
    exact option_woven_decls init sc lv init' hi
  | .decl d => by
    rintro sc lv _ ⟨d', hd, rfl⟩
    exact d.woven_decls sc d' hd

theorem params_woven_decls : ∀ (params : List Param) (sc : ScopeStack) (params' : List Param),
    paramsWoven env store sc params params' →
      WovenDecls env store (paramsScoped sc params) (declsOf (paramsNodes params'))
        (fun s => paramsSymbols s params) (fun s => paramsSymbols s params')
  | [] => by
    rintro sc _ rfl
    exact .empty
  | ⟨head, default⟩ :: params => by
    rintro sc _ ⟨default', rest, hd, hr, rfl⟩
    exact (option_woven_decls default sc none default' hd).append
      (params_woven_decls params sc rest hr)

theorem Body.woven_decls : ∀ (body : Body) (sc : ScopeStack) (lv : Leaves) (body' : Body),
    body.Woven env store sc lv body' →
      WovenDecls env store (body.scoped sc) (declsOf body'.nodes) body.symbols body'.symbols
  | .absent => by
    rintro sc lv _ rfl
    exact .empty
  | .block stmts => by
    rintro sc lv _ ⟨stmts', hs, rfl⟩
    exact stmts_woven_decls stmts _ lv stmts' hs
  | .expression e => by
    rintro sc lv _ ⟨x, he, rfl⟩
    exact e.woven_decls sc lv x he

theorem Decl.woven_decls : ∀ (d : Decl) (sc : ScopeStack) (d' : Decl), d.Woven env store sc d' →
    WovenDecls env store (d.scoped sc) (declsOf d'.nodes) d.symbols d'.symbols
  | .classDecl head info members => by
    intro sc d' hd
    have hd' := hd
    obtain ⟨members', hm, rfl⟩ := hd
    exact (decls_woven_decls members _ members' hm).decl hd'
      (fun _ => rfl) (fun _ => rfl) fun _ => rfl
  | .function head info params body => by
    intro sc d' hd
    have hd' := hd
    obtain ⟨params', body', body'', hp, hb, -, hw, rfl⟩ := hd
    exact ((params_woven_decls params _ params' hp).append
      ((body.woven_decls _ _ body' hb).trans hw.sameDecls)).decl hd'
      (fun _ => rfl) (fun _ => rfl) fun _ => rfl
  | .property head info backing getter setter => by
    intro sc d' hd
    have hd' := hd
    obtain ⟨backing', getter', setter', hb, hg, hs, rfl⟩ := hd
    exact (((accessor_woven_decls backing sc backing' hb).append
      (accessor_woven_decls getter sc getter' hg)).append
        (accessor_woven_decls setter sc setter' hs)).decl hd'
      (fun _ => rfl) (fun _ => rfl) fun _ => rfl
  | .field head info init => by
    intro sc d' hd
    have hd' := hd
    obtain ⟨init', hi, rfl⟩ := hd
    exact (option_woven_decls init _ none init' hi).decl hd'
      (fun _ => rfl) (fun _ => rfl) fun _ => rfl
  | .initializer head body => by
    intro sc d' hd
    have hd' := hd
    obtain ⟨body', hb, rfl⟩ := hd
    exact (stmts_woven_decls body _ none body' hb).decl hd'
      (fun _ => rfl) (fun _ => rfl) fun _ => rfl

theorem accessor_woven_decls : ∀ (d : Option Decl) (sc : ScopeStack) (d' : Option Decl),
    accessorWoven env store sc d d' →
      WovenDecls env store (accessorScoped sc d) (declsOf (accessorNodes d')) (fun s => accessorSymbols s d)
        (fun s => accessorSymbols s d')
  | none => by
    rintro sc _ rfl
    exact .empty
  | some d => by
    rintro sc _ ⟨x, hd, rfl⟩
    exact d.woven_decls sc x hd

theorem decls_woven_decls : ∀ (ds : List Decl) (sc : ScopeStack) (ds' : List Decl),
    declsWoven env store sc ds ds' →
      WovenDecls env store (declsScoped sc ds) (declsOf (declsNodes ds')) (fun s => declsSymbols s ds)
        (fun s => declsSymbols s ds')
  | [] => by
    rintro sc _ rfl
    exact .empty
  | d :: ds => by
    rintro sc _ ⟨x, rest, hd, hr, rfl⟩
    exact (d.woven_decls sc x hd).append (decls_woven_decls ds sc rest hr)

end

end

end TraceWeave

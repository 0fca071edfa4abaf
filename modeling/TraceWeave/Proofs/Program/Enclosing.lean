import Mathlib.Data.List.Nodup
import TraceWeave.Proofs.Program.Accounts
import TraceWeave.Proofs.Program.Nesting

/-! # Where declarations stand

What a program says about the nesting of its declarations, read off the nodes that a look through it
comes by, and not off the builder of the index: which declarations are around another one, the order
in which declarations are left, the qualified name that follows from the nesting, and the variables
that code declares outside of nested declarations. The index says the same in every respect.

* `Module.enclosing`, `Module.qualifiedName`, `outerNodes`: what the program says.
* `PieceLayout`: one induction over the program that lists symbols, variables and nodes at once.
* `SymbolTable.index_faithful`: the index agrees.
-/

namespace TraceWeave

/-! ## Nesting, read off the nodes -/

/-- The declarations inside a declaration, in node order. -/
def Decl.inner (d : Decl) : List Decl := declsOf d.innerNodes

/-- Whether a declaration stands somewhere inside this one. -/
def Decl.encloses (e d : Decl) : Bool := decide (d.id ∈ e.inner.map Decl.id)

/-- Those of some declarations that are around a declaration, given in node order, innermost
first. -/
def enclosingIn (ds : List Decl) (d : Decl) : List Decl := (ds.filter (·.encloses d)).reverse

/-- Declarations that come in node order, each with those inside it, in the order in which a look
through the program leaves them. -/
def closingOrder : List Decl → List Decl
  | [] => []
  | d :: ds => closingOrder (ds.take d.inner.length) ++ d :: closingOrder (ds.drop d.inner.length)
termination_by ds => ds.length
decreasing_by
  · simp only [List.length_take, List.length_cons]
    omega
  · simp only [List.length_drop, List.length_cons]
    omega

/-- The nodes that are not in a declaration among them. -/
def outerNodes : List Node → List Node
  | [] => []
  | .decl d :: ns => outerNodes (ns.drop d.innerNodes.length)
  | .param head :: ns => .param head :: outerNodes ns
  | .var head :: ns => .var head :: outerNodes ns
  | .expr e :: ns => .expr e :: outerNodes ns
termination_by ns => ns.length
decreasing_by
  all_goals
    simp only [List.length_drop, List.length_cons]
    omega

/-- The variable that a node declares. -/
def Node.var? : Node → Option VarHead
  | .var head => some head
  | _ => none

theorem declsOf_nodes (d : Decl) : declsOf d.nodes = d :: d.inner := by
  rw [d.nodes_eq_cons, declsOf_decl, Decl.inner]

theorem closingOrder_decl (d : Decl) (ds : List Decl) :
    closingOrder (d :: (d.inner ++ ds)) = closingOrder d.inner ++ d :: closingOrder ds := by
  rw [closingOrder, List.take_left, List.drop_left]

theorem outerNodes_decl (d : Decl) (ns : List Node) :
    outerNodes (d.nodes ++ ns) = outerNodes ns := by
  rw [d.nodes_eq_cons, List.cons_append, outerNodes, List.drop_left]

/-- Every declaration is left once. -/
theorem closingOrder_perm (ds : List Decl) : (closingOrder ds).Perm ds := by
  induction ds using closingOrder.induct with
  | case1 => rw [closingOrder]
  | case2 d ds ihtake ihdrop =>
    rw [closingOrder]
    have hmiddle := (ihtake.append (ihdrop.cons d)).trans List.perm_middle
    rwa [List.take_append_drop] at hmiddle

/-! ### Declarations around a declaration -/

/-- Declarations that come with all declarations inside them. -/
def ClosedInside (ds : List Decl) : Prop := ∀ e ∈ ds, ∀ d ∈ e.inner, d ∈ ds

section

variable {ds es : List Decl} {d e : Decl}

theorem Decl.encloses_iff : e.encloses d ↔ d.id ∈ e.inner.map Decl.id := decide_eq_true_iff

theorem mem_enclosingIn : e ∈ enclosingIn ds d ↔ e ∈ ds ∧ e.encloses d := by
  unfold enclosingIn
  rw [List.mem_reverse, List.mem_filter]

theorem enclosingIn_append : enclosingIn (ds ++ es) d = enclosingIn es d ++ enclosingIn ds d := by
  unfold enclosingIn
  rw [List.filter_append, List.reverse_append]

/-- Nothing encloses what is not there. -/
theorem enclosingIn_of_not_mem (hclosed : ClosedInside ds) (hd : d.id ∉ ds.map Decl.id) :
    enclosingIn ds d = [] := by
  refine List.eq_nil_iff_forall_not_mem.mpr fun e he => hd ?_
  obtain ⟨hmem, hencloses⟩ := mem_enclosingIn.mp he
  obtain ⟨d', hd', hid⟩ := List.mem_map.mp (Decl.encloses_iff.mp hencloses)
  exact List.mem_map.mpr ⟨d', hclosed e hmem d' hd', hid⟩

theorem ClosedInside.append (hds : ClosedInside ds) (hes : ClosedInside es) :
    ClosedInside (ds ++ es) := by
  intro e he d hd
  rcases List.mem_append.mp he with he | he
  · exact List.mem_append_left _ (hds e he d hd)
  · exact List.mem_append_right _ (hes e he d hd)

theorem enclosingIn_left (hes : ClosedInside es) (hn : ((ds ++ es).map Decl.id).Nodup)
    (hd : d ∈ ds) : enclosingIn (ds ++ es) d = enclosingIn ds d := by
  rw [List.map_append] at hn
  have hne : d.id ∉ es.map Decl.id := fun hmem =>
    (List.nodup_append.mp hn).2.2 d.id (List.mem_map_of_mem hd) d.id hmem rfl
  rw [enclosingIn_append, enclosingIn_of_not_mem hes hne, List.nil_append]

theorem enclosingIn_right (hds : ClosedInside ds) (hn : ((ds ++ es).map Decl.id).Nodup)
    (hd : d ∈ es) : enclosingIn (ds ++ es) d = enclosingIn es d := by
  rw [List.map_append] at hn
  have hne : d.id ∉ ds.map Decl.id := fun hmem =>
    (List.nodup_append.mp hn).2.2 d.id hmem d.id (List.mem_map_of_mem hd) rfl
  rw [enclosingIn_append, enclosingIn_of_not_mem hds hne, List.append_nil]

/-- The identities inside a declaration and behind it. -/
theorem nodup_of_cons_append (hn : ((e :: ds ++ es).map Decl.id).Nodup) :
    (ds.map Decl.id).Nodup ∧ (es.map Decl.id).Nodup := by
  rw [List.cons_append, List.map_cons, List.map_append] at hn
  have hall := List.nodup_append.mp (List.nodup_cons.mp hn).2
  exact ⟨hall.1, hall.2.1⟩

theorem ClosedInside.cons (hclosed : ClosedInside d.inner) : ClosedInside (d :: d.inner) := by
  intro e he d' hd'
  rcases List.mem_cons.mp he with rfl | he
  · exact List.mem_cons_of_mem _ hd'
  · exact List.mem_cons_of_mem _ (hclosed e he d' hd')

/-- What stands in a declaration or behind it is not around it. -/
theorem enclosingIn_self (hclosed : ClosedInside e.inner) (hes : ClosedInside es)
    (hn : ((e :: e.inner ++ es).map Decl.id).Nodup) : enclosingIn (e :: e.inner ++ es) e = [] := by
  have hin : e.id ∉ e.inner.map Decl.id := fun hmem => by
    rw [List.cons_append, List.map_cons, List.nodup_cons, List.map_append] at hn
    exact hn.1 (List.mem_append_left _ hmem)
  have hself : e.encloses e = false := decide_eq_false hin
  rw [enclosingIn_left hes hn List.mem_cons_self, ← List.singleton_append, enclosingIn_append,
    enclosingIn_of_not_mem hclosed hin, enclosingIn, List.filter_singleton, hself]
  rfl

/-- A declaration is the outermost one around those inside it. -/
theorem enclosingIn_inside (hes : ClosedInside es)
    (hn : ((e :: e.inner ++ es).map Decl.id).Nodup) (hd : d ∈ e.inner) :
    enclosingIn (e :: e.inner ++ es) d = enclosingIn e.inner d ++ [e] := by
  have hencloses : e.encloses d = true := Decl.encloses_iff.mpr (List.mem_map_of_mem hd)
  rw [enclosingIn_left hes hn (List.mem_cons_of_mem _ hd), ← List.singleton_append,
    enclosingIn_append, enclosingIn, enclosingIn, List.filter_singleton, hencloses]
  rfl

end

/-! ## The index and the nodes -/

/-- The scope below declarations, given innermost first. -/
def SymbolScope.below (sc : SymbolScope) (around : List Decl) : SymbolScope :=
  around.foldr (fun d sc => sc.entering d) sc

theorem SymbolScope.below_concat (sc : SymbolScope) (around : List Decl) (d : Decl) :
    sc.below (around ++ [d]) = (sc.entering d).below around := by
  unfold below
  rw [List.foldr_append]
  rfl

/-- The symbols, the variables outside of nested declarations, and the nodes of a piece of tree. -/
inductive PieceLayout : SymbolScope → List Symbol → List VarHead → List Node → Prop
  | nil (sc : SymbolScope) : PieceLayout sc [] [] []
  | expr {sc : SymbolScope} {xs : List Symbol} {vs : List VarHead} {ns : List Node} (e : Expr)
      (h : PieceLayout sc xs vs ns) : PieceLayout sc xs vs (.expr e :: ns)
  | var {sc : SymbolScope} {xs : List Symbol} {vs : List VarHead} {ns : List Node} (head : VarHead)
      (h : PieceLayout sc xs vs ns) : PieceLayout sc xs (head :: vs) (.var head :: ns)
  | param {sc : SymbolScope} {xs : List Symbol} {vs : List VarHead} {ns : List Node}
      (head : ParamHead) (h : PieceLayout sc xs vs ns) : PieceLayout sc xs vs (.param head :: ns)
  | decl {sc : SymbolScope} {xs ys : List Symbol} {us vs : List VarHead} {ns : List Node} (d : Decl)
      (hinside : PieceLayout (sc.entering d) xs us d.innerNodes) (h : PieceLayout sc ys vs ns) :
      PieceLayout sc (xs ++ sc.declared d :: ys) vs (d.nodes ++ ns)

/-- A layout where it does not count which variables there are. -/
def LaidOut (sc : SymbolScope) (symbols : List Symbol) (nodes : List Node) : Prop :=
  ∃ vs, PieceLayout sc symbols vs nodes

section

variable {sc : SymbolScope} {xs ys : List Symbol} {us vs : List VarHead} {ns ms : List Node}

theorem PieceLayout.append (hx : PieceLayout sc xs us ns) (hy : PieceLayout sc ys vs ms) :
    PieceLayout sc (xs ++ ys) (us ++ vs) (ns ++ ms) := by
  induction hx with
  | nil => exact hy
  | expr e _ ih => exact .expr e (ih hy)
  | var head _ ih => exact .var head (ih hy)
  | param head _ ih => exact .param head (ih hy)
  | decl d hinside _ _ ih =>
    rw [List.append_assoc, List.append_assoc, List.cons_append]
    exact .decl d hinside (ih hy)

theorem LaidOut.append (hx : LaidOut sc xs ns) (hy : LaidOut sc ys ms) :
    LaidOut sc (xs ++ ys) (ns ++ ms) := by
  obtain ⟨us, hx⟩ := hx
  obtain ⟨vs, hy⟩ := hy
  exact ⟨us ++ vs, hx.append hy⟩

/-- A declaration by itself. -/
theorem LaidOut.decl (d : Decl) (h : LaidOut (sc.entering d) xs d.innerNodes) :
    PieceLayout sc (xs ++ [sc.declared d]) [] d.nodes := by
  obtain ⟨us, h⟩ := h
  have hd := PieceLayout.decl d h (.nil sc)
  rwa [List.append_nil] at hd

end

mutual

-- Only a declaration changes the layout. All other nodes put the layouts of their parts one behind
-- the other.
theorem Expr.layout (sc : SymbolScope) : ∀ e : Expr, PieceLayout sc (e.symbols sc) e.locals e.nodes
  | .setVar _ _ value => .expr _ (value.layout sc)
  | .call _ _ receiver _ args => .expr _ ((option_layout sc receiver).append (args_layout sc args))
  | .block _ stmts | .returnable _ _ stmts => .expr _ (stmts_layout sc stmts)
  | .ret _ _ value => .expr _ (value.layout sc)
  | .when _ branches otherwise =>
    .expr _ ((branches_layout sc branches).append (option_layout sc otherwise))
  | .loop _ condition body => .expr _ ((condition.layout sc).append (body.layout sc))
  | .binary _ _ lhs rhs => .expr _ ((lhs.layout sc).append (rhs.layout sc))
  | .not _ operand => .expr _ (operand.layout sc)
  | .concat _ parts => .expr _ (exprs_layout sc parts)
  | .lambda _ decl => .expr _ (decl.layout sc)
  | .const _ _ | .getVar _ _ | .functionRef _ _ | .propertyRef _ _ | .descriptor _ _
  | .captureFrame _ _ => .expr _ (.nil sc)

theorem option_layout (sc : SymbolScope) : ∀ e : Option Expr,
    PieceLayout sc (optionSymbols sc e) (optionLocals e) (optionNodes e)
  | none => .nil sc
  | some e => e.layout sc

theorem args_layout (sc : SymbolScope) : ∀ args : List (Option Expr),
    PieceLayout sc (argsSymbols sc args) (argsLocals args) (argsNodes args)
  | [] => .nil sc
  | none :: args => args_layout sc args
  | some e :: args => (e.layout sc).append (args_layout sc args)

theorem exprs_layout (sc : SymbolScope) : ∀ es : List Expr,
    PieceLayout sc (exprsSymbols sc es) (exprsLocals es) (exprsNodes es)
  | [] => .nil sc
  | e :: es => (e.layout sc).append (exprs_layout sc es)

theorem branches_layout (sc : SymbolScope) : ∀ branches : List (Expr × Expr),
    PieceLayout sc (branchesSymbols sc branches) (branchesLocals branches) (branchesNodes branches)
  | [] => .nil sc
  | (condition, result) :: branches =>
    ((condition.layout sc).append (result.layout sc)).append (branches_layout sc branches)

theorem stmts_layout (sc : SymbolScope) : ∀ stmts : List Stmt,
    PieceLayout sc (stmtsSymbols sc stmts) (stmtsLocals stmts) (stmtsNodes stmts)
  | [] => .nil sc
  | stmt :: stmts => (stmt.layout sc).append (stmts_layout sc stmts)

theorem Stmt.layout (sc : SymbolScope) : ∀ stmt : Stmt,
    PieceLayout sc (stmt.symbols sc) stmt.locals stmt.nodes
  | .expr e => e.layout sc
  | .var head init => .var head (option_layout sc init)
  | .decl d => d.layout sc

theorem params_layout (sc : SymbolScope) : ∀ params : List Param,
    LaidOut sc (paramsSymbols sc params) (paramsNodes params)
  | [] => ⟨[], .nil sc⟩
  | ⟨head, default⟩ :: params => by
    obtain ⟨vs, hparams⟩ := params_layout sc params
    exact ⟨optionLocals default ++ vs, .param head ((option_layout sc default).append hparams)⟩

theorem Body.layout (sc : SymbolScope) : ∀ body : Body,
    PieceLayout sc (body.symbols sc) body.locals body.nodes
  | .absent => .nil sc
  | .block stmts => stmts_layout sc stmts
  | .expression e => e.layout sc

theorem Decl.layout (sc : SymbolScope) : ∀ d : Decl, PieceLayout sc (d.symbols sc) [] d.nodes
  | .classDecl _ _ members => LaidOut.decl _ ⟨[], decls_layout _ members⟩
  | .function _ _ params body =>
    LaidOut.decl _ ((params_layout _ params).append ⟨body.locals, body.layout _⟩)
  | .property _ _ backing getter setter =>
    LaidOut.decl _ ⟨[], ((accessor_layout _ backing).append (accessor_layout _ getter)).append
      (accessor_layout _ setter)⟩
  | .field _ _ init => LaidOut.decl _ ⟨_, option_layout _ init⟩
  | .initializer _ body => LaidOut.decl _ ⟨_, stmts_layout _ body⟩

theorem accessor_layout (sc : SymbolScope) : ∀ d : Option Decl,
    PieceLayout sc (accessorSymbols sc d) [] (accessorNodes d)
  | none => .nil sc
  | some d => d.layout sc

theorem decls_layout (sc : SymbolScope) : ∀ ds : List Decl,
    PieceLayout sc (declsSymbols sc ds) [] (declsNodes ds)
  | [] => .nil sc
  | d :: ds => (d.layout sc).append (decls_layout sc ds)

end

namespace PieceLayout

variable {sc : SymbolScope} {xs : List Symbol} {vs : List VarHead} {ns : List Node}

theorem declsOf_decl (d : Decl) (ns : List Node) :
    declsOf (d.nodes ++ ns) = d :: d.inner ++ declsOf ns := by
  rw [declsOf_append, declsOf_nodes]

/-- The variables outside of nested declarations. -/
theorem locals_eq (h : PieceLayout sc xs vs ns) : vs = (outerNodes ns).filterMap Node.var? := by
  induction h with
  | nil => rw [outerNodes, List.filterMap_nil]
  | expr e _ ih => rw [ih, outerNodes, List.filterMap_cons_none rfl]
  | var head _ ih =>
    rw [ih, outerNodes]
    exact (List.filterMap_cons_some (f := Node.var?) rfl).symm
  | param head _ ih => rw [ih, outerNodes, List.filterMap_cons_none rfl]
  | decl d _ _ _ ih => rw [ih, outerNodes_decl]

/-- A piece of tree comes with all that is inside its declarations. -/
theorem closedInside (h : PieceLayout sc xs vs ns) : ClosedInside (declsOf ns) := by
  induction h with
  | nil => exact fun e he => nomatch he
  | expr e _ ih => exact ih
  | var head _ ih => exact ih
  | param head _ ih => exact ih
  | decl d _ _ ihinside ih =>
    rw [declsOf_decl]
    exact ClosedInside.append ihinside.cons ih

/-- What comes behind a piece of tree is left after it. -/
theorem closingOrder_append (h : PieceLayout sc xs vs ns) (ds : List Decl) :
    closingOrder (declsOf ns ++ ds) = closingOrder (declsOf ns) ++ closingOrder ds := by
  induction h with
  | nil => rw [declsOf_nil, List.nil_append, closingOrder, List.nil_append]
  | expr e _ ih => exact ih
  | var head _ ih => exact ih
  | param head _ ih => exact ih
  | decl d _ _ _ ih =>
    rw [declsOf_decl, List.cons_append, List.cons_append, List.append_assoc, closingOrder_decl, ih,
      closingOrder_decl, List.append_assoc, List.cons_append]

/-- Around the innermost declaration around a declaration are the other ones. -/
theorem enclosing_tail (h : PieceLayout sc xs vs ns) (hn : ((declsOf ns).map Decl.id).Nodup)
    {d e : Decl} {rest : List Decl} (hd : d ∈ declsOf ns)
    (haround : enclosingIn (declsOf ns) d = e :: rest) : enclosingIn (declsOf ns) e = rest := by
  induction h generalizing d rest with
  | nil => exact nomatch hd
  | expr _ _ ih => exact ih hn hd haround
  | var _ _ ih => exact ih hn hd haround
  | param _ _ ih => exact ih hn hd haround
  | decl p hinside h ihinside ih =>
    rw [declsOf_decl] at hn hd haround ⊢
    have hes := h.closedInside
    -- The declaration is `p` itself, stands inside of it, or behind it.
    rcases List.mem_append.mp hd with hd | hd
    · rcases List.mem_cons.mp hd with rfl | hd
      · rw [enclosingIn_self hinside.closedInside hes hn] at haround
        exact nomatch haround
      · have hinner := nodup_of_cons_append hn
        rw [enclosingIn_inside hes hn hd] at haround
        -- Inside of `p` the innermost one around it is `p`, or one further in that `p` encloses in
        -- turn.
        cases hin : enclosingIn p.inner d with
        | nil =>
          rw [hin] at haround
          obtain ⟨rfl, rfl⟩ := List.cons.inj haround
          exact enclosingIn_self hinside.closedInside hes hn
        | cons f fs =>
          rw [hin, List.cons_append] at haround
          obtain ⟨rfl, rfl⟩ := List.cons.inj haround
          have hf : f ∈ p.inner := (mem_enclosingIn.mp (hin ▸ List.mem_cons_self)).1
          rw [enclosingIn_inside hes hn hf]
          exact congrArg (· ++ [p]) (ihinside hinner.1 hd hin)
    · have hclosed := hinside.closedInside.cons
      rw [enclosingIn_right hclosed hn hd] at haround
      have he : e ∈ declsOf _ := (mem_enclosingIn.mp (haround ▸ List.mem_cons_self)).1
      rw [enclosingIn_right hclosed hn he]
      exact ih (nodup_of_cons_append hn).2 hd haround

/-- The symbols of the declarations, in the order in which these are left, each below the
declarations around it. -/
theorem symbols_eq (h : PieceLayout sc xs vs ns) (hn : ((declsOf ns).map Decl.id).Nodup) :
    xs = (closingOrder (declsOf ns)).map fun d =>
      (sc.below (enclosingIn (declsOf ns) d)).declared d := by
  induction h with
  | nil => rw [declsOf_nil, closingOrder, List.map_nil]
  | expr _ _ ih => exact ih hn
  | var _ _ ih => exact ih hn
  | param _ _ ih => exact ih hn
  | @decl sc xs ys us vs ns p hinside h ihinside ih =>
    rw [declsOf_decl] at hn ⊢
    have hes := h.closedInside
    rw [List.cons_append, closingOrder_decl, List.map_append, List.map_cons, ← List.cons_append]
    -- What stands inside of `p` is entered with `p` as its outermost declaration; what stands
    -- behind it does not see `p`.
    have hleft : ∀ d ∈ closingOrder p.inner,
        (sc.below (enclosingIn (p :: p.inner ++ declsOf ns) d)).declared d =
          ((sc.entering p).below (enclosingIn p.inner d)).declared d := by
      intro d hd
      rw [enclosingIn_inside hes hn ((closingOrder_perm p.inner).mem_iff.mp hd),
        SymbolScope.below_concat]
    have hright : ∀ d ∈ closingOrder (declsOf ns),
        (sc.below (enclosingIn (p :: p.inner ++ declsOf ns) d)).declared d =
          (sc.below (enclosingIn (declsOf ns) d)).declared d := by
      intro d hd
      rw [enclosingIn_right hinside.closedInside.cons hn ((closingOrder_perm _).mem_iff.mp hd)]
    rw [List.map_congr_left hleft, List.map_congr_left hright,
      enclosingIn_self hinside.closedInside hes hn]
    exact congrArg₂ (fun as bs => as ++ sc.declared p :: bs) (ihinside (nodup_of_cons_append hn).1)
      (ih (nodup_of_cons_append hn).2)

end PieceLayout

/-! ## Files -/

/-- The declarations of files, with the scopes that they stand in. -/
abbrev Sections := List (SymbolScope × List Decl)

namespace Sections

def decls (secs : Sections) : List Decl := secs.flatMap fun x => declsOf (declsNodes x.2)

def symbols (secs : Sections) : List Symbol := secs.flatMap fun x => declsSymbols x.1 x.2

/-- The scope of the file that a declaration stands in. -/
def scopeOf (secs : Sections) (d : Decl) : SymbolScope :=
  ((secs.find? fun x => d.id ∈ (declsOf (declsNodes x.2)).map Decl.id).map Prod.fst).getD default

theorem closedInside : ∀ secs : Sections, ClosedInside secs.decls
  | [] => fun _ he => nomatch he
  | (sc, ds) :: secs => (decls_layout sc ds).closedInside.append (closedInside secs)

theorem scopeOf_cons {sc : SymbolScope} {ds : List Decl} {secs : Sections} {d : Decl}
    (hd : d ∈ declsOf (declsNodes ds)) : scopeOf ((sc, ds) :: secs) d = sc := by
  unfold scopeOf
  rw [List.find?_cons_of_pos (by simpa using List.mem_map_of_mem (f := Decl.id) hd)]
  rfl

theorem scopeOf_cons_of_not_mem {sc : SymbolScope} {ds : List Decl} {secs : Sections} {d : Decl}
    (hd : d.id ∉ (declsOf (declsNodes ds)).map Decl.id) :
    scopeOf ((sc, ds) :: secs) d = scopeOf secs d := by
  unfold scopeOf
  rw [List.find?_cons_of_neg (by simpa using hd)]

/-- The symbols of files: one for each declaration, in the order in which these are left. -/
theorem symbols_eq : ∀ secs : Sections, (secs.decls.map Decl.id).Nodup →
    secs.symbols = (closingOrder secs.decls).map fun d =>
      ((secs.scopeOf d).below (enclosingIn secs.decls d)).declared d
  | [], _ => by rw [show decls [] = [] from rfl, closingOrder]; rfl
  | (sc, ds) :: secs, hn => by
    have hsplit : decls ((sc, ds) :: secs) = declsOf (declsNodes ds) ++ decls secs := rfl
    have hlayout := decls_layout sc ds
    rw [hsplit] at hn ⊢
    obtain ⟨hds, hsecs, hdisjoint⟩ := List.nodup_append.mp (List.map_append ▸ hn)
    have hleft : ∀ d ∈ closingOrder (declsOf (declsNodes ds)),
        ((scopeOf ((sc, ds) :: secs) d).below
          (enclosingIn (declsOf (declsNodes ds) ++ decls secs) d)).declared d =
        (sc.below (enclosingIn (declsOf (declsNodes ds)) d)).declared d := by
      intro d hd
      have hd := (closingOrder_perm _).mem_iff.mp hd
      rw [scopeOf_cons hd, enclosingIn_left (closedInside secs) hn hd]
    have hright : ∀ d ∈ closingOrder (decls secs),
        ((scopeOf ((sc, ds) :: secs) d).below
          (enclosingIn (declsOf (declsNodes ds) ++ decls secs) d)).declared d =
        ((scopeOf secs d).below (enclosingIn (decls secs) d)).declared d := by
      intro d hd
      have hd := (closingOrder_perm _).mem_iff.mp hd
      have hnot : d.id ∉ (declsOf (declsNodes ds)).map Decl.id := fun hmem =>
        hdisjoint d.id hmem d.id (List.mem_map_of_mem hd) rfl
      rw [scopeOf_cons_of_not_mem hnot, enclosingIn_right hlayout.closedInside hn hd]
    rw [hlayout.closingOrder_append, List.map_append, List.map_congr_left hleft,
      List.map_congr_left hright]
    exact congrArg₂ (· ++ ·) (hlayout.symbols_eq hds) (symbols_eq secs hsecs)

/-- Around the innermost declaration around a declaration are the other ones. -/
theorem enclosing_tail {d e : Decl} {rest : List Decl} : ∀ secs : Sections,
    (secs.decls.map Decl.id).Nodup → d ∈ secs.decls →
      enclosingIn secs.decls d = e :: rest → enclosingIn secs.decls e = rest
  | [], _, hd, _ => nomatch hd
  | (sc, ds) :: secs, hn, hd, haround => by
    have hsplit : decls ((sc, ds) :: secs) = declsOf (declsNodes ds) ++ decls secs := rfl
    have hlayout := decls_layout sc ds
    rw [hsplit] at hn hd haround ⊢
    obtain ⟨hds, hsecs, -⟩ := List.nodup_append.mp (List.map_append ▸ hn)
    rcases List.mem_append.mp hd with hd | hd
    · rw [enclosingIn_left (closedInside secs) hn hd] at haround
      have he := (mem_enclosingIn.mp (haround ▸ List.mem_cons_self)).1
      rw [enclosingIn_left (closedInside secs) hn he]
      exact hlayout.enclosing_tail hds hd haround
    · rw [enclosingIn_right hlayout.closedInside hn hd] at haround
      have he := (mem_enclosingIn.mp (haround ▸ List.mem_cons_self)).1
      rw [enclosingIn_right hlayout.closedInside hn he]
      exact enclosing_tail secs hsecs hd haround

end Sections

/-! ## The index of a module -/

namespace Module

/-- The declarations of the own files and then of the external ones. -/
def sections (m : Module) : Sections :=
  m.files.map (fun f =>
      ({ file := f.id, external := false, scope := f.package }, f.declarations)) ++
    m.external.map fun f =>
      ({ file := f.id, external := true, scope := f.package }, f.declarations)

/-- The declarations around a declaration, innermost first. -/
def enclosing (m : Module) (d : Decl) : List Decl := enclosingIn m.decls d

/-- The file, the dependency mark and the package of a declaration. -/
def scopeOf (m : Module) (d : Decl) : SymbolScope := m.sections.scopeOf d

/-- The package, the names of the declarations around a declaration, and its own name. The
accessors of a property do not have its name in theirs. -/
def qualifiedName (m : Module) (d : Decl) : String :=
  qualify (((m.enclosing d).filter (·.role != .property)).foldr
    (fun e scope => qualify scope e.symbolName) (m.scopeOf d).scope) d.symbolName

/-- What the index is to know about a declaration, from where it stands. -/
structure Describes (m : Module) (d : Decl) (s : Symbol) : Prop where
  head : s.head = d.head
  kind : s.kind = d.symbolKind
  name : s.name = d.symbolName
  parent : s.parent = (m.enclosing d).head?.map Decl.id
  fqName : s.fqName = m.qualifiedName d
  file : s.file = (m.scopeOf d).file
  external : s.external = (m.scopeOf d).external

/-- The symbol that a declaration has because of where it stands. -/
def symbolOf (m : Module) (d : Decl) : Symbol := ((m.scopeOf d).below (m.enclosing d)).declared d

theorem decls_sections (m : Module) : m.sections.decls = m.decls := by
  unfold Sections.decls sections decls nodes allFiles declsOf
  rw [List.flatMap_append, List.flatMap_map, List.flatMap_map, List.filterMap_flatMap,
    List.flatMap_append]

theorem symbols_sections (m : Module) : m.sections.symbols = m.symbols := by
  unfold Sections.symbols sections symbols symbolsOfFile
  rw [List.flatMap_append, List.flatMap_map, List.flatMap_map]

variable {m : Module} {d e : Decl}

theorem symbols_eq (h : m.declIds.Nodup) : m.symbols = (closingOrder m.decls).map m.symbolOf := by
  have heq := m.sections.symbols_eq (by rwa [decls_sections])
  rwa [decls_sections, symbols_sections] at heq

theorem enclosing_tail (h : m.declIds.Nodup) (hd : d ∈ m.decls) {rest : List Decl}
    (haround : m.enclosing d = e :: rest) : m.enclosing e = rest := by
  unfold enclosing at haround ⊢
  rw [← decls_sections] at hd haround ⊢
  refine m.sections.enclosing_tail ?_ hd haround
  rwa [decls_sections]

end Module

namespace SymbolScope

theorem file_entering (sc : SymbolScope) (d : Decl) : (sc.entering d).file = sc.file := by
  cases d <;> rfl

theorem external_entering (sc : SymbolScope) (d : Decl) :
    (sc.entering d).external = sc.external := by
  cases d <;> rfl

theorem scope_entering (sc : SymbolScope) (d : Decl) :
    (sc.entering d).scope =
      if d.role = .property then sc.scope else qualify sc.scope d.symbolName := by
  cases d <;> rfl

theorem file_below (sc : SymbolScope) (around : List Decl) : (sc.below around).file = sc.file := by
  induction around with
  | nil => rfl
  | cons d ds ih => exact (file_entering _ d).trans ih

theorem external_below (sc : SymbolScope) (around : List Decl) :
    (sc.below around).external = sc.external := by
  induction around with
  | nil => rfl
  | cons d ds ih => exact (external_entering _ d).trans ih

/-- The innermost declaration is the parent. -/
theorem parent_below (sc : SymbolScope) (around : List Decl) :
    (sc.below around).parent = (around.head?.map Decl.id).or sc.parent := by
  cases around with
  | nil => rfl
  | cons d ds => exact parent_entering _ d

theorem scope_below (sc : SymbolScope) (around : List Decl) :
    (sc.below around).scope = (around.filter (·.role != .property)).foldr
      (fun e scope => qualify scope e.symbolName) sc.scope := by
  induction around with
  | nil => rfl
  | cons d ds ih =>
    have hstep := scope_entering (sc.below ds) d
    by_cases hd : d.role = .property
    · rw [if_pos hd, ih] at hstep
      rw [List.filter_cons_of_neg (by simp [hd])]
      exact hstep
    · rw [if_neg hd, ih] at hstep
      rw [List.filter_cons_of_pos (by simp [hd]), List.foldr_cons]
      exact hstep

end SymbolScope

namespace Sections

/-- The scope of a file has no parent. -/
theorem parent_scopeOf {secs : Sections} (h : ∀ x ∈ secs, x.1.parent = none) (d : Decl) :
    (secs.scopeOf d).parent = none := by
  unfold scopeOf
  cases hfind : secs.find? fun x => d.id ∈ (declsOf (declsNodes x.2)).map Decl.id with
  | none => rfl
  | some x => exact h x (List.mem_of_find?_eq_some hfind)

end Sections

namespace Module

variable {m : Module} {d e : Decl}

theorem parent_of_mem_sections (m : Module) : ∀ x ∈ m.sections, x.1.parent = none := by
  intro x hx
  rcases List.mem_append.mp hx with hx | hx
  · obtain ⟨f, -, rfl⟩ := List.mem_map.mp hx
    rfl
  · obtain ⟨f, -, rfl⟩ := List.mem_map.mp hx
    rfl

theorem parent_scopeOf (m : Module) (d : Decl) : (m.scopeOf d).parent = none :=
  Sections.parent_scopeOf m.parent_of_mem_sections d

theorem describes_symbolOf (m : Module) (d : Decl) : m.Describes d (m.symbolOf d) where
  head := rfl
  kind := rfl
  name := rfl
  parent := by
    have hparent := (m.scopeOf d).parent_below (m.enclosing d)
    rw [m.parent_scopeOf d, Option.or_none] at hparent
    exact hparent
  fqName := congrArg (qualify · d.symbolName) ((m.scopeOf d).scope_below (m.enclosing d))
  file := (m.scopeOf d).file_below (m.enclosing d)
  external := (m.scopeOf d).external_below (m.enclosing d)

/-- The declarations around a declaration are those it stands inside of. -/
theorem mem_enclosing (h : m.declIds.Nodup) (hd : d ∈ m.decls) :
    e ∈ m.enclosing d ↔ e ∈ m.decls ∧ d ∈ e.inner := by
  have hclosed : ClosedInside m.decls := m.decls_sections ▸ m.sections.closedInside
  unfold enclosing
  rw [mem_enclosingIn]
  refine and_congr_right fun he => ⟨fun hencloses => ?_, fun hin => ?_⟩
  · obtain ⟨d', hd', hid⟩ := List.mem_map.mp (Decl.encloses_iff.mp hencloses)
    rwa [List.inj_on_of_nodup_map h hd (hclosed e he d' hd') hid.symm]
  · exact Decl.encloses_iff.mpr (List.mem_map_of_mem hin)

/-- Of the declarations around a declaration, each is inside all that come after it. -/
theorem pairwise_enclosing (h : m.declIds.Nodup) : ∀ {d : Decl} {around : List Decl}, d ∈ m.decls →
    m.enclosing d = around → around.Pairwise fun e e' => e ∈ e'.inner
  | _, [], _, _ => .nil
  | d, e :: rest, hd, haround => by
    have he : e ∈ m.decls := ((mem_enclosing h hd).mp (haround ▸ List.mem_cons_self)).1
    have htail := enclosing_tail h hd haround
    refine .cons (fun e' he' => ?_) (pairwise_enclosing h he htail)
    rw [← htail] at he'
    exact ((mem_enclosing h he).mp he').2

/-- The index entries of the declarations around a declaration. -/
theorem linked_enclosing (h : m.declIds.Nodup) : ∀ {d : Decl} {around : List Decl}, d ∈ m.decls →
    m.enclosing d = around → ∀ x ∈ linked around, x ∈ m.symbols.map Symbol.entry
  | _, [], _, _ => fun _ hx => nomatch hx
  | d, e :: rest, hd, haround => by
    have he : e ∈ m.decls := ((mem_enclosing h hd).mp (haround ▸ List.mem_cons_self)).1
    have htail := enclosing_tail h hd haround
    have hentry : (m.symbolOf e).entry = ⟨e.id, e.role, rest.head?.map Decl.id⟩ := by
      have hrole : (m.symbolOf e).role = e.role := by cases e <;> rfl
      unfold Symbol.entry
      rw [hrole, (m.describes_symbolOf e).parent, htail]
      rfl
    have hmem : m.symbolOf e ∈ m.symbols := by
      rw [symbols_eq h]
      exact List.mem_map_of_mem ((closingOrder_perm _).mem_iff.mpr he)
    intro x hx
    rcases List.mem_cons.mp hx with rfl | hx
    · exact hentry ▸ List.mem_map_of_mem hmem
    · exact linked_enclosing h he htail x hx

/-- Moving past the identities among nodes, for declarations. -/
theorem nextDecl_observe : ∀ (ns : List Node) (ids : IdAllocator),
    (ns.foldl IdAllocator.observe ids).nextDecl =
      (((declsOf ns).map Decl.id).foldl IdAllocator.observeDecl ids).nextDecl := by
  -- Only the next identity of a declaration matters, whatever the other counters are.
  have hstep : ∀ (xs : List DeclId) (ids ids' : IdAllocator), ids.nextDecl = ids'.nextDecl →
      (xs.foldl IdAllocator.observeDecl ids).nextDecl =
        (xs.foldl IdAllocator.observeDecl ids').nextDecl := by
    intro xs
    induction xs with
    | nil => exact fun _ _ h => h
    | cons x xs ih =>
      intro ids ids' h
      refine ih _ _ ?_
      rw [IdAllocator.observeDecl, IdAllocator.observeDecl, h]
  intro ns
  induction ns with
  | nil => exact fun _ => rfl
  | cons n ns ih =>
    intro ids
    rw [List.foldl_cons, ih]
    cases n with
    | decl d => rfl
    | param head => exact hstep _ _ _ rfl
    | var head => exact hstep _ _ _ rfl
    | expr e =>
      refine hstep _ _ _ ?_
      cases e <;> rfl

end Module

private theorem max_right_comm (a b c : UInt32) : max (max a b) c = max (max a c) b := by
  change (if (if a ≤ b then b else a) ≤ c then c else (if a ≤ b then b else a)) =
    if (if a ≤ c then c else a) ≤ b then b else (if a ≤ c then c else a)
  grind

/-- The identities of declarations can be moved past in any order. -/
instance : RightCommutative IdAllocator.observeDecl where
  right_comm ids a b := by
    simp only [IdAllocator.observeDecl, IdAllocator.mk.injEq, and_true]
    exact max_right_comm _ _ _

namespace SymbolTable

variable {m : Module} {d : Decl}

theorem mem_symbolOf (h : m.declIds.Nodup) (hd : d ∈ m.decls) : m.symbolOf d ∈ m.symbols := by
  rw [Module.symbols_eq h]
  exact List.mem_map_of_mem ((closingOrder_perm _).mem_iff.mpr hd)

theorem get?_decl (h : m.declIds.Nodup) (hd : d ∈ m.decls) :
    (build m).get? d.id = some (m.symbolOf d) :=
  get?_of_mem h (mem_symbolOf h hd)

theorem ids_build (h : m.declIds.Nodup) :
    (build m).newest.reverse.map Symbol.id = (closingOrder m.decls).map Decl.id := by
  rw [newest_build, List.reverse_reverse, Module.symbols_eq h, List.map_map]
  rfl

theorem ids_perm (h : m.declIds.Nodup) :
    ((build m).newest.reverse.map Symbol.id).Perm m.declIds := by
  rw [ids_build h]
  exact (closingOrder_perm m.decls).map Decl.id

theorem isSome_get? (h : m.declIds.Nodup) (id : DeclId) :
    ((build m).get? id).isSome ↔ id ∈ m.declIds := by
  constructor
  · intro hsome
    obtain ⟨s, hs⟩ := Option.isSome_iff_exists.mp hsome
    obtain ⟨hmem, rfl⟩ := mem_of_get? hs
    refine (ids_perm h).mem_iff.mp (List.mem_map_of_mem ?_)
    rwa [newest_build, List.reverse_reverse]
  · intro hid
    obtain ⟨d, hd, rfl⟩ := List.mem_map.mp hid
    rw [get?_decl h hd]
    rfl

/-- The chain of parents is the chain of declarations around. -/
theorem ancestors_decl (h : m.declIds.Nodup) (hd : d ∈ m.decls) :
    ((build m).ancestors d.id).map Symbol.id = (m.enclosing d).map Decl.id := by
  have hlength : (m.enclosing d).length ≤ (build m).newest.length := by
    have hcount := (ids_perm h).length_eq
    rw [List.length_map, List.length_reverse, Module.declIds, List.length_map] at hcount
    rw [hcount, Module.enclosing, enclosingIn, List.length_reverse]
    exact List.length_filter_le _ _
  have hchain := map_entry_chain h (m.enclosing d) _ (Module.linked_enclosing h hd rfl) hlength
  rw [ancestors, get?_decl h hd, Option.bind_some, (m.describes_symbolOf d).parent]
  have hids : ∀ ds : List Decl, (linked ds).map Entry.id = ds.map Decl.id := by
    intro ds
    induction ds with
    | nil => rfl
    | cons d ds ih => rw [linked, List.map_cons, List.map_cons, ih]
  rw [← hids, ← hchain, List.map_map]
  rfl

theorem lookup_build (h : m.declIds.Nodup) (name : String) :
    (build m).lookup name =
      ((closingOrder m.decls).filter fun d => m.qualifiedName d == name).map Decl.id := by
  have hname : (fun s : Symbol => s.fqName == name) ∘ m.symbolOf =
      fun d => m.qualifiedName d == name :=
    funext fun d => congrArg (· == name) (m.describes_symbolOf d).fqName
  rw [lookup, ← List.filter_reverse, newest_build, List.reverse_reverse, Module.symbols_eq h,
    List.filter_map, hname, List.map_map]
  rfl

end SymbolTable

namespace Interpreter

theorem isSome_decl? (m : Module) (hosts : HostTable) (id : DeclId) :
    ((ofModule m hosts).decl? id).isSome ↔ id ∈ m.declIds := by
  rw [decl?_ofModule, List.find?_isSome, Module.declIds, List.mem_map]
  simp only [List.mem_reverse, beq_iff_eq]

end Interpreter

/-- **The index is complete and faithful.** With distinct identities every declaration that a look
through a module comes by has one symbol, there are no others, and the interpreter and the allocator
see the same identities. A symbol has its place in the program: its parent is the innermost
declaration around it, its ancestors are all of them, and it is found by its qualified name. The
variables of a function are those that its body declares outside of nested declarations. -/
theorem SymbolTable.index_faithful (m : Module) (h : m.declIds.Nodup) :
    ((build m).newest.reverse.map Symbol.id = (closingOrder m.decls).map Decl.id ∧
      (closingOrder m.decls).Perm m.decls) ∧
    (∀ hosts id, (((build m).get? id).isSome ↔ id ∈ m.declIds) ∧
      (((Interpreter.ofModule m hosts).decl? id).isSome ↔ id ∈ m.declIds)) ∧
    m.syncIds.ids.nextDecl =
      (((build m).newest.map Symbol.id).foldl IdAllocator.observeDecl m.ids).nextDecl ∧
    (∀ d ∈ m.decls, (∃ s, (build m).get? d.id = some s ∧ m.Describes d s) ∧
      ((build m).ancestors d.id).map Symbol.id = (m.enclosing d).map Decl.id ∧
      (∀ e, e ∈ m.enclosing d ↔ e ∈ m.decls ∧ d ∈ e.inner) ∧
      (m.enclosing d).Pairwise fun e e' => e ∈ e'.inner) ∧
    (∀ name, (build m).lookup name =
      ((closingOrder m.decls).filter fun d => m.qualifiedName d == name).map Decl.id) ∧
    ∀ head info params body, .function head info params body ∈ m.decls →
      ∃ s f, (build m).function? head.id = some (s, f) ∧
        f.locals = (outerNodes body.nodes).filterMap Node.var? := by
  refine ⟨⟨ids_build h, closingOrder_perm m.decls⟩, fun hosts id =>
    ⟨isSome_get? h id, Interpreter.isSome_decl? m hosts id⟩, ?_, fun d hd =>
    ⟨⟨_, get?_decl h hd, m.describes_symbolOf d⟩, ancestors_decl h hd,
      fun e => Module.mem_enclosing h hd, Module.pairwise_enclosing h hd rfl⟩, lookup_build h, ?_⟩
  · have hperm : ((build m).newest.map Symbol.id).Perm m.declIds := by
      have hids := ids_perm h
      rw [List.map_reverse] at hids
      exact (List.reverse_perm _).symm.trans hids
    rw [hperm.foldl_eq]
    exact Module.nextDecl_observe m.nodes m.ids
  · intro head info params body hd
    refine ⟨_, _, function?_of_get? (get?_decl h hd) rfl, ?_⟩
    exact (body.layout default).locals_eq

/-! ### A class with nested code -/

namespace NestingSample

def here : Span := .undefined ⟨0⟩

def head (id : UInt32) : DeclHead := { id := ⟨id⟩, span := here }

def zero : Expr := .const ⟨here, .int⟩ (.int 0)

def var (id : UInt32) (init : Expr) : Stmt :=
  .var { id := ⟨id⟩, name := "v", ty := .int, span := here } (some init)

def lambda (id : UInt32) (stmts : List Stmt) : Expr :=
  .lambda ⟨here, .any⟩
    (.function (head id) { name := "", kind := .lambda, returnTy := .int } [] (.block stmts))

/-- A default value that declares a variable. -/
def default : Expr := .block ⟨here, .int⟩ [var 10 zero]

def body : Body :=
  .block [var 1 (lambda 5 [var 2 zero]),
    .expr (.loop ⟨here, .unit⟩ zero (.block ⟨here, .int⟩ [var 3 zero]))]

def run : Decl :=
  .function (head 4) { name := "run", returnTy := .unit }
    [⟨{ id := ⟨9⟩, name := "x", ty := .int, span := here }, some default⟩] body

def size : Decl :=
  .property (head 2) { name := "size" } none
    (some (.function (head 3) { name := "get", kind := .getter, returnTy := .int } []
      (.expression zero)))
    none

def program : Module where
  name := "nesting"
  files := [{ id := ⟨0⟩, path := "Box.kt", package := "app",
              declarations := [.classDecl (head 1) { name := "Box" } [size, run]] }]
  external := [{ id := ⟨1⟩, path := "Lib.kt", package := "lib",
                 declarations := [.field (head 6) { name := "run", ty := .int } none] }]

end NestingSample

open NestingSample in
/-- The declarations in the order in which they are left, those around the lambda, what is found by
two names, and the variables of the function: neither that of its default nor that of the lambda. -/
theorem NestingSample.index_of_nested :
    program.declIds.Nodup ∧
      (closingOrder program.decls).map Decl.id = [⟨3⟩, ⟨2⟩, ⟨5⟩, ⟨4⟩, ⟨1⟩, ⟨6⟩] ∧
      ((closingOrder program.decls).filter fun d => program.qualifiedName d == "app.Box.run").map
        Decl.id = [⟨4⟩] ∧
      ((closingOrder program.decls).filter fun d => program.qualifiedName d == "app.Box.get").map
        Decl.id = [⟨3⟩] ∧
      ((outerNodes body.nodes).filterMap Node.var?).map VarHead.id = [⟨1⟩, ⟨3⟩] := by
  have hn : program.declIds.Nodup := by decide
  obtain ⟨⟨hids, -⟩, -, -, -, hlookup, hlocals⟩ := SymbolTable.index_faithful program hn
  refine ⟨hn, ?_, ?_, ?_, ?_⟩
  · rw [← hids]
    decide +kernel
  · rw [← hlookup]
    decide +kernel
  · rw [← hlookup]
    decide +kernel
  · obtain ⟨s, f, hf, hown⟩ := hlocals (head 4) { name := "run", returnTy := .unit }
      [⟨{ id := ⟨9⟩, name := "x", ty := .int, span := here }, some default⟩] body
      (mem_declsOf.mpr (by
        simp [program, Module.nodes, Module.allFiles, declsNodes, Decl.nodes, run]))
    rw [← hown]
    have hvars : ((SymbolTable.build program).function? ⟨4⟩).map
        (fun x => x.2.locals.map VarHead.id) =
        some [⟨1⟩, ⟨3⟩] := by decide +kernel
    rw [show (head 4).id = ⟨4⟩ from rfl] at hf
    rw [hf] at hvars
    exact Option.some.inj hvars

end TraceWeave

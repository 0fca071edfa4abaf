import TraceWeave.Proofs.Program.Nesting

/-! # What declarations hold

A class holds its members and a property its accessors. The index knows each of them with the class
or the property as its parent, and a declaration has a class or a property as its parent only if it
is held there. Both are read off one relation between the symbols of a piece of tree, its
declarations, and those of them that stand at its top.

`Decl.held` lists what a declaration holds and `Indexed` is the relation, by recursion on the
tree. `SymbolTable.parent_of_held` and `SymbolTable.get?_of_decl` are what the index says.
-/

namespace TraceWeave

/-- The members of a class and the accessors of a property. -/
def Decl.held : Decl → List Decl
  | .classDecl _ _ members => members
  | .property _ _ backing getter setter => backing.toList ++ getter.toList ++ setter.toList
  | .function .. | .field .. | .initializer .. => []

/-- The symbols and the declarations of a piece of tree. The declarations at the top have the
parent of the scope. -/
inductive Indexed : SymbolScope → List Decl → List Symbol → List Decl → Prop
  | nil (sc : SymbolScope) : Indexed sc [] [] []
  | append {sc : SymbolScope} {tops tops' ds es : List Decl} {xs ys : List Symbol}
      (hx : Indexed sc tops xs ds) (hy : Indexed sc tops' ys es) :
      Indexed sc (tops ++ tops') (xs ++ ys) (ds ++ es)
  | decl {sc : SymbolScope} {d : Decl} {tops ds : List Decl} {xs : List Symbol}
      (hinside : Indexed (sc.entering d) tops xs ds)
      (htops : d.holdsCode = false → tops = d.held) :
      Indexed sc [d] (xs ++ [sc.declared d]) (d :: ds)

/-- Code, where it does not count which declarations stand at the top. -/
def IndexedCode (sc : SymbolScope) (symbols : List Symbol) (nodes : List Node) : Prop :=
  ∃ tops, Indexed sc tops symbols (declsOf nodes)

namespace IndexedCode

variable {sc : SymbolScope} {xs ys : List Symbol} {ns ms : List Node}

theorem nil (sc : SymbolScope) : IndexedCode sc [] [] := ⟨[], .nil sc⟩

theorem append (hx : IndexedCode sc xs ns) (hy : IndexedCode sc ys ms) :
    IndexedCode sc (xs ++ ys) (ns ++ ms) := by
  obtain ⟨tops, hx⟩ := hx
  obtain ⟨tops', hy⟩ := hy
  refine ⟨tops ++ tops', ?_⟩
  rw [declsOf_append]
  exact hx.append hy

/-- A declaration with code in it. -/
theorem decl {d : Decl} (h : IndexedCode (sc.entering d) xs ns) (hcode : d.holdsCode = true) :
    Indexed sc [d] (xs ++ [sc.declared d]) (d :: declsOf ns) := by
  obtain ⟨tops, h⟩ := h
  refine .decl h fun hholds => ?_
  rw [hcode] at hholds
  exact nomatch hholds

end IndexedCode

mutual

theorem Expr.indexed (sc : SymbolScope) : ∀ e : Expr, IndexedCode sc (e.symbols sc) e.nodes
  | .setVar _ _ value => value.indexed sc
  | .call _ _ receiver _ args => (option_indexed sc receiver).append (args_indexed sc args)
  | .block _ stmts | .returnable _ _ stmts => stmts_indexed sc stmts
  | .ret _ _ value => value.indexed sc
  | .when _ branches otherwise => (branches_indexed sc branches).append (option_indexed sc otherwise)
  | .loop _ condition body => (condition.indexed sc).append (body.indexed sc)
  | .binary _ _ lhs rhs => (lhs.indexed sc).append (rhs.indexed sc)
  | .not _ operand => operand.indexed sc
  | .concat _ parts => exprs_indexed sc parts
  | .lambda _ decl => ⟨_, decl.indexed sc⟩
  | .const _ _ | .getVar _ _ | .functionRef _ _ | .propertyRef _ _ | .descriptor _ _
  | .captureFrame _ _ => .nil sc

theorem option_indexed (sc : SymbolScope) : ∀ e : Option Expr,
    IndexedCode sc (optionSymbols sc e) (optionNodes e)
  | none => .nil sc
  | some e => e.indexed sc

theorem args_indexed (sc : SymbolScope) : ∀ args : List (Option Expr),
    IndexedCode sc (argsSymbols sc args) (argsNodes args)
  | [] => .nil sc
  | none :: args => args_indexed sc args
  | some e :: args => (e.indexed sc).append (args_indexed sc args)

theorem exprs_indexed (sc : SymbolScope) : ∀ es : List Expr,
    IndexedCode sc (exprsSymbols sc es) (exprsNodes es)
  | [] => .nil sc
  | e :: es => (e.indexed sc).append (exprs_indexed sc es)

theorem branches_indexed (sc : SymbolScope) : ∀ branches : List (Expr × Expr),
    IndexedCode sc (branchesSymbols sc branches) (branchesNodes branches)
  | [] => .nil sc
  | (condition, result) :: branches =>
    ((condition.indexed sc).append (result.indexed sc)).append (branches_indexed sc branches)

theorem stmts_indexed (sc : SymbolScope) : ∀ stmts : List Stmt,
    IndexedCode sc (stmtsSymbols sc stmts) (stmtsNodes stmts)
  | [] => .nil sc
  | stmt :: stmts => (stmt.indexed sc).append (stmts_indexed sc stmts)

theorem Stmt.indexed (sc : SymbolScope) : ∀ stmt : Stmt,
    IndexedCode sc (stmt.symbols sc) stmt.nodes
  | .expr e => e.indexed sc
  | .var _ init => option_indexed sc init
  | .decl d => ⟨_, d.indexed sc⟩

theorem params_indexed (sc : SymbolScope) : ∀ params : List Param,
    IndexedCode sc (paramsSymbols sc params) (paramsNodes params)
  | [] => .nil sc
  | ⟨_, default⟩ :: params => (option_indexed sc default).append (params_indexed sc params)

theorem Body.indexed (sc : SymbolScope) : ∀ body : Body,
    IndexedCode sc (body.symbols sc) body.nodes
  | .absent => .nil sc
  | .block stmts => stmts_indexed sc stmts
  | .expression e => e.indexed sc

theorem Decl.indexed (sc : SymbolScope) : ∀ d : Decl,
    Indexed sc [d] (d.symbols sc) (declsOf d.nodes)
  | .classDecl _ _ members => .decl (decls_indexed _ members) fun _ => rfl
  | .function _ _ params body => ((params_indexed _ params).append (body.indexed _)).decl rfl
  | .property head info backing getter setter => by
    let inner := sc.entering (.property head info backing getter setter)
    have h := ((accessor_indexed inner backing).append (accessor_indexed inner getter)).append
      (accessor_indexed inner setter)
    rw [← declsOf_append, ← declsOf_append] at h
    exact .decl h fun _ => rfl
  | .field _ _ init => (option_indexed _ init).decl rfl
  | .initializer _ body => (stmts_indexed _ body).decl rfl

theorem accessor_indexed (sc : SymbolScope) : ∀ d : Option Decl,
    Indexed sc d.toList (accessorSymbols sc d) (declsOf (accessorNodes d))
  | none => .nil sc
  | some d => d.indexed sc

theorem decls_indexed (sc : SymbolScope) : ∀ ds : List Decl,
    Indexed sc ds (declsSymbols sc ds) (declsOf (declsNodes ds))
  | [] => .nil sc
  | d :: ds => by
    rw [declsNodes, declsOf_append]
    exact (d.indexed sc).append (decls_indexed sc ds)

end

/-! ## Parents -/

/-- A symbol that the index has for a declaration, below some parent. -/
structure Symbol.Records (s : Symbol) (d : Decl) (parent : Option DeclId) : Prop where
  head : s.head = d.head
  kind : s.kind = d.symbolKind
  parent : s.parent = parent

theorem SymbolScope.declared_records (sc : SymbolScope) (d : Decl) :
    (sc.declared d).Records d sc.parent := ⟨rfl, rfl, rfl⟩

/-- A declaration stands at the top, or in a declaration that holds it if it holds no code. -/
def StandsIn (sc : SymbolScope) (tops ds : List Decl) (d : Decl) (parent : Option DeclId) : Prop :=
  (d ∈ tops ∧ parent = sc.parent) ∨
    ∃ p ∈ ds, parent = some p.id ∧ (p.holdsCode = false → d ∈ p.held)

namespace Indexed

variable {sc : SymbolScope} {tops ds : List Decl} {xs : List Symbol}

theorem tops_mem (h : Indexed sc tops xs ds) : ∀ d ∈ tops, d ∈ ds := by
  induction h with
  | nil => simp
  | append _ _ ihx ihy =>
    intro d hd
    rcases List.mem_append.mp hd with hd | hd
    · exact List.mem_append_left _ (ihx d hd)
    · exact List.mem_append_right _ (ihy d hd)
  | decl => simp

/-- What stands at the top has the parent of the scope. -/
theorem top_recorded (h : Indexed sc tops xs ds) :
    ∀ d ∈ tops, ∃ s ∈ xs, s.Records d sc.parent := by
  induction h with
  | nil => simp
  | append _ _ ihx ihy =>
    intro d hd
    rcases List.mem_append.mp hd with hd | hd
    · obtain ⟨s, hs, hrecords⟩ := ihx d hd
      exact ⟨s, List.mem_append_left _ hs, hrecords⟩
    · obtain ⟨s, hs, hrecords⟩ := ihy d hd
      exact ⟨s, List.mem_append_right _ hs, hrecords⟩
  | @decl sc d =>
    intro d' hd'
    rw [List.mem_singleton.mp hd']
    exact ⟨sc.declared d, by simp, sc.declared_records d⟩

/-- What a class or a property holds has it as its parent. -/
theorem held_recorded (h : Indexed sc tops xs ds) : ∀ p ∈ ds, p.holdsCode = false →
    ∀ d ∈ p.held, d ∈ ds ∧ ∃ s ∈ xs, s.Records d (some p.id) := by
  induction h with
  | nil => simp
  | append _ _ ihx ihy =>
    intro p hp hcode d hd
    rcases List.mem_append.mp hp with hp | hp
    · obtain ⟨hmem, s, hs, hrecords⟩ := ihx p hp hcode d hd
      exact ⟨List.mem_append_left _ hmem, s, List.mem_append_left _ hs, hrecords⟩
    · obtain ⟨hmem, s, hs, hrecords⟩ := ihy p hp hcode d hd
      exact ⟨List.mem_append_right _ hmem, s, List.mem_append_right _ hs, hrecords⟩
  | @decl sc q _ _ _ hinside htops ih =>
    intro p hp hcode d hd
    rcases List.mem_cons.mp hp with rfl | hp
    · rw [← htops hcode] at hd
      obtain ⟨s, hs, hrecords⟩ := hinside.top_recorded d hd
      rw [sc.parent_entering p] at hrecords
      exact ⟨List.mem_cons_of_mem _ (hinside.tops_mem d hd), s, List.mem_append_left _ hs, hrecords⟩
    · obtain ⟨hmem, s, hs, hrecords⟩ := ih p hp hcode d hd
      exact ⟨List.mem_cons_of_mem _ hmem, s, List.mem_append_left _ hs, hrecords⟩

/-- Every declaration has a symbol, which has a class or a property as its parent only if the
declaration is held there. -/
theorem recorded (h : Indexed sc tops xs ds) : ∀ d ∈ ds, ∃ parent,
    StandsIn sc tops ds d parent ∧ ∃ s ∈ xs, s.Records d parent := by
  induction h with
  | nil => simp
  | append _ _ ihx ihy =>
    intro d hd
    rcases List.mem_append.mp hd with hd | hd
    · obtain ⟨parent, hstands, s, hs, hrecords⟩ := ihx d hd
      refine ⟨parent, hstands.imp ?_ ?_, s, List.mem_append_left _ hs, hrecords⟩
      · exact fun ⟨hd, hparent⟩ => ⟨List.mem_append_left _ hd, hparent⟩
      · exact fun ⟨p, hp, hrest⟩ => ⟨p, List.mem_append_left _ hp, hrest⟩
    · obtain ⟨parent, hstands, s, hs, hrecords⟩ := ihy d hd
      refine ⟨parent, hstands.imp ?_ ?_, s, List.mem_append_right _ hs, hrecords⟩
      · exact fun ⟨hd, hparent⟩ => ⟨List.mem_append_right _ hd, hparent⟩
      · exact fun ⟨p, hp, hrest⟩ => ⟨p, List.mem_append_right _ hp, hrest⟩
  | @decl sc q _ _ _ _ htops ih =>
    intro d hd
    rcases List.mem_cons.mp hd with rfl | hd
    · exact ⟨sc.parent, .inl ⟨List.mem_singleton_self d, rfl⟩, sc.declared d, by simp,
        sc.declared_records d⟩
    · obtain ⟨parent, hstands, s, hs, hrecords⟩ := ih d hd
      refine ⟨parent, .inr ?_, s, List.mem_append_left _ hs, hrecords⟩
      rcases hstands with ⟨hd, hparent⟩ | ⟨p, hp, hrest⟩
      · exact ⟨q, by simp, hparent.trans (sc.parent_entering q), fun hcode => htops hcode ▸ hd⟩
      · exact ⟨p, List.mem_cons_of_mem _ hp, hrest⟩

end Indexed

/-! ## The index of a module -/

namespace Module

variable {m : Module} {d p : Decl}

/-- The symbols and the declarations of the file that a declaration stands in. -/
theorem indexed_of_mem (hd : d ∈ m.decls) : ∃ sc ds symbols tops, sc.parent = none ∧ d ∈ ds ∧
    Indexed sc tops symbols ds ∧ (∀ e ∈ ds, e ∈ m.decls) ∧ ∀ s ∈ symbols, s ∈ m.symbols := by
  have hnode : Node.decl d ∈ m.nodes := mem_declsOf.mp hd
  obtain ⟨file, hfile, hnode⟩ := List.mem_flatMap.mp hnode
  have hdecls : ∀ e ∈ declsOf (declsNodes file.declarations), e ∈ m.decls := fun e he =>
    mem_declsOf.mpr (List.mem_flatMap.mpr ⟨file, hfile, mem_declsOf.mp he⟩)
  rcases List.mem_append.mp hfile with hfile | hfile
  · refine ⟨_, _, _, _, rfl, mem_declsOf.mpr hnode, decls_indexed ⟨file.id, false, none, file.package⟩
      file.declarations, hdecls, fun s hs => ?_⟩
    exact List.mem_append_left _ (List.mem_flatMap.mpr ⟨file, hfile, hs⟩)
  · refine ⟨_, _, _, _, rfl, mem_declsOf.mpr hnode, decls_indexed ⟨file.id, true, none, file.package⟩
      file.declarations, hdecls, fun s hs => ?_⟩
    exact List.mem_append_right _ (List.mem_flatMap.mpr ⟨file, hfile, hs⟩)

theorem mem_of_held (hp : p ∈ m.decls) (hcode : p.holdsCode = false) (hd : d ∈ p.held) :
    d ∈ m.decls := by
  obtain ⟨sc, ds, symbols, tops, -, hmem, hindexed, hdecls, -⟩ := indexed_of_mem hp
  exact hdecls d (hindexed.held_recorded p hmem hcode d hd).1

end Module

namespace SymbolTable

variable {m : Module} {d p : Decl}

theorem records_of_mem (h : m.declIds.Nodup) {s : Symbol} {parent : Option DeclId}
    (hs : s ∈ m.symbols) (hrecords : s.Records d parent) :
    (build m).get? d.id = some s := by
  rw [show d.id = s.id from congrArg DeclHead.id hrecords.head.symm]
  exact get?_of_mem h hs

/-- The symbol of a declaration, with a parent that holds it or holds code. -/
theorem get?_of_decl (h : m.declIds.Nodup) (hd : d ∈ m.decls) :
    ∃ s, (build m).get? d.id = some s ∧ s.head = d.head ∧ s.kind = d.symbolKind ∧
      (s.parent = none ∨
        ∃ p ∈ m.decls, s.parent = some p.id ∧ (p.holdsCode = false → d ∈ p.held)) := by
  obtain ⟨sc, ds, symbols, tops, hsc, hmem, hindexed, hdecls, hsymbols⟩ := Module.indexed_of_mem hd
  obtain ⟨parent, hstands, s, hs, hrecords⟩ := hindexed.recorded d hmem
  refine ⟨s, records_of_mem h (hsymbols s hs) hrecords, hrecords.head, hrecords.kind, ?_⟩
  rcases hstands with ⟨-, hparent⟩ | ⟨p, hp, hparent, hheld⟩
  · exact .inl (hrecords.parent.trans (hparent.trans hsc))
  · exact .inr ⟨p, hdecls p hp, hrecords.parent.trans hparent, hheld⟩

/-- What a class or a property holds has it as its parent. -/
theorem parent_of_held (h : m.declIds.Nodup) (hp : p ∈ m.decls) (hcode : p.holdsCode = false)
    (hd : d ∈ p.held) : ∃ s, (build m).get? d.id = some s ∧ s.parent = some p.id := by
  obtain ⟨sc, ds, symbols, tops, -, hmem, hindexed, -, hsymbols⟩ := Module.indexed_of_mem hp
  obtain ⟨-, s, hs, hrecords⟩ := hindexed.held_recorded p hmem hcode d hd
  exact ⟨s, records_of_mem h (hsymbols s hs) hrecords, hrecords.parent⟩

end SymbolTable

end TraceWeave

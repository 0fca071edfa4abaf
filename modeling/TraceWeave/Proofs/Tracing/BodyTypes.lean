import TraceWeave.Proofs.Program.Enclosing
import TraceWeave.Proofs.Removal.Activity
import TraceWeave.Proofs.Tracing.Plan

/-! # Types that are active in a function

Which trace types are active in the body of a function is decided by the scopes that a walk has when
it comes to the function. These scopes mirror the declarations that the function stands inside of, so
the types are those that are active everywhere and those that the annotations of the function and of
the classes and functions around it select.

* `Module.mirrors_own`: the scopes of a declaration mirror the declarations around it.
* `Tracing.bodyTypes_eq`: the types that are active in a function, read off the annotations.
-/

namespace TraceWeave

/-- Declarations with their scopes, in node order: each comes with scopes that mirror the
declarations around it, and is followed by the declarations inside it. -/
inductive Mirrored : List Decl → List (ScopeStack × Decl) → Prop
  | nil (around : List Decl) : Mirrored around []
  | decl {around : List Decl} {sc : ScopeStack} {d : Decl} {inside rest : List (ScopeStack × Decl)}
      (scopes : sc.Mirrors around) (inner : inside.map Prod.snd = d.inner)
      (below : Mirrored (d :: around) inside) (behind : Mirrored around rest) :
      Mirrored around ((sc, d) :: (inside ++ rest))

namespace Mirrored

variable {around : List Decl} {xs ys : List (ScopeStack × Decl)} {sc : ScopeStack}

theorem append (hx : Mirrored around xs) (hy : Mirrored around ys) :
    Mirrored around (xs ++ ys) := by
  induction hx with
  | nil => exact hy
  | decl scopes inner below _ _ ih =>
    rw [List.cons_append, List.append_assoc]
    exact .decl scopes inner below (ih hy)

/-- One declaration, with what stands in it. -/
theorem single {d : Decl} {inside : List (ScopeStack × Decl)} (hsc : sc.Mirrors around)
    (hscoped : d.scoped sc = (sc, d) :: inside) (h : Mirrored (d :: around) inside) :
    Mirrored around (d.scoped sc) := by
  have hmap := d.map_scoped sc
  rw [hscoped, List.map_cons, declsOf_nodes] at hmap
  rw [hscoped, ← List.append_nil inside]
  exact .decl hsc (List.cons.inj hmap).2 h (.nil _)

theorem closedInside (h : Mirrored around xs) : ClosedInside (xs.map Prod.snd) := by
  induction h with
  | nil => exact fun e he => nomatch he
  | decl _ inner _ _ below behind =>
    rw [List.map_cons, List.map_append, inner, ← List.cons_append]
    rw [inner] at below
    exact below.cons.append behind

/-- Read off the order of the declarations: the scopes of each mirror those that enclose it. -/
theorem mirrors (h : Mirrored around xs) (hn : ((xs.map Prod.snd).map Decl.id).Nodup) :
    ∀ x ∈ xs, x.1.Mirrors (enclosingIn (xs.map Prod.snd) x.2 ++ around) := by
  induction h with
  | nil => exact fun x hx => nomatch hx
  | @decl around sc d inside rest scopes inner below behind ihbelow ihbehind =>
    have hinner : ClosedInside d.inner := inner ▸ below.closedInside
    have hdecls : ((sc, d) :: (inside ++ rest)).map Prod.snd = d :: d.inner ++ rest.map Prod.snd := by
      rw [List.map_cons, List.map_append, inner, List.cons_append]
    rw [hdecls] at hn ⊢
    obtain ⟨hninside, hnrest⟩ := nodup_of_cons_append hn
    rw [inner] at ihbelow
    intro x hx
    rcases List.mem_cons.mp hx with rfl | hx
    · rw [enclosingIn_self hinner behind.closedInside hn]
      exact scopes
    · rcases List.mem_append.mp hx with hx | hx
      · have hmem : x.2 ∈ d.inner := inner ▸ List.mem_map_of_mem hx
        rw [enclosingIn_inside behind.closedInside hn hmem, List.append_assoc]
        exact ihbelow hninside x hx
      · have hmem : x.2 ∈ rest.map Prod.snd := List.mem_map_of_mem hx
        rw [enclosingIn_right hinner.cons hn hmem]
        exact ihbehind hnrest x hx

end Mirrored

theorem ScopeStack.Mirrors.after {sc : ScopeStack} {around : List Decl} (h : sc.Mirrors around)
    (stmt : Stmt) : (sc.after stmt).Mirrors around := by
  cases stmt with
  | var head init => exact h.declare _
  | expr | decl => exact h

mutual

-- Code adds blocks to the scopes only, so they mirror the same declarations; a nested declaration
-- comes with itself around what is in it.
theorem Expr.mirrored : ∀ (e : Expr) {sc : ScopeStack} {around : List Decl}, sc.Mirrors around →
    Mirrored around (e.scoped sc)
  | .setVar _ _ value => fun h => value.mirrored h
  | .call _ _ receiver _ args => fun h => (option_mirrored receiver h).append (args_mirrored args h)
  | .block _ stmts | .returnable _ _ stmts => fun h => stmts_mirrored stmts h.block
  | .ret _ _ value => fun h => value.mirrored h
  | .when _ branches otherwise => fun h =>
    (branches_mirrored branches h).append (option_mirrored otherwise h)
  | .loop _ condition body => fun h => (condition.mirrored h).append (body.mirrored h)
  | .binary _ _ lhs rhs => fun h => (lhs.mirrored h).append (rhs.mirrored h)
  | .not _ operand => fun h => operand.mirrored h
  | .concat _ parts => fun h => exprs_mirrored parts h
  | .lambda _ decl => fun h => decl.mirrored h
  | .const _ _ | .getVar _ _ | .functionRef _ _ | .propertyRef _ _ | .descriptor _ _
  | .captureFrame _ _ => fun _ => .nil _

theorem option_mirrored : ∀ (e : Option Expr) {sc : ScopeStack} {around : List Decl},
    sc.Mirrors around → Mirrored around (optionScoped sc e)
  | none => fun _ => .nil _
  | some e => fun h => e.mirrored h

theorem args_mirrored : ∀ (args : List (Option Expr)) {sc : ScopeStack} {around : List Decl},
    sc.Mirrors around → Mirrored around (argsScoped sc args)
  | [] => fun _ => .nil _
  | none :: args => fun h => args_mirrored args h
  | some e :: args => fun h => (e.mirrored h).append (args_mirrored args h)

theorem exprs_mirrored : ∀ (es : List Expr) {sc : ScopeStack} {around : List Decl},
    sc.Mirrors around → Mirrored around (exprsScoped sc es)
  | [] => fun _ => .nil _
  | e :: es => fun h => (e.mirrored h).append (exprs_mirrored es h)

theorem branches_mirrored : ∀ (branches : List (Expr × Expr)) {sc : ScopeStack}
    {around : List Decl}, sc.Mirrors around → Mirrored around (branchesScoped sc branches)
  | [] => fun _ => .nil _
  | (condition, result) :: branches => fun h =>
    ((condition.mirrored h).append (result.mirrored h)).append (branches_mirrored branches h)

theorem stmts_mirrored : ∀ (stmts : List Stmt) {sc : ScopeStack} {around : List Decl},
    sc.Mirrors around → Mirrored around (stmtsScoped sc stmts)
  | [] => fun _ => .nil _
  | stmt :: stmts => fun h => (stmt.mirrored h).append (stmts_mirrored stmts (h.after stmt))

theorem Stmt.mirrored : ∀ (stmt : Stmt) {sc : ScopeStack} {around : List Decl},
    sc.Mirrors around → Mirrored around (stmt.scoped sc)
  | .expr e => fun h => e.mirrored h
  | .var _ init => fun h => option_mirrored init h
  | .decl d => fun h => d.mirrored h

theorem params_mirrored : ∀ (params : List Param) {sc : ScopeStack} {around : List Decl},
    sc.Mirrors around → Mirrored around (paramsScoped sc params)
  | [] => fun _ => .nil _
  | ⟨_, default⟩ :: params => fun h =>
    (option_mirrored default h).append (params_mirrored params h)

theorem Body.mirrored : ∀ (body : Body) {sc : ScopeStack} {around : List Decl},
    sc.Mirrors around → Mirrored around (body.scoped sc)
  | .absent => fun _ => .nil _
  | .block stmts => fun h => stmts_mirrored stmts h.block
  | .expression e => fun h => e.mirrored h

theorem Decl.mirrored : ∀ (d : Decl) {sc : ScopeStack} {around : List Decl},
    sc.Mirrors around → Mirrored around (d.scoped sc)
  | .classDecl head info members => fun h =>
    .single h rfl (decls_mirrored members (h.entering (.classDecl head info members)))
  | .function head info params body => fun h =>
    have hinside := h.entering (.function head info params body)
    .single h rfl ((params_mirrored params hinside).append (body.mirrored hinside))
  | .property head info backing getter setter => fun h =>
    have hinside := h.entering (.property head info backing getter setter)
    .single h rfl (((accessor_mirrored backing hinside).append
      (accessor_mirrored getter hinside)).append (accessor_mirrored setter hinside))
  | .field head info init => fun h =>
    .single h rfl (option_mirrored init (h.entering (.field head info init)))
  | .initializer head body => fun h =>
    .single h rfl (stmts_mirrored body (h.entering (.initializer head body)).block)

theorem accessor_mirrored : ∀ (d : Option Decl) {sc : ScopeStack} {around : List Decl},
    sc.Mirrors around → Mirrored around (accessorScoped sc d)
  | none => fun _ => .nil _
  | some d => fun h => d.mirrored h

theorem decls_mirrored : ∀ (ds : List Decl) {sc : ScopeStack} {around : List Decl},
    sc.Mirrors around → Mirrored around (declsScoped sc ds)
  | [] => fun _ => .nil _
  | d :: ds => fun h => (d.mirrored h).append (decls_mirrored ds h)

end

theorem files_mirrored : ∀ fs : List SourceFile,
    Mirrored [] (fs.flatMap fun f => declsScoped {} f.declarations)
  | [] => .nil _
  | f :: fs => by
    rw [List.flatMap_cons]
    exact (decls_mirrored f.declarations .outermost).append (files_mirrored fs)

namespace Module

variable {m : Module} {x : ScopeStack × Decl}

/-- The scopes of a declaration of an own file mirror the declarations around it. -/
theorem mirrors_own (hids : m.declIds.Nodup) (hx : x ∈ m.ownDecls) :
    x.1.Mirrors (m.enclosing x.2) := by
  have hexternal := (files_mirrored m.external).closedInside
  have hown : Mirrored [] m.ownDecls := files_mirrored m.files
  rw [List.map_flatMap] at hexternal
  simp only [map_declsScoped] at hexternal
  rw [declIds, decls_eq] at hids
  rw [enclosing, decls_eq, enclosingIn_left hexternal hids (List.mem_map_of_mem hx),
    ← List.append_nil (enclosingIn _ _)]
  rw [List.map_append] at hids
  exact hown.mirrors (List.nodup_append.mp hids).1 x hx

theorem own_mem (hx : x ∈ m.ownDecls) : x.2 ∈ m.decls := by
  rw [decls_eq]
  exact List.mem_append_left _ (List.mem_map_of_mem hx)

end Module

section

variable {env : PassEnv} {m : Module} {sc : ScopeStack} {d : Decl}

/-- Where a declaration stands, those types are active that are active everywhere or are selected by
the classes and functions around it. -/
theorem activeTypes_of_own (hids : m.declIds.Nodup) (henv : env.symbols = .build m)
    (hx : (sc, d) ∈ m.ownDecls) :
    activeTypes env sc = typesAround env.options ((m.enclosing d).map Decl.sign) := by
  rw [activeTypes, (Module.mirrors_own hids hx).declarations_eq, henv]
  refine addDeclared_eq _ _ _ fun e he => ⟨(m.scopeOf e).below (m.enclosing e), ?_⟩
  exact SymbolTable.get?_decl hids ((Module.mem_enclosing hids (Module.own_mem hx)).mp he).1

/-- In the body of a function those types are active that are active everywhere or are selected by
the function itself or by the classes and functions around it. -/
theorem Tracing.bodyTypes_eq (hids : m.declIds.Nodup) (henv : env.symbols = .build m)
    {head : DeclHead} {info : FunctionHead} {params : List Param} {body : Body}
    (hx : (sc, .function head info params body) ∈ m.ownDecls) :
    bodyTypes env sc head = typesAround env.options
      ((.function head info params body :: m.enclosing (.function head info params body)).map
        Decl.sign) := by
  rw [bodyTypes, activeTypes_of_own hids henv hx, List.map_cons, typesAround]
  rfl

end

end TraceWeave

import TraceWeave.Proofs.Program.References

/-! # What a walk maintains

Every visit of a walk may rely on the labels of the program: those of the declaration that it
visits and those of the declarations around it. What all visits maintain, the walk maintains.

`ScopeStack.Inside` says that the labels around a point are known, `Visitor.Maintains` what is
asked of a visit, and `filesWalk_maintains` what follows.
-/

namespace TraceWeave

/-- A scope in which the labels of the classes and functions around a point are known. -/
def ScopeStack.Inside {ρ : Type} (L : Labels ρ) (known : ρ → Prop) (sc : ScopeStack) : Prop :=
  ∀ id ∈ sc.declarations, ∃ d : Decl, d.id = id ∧ ∀ r ∈ L.label (.decl d), known r

namespace ScopeStack.Inside

variable {ρ : Type} {L : Labels ρ} {known : ρ → Prop} {sc : ScopeStack}

theorem outermost : Inside L known {} := nofun

theorem block (h : sc.Inside L known) : (sc.push .ofBody).Inside L known := h

theorem initializer (h : sc.Inside L known) (id : DeclId) :
    (sc.push (.ofInitializer id)).Inside L known := h

theorem after (h : sc.Inside L known) (stmt : Stmt) : (sc.after stmt).Inside L known := by
  unfold Inside
  rw [declarations_after]
  exact h

/-- Inside a class or a function its labels count too. -/
theorem push {f : ScopeFrame} {d : Decl} (h : sc.Inside L known) (hf : f.decl = some d.id)
    (hd : ∀ r ∈ L.label (.decl d), known r) : (sc.push f).Inside L known := by
  intro id hid
  obtain ⟨g, hg, hgid⟩ := List.mem_filterMap.mp (List.mem_reverse.mp hid)
  obtain ⟨hmem, hkind⟩ := List.mem_filter.mp hg
  obtain rfl | hmem := List.mem_cons.mp hmem
  · exact ⟨d, Option.some.inj (hf.symm.trans hgid), hd⟩
  · refine h id (List.mem_reverse.mpr (List.mem_filterMap.mpr ⟨g, ?_, hgid⟩))
    exact List.mem_filter.mpr ⟨hmem, hkind⟩

end ScopeStack.Inside

/-- A property of states that every visit maintains. The labels of a declaration and of those
around it are as they were before the walk. -/
structure Visitor.Maintains {σ ρ : Type} (v : Visitor σ) (L : Labels ρ) (known : ρ → Prop)
    (good : σ → Prop) : Prop where
  onExpr : ∀ sc place e st, sc.Inside L known → good st → good (v.onExpr sc place e st).2
  onDecl : ∀ sc d st, sc.Inside L known → (∀ r ∈ L.label (.decl d), known r) → good st →
    good (v.onDecl sc d st).2

variable {σ ρ : Type} {v : Visitor σ} {L : Labels ρ} {known : ρ → Prop} {good : σ → Prop}

open Labels.Within

mutual

-- The labels around a point are known because they are among those of the program; going into a
-- declaration adds its own.
theorem Expr.walk_maintains (hv : v.Maintains L known good) : ∀ e : Expr, L.Within known e.nodes →
    ∀ (sc : ScopeStack) (place : Place) (st : σ), sc.Inside L known → good st →
      good (e.walk v sc place st).2
  | .setVar _ _ value => fun hl sc place st hsc h => by
    rw [Expr.walk]
    exact hv.onExpr _ _ _ _ hsc (value.walk_maintains hv ((code_iff rfl).mp hl) _ _ _ hsc h)
  | .call _ _ receiver _ args => fun hl sc place st hsc h => by
    obtain ⟨hreceiver, hargs⟩ := append_iff.mp ((code_iff rfl).mp hl)
    rw [Expr.walk]
    exact hv.onExpr _ _ _ _ hsc (argsWalk_maintains hv args hargs _ _ hsc
      (optionWalk_maintains hv receiver hreceiver _ _ _ hsc h))
  | .block _ stmts | .returnable _ _ stmts => fun hl sc place st hsc h => by
    rw [Expr.walk]
    exact hv.onExpr _ _ _ _ hsc
      (stmtsWalk_maintains hv stmts (cons_iff.mp hl).2 _ _ hsc.block h)
  | .ret _ _ value => fun hl sc place st hsc h => by
    rw [Expr.walk]
    exact hv.onExpr _ _ _ _ hsc (value.walk_maintains hv ((code_iff rfl).mp hl) _ _ _ hsc h)
  | .when _ branches otherwise => fun hl sc place st hsc h => by
    obtain ⟨hbranches, hotherwise⟩ := append_iff.mp ((code_iff rfl).mp hl)
    rw [Expr.walk]
    exact hv.onExpr _ _ _ _ hsc (optionWalk_maintains hv otherwise hotherwise _ _ _ hsc
      (branchesWalk_maintains hv branches hbranches _ _ hsc h))
  | .loop _ condition body => fun hl sc place st hsc h => by
    obtain ⟨hcondition, hbody⟩ := append_iff.mp ((code_iff rfl).mp hl)
    rw [Expr.walk]
    exact hv.onExpr _ _ _ _ hsc (body.walk_maintains hv hbody _ _ _ hsc
      (condition.walk_maintains hv hcondition _ _ _ hsc h))
  | .binary _ _ lhs rhs => fun hl sc place st hsc h => by
    obtain ⟨hlhs, hrhs⟩ := append_iff.mp ((code_iff rfl).mp hl)
    rw [Expr.walk]
    exact hv.onExpr _ _ _ _ hsc
      (rhs.walk_maintains hv hrhs _ _ _ hsc (lhs.walk_maintains hv hlhs _ _ _ hsc h))
  | .not _ operand => fun hl sc place st hsc h => by
    rw [Expr.walk]
    exact hv.onExpr _ _ _ _ hsc (operand.walk_maintains hv ((code_iff rfl).mp hl) _ _ _ hsc h)
  | .concat _ parts => fun hl sc place st hsc h => by
    rw [Expr.walk]
    exact hv.onExpr _ _ _ _ hsc (exprsWalk_maintains hv parts ((code_iff rfl).mp hl) _ _ hsc h)
  | .lambda _ decl => fun hl sc place st hsc h => by
    rw [Expr.walk]
    exact hv.onExpr _ _ _ _ hsc (decl.walk_maintains hv ((code_iff rfl).mp hl) _ _ hsc h)
  | .const _ _ | .getVar _ _ | .functionRef _ _ | .propertyRef _ _ | .descriptor _ _
  | .captureFrame _ _ => fun _ sc place st hsc h => by
    rw [Expr.walk]
    exact hv.onExpr _ _ _ _ hsc h

theorem optionWalk_maintains (hv : v.Maintains L known good) : ∀ e : Option Expr,
    L.Within known (optionNodes e) → ∀ (sc : ScopeStack) (place : Place) (st : σ),
      sc.Inside L known → good st → good (optionWalk v sc place e st).2
  | none => fun _ _ _ _ _ h => h
  | some e => fun hl _ _ _ hsc h => e.walk_maintains hv hl _ _ _ hsc h

theorem argsWalk_maintains (hv : v.Maintains L known good) : ∀ args : List (Option Expr),
    L.Within known (argsNodes args) → ∀ (sc : ScopeStack) (st : σ), sc.Inside L known → good st →
      good (argsWalk v sc args st).2
  | [] => fun _ _ _ _ h => h
  | none :: args => fun hl _ _ hsc h => argsWalk_maintains hv args hl _ _ hsc h
  | some e :: args => fun hl _ _ hsc h =>
    argsWalk_maintains hv args (append_iff.mp hl).2 _ _ hsc
      (e.walk_maintains hv (append_iff.mp hl).1 _ _ _ hsc h)

theorem exprsWalk_maintains (hv : v.Maintains L known good) : ∀ es : List Expr,
    L.Within known (exprsNodes es) → ∀ (sc : ScopeStack) (st : σ), sc.Inside L known → good st →
      good (exprsWalk v sc es st).2
  | [] => fun _ _ _ _ h => h
  | e :: es => fun hl _ _ hsc h =>
    exprsWalk_maintains hv es (append_iff.mp hl).2 _ _ hsc
      (e.walk_maintains hv (append_iff.mp hl).1 _ _ _ hsc h)

theorem branchesWalk_maintains (hv : v.Maintains L known good) : ∀ branches : List (Expr × Expr),
    L.Within known (branchesNodes branches) → ∀ (sc : ScopeStack) (st : σ), sc.Inside L known →
      good st → good (branchesWalk v sc branches st).2
  | [] => fun _ _ _ _ h => h
  | (condition, result) :: branches => fun hl _ _ hsc h =>
    have hfirst := append_iff.mp (append_iff.mp hl).1
    branchesWalk_maintains hv branches (append_iff.mp hl).2 _ _ hsc
      (result.walk_maintains hv hfirst.2 _ _ _ hsc
        (condition.walk_maintains hv hfirst.1 _ _ _ hsc h))

theorem stmtsWalk_maintains (hv : v.Maintains L known good) : ∀ stmts : List Stmt,
    L.Within known (stmtsNodes stmts) → ∀ (sc : ScopeStack) (st : σ), sc.Inside L known →
      good st → good (stmtsWalk v sc stmts st).2
  | [] => fun _ _ _ _ h => h
  | stmt :: stmts => fun hl _ _ hsc h =>
    stmtsWalk_maintains hv stmts (append_iff.mp hl).2 _ _ (hsc.after stmt)
      (stmt.walk_maintains hv (append_iff.mp hl).1 _ _ hsc h)

theorem Stmt.walk_maintains (hv : v.Maintains L known good) : ∀ stmt : Stmt,
    L.Within known stmt.nodes → ∀ (sc : ScopeStack) (st : σ), sc.Inside L known → good st →
      good (stmt.walk v sc st).2
  | .expr e => fun hl _ _ hsc h => e.walk_maintains hv hl _ _ _ hsc h
  | .var _ init => fun hl _ _ hsc h =>
    optionWalk_maintains hv init (cons_iff.mp hl).2 _ _ _ hsc h
  | .decl d => fun hl _ _ hsc h => d.walk_maintains hv hl _ _ hsc h

theorem paramsWalk_maintains (hv : v.Maintains L known good) : ∀ params : List Param,
    L.Within known (paramsNodes params) → ∀ (sc : ScopeStack) (st : σ), sc.Inside L known →
      good st → good (paramsWalk v sc params st).2
  | [] => fun _ _ _ _ h => h
  | ⟨_, default⟩ :: params => fun hl _ _ hsc h =>
    have hinner := append_iff.mp (cons_iff.mp hl).2
    paramsWalk_maintains hv params hinner.2 _ _ hsc
      (optionWalk_maintains hv default hinner.1 _ _ _ hsc h)

theorem Body.walk_maintains (hv : v.Maintains L known good) : ∀ body : Body,
    L.Within known body.nodes → ∀ (sc : ScopeStack) (st : σ), sc.Inside L known → good st →
      good (body.walk v sc st).2
  | .absent => fun _ _ _ _ h => h
  | .block stmts => fun hl _ _ hsc h => stmtsWalk_maintains hv stmts hl _ _ hsc.block h
  | .expression e => fun hl _ _ hsc h => e.walk_maintains hv hl _ _ _ hsc h

theorem Decl.walk_maintains (hv : v.Maintains L known good) : ∀ d : Decl,
    L.Within known d.nodes → ∀ (sc : ScopeStack) (st : σ), sc.Inside L known → good st →
      good (d.walk v sc st).2
  | .classDecl _ _ members => fun hl sc st hsc h => by
    obtain ⟨hown, hmembers⟩ := cons_iff.mp hl
    rw [Decl.walk]
    exact hv.onDecl _ _ _ hsc (Labels.known_of_shell hown)
      (declsWalk_maintains hv members hmembers _ _ (hsc.push rfl hown) h)
  | .function _ _ params body => fun hl sc st hsc h => by
    obtain ⟨hown, hinner⟩ := cons_iff.mp hl
    obtain ⟨hparams, hbody⟩ := append_iff.mp hinner
    rw [Decl.walk]
    exact hv.onDecl _ _ _ hsc (Labels.known_of_shell hown)
      (body.walk_maintains hv hbody _ _ (hsc.push rfl hown)
        (paramsWalk_maintains hv params hparams _ _ (hsc.push rfl hown) h))
  | .property _ _ backing getter setter => fun hl sc st hsc h => by
    obtain ⟨hown, hinner⟩ := cons_iff.mp hl
    obtain ⟨hfirst, hsetter⟩ := append_iff.mp hinner
    obtain ⟨hbacking, hgetter⟩ := append_iff.mp hfirst
    rw [Decl.walk]
    exact hv.onDecl _ _ _ hsc (Labels.known_of_shell hown)
      (accessorWalk_maintains hv setter hsetter _ _ hsc
        (accessorWalk_maintains hv getter hgetter _ _ hsc
          (accessorWalk_maintains hv backing hbacking _ _ hsc h)))
  | .field _ _ init => fun hl sc st hsc h => by
    obtain ⟨hown, hinit⟩ := cons_iff.mp hl
    rw [Decl.walk]
    exact hv.onDecl _ _ _ hsc (Labels.known_of_shell hown)
      (optionWalk_maintains hv init hinit _ _ _ (hsc.initializer _) h)
  | .initializer _ body => fun hl sc st hsc h => by
    obtain ⟨hown, hbody⟩ := cons_iff.mp hl
    rw [Decl.walk]
    exact hv.onDecl _ _ _ hsc (Labels.known_of_shell hown)
      (stmtsWalk_maintains hv body hbody _ _ (hsc.initializer _).block h)

theorem accessorWalk_maintains (hv : v.Maintains L known good) : ∀ d : Option Decl,
    L.Within known (accessorNodes d) → ∀ (sc : ScopeStack) (st : σ), sc.Inside L known →
      good st → good (accessorWalk v sc d st).2
  | none => fun _ _ _ _ h => h
  | some d => fun hl _ _ hsc h => d.walk_maintains hv hl _ _ hsc h

theorem declsWalk_maintains (hv : v.Maintains L known good) : ∀ ds : List Decl,
    L.Within known (declsNodes ds) → ∀ (sc : ScopeStack) (st : σ), sc.Inside L known → good st →
      good (declsWalk v sc ds st).2
  | [] => fun _ _ _ _ h => h
  | d :: ds => fun hl _ _ hsc h =>
    declsWalk_maintains hv ds (append_iff.mp hl).2 _ _ hsc
      (d.walk_maintains hv (append_iff.mp hl).1 _ _ hsc h)

end

theorem filesWalk_maintains (hv : v.Maintains L known good) : ∀ fs : List SourceFile,
    L.Within known (filesNodes fs) → ∀ st : σ, good st → good (filesWalk v fs st).2
  | [], _, _, h => h
  | f :: fs, hl, _, h =>
    filesWalk_maintains hv fs (append_iff.mp hl).2 _
      (declsWalk_maintains hv f.declarations (append_iff.mp hl).1 _ _ .outermost h)

end TraceWeave

import TraceWeave.Proofs.Program.Scoped

/-! # Code without loops

A program is free of loops if no node is one. The nodes of a program come with all nodes of the
declarations among them, so each declaration of such a program is free of loops as well, however
deep it is nested.

`LoopFree` is the property and `loopFree_iff` decides it; `Module.declClosed` and `LoopFree.decl`
carry it to each declaration.
-/

namespace TraceWeave

/-- Nodes that come with all nodes of the declarations among them. -/
def DeclClosed (nodes : List Node) : Prop := ∀ d ∈ declsOf nodes, d.nodes ⊆ nodes

namespace DeclClosed

variable {n : Node} {xs ys : List Node}

theorem nil : DeclClosed [] := by
  intro d hd
  cases hd

theorem append (hx : DeclClosed xs) (hy : DeclClosed ys) : DeclClosed (xs ++ ys) := by
  intro d hd
  rw [declsOf_append, List.mem_append] at hd
  cases hd with
  | inl hd => exact List.subset_append_of_subset_left ys (hx d hd)
  | inr hd => exact List.subset_append_of_subset_right xs (hy d hd)

/-- A node that declares nothing. -/
theorem cons (h : DeclClosed xs) (hn : n.decl? = none := by rfl) : DeclClosed (n :: xs) := by
  intro d hd
  have hskip : declsOf (n :: xs) = declsOf xs := List.filterMap_cons_none hn
  rw [hskip] at hd
  exact List.subset_cons_of_subset n (h d hd)

/-- A declaration, and the nodes below it. -/
theorem decl {d : Decl} (h : DeclClosed xs) (hd : d.nodes = .decl d :: xs := by rfl) :
    DeclClosed d.nodes := by
  intro e he
  rw [hd, declsOf_decl, List.mem_cons] at he
  rcases he with rfl | he
  · exact List.Subset.refl _
  · rw [hd]
    exact List.subset_cons_of_subset _ (h e he)

end DeclClosed

mutual

theorem Expr.declClosed : ∀ e : Expr, DeclClosed e.nodes
  | .setVar _ _ value => value.declClosed.cons
  | .call _ _ receiver _ args =>
    ((option_declClosed receiver).append (args_declClosed args)).cons
  | .block _ stmts | .returnable _ _ stmts => (stmts_declClosed stmts).cons
  | .ret _ _ value => value.declClosed.cons
  | .when _ branches otherwise =>
    ((branches_declClosed branches).append (option_declClosed otherwise)).cons
  | .loop _ condition body => (condition.declClosed.append body.declClosed).cons
  | .binary _ _ lhs rhs => (lhs.declClosed.append rhs.declClosed).cons
  | .not _ operand => operand.declClosed.cons
  | .concat _ parts => (exprs_declClosed parts).cons
  | .lambda _ decl => decl.declClosed.cons
  | .const _ _ | .getVar _ _ | .functionRef _ _ | .propertyRef _ _ | .descriptor _ _
  | .captureFrame _ _ => DeclClosed.nil.cons

theorem option_declClosed : ∀ e : Option Expr, DeclClosed (optionNodes e)
  | none => .nil
  | some e => e.declClosed

theorem args_declClosed : ∀ args : List (Option Expr), DeclClosed (argsNodes args)
  | [] => .nil
  | none :: args => args_declClosed args
  | some e :: args => e.declClosed.append (args_declClosed args)

theorem exprs_declClosed : ∀ es : List Expr, DeclClosed (exprsNodes es)
  | [] => .nil
  | e :: es => e.declClosed.append (exprs_declClosed es)

theorem branches_declClosed : ∀ branches : List (Expr × Expr), DeclClosed (branchesNodes branches)
  | [] => .nil
  | (condition, result) :: branches =>
    (condition.declClosed.append result.declClosed).append (branches_declClosed branches)

theorem stmts_declClosed : ∀ stmts : List Stmt, DeclClosed (stmtsNodes stmts)
  | [] => .nil
  | stmt :: stmts => stmt.declClosed.append (stmts_declClosed stmts)

theorem Stmt.declClosed : ∀ stmt : Stmt, DeclClosed stmt.nodes
  | .expr e => e.declClosed
  | .var _ init => (option_declClosed init).cons
  | .decl d => d.declClosed

theorem params_declClosed : ∀ params : List Param, DeclClosed (paramsNodes params)
  | [] => .nil
  | ⟨_, default⟩ :: params =>
    ((option_declClosed default).append (params_declClosed params)).cons

theorem Body.declClosed : ∀ body : Body, DeclClosed body.nodes
  | .absent => .nil
  | .block stmts => stmts_declClosed stmts
  | .expression e => e.declClosed

theorem Decl.declClosed : ∀ d : Decl, DeclClosed d.nodes
  | .classDecl _ _ members => (decls_declClosed members).decl
  | .function _ _ params body => ((params_declClosed params).append body.declClosed).decl
  | .property _ _ backing getter setter =>
    (((accessor_declClosed backing).append (accessor_declClosed getter)).append
      (accessor_declClosed setter)).decl
  | .field _ _ init => (option_declClosed init).decl
  | .initializer _ body => (stmts_declClosed body).decl

theorem accessor_declClosed : ∀ d : Option Decl, DeclClosed (accessorNodes d)
  | none => .nil
  | some d => d.declClosed

theorem decls_declClosed : ∀ ds : List Decl, DeclClosed (declsNodes ds)
  | [] => .nil
  | d :: ds => d.declClosed.append (decls_declClosed ds)

end

/-- The nodes of a program come with those of all its declarations. -/
theorem Module.declClosed (m : Module) : DeclClosed m.nodes := by
  unfold Module.nodes
  induction m.allFiles with
  | nil => exact .nil
  | cons f files ih =>
    rw [List.flatMap_cons]
    exact (decls_declClosed f.declarations).append ih

/-! ## Loops -/

def Node.isLoop : Node → Bool
  | .expr (.loop _ _ _) => true
  | _ => false

/-- Nodes without a loop. -/
def LoopFree (nodes : List Node) : Prop :=
  ∀ site condition body, .expr (.loop site condition body) ∉ nodes

/-- Whether there is a loop can be told by going through the nodes. -/
theorem loopFree_iff {nodes : List Node} : LoopFree nodes ↔ nodes.all (!·.isLoop) := by
  rw [List.all_eq_true]
  constructor
  · intro h n hn
    unfold Node.isLoop
    split
    · exact absurd hn (h _ _ _)
    · rfl
  · intro h site condition body hn
    cases h _ hn

instance (nodes : List Node) : Decidable (LoopFree nodes) := decidable_of_iff _ loopFree_iff.symm

namespace LoopFree

variable {n : Node} {xs ys : List Node}

theorem left (h : LoopFree (xs ++ ys)) : LoopFree xs :=
  fun site condition body hmem => h site condition body (List.mem_append_left ys hmem)

theorem right (h : LoopFree (xs ++ ys)) : LoopFree ys :=
  fun site condition body hmem => h site condition body (List.mem_append_right xs hmem)

theorem tail (h : LoopFree (n :: xs)) : LoopFree xs :=
  fun site condition body hmem => h site condition body (List.mem_cons_of_mem n hmem)

/-- A declaration of a program without loops has none. -/
theorem decl {m : Module} (h : LoopFree m.nodes) {d : Decl} (hd : d ∈ m.decls) : LoopFree d.nodes :=
  fun site condition body hmem => h site condition body (m.declClosed d hd hmem)

end LoopFree

end TraceWeave

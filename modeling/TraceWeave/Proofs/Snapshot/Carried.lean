import Mathlib.Data.List.Forall2
import TraceWeave.Proofs.Program.Calls
import TraceWeave.Proofs.Program.Walks
import TraceWeave.Proofs.Snapshot.Standing

/-! # Findings on a walk

The scopes that a walk keeps show the variables that code can count on where it stands. A visitor
that changes nothing but calls carries what is found in a program over to the program that it makes
of it, finding by finding and each at the place where it stands.

`ScopeStack.Shows` ties scopes to what code can count on, `Visitor.Carries` is the condition on a
visitor, and `filesWalk_carries` carries the findings of files.
-/

namespace TraceWeave

/-! ## Scopes -/

/-- Scopes from which the variables can be seen that code can count on there. -/
def ScopeStack.Shows (sc : ScopeStack) : Option Standing → Prop
  | none => True
  | some s => ∃ frames, executableFrames sc.frames = some frames ∧
    (frames.reverse.flatMap ScopeFrame.locals).map VisibleLocal.var = s.vars

namespace ScopeStack.Shows

variable {sc : ScopeStack} {here : Option Standing}

theorem visibleLocals {s : Standing} (h : sc.Shows (some s)) :
    sc.visibleLocals.map VisibleLocal.var = s.vars := by
  obtain ⟨frames, hframes, hvars⟩ := h
  unfold ScopeStack.visibleLocals
  rw [hframes]
  exact hvars

theorem inFunction (sc : ScopeStack) (id : DeclId) (params : List Param) :
    (sc.inFunction id params).Shows (some (.start id params)) := by
  refine ⟨[.ofFunction id (params.map fun p => .ofParam p.head)], rfl, ?_⟩
  simp [ScopeFrame.ofFunction, Standing.start, VisibleLocal.ofParam]

theorem block (h : sc.Shows here) : (sc.push .ofBody).Shows here := by
  cases here with
  | none => trivial
  | some s =>
    obtain ⟨frames, hframes, hvars⟩ := h
    refine ⟨.ofBody :: frames, ?_, ?_⟩
    · rw [push, executableFrames, if_neg (by decide), hframes]
      rfl
    · simp only [List.reverse_cons, List.flatMap_append, List.map_append, hvars]
      simp [ScopeFrame.ofBody]

/-- A variable that is declared comes after those that can be seen already. -/
theorem declare {s : Standing} (h : sc.Shows (some s)) (v : VisibleLocal) :
    (sc.declare v).Shows (some { s with vars := s.vars ++ [v.var] }) := by
  obtain ⟨frames, hframes, hvars⟩ := h
  obtain ⟨_ | ⟨f, fs⟩⟩ := sc
  · cases hframes
  · dsimp only at hframes
    -- the kind of the frame stays, so it is executable now if it was before
    have hkind : ScopeFrame.isExecutable { f with locals := f.locals ++ [v] } = f.isExecutable :=
      rfl
    by_cases hf : f.isExecutable
    · rw [executableFrames, if_pos hf] at hframes
      cases hframes
      refine ⟨[{ f with locals := f.locals ++ [v] }], ?_, ?_⟩
      · rw [ScopeStack.declare, executableFrames, hkind, if_pos hf]
      · simpa using hvars
    · rw [executableFrames, if_neg hf] at hframes
      obtain ⟨inner, hinner, rfl⟩ := Option.map_eq_some_iff.mp hframes
      refine ⟨{ f with locals := f.locals ++ [v] } :: inner, ?_, ?_⟩
      · rw [ScopeStack.declare, executableFrames, hkind, if_neg hf, hinner]
        rfl
      · simp only [List.reverse_cons, List.flatMap_append, List.flatMap_cons, List.flatMap_nil,
          List.append_nil, List.map_append] at hvars ⊢
        rw [← List.append_assoc, hvars]
        rfl

theorem after (h : sc.Shows here) (stmt : Stmt) :
    (sc.after stmt).Shows (here.map (·.after stmt)) := by
  cases here with
  | none => trivial
  | some s =>
    cases stmt with
    | var head init => exact h.declare (.ofVar head)
    | expr | decl => exact h

end ScopeStack.Shows

/-! ## Heads -/

section

variable {σ : Type} {v : Visitor σ}

/-- A walk declares what was declared before. -/
theorem Stmt.after_walk (s : Standing) (stmt : Stmt) (sc : ScopeStack) (st : σ) :
    s.after (stmt.walk v sc st).1 = s.after stmt := by
  cases stmt <;> rfl

theorem Standing.start_walk (id : DeclId) (sc : ScopeStack) : ∀ (params : List Param) (st : σ),
    start id (paramsWalk v sc params st).1 = start id params
  | [], _ => rfl
  | ⟨head, default⟩ :: params, st => by
    have ih := start_walk id sc params (optionWalk v sc .defaultValue default st).2
    unfold start at ih ⊢
    rw [paramsWalk]
    simpa using ih

end

/-! ## Carrying findings over -/

/-- Nodes whose frame captures are known. -/
def CapturesKnown (known : Site → FrameCapture → Prop) (nodes : List Node) : Prop :=
  ∀ s c, .expr (.captureFrame s c) ∈ nodes → known s c

namespace CapturesKnown

variable {known : Site → FrameCapture → Prop} {n : Node} {xs ys : List Node}

theorem cons (h : CapturesKnown known (n :: xs)) : CapturesKnown known xs :=
  fun s c hc => h s c (List.mem_cons_of_mem _ hc)

theorem left (h : CapturesKnown known (xs ++ ys)) : CapturesKnown known xs :=
  fun s c hc => h s c (List.mem_append_left _ hc)

theorem right (h : CapturesKnown known (xs ++ ys)) : CapturesKnown known ys :=
  fun s c hc => h s c (List.mem_append_right _ hc)

/-- Nothing is found where there are no captures. -/
theorem eq_nil {found : List (Option Standing × Site × FrameCapture)}
    (h : CapturesKnown (fun _ _ => False) xs) (hx : Locates xs found) : found = [] := by
  refine List.map_eq_nil_iff.mp (hx.captures.trans (List.filterMap_eq_nil_iff.mpr ?_))
  intro n hn
  cases hcapture : n.capture? with
  | none => rfl
  | some c =>
    unfold Node.capture? at hcapture
    split at hcapture
    · exact (h _ _ hn).elim
    · cases hcapture

end CapturesKnown

section

variable {σ α β : Type}

/-- A visitor that only changes calls and declarations. What `l` finds at a call and below it is
related to what `l'` finds in what the call becomes, and what becomes of a declaration has in it
what it had before. -/
structure Visitor.Carries (v : Visitor σ) (good : σ → Prop) (known : Site → FrameCapture → Prop)
    (l : Lookout α) (l' : Lookout β) (R : Option Standing × α → Option Standing × β → Prop) :
    Prop where
  handsBack : v.HandsBack good
  onExpr : ∀ sc place e st, e.callee? = none → v.onExpr sc place e st = (e, st)
  onCall : ∀ {sc here place site callee receiver receiver' typeArgs args args' st},
    sc.Shows here → good (v.onExpr sc place (.call site callee receiver' typeArgs args') st).2 →
    List.Forall₂ R (optionSpots l here receiver ++ argsSpots l here args)
      (optionSpots l' here receiver' ++ argsSpots l' here args') →
    List.Forall₂ R (Expr.spots l here (.call site callee receiver typeArgs args))
      ((v.onExpr sc place (.call site callee receiver' typeArgs args') st).1.spots l' here)
  onDecl : ∀ sc d st, good (v.onDecl sc d st).2 → (v.onDecl sc d st).1.spots l' = d.spots l'
  onCapture : ∀ here s c, known s c →
    List.Forall₂ R (Expr.spots l here (.captureFrame s c)) (Expr.spots l' here (.captureFrame s c))

variable {v : Visitor σ} {good : σ → Prop} {known : Site → FrameCapture → Prop}
  {l : Lookout α} {l' : Lookout β} {R : Option Standing × α → Option Standing × β → Prop}

mutual

-- Only calls are replaced, and `Visitor.Carries` says what is found in a call afterwards; every
-- other node has the findings of its parts, in their order.
theorem Expr.walk_carries (hv : v.Carries good known l l' R) : ∀ e : Expr,
    CapturesKnown known e.nodes → ∀ sc here place st, sc.Shows here →
      good (e.walk v sc place st).2 →
      List.Forall₂ R (e.spots l here) ((e.walk v sc place st).1.spots l' here)
  | .setVar _ _ value, hc => by
    intro sc here place st hsc h
    simp only [Expr.walk] at h ⊢
    rw [hv.onExpr _ _ _ _ rfl] at h ⊢
    exact value.walk_carries hv hc.cons sc here _ _ hsc h
  | .call _ _ receiver _ args, hc => by
    intro sc here place st hsc h
    simp only [Expr.walk] at h ⊢
    have hargs := hv.handsBack.onExpr _ _ _ _ h
    have hreceiver := argsWalk_handsBack hv.handsBack args _ _ hargs
    exact hv.onCall hsc h (List.rel_append
      (optionWalk_carries hv receiver hc.cons.left sc here _ _ hsc hreceiver)
      (argsWalk_carries hv args hc.cons.right sc here _ hsc hargs))
  | .block _ stmts, hc | .returnable _ _ stmts, hc => by
    intro sc here place st hsc h
    simp only [Expr.walk] at h ⊢
    rw [hv.onExpr _ _ _ _ rfl] at h ⊢
    exact stmtsWalk_carries hv stmts hc.cons _ here _ hsc.block h
  | .ret _ _ value, hc => by
    intro sc here place st hsc h
    simp only [Expr.walk] at h ⊢
    rw [hv.onExpr _ _ _ _ rfl] at h ⊢
    exact value.walk_carries hv hc.cons sc here _ _ hsc h
  | .when _ branches otherwise, hc => by
    intro sc here place st hsc h
    simp only [Expr.walk] at h ⊢
    rw [hv.onExpr _ _ _ _ rfl] at h ⊢
    have hbranches := optionWalk_handsBack hv.handsBack otherwise _ _ _ h
    exact List.rel_append (branchesWalk_carries hv branches hc.cons.left sc here _ hsc hbranches)
      (optionWalk_carries hv otherwise hc.cons.right sc here _ _ hsc h)
  | .loop _ condition body, hc => by
    intro sc here place st hsc h
    simp only [Expr.walk] at h ⊢
    rw [hv.onExpr _ _ _ _ rfl] at h ⊢
    have hcondition := body.walk_handsBack hv.handsBack _ _ _ h
    exact List.rel_append (condition.walk_carries hv hc.cons.left sc here _ _ hsc hcondition)
      (body.walk_carries hv hc.cons.right sc here _ _ hsc h)
  | .binary _ _ lhs rhs, hc => by
    intro sc here place st hsc h
    simp only [Expr.walk] at h ⊢
    rw [hv.onExpr _ _ _ _ rfl] at h ⊢
    have hlhs := rhs.walk_handsBack hv.handsBack _ _ _ h
    exact List.rel_append (lhs.walk_carries hv hc.cons.left sc here _ _ hsc hlhs)
      (rhs.walk_carries hv hc.cons.right sc here _ _ hsc h)
  | .not _ operand, hc => by
    intro sc here place st hsc h
    simp only [Expr.walk] at h ⊢
    rw [hv.onExpr _ _ _ _ rfl] at h ⊢
    exact operand.walk_carries hv hc.cons sc here _ _ hsc h
  | .concat _ parts, hc => by
    intro sc here place st hsc h
    simp only [Expr.walk] at h ⊢
    rw [hv.onExpr _ _ _ _ rfl] at h ⊢
    exact exprsWalk_carries hv parts hc.cons sc here _ hsc h
  | .lambda _ decl, hc => by
    intro sc here place st hsc h
    simp only [Expr.walk] at h ⊢
    rw [hv.onExpr _ _ _ _ rfl] at h ⊢
    exact decl.walk_carries hv hc.cons sc _ h
  | .captureFrame s c, hc => by
    intro sc here place st hsc h
    rw [Expr.walk, hv.onExpr _ _ _ _ rfl]
    exact hv.onCapture here s c (hc s c List.mem_cons_self)
  | .const _ _, _ | .getVar _ _, _ | .functionRef _ _, _ | .propertyRef _ _, _
  | .descriptor _ _, _ => by
    intro sc here place st hsc h
    rw [Expr.walk, hv.onExpr _ _ _ _ rfl]
    exact .nil

theorem optionWalk_carries (hv : v.Carries good known l l' R) : ∀ e : Option Expr,
    CapturesKnown known (optionNodes e) → ∀ sc here place st, sc.Shows here →
      good (optionWalk v sc place e st).2 →
      List.Forall₂ R (optionSpots l here e) (optionSpots l' here (optionWalk v sc place e st).1)
  | none, _ => fun _ _ _ _ _ _ => .nil
  | some e, hc => fun sc here place st hsc h => e.walk_carries hv hc sc here place st hsc h

theorem argsWalk_carries (hv : v.Carries good known l l' R) : ∀ args : List (Option Expr),
    CapturesKnown known (argsNodes args) → ∀ sc here st, sc.Shows here →
      good (argsWalk v sc args st).2 →
      List.Forall₂ R (argsSpots l here args) (argsSpots l' here (argsWalk v sc args st).1)
  | [], _ => fun _ _ _ _ _ => .nil
  | none :: args, hc => fun sc here st hsc h => argsWalk_carries hv args hc sc here st hsc h
  | some e :: args, hc => fun sc here st hsc h => by
    have he := argsWalk_handsBack hv.handsBack args _ _ h
    exact List.rel_append (e.walk_carries hv hc.left sc here _ _ hsc he)
      (argsWalk_carries hv args hc.right sc here _ hsc h)

theorem exprsWalk_carries (hv : v.Carries good known l l' R) : ∀ es : List Expr,
    CapturesKnown known (exprsNodes es) → ∀ sc here st, sc.Shows here →
      good (exprsWalk v sc es st).2 →
      List.Forall₂ R (exprsSpots l here es) (exprsSpots l' here (exprsWalk v sc es st).1)
  | [], _ => fun _ _ _ _ _ => .nil
  | e :: es, hc => fun sc here st hsc h => by
    have he := exprsWalk_handsBack hv.handsBack es _ _ h
    exact List.rel_append (e.walk_carries hv hc.left sc here _ _ hsc he)
      (exprsWalk_carries hv es hc.right sc here _ hsc h)

theorem branchesWalk_carries (hv : v.Carries good known l l' R) : ∀ branches : List (Expr × Expr),
    CapturesKnown known (branchesNodes branches) → ∀ sc here st, sc.Shows here →
      good (branchesWalk v sc branches st).2 →
      List.Forall₂ R (branchesSpots l here branches)
        (branchesSpots l' here (branchesWalk v sc branches st).1)
  | [], _ => fun _ _ _ _ _ => .nil
  | (condition, result) :: branches, hc => fun sc here st hsc h => by
    have hresult := branchesWalk_handsBack hv.handsBack branches _ _ h
    have hcondition := result.walk_handsBack hv.handsBack _ _ _ hresult
    exact List.rel_append
      (List.rel_append (condition.walk_carries hv hc.left.left sc here _ _ hsc hcondition)
        (result.walk_carries hv hc.left.right sc here _ _ hsc hresult))
      (branchesWalk_carries hv branches hc.right sc here _ hsc h)

theorem stmtsWalk_carries (hv : v.Carries good known l l' R) : ∀ stmts : List Stmt,
    CapturesKnown known (stmtsNodes stmts) → ∀ sc here st, sc.Shows here →
      good (stmtsWalk v sc stmts st).2 →
      List.Forall₂ R (stmtsSpots l here stmts) (stmtsSpots l' here (stmtsWalk v sc stmts st).1)
  | [], _ => fun _ _ _ _ _ => .nil
  | stmt :: stmts, hc => fun sc here st hsc h => by
    have hstmt := stmtsWalk_handsBack hv.handsBack stmts _ _ h
    have hrest := stmtsWalk_carries hv stmts hc.right _ _ _ (hsc.after stmt) h
    rw [stmtsWalk, stmtsSpots, stmtsSpots]
    simp only [Stmt.after_walk]
    exact List.rel_append (stmt.walk_carries hv hc.left sc here _ hsc hstmt) hrest

theorem Stmt.walk_carries (hv : v.Carries good known l l' R) : ∀ stmt : Stmt,
    CapturesKnown known stmt.nodes → ∀ sc here st, sc.Shows here →
      good (stmt.walk v sc st).2 →
      List.Forall₂ R (stmt.spots l here) ((stmt.walk v sc st).1.spots l' here)
  | .expr e, hc => fun sc here st hsc h => e.walk_carries hv hc sc here _ st hsc h
  | .var _ init, hc => fun sc here st hsc h =>
    optionWalk_carries hv init hc.cons sc here _ st hsc h
  | .decl d, hc => fun sc _ st _ h => d.walk_carries hv hc sc st h

theorem paramsWalk_carries (hv : v.Carries good known l l' R) : ∀ params : List Param,
    CapturesKnown known (paramsNodes params) → ∀ sc st, good (paramsWalk v sc params st).2 →
      List.Forall₂ R (paramsSpots l params) (paramsSpots l' (paramsWalk v sc params st).1)
  | [], _ => fun _ _ _ => .nil
  | ⟨_, default⟩ :: params, hc => fun sc st h => by
    have hdefault := paramsWalk_handsBack hv.handsBack params _ _ h
    exact List.rel_append (optionWalk_carries hv default hc.cons.left sc none _ _ trivial hdefault)
      (paramsWalk_carries hv params hc.cons.right sc _ h)

theorem Body.walk_carries (hv : v.Carries good known l l' R) : ∀ body : Body,
    CapturesKnown known body.nodes → ∀ sc here st, sc.Shows here →
      good (body.walk v sc st).2 →
      List.Forall₂ R (body.spots l here) ((body.walk v sc st).1.spots l' here)
  | .absent, _ => fun _ _ _ _ _ => .nil
  | .block stmts, hc => fun _ here st hsc h =>
    stmtsWalk_carries hv stmts hc _ here st hsc.block h
  | .expression e, hc => fun sc here st hsc h => e.walk_carries hv hc sc here _ st hsc h

theorem Decl.walk_carries (hv : v.Carries good known l l' R) : ∀ d : Decl,
    CapturesKnown known d.nodes → ∀ sc st, good (d.walk v sc st).2 →
      List.Forall₂ R (d.spots l) ((d.walk v sc st).1.spots l')
  | .classDecl _ _ members, hc => by
    intro sc st h
    simp only [Decl.walk] at h ⊢
    rw [hv.onDecl _ _ _ h]
    exact declsWalk_carries hv members hc.cons _ _ (hv.handsBack.onDecl _ _ _ h)
  | .function head _ params body, hc => by
    intro sc st h
    simp only [Decl.walk] at h ⊢
    rw [hv.onDecl _ _ _ h, Decl.spots, Decl.spots, Standing.start_walk]
    have hbody := hv.handsBack.onDecl _ _ _ h
    have hparams := body.walk_handsBack hv.handsBack _ _ hbody
    exact List.rel_append (paramsWalk_carries hv params hc.cons.left _ _ hparams)
      (body.walk_carries hv hc.cons.right _ _ _ (.inFunction sc head.id params) hbody)
  | .property _ _ backing getter setter, hc => by
    intro sc st h
    simp only [Decl.walk] at h ⊢
    rw [hv.onDecl _ _ _ h]
    have hsetter := hv.handsBack.onDecl _ _ _ h
    have hgetter := accessorWalk_handsBack hv.handsBack setter _ _ hsetter
    have hbacking := accessorWalk_handsBack hv.handsBack getter _ _ hgetter
    exact List.rel_append
      (List.rel_append (accessorWalk_carries hv backing hc.cons.left.left _ _ hbacking)
        (accessorWalk_carries hv getter hc.cons.left.right _ _ hgetter))
      (accessorWalk_carries hv setter hc.cons.right _ _ hsetter)
  | .field _ _ init, hc => by
    intro sc st h
    simp only [Decl.walk] at h ⊢
    rw [hv.onDecl _ _ _ h]
    exact optionWalk_carries hv init hc.cons _ none _ _ trivial (hv.handsBack.onDecl _ _ _ h)
  | .initializer _ body, hc => by
    intro sc st h
    simp only [Decl.walk] at h ⊢
    rw [hv.onDecl _ _ _ h]
    exact stmtsWalk_carries hv body hc.cons _ none _ trivial (hv.handsBack.onDecl _ _ _ h)

theorem accessorWalk_carries (hv : v.Carries good known l l' R) : ∀ d : Option Decl,
    CapturesKnown known (accessorNodes d) → ∀ sc st, good (accessorWalk v sc d st).2 →
      List.Forall₂ R (accessorSpots l d) (accessorSpots l' (accessorWalk v sc d st).1)
  | none, _ => fun _ _ _ => .nil
  | some d, hc => fun sc st h => d.walk_carries hv hc sc st h

theorem declsWalk_carries (hv : v.Carries good known l l' R) : ∀ ds : List Decl,
    CapturesKnown known (declsNodes ds) → ∀ sc st, good (declsWalk v sc ds st).2 →
      List.Forall₂ R (declsSpots l ds) (declsSpots l' (declsWalk v sc ds st).1)
  | [], _ => fun _ _ _ => .nil
  | d :: ds, hc => fun sc st h => by
    have hd := declsWalk_handsBack hv.handsBack ds _ _ h
    exact List.rel_append (d.walk_carries hv hc.left sc _ hd)
      (declsWalk_carries hv ds hc.right sc _ h)

end

theorem filesWalk_carries (hv : v.Carries good known l l' R) : ∀ fs : List SourceFile,
    CapturesKnown known (fs.flatMap fun f => declsNodes f.declarations) → ∀ st,
      good (filesWalk v fs st).2 →
      List.Forall₂ R (filesSpots l fs) (filesSpots l' (filesWalk v fs st).1)
  | [], _ => fun _ _ => .nil
  | f :: fs, hc => fun st h => by
    have hf := filesWalk_handsBack hv.handsBack fs _ h
    exact List.rel_append (declsWalk_carries hv f.declarations hc.left {} _ hf)
      (filesWalk_carries hv fs hc.right _ h)

end

end TraceWeave

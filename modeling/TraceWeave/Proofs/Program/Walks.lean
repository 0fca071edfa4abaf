import TraceWeave.Pass.Walk

/-! # States of a walk

The state of a visitor goes through a tree from left to right. What every visit hands back from
the state after it to the state before it, the walk of a tree hands back from its end to its start.
Two walks over similar trees are in lockstep if their states agree all along.

`Visitor.HandsBack` and `filesWalk_handsBack` go from the end of a walk to its start. `Lockstep`
is the judgement on two steps, with rules for steps one after the other.
-/

namespace TraceWeave

variable {σ : Type}

/-- A property of states that holds before a visit if it holds after it. -/
structure Visitor.HandsBack (v : Visitor σ) (good : σ → Prop) : Prop where
  onExpr : ∀ sc place e st, good (v.onExpr sc place e st).2 → good st
  onDecl : ∀ sc d st, good (v.onDecl sc d st).2 → good st

variable {v : Visitor σ} {good : σ → Prop}

mutual

-- From the last part of a node to its first one.
theorem Expr.walk_handsBack (hv : v.HandsBack good) : ∀ (e : Expr) (sc : ScopeStack)
    (place : Place) (st : σ), good (e.walk v sc place st).2 → good st
  | .setVar _ _ value => fun sc place st h => by
    rw [Expr.walk] at h
    exact value.walk_handsBack hv _ _ _ (hv.onExpr _ _ _ _ h)
  | .call _ _ receiver _ args => fun sc place st h => by
    rw [Expr.walk] at h
    exact optionWalk_handsBack hv receiver _ _ _
      (argsWalk_handsBack hv args _ _ (hv.onExpr _ _ _ _ h))
  | .block _ stmts => fun sc place st h => by
    rw [Expr.walk] at h
    exact stmtsWalk_handsBack hv stmts _ _ (hv.onExpr _ _ _ _ h)
  | .returnable _ _ stmts => fun sc place st h => by
    rw [Expr.walk] at h
    exact stmtsWalk_handsBack hv stmts _ _ (hv.onExpr _ _ _ _ h)
  | .ret _ _ value => fun sc place st h => by
    rw [Expr.walk] at h
    exact value.walk_handsBack hv _ _ _ (hv.onExpr _ _ _ _ h)
  | .when _ branches otherwise => fun sc place st h => by
    rw [Expr.walk] at h
    exact branchesWalk_handsBack hv branches _ _
      (optionWalk_handsBack hv otherwise _ _ _ (hv.onExpr _ _ _ _ h))
  | .loop _ condition body => fun sc place st h => by
    rw [Expr.walk] at h
    exact condition.walk_handsBack hv _ _ _ (body.walk_handsBack hv _ _ _ (hv.onExpr _ _ _ _ h))
  | .binary _ _ lhs rhs => fun sc place st h => by
    rw [Expr.walk] at h
    exact lhs.walk_handsBack hv _ _ _ (rhs.walk_handsBack hv _ _ _ (hv.onExpr _ _ _ _ h))
  | .not _ operand => fun sc place st h => by
    rw [Expr.walk] at h
    exact operand.walk_handsBack hv _ _ _ (hv.onExpr _ _ _ _ h)
  | .concat _ parts => fun sc place st h => by
    rw [Expr.walk] at h
    exact exprsWalk_handsBack hv parts _ _ (hv.onExpr _ _ _ _ h)
  | .lambda _ decl => fun sc place st h => by
    rw [Expr.walk] at h
    exact decl.walk_handsBack hv _ _ (hv.onExpr _ _ _ _ h)
  | .const _ _ | .getVar _ _ | .functionRef _ _ | .propertyRef _ _ | .descriptor _ _
  | .captureFrame _ _ => fun sc place st h => by
    rw [Expr.walk] at h
    exact hv.onExpr _ _ _ _ h

theorem optionWalk_handsBack (hv : v.HandsBack good) : ∀ (e : Option Expr) (sc : ScopeStack)
    (place : Place) (st : σ), good (optionWalk v sc place e st).2 → good st
  | none => fun _ _ _ h => h
  | some e => fun _ _ _ h => e.walk_handsBack hv _ _ _ h

theorem argsWalk_handsBack (hv : v.HandsBack good) : ∀ (args : List (Option Expr))
    (sc : ScopeStack) (st : σ), good (argsWalk v sc args st).2 → good st
  | [] => fun _ _ h => h
  | none :: args => fun _ _ h => argsWalk_handsBack hv args _ _ h
  | some e :: args => fun _ _ h => e.walk_handsBack hv _ _ _ (argsWalk_handsBack hv args _ _ h)

theorem exprsWalk_handsBack (hv : v.HandsBack good) : ∀ (es : List Expr) (sc : ScopeStack)
    (st : σ), good (exprsWalk v sc es st).2 → good st
  | [] => fun _ _ h => h
  | e :: es => fun _ _ h => e.walk_handsBack hv _ _ _ (exprsWalk_handsBack hv es _ _ h)

theorem branchesWalk_handsBack (hv : v.HandsBack good) : ∀ (branches : List (Expr × Expr))
    (sc : ScopeStack) (st : σ), good (branchesWalk v sc branches st).2 → good st
  | [] => fun _ _ h => h
  | (condition, result) :: branches => fun _ _ h =>
    condition.walk_handsBack hv _ _ _
      (result.walk_handsBack hv _ _ _ (branchesWalk_handsBack hv branches _ _ h))

theorem stmtsWalk_handsBack (hv : v.HandsBack good) : ∀ (stmts : List Stmt) (sc : ScopeStack)
    (st : σ), good (stmtsWalk v sc stmts st).2 → good st
  | [] => fun _ _ h => h
  | stmt :: stmts => fun _ _ h =>
    stmt.walk_handsBack hv _ _ (stmtsWalk_handsBack hv stmts _ _ h)

theorem Stmt.walk_handsBack (hv : v.HandsBack good) : ∀ (stmt : Stmt) (sc : ScopeStack) (st : σ),
    good (stmt.walk v sc st).2 → good st
  | .expr e => fun _ _ h => e.walk_handsBack hv _ _ _ h
  | .var _ init => fun _ _ h => optionWalk_handsBack hv init _ _ _ h
  | .decl d => fun _ _ h => d.walk_handsBack hv _ _ h

theorem paramsWalk_handsBack (hv : v.HandsBack good) : ∀ (params : List Param) (sc : ScopeStack)
    (st : σ), good (paramsWalk v sc params st).2 → good st
  | [] => fun _ _ h => h
  | ⟨_, default⟩ :: params => fun _ _ h =>
    optionWalk_handsBack hv default _ _ _ (paramsWalk_handsBack hv params _ _ h)

theorem Body.walk_handsBack (hv : v.HandsBack good) : ∀ (body : Body) (sc : ScopeStack) (st : σ),
    good (body.walk v sc st).2 → good st
  | .absent => fun _ _ h => h
  | .block stmts => fun _ _ h => stmtsWalk_handsBack hv stmts _ _ h
  | .expression e => fun _ _ h => e.walk_handsBack hv _ _ _ h

theorem Decl.walk_handsBack (hv : v.HandsBack good) : ∀ (d : Decl) (sc : ScopeStack) (st : σ),
    good (d.walk v sc st).2 → good st
  | .classDecl _ _ members => fun sc st h => by
    rw [Decl.walk] at h
    exact declsWalk_handsBack hv members _ _ (hv.onDecl _ _ _ h)
  | .function _ _ params body => fun sc st h => by
    rw [Decl.walk] at h
    exact paramsWalk_handsBack hv params _ _ (body.walk_handsBack hv _ _ (hv.onDecl _ _ _ h))
  | .property _ _ backing getter setter => fun sc st h => by
    rw [Decl.walk] at h
    exact accessorWalk_handsBack hv backing _ _ (accessorWalk_handsBack hv getter _ _
      (accessorWalk_handsBack hv setter _ _ (hv.onDecl _ _ _ h)))
  | .field _ _ init => fun sc st h => by
    rw [Decl.walk] at h
    exact optionWalk_handsBack hv init _ _ _ (hv.onDecl _ _ _ h)
  | .initializer _ body => fun sc st h => by
    rw [Decl.walk] at h
    exact stmtsWalk_handsBack hv body _ _ (hv.onDecl _ _ _ h)

theorem accessorWalk_handsBack (hv : v.HandsBack good) : ∀ (d : Option Decl) (sc : ScopeStack)
    (st : σ), good (accessorWalk v sc d st).2 → good st
  | none => fun _ _ h => h
  | some d => fun _ _ h => d.walk_handsBack hv _ _ h

theorem declsWalk_handsBack (hv : v.HandsBack good) : ∀ (ds : List Decl) (sc : ScopeStack)
    (st : σ), good (declsWalk v sc ds st).2 → good st
  | [] => fun _ _ h => h
  | d :: ds => fun _ _ h => d.walk_handsBack hv _ _ (declsWalk_handsBack hv ds _ _ h)

end

theorem filesWalk_handsBack (hv : v.HandsBack good) : ∀ (fs : List SourceFile) (st : σ),
    good (filesWalk v fs st).2 → good st
  | [], _, h => h
  | f :: fs, _, h => declsWalk_handsBack hv f.declarations _ _ (filesWalk_handsBack hv fs _ h)

/-! ## Lockstep -/

/-- Two steps that lead from states that agree to states that agree. As long as all is well, they
come to related results, and if all is well after a step, it was before. -/
structure Lockstep {α β : Type} (agree : σ → σ → Prop) (well : σ → Prop) (rel : α → β → Prop)
    (f : σ → α × σ) (g : σ → β × σ) : Prop where
  states : ∀ {st st'}, agree st st' → agree (f st).2 (g st').2
  handsBack : ∀ {st}, well (f st).2 → well st
  results : ∀ {st st'}, agree st st' → well (f st).2 → rel (f st).1 (g st').1

namespace Lockstep

variable {α β γ δ : Type} {agree : σ → σ → Prop} {well : σ → Prop} {rel : α → β → Prop}
  {rel' : γ → δ → Prop} {f : σ → α × σ} {g : σ → β × σ}

theorem yield {a : α} {b : β} (h : rel a b) :
    Lockstep agree well rel (fun st => (a, st)) (fun st => (b, st)) :=
  ⟨id, id, fun _ _ => h⟩

theorem map (h : Lockstep agree well rel f g) {f' : σ → γ × σ} {g' : σ → δ × σ} (k : α → γ)
    (k' : β → δ) (hk : ∀ a b, rel a b → rel' (k a) (k' b))
    (hf : ∀ st, f' st = (k (f st).1, (f st).2) := by exact fun _ => rfl)
    (hg : ∀ st, g' st = (k' (g st).1, (g st).2) := by exact fun _ => rfl) :
    Lockstep agree well rel' f' g' := by
  constructor
  · intro st st' ha
    rw [hf, hg]
    exact h.states ha
  · intro st hw
    rw [hf] at hw
    exact h.handsBack hw
  · intro st st' ha hw
    rw [hf] at hw ⊢
    rw [hg]
    exact hk _ _ (h.results ha hw)

/-- Steps from states that were changed before. -/
theorem after (h : Lockstep agree well rel f g) {s s' : σ → σ}
    (hs : ∀ st st', agree st st' → agree (s st) (s' st')) (hb : ∀ st, well (s st) → well st) :
    Lockstep agree well rel (fun st => f (s st)) (fun st => g (s' st)) where
  states ha := h.states (hs _ _ ha)
  handsBack hw := hb _ (h.handsBack hw)
  results ha hw := h.results (hs _ _ ha) hw

/-- One step after the other. -/
theorem pair (h : Lockstep agree well rel f g) {f' : σ → γ × σ} {g' : σ → δ × σ}
    (h' : Lockstep agree well rel' f' g') :
    Lockstep agree well (fun p q => rel p.1 q.1 ∧ rel' p.2 q.2)
      (fun st => (((f st).1, (f' (f st).2).1), (f' (f st).2).2))
      (fun st => (((g st).1, (g' (g st).2).1), (g' (g st).2).2)) where
  states ha := h'.states (h.states ha)
  handsBack hw := h.handsBack (h'.handsBack hw)
  results ha hw := ⟨h.results ha (h'.handsBack hw), h'.results (h.states ha) hw⟩

end Lockstep

end TraceWeave

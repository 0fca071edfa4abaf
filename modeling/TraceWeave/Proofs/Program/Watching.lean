import TraceWeave.Proofs.Program.Visits

/-! # The moments of a walk

A walk can be watched: next to its state it then carries a note of every visit of an expression,
with the state in which the visitor came there. Watching changes nothing about the walk. So what a
visit brings about for good is still so at the end of the walk.

`Visitor.watched` takes notes, `filesMoments` are the notes of a walk, and `watched_follows` says
that nothing else is changed. `filesWalk_upholds` and `lasting_of_moment` carry properties to the
end.
-/

namespace TraceWeave

variable {σ τ : Type}

/-- A visit of an expression: where it stands, what has become of it so far, and the state in which
the visitor comes there. -/
structure Moment (σ : Type) where
  scopes : ScopeStack
  place : Place
  expr : Expr
  state : σ

/-- What a visitor does at a moment. -/
def Moment.visit (v : Visitor σ) (now : Moment σ) : Expr × σ :=
  v.onExpr now.scopes now.place now.expr now.state

/-- The same visitor, with notes of where it was. -/
def Visitor.watched (v : Visitor σ) : Visitor (σ × List (Moment σ)) where
  onExpr sc place e st :=
    let (e', st') := v.onExpr sc place e st.1
    (e', (st', ⟨sc, place, e, st.1⟩ :: st.2))
  onDecl sc d st :=
    let (d', st') := v.onDecl sc d st.1
    (d', (st', st.2))

/-- The moments of a walk over files, the latest first. -/
def filesMoments (v : Visitor σ) (fs : List SourceFile) (st : σ) : List (Moment σ) :=
  (filesWalk v.watched fs (st, [])).2.2

/-! ## Watching changes nothing -/

/-- A step that does what another one does, with more in its state. -/
def Shadows {α : Type} (view : τ → σ) (g : τ → α × τ) (f : σ → α × σ) : Prop :=
  ∀ t, f (view t) = ((g t).1, view (g t).2)

/-- A visitor that does what another one does, with more in its state. -/
structure Visitor.Follows (w : Visitor τ) (view : τ → σ) (v : Visitor σ) : Prop where
  onExpr : ∀ sc place e, Shadows view (w.onExpr sc place e) (v.onExpr sc place e)
  onDecl : ∀ sc d, Shadows view (w.onDecl sc d) (v.onDecl sc d)

theorem Visitor.watched_follows (v : Visitor σ) : v.watched.Follows Prod.fst v :=
  ⟨fun _ _ _ _ => rfl, fun _ _ _ => rfl⟩

section

variable {α β γ : Type} {view : τ → σ} {w : Visitor τ} {v : Visitor σ}

namespace Shadows

theorem yield (a : α) : Shadows view (fun t => (a, t)) (fun s => (a, s)) := fun _ => rfl

theorem map {g : τ → α × τ} {f : σ → α × σ} (h : Shadows view g f) (k : α → β) :
    Shadows view (fun t => (k (g t).1, (g t).2)) (fun s => (k (f s).1, (f s).2)) := by
  intro t
  dsimp only
  rw [h t]

theorem seq {g : τ → α × τ} {f : σ → α × σ} {g' : τ → β × τ} {f' : σ → β × σ}
    (h : Shadows view g f) (h' : Shadows view g' f') (k : α → β → γ) :
    Shadows view (fun t => (k (g t).1 (g' (g t).2).1, (g' (g t).2).2))
      (fun s => (k (f s).1 (f' (f s).2).1, (f' (f s).2).2)) := by
  intro t
  dsimp only
  rw [h t, h' (g t).2]

/-- A step on what another step comes to. -/
theorem next {g : τ → α × τ} {f : σ → α × σ} {g' : α → τ → β × τ} {f' : α → σ → β × σ}
    (h : Shadows view g f) (h' : ∀ a, Shadows view (g' a) (f' a)) :
    Shadows view (fun t => g' (g t).1 (g t).2) (fun s => f' (f s).1 (f s).2) := by
  intro t
  dsimp only
  rw [h t, h' (g t).1 (g t).2]

end Shadows

open Shadows

mutual

theorem Expr.walk_follows (h : w.Follows view v) : ∀ (e : Expr) (sc : ScopeStack) (place : Place),
    Shadows view (e.walk w sc place) (e.walk v sc place)
  | .setVar s var value => fun sc place =>
    (value.walk_follows h sc .operand).next fun value => h.onExpr sc place (.setVar s var value)
  | .call s callee receiver typeArgs args => fun sc place =>
    (seq (optionWalk_follows h receiver sc .operand) (argsWalk_follows h args sc) Prod.mk).next
      fun p => h.onExpr sc place (.call s callee p.1 typeArgs p.2)
  | .block s stmts => fun sc place =>
    (stmtsWalk_follows h stmts (sc.push .ofBody)).next fun stmts =>
      h.onExpr sc place (.block s stmts)
  | .returnable s id stmts => fun sc place =>
    (stmtsWalk_follows h stmts (sc.push .ofBody)).next fun stmts =>
      h.onExpr sc place (.returnable s id stmts)
  | .ret s target value => fun sc place =>
    (value.walk_follows h sc .operand).next fun value => h.onExpr sc place (.ret s target value)
  | .when s branches otherwise => fun sc place =>
    (seq (branchesWalk_follows h branches sc) (optionWalk_follows h otherwise sc .operand)
      Prod.mk).next fun p => h.onExpr sc place (.when s p.1 p.2)
  | .loop s condition body => fun sc place =>
    (seq (condition.walk_follows h sc .operand) (body.walk_follows h sc .operand) Prod.mk).next
      fun p => h.onExpr sc place (.loop s p.1 p.2)
  | .binary s op lhs rhs => fun sc place =>
    (seq (lhs.walk_follows h sc .operand) (rhs.walk_follows h sc .operand) Prod.mk).next
      fun p => h.onExpr sc place (.binary s op p.1 p.2)
  | .not s operand => fun sc place =>
    (operand.walk_follows h sc .operand).next fun operand => h.onExpr sc place (.not s operand)
  | .concat s parts => fun sc place =>
    (exprsWalk_follows h parts sc).next fun parts => h.onExpr sc place (.concat s parts)
  | .lambda s decl => fun sc place =>
    (decl.walk_follows h sc).next fun decl => h.onExpr sc place (.lambda s decl)
  | .const _ _ | .getVar _ _ | .functionRef _ _ | .propertyRef _ _ | .descriptor _ _
  | .captureFrame _ _ => fun sc place => h.onExpr sc place _

theorem optionWalk_follows (h : w.Follows view v) : ∀ (e : Option Expr) (sc : ScopeStack)
    (place : Place), Shadows view (optionWalk w sc place e) (optionWalk v sc place e)
  | none => fun _ _ => yield none
  | some e => fun sc place => (e.walk_follows h sc place).map some

theorem argsWalk_follows (h : w.Follows view v) : ∀ (args : List (Option Expr)) (sc : ScopeStack),
    Shadows view (argsWalk w sc args) (argsWalk v sc args)
  | [] => fun _ => yield []
  | none :: args => fun sc => (argsWalk_follows h args sc).map (none :: ·)
  | some e :: args => fun sc =>
    seq (e.walk_follows h sc .operand) (argsWalk_follows h args sc) fun e args => some e :: args

theorem exprsWalk_follows (h : w.Follows view v) : ∀ (es : List Expr) (sc : ScopeStack),
    Shadows view (exprsWalk w sc es) (exprsWalk v sc es)
  | [] => fun _ => yield []
  | e :: es => fun sc => seq (e.walk_follows h sc .operand) (exprsWalk_follows h es sc) List.cons

theorem branchesWalk_follows (h : w.Follows view v) : ∀ (branches : List (Expr × Expr))
    (sc : ScopeStack), Shadows view (branchesWalk w sc branches) (branchesWalk v sc branches)
  | [] => fun _ => yield []
  | (condition, result) :: branches => fun sc =>
    seq (seq (condition.walk_follows h sc .operand) (result.walk_follows h sc .operand) Prod.mk)
      (branchesWalk_follows h branches sc) List.cons

theorem stmtsWalk_follows (h : w.Follows view v) : ∀ (stmts : List Stmt) (sc : ScopeStack),
    Shadows view (stmtsWalk w sc stmts) (stmtsWalk v sc stmts)
  | [] => fun _ => yield []
  | stmt :: stmts => fun sc =>
    seq (stmt.walk_follows h sc) (stmtsWalk_follows h stmts (sc.after stmt)) List.cons

theorem Stmt.walk_follows (h : w.Follows view v) : ∀ (stmt : Stmt) (sc : ScopeStack),
    Shadows view (stmt.walk w sc) (stmt.walk v sc)
  | .expr e => fun sc => (e.walk_follows h sc .statement).map Stmt.expr
  | .var head init => fun sc => (optionWalk_follows h init sc .initializer).map (Stmt.var head)
  | .decl d => fun sc => (d.walk_follows h sc).map Stmt.decl

theorem paramsWalk_follows (h : w.Follows view v) : ∀ (params : List Param) (sc : ScopeStack),
    Shadows view (paramsWalk w sc params) (paramsWalk v sc params)
  | [] => fun _ => yield []
  | ⟨head, default⟩ :: params => fun sc =>
    seq (optionWalk_follows h default sc .defaultValue) (paramsWalk_follows h params sc)
      fun default params => Param.mk head default :: params

theorem Body.walk_follows (h : w.Follows view v) : ∀ (body : Body) (sc : ScopeStack),
    Shadows view (body.walk w sc) (body.walk v sc)
  | .absent => fun _ => yield Body.absent
  | .block stmts => fun sc => (stmtsWalk_follows h stmts (sc.push .ofBody)).map Body.block
  | .expression e => fun sc => (e.walk_follows h sc .expressionBody).map Body.expression

theorem Decl.walk_follows (h : w.Follows view v) : ∀ (d : Decl) (sc : ScopeStack),
    Shadows view (d.walk w sc) (d.walk v sc)
  | .classDecl head info members => fun sc =>
    (declsWalk_follows h members (sc.push (.ofClass head.id))).next fun members =>
      h.onDecl sc (.classDecl head info members)
  | .function head info params body => fun sc =>
    (seq (paramsWalk_follows h params (sc.inFunction head.id params))
      (body.walk_follows h (sc.inFunction head.id params)) Prod.mk).next fun p =>
        h.onDecl sc (.function head info p.1 p.2)
  | .property head info backing getter setter => fun sc =>
    (seq (seq (accessorWalk_follows h backing sc) (accessorWalk_follows h getter sc) Prod.mk)
      (accessorWalk_follows h setter sc) Prod.mk).next fun p =>
        h.onDecl sc (.property head info p.1.1 p.1.2 p.2)
  | .field head info init => fun sc =>
    (optionWalk_follows h init (sc.push (.ofInitializer head.id)) .initializer).next fun init =>
      h.onDecl sc (.field head info init)
  | .initializer head body => fun sc =>
    (stmtsWalk_follows h body ((sc.push (.ofInitializer head.id)).push .ofBody)).next fun body =>
      h.onDecl sc (.initializer head body)

theorem accessorWalk_follows (h : w.Follows view v) : ∀ (d : Option Decl) (sc : ScopeStack),
    Shadows view (accessorWalk w sc d) (accessorWalk v sc d)
  | none => fun _ => yield none
  | some d => fun sc => (d.walk_follows h sc).map some

theorem declsWalk_follows (h : w.Follows view v) : ∀ (ds : List Decl) (sc : ScopeStack),
    Shadows view (declsWalk w sc ds) (declsWalk v sc ds)
  | [] => fun _ => yield []
  | d :: ds => fun sc => seq (d.walk_follows h sc) (declsWalk_follows h ds sc) List.cons

end

theorem filesWalk_follows (h : w.Follows view v) : ∀ fs : List SourceFile,
    Shadows view (filesWalk w fs) (filesWalk v fs)
  | [] => yield []
  | f :: fs => seq (declsWalk_follows h f.declarations {}) (filesWalk_follows h fs)
    fun declarations fs => ({ f with declarations } : SourceFile) :: fs

end

/-! ## What a moment leaves behind -/

/-- Labels that no node has. -/
def Labels.blank : Labels Empty := ⟨fun _ => [], fun _ => rfl, fun _ => rfl⟩

theorem Labels.within_blank (known : Empty → Prop) (nodes : List Node) :
    Labels.blank.Within known nodes := nofun

/-- A visitor whose every visit keeps a property of states up, whatever it visits. -/
structure Visitor.Upholds (v : Visitor σ) (lasting : σ → Prop) : Prop where
  onExpr : ∀ sc place e st, lasting st → lasting (v.onExpr sc place e st).2
  onDecl : ∀ sc d st, lasting st → lasting (v.onDecl sc d st).2

variable {v : Visitor σ} {lasting : σ → Prop}

/-- What every visit keeps up, a walk keeps up. -/
theorem filesWalk_upholds (hv : v.Upholds lasting) (fs : List SourceFile) (st : σ)
    (h : lasting st) : lasting (filesWalk v fs st).2 :=
  have hmaintains : v.Maintains Labels.blank (fun _ => True) lasting :=
    ⟨fun sc place e st _ => hv.onExpr sc place e st, fun sc d st _ _ => hv.onDecl sc d st⟩
  filesWalk_maintains hmaintains fs (Labels.within_blank _ _) st h

/-- What every visit keeps up and one visit brings about holds at the end of the walk. -/
theorem lasting_of_moment (hv : v.Upholds lasting) {fs : List SourceFile} {st : σ}
    {now : Moment σ} (hnow : now ∈ filesMoments v fs st) (h : lasting (now.visit v).2) :
    lasting (filesWalk v fs st).2 := by
  -- whatever a noted visit has brought about still holds
  have hwatched : v.watched.Upholds fun s => ∀ now ∈ s.2, lasting (now.visit v).2 → lasting s.1 := by
    refine ⟨fun sc place e s hs now hmem hvisit => ?_, fun sc d s hs now hmem hvisit =>
      hv.onDecl sc d s.1 (hs now hmem hvisit)⟩
    obtain rfl | hmem := List.mem_cons.mp hmem
    · exact hvisit
    · exact hv.onExpr sc place e s.1 (hs now hmem hvisit)
  have hnoted : ∀ now ∈ filesMoments v fs st,
      lasting (now.visit v).2 → lasting (filesWalk v.watched fs (st, [])).2.1 :=
    filesWalk_upholds hwatched fs (st, []) nofun
  rw [filesWalk_follows v.watched_follows fs (st, [])]
  exact hnoted now hnow h

end TraceWeave

import TraceWeave.Proofs.Pipeline.Landmarks
import TraceWeave.Proofs.Pipeline.Retained
import TraceWeave.Proofs.Program.Marks

/-! # What passes leave of the marks

A relation between marks that holds piece by piece, and that every visit of a walk establishes,
holds between the marks of a program before and after the walk. What is left when calls are taken
out has no marks of its own, and the calls that are left in removable places were not scheduled.

`Visitor.Relates` is the condition on visits and `filesWalk_marks` what follows for walks;
`Removal.Thins` and `Removal.filesPrune_marks` are about calls that are taken out.
-/

namespace TraceWeave

/-- Parameters that keep their heads change neither the scopes nor the mark of their function. -/
theorem Spot.function_eq (c : Spot) (head : DeclHead) (info : FunctionHead)
    {params params' : List Param} (h : List.Forall₂ Param.Stays params params') (body body' : Body) :
    c.entering (.function head info params' body') = c.entering (.function head info params body) ∧
      c.declared (.function head info params' body') =
        c.declared (.function head info params body) := by
  have hheads : params'.map Param.head = params.map Param.head := by
    induction h with
    | nil => rfl
    | cons hp _ ih => rw [List.map_cons, List.map_cons, hp.head, ih]
  have hlocals := congrArg (List.map VisibleLocal.ofParam) hheads
  rw [List.map_map, List.map_map] at hlocals
  have hlength : params'.length = params.length := h.length_eq.symm
  constructor
  · exact congrArg (fun locals => Spot.mk (c.scopes.push (.ofFunction head.id locals)) _) hlocals
  · simp [declared, SymbolScope.declared, SymbolScope.symbol, Symbol.profile, Symbol.function?,
      Decl.symbolKind, Decl.symbolName, Decl.head, hlength]

/-! ## Walks -/

/-- A relation between the marks before and after a pass that holds piece by piece. -/
structure Mark.Piecewise (rel : List Mark → List Mark → Prop) : Prop where
  nil : rel [] []
  append : ∀ {xs ys xs' ys'}, rel xs ys → rel xs' ys' → rel (xs ++ xs') (ys ++ ys')
  decl : ∀ p, rel [.decl p] [.decl p]

section

variable {σ α β γ : Type} {rel : List Mark → List Mark → Prop} {good : σ → Prop}
  {before after : Cut}

/-- A visitor that leaves declarations and relates the marks of every expression, where the marks
`xs` of its operands are related already, to those of what it makes of it. -/
structure Visitor.Relates (v : Visitor σ) (rel : List Mark → List Mark → Prop) (good : σ → Prop)
    (before after : Cut) : Prop where
  piecewise : Mark.Piecewise rel
  leaves : v.LeavesDecls
  handsBack : ∀ sc place e st, good (v.onExpr sc place e st).2 → good st
  visit : ∀ c place e st xs, good (v.onExpr c.scopes place e st).2 →
    rel xs (toursMarks after c e.operandTours) →
      rel (if e.isCut before then [] else xs ++ (e.callFace? c.scopes place).toList.map .call)
        ((v.onExpr c.scopes place e st).1.marks after c place)

/-- A step after which the marks are related to those before, if all is well behind it. -/
def Remarks (rel : List Mark → List Mark → Prop) (good : σ → Prop) (step : σ → α × σ)
    (xs : List Mark) (ys : α → List Mark) : Prop :=
  ∀ st, good (step st).2 → good st ∧ rel xs (ys (step st).1)

namespace Remarks

variable {f : σ → α × σ} {g : σ → β × σ} {xs xs' : List Mark} {ys : α → List Mark}
  {ys' : β → List Mark} {zs : γ → List Mark} {v : Visitor σ} {c : Spot} {place : Place}

theorem nothing (hv : v.Relates rel good before after) {a : α} {ys : α → List Mark}
    (hys : ys a = [] := by rfl) : Remarks rel good (fun st => (a, st)) [] ys := by
  intro st hst
  refine ⟨hst, ?_⟩
  dsimp only
  rw [hys]
  exact hv.piecewise.nil

theorem map (h : Remarks rel good f xs ys) (k : α → γ)
    (hk : ∀ a, zs (k a) = ys a := by exact fun _ => rfl) :
    Remarks rel good (fun st => (k (f st).1, (f st).2)) xs zs := by
  intro st hst
  dsimp only
  rw [hk]
  exact h st hst

theorem seq (hv : v.Relates rel good before after) (h : Remarks rel good f xs ys)
    (h' : Remarks rel good g xs' ys') (k : α → β → γ)
    (hk : ∀ st, zs (k (f st).1 (g (f st).2).1) = ys (f st).1 ++ ys' (g (f st).2).1 := by
      exact fun _ => rfl) :
    Remarks rel good (fun st => (k (f st).1 (g (f st).2).1, (g (f st).2).2)) (xs ++ xs') zs := by
  intro st hst
  obtain ⟨hmiddle, hrest⟩ := h' _ hst
  obtain ⟨hstart, hfirst⟩ := h _ hmiddle
  refine ⟨hstart, ?_⟩
  dsimp only
  rw [hk]
  exact hv.piecewise.append hfirst hrest

theorem pair (hv : v.Relates rel good before after) (h : Remarks rel good f xs ys)
    (h' : Remarks rel good g xs' ys') :
    Remarks rel good (fun st => (((f st).1, (g (f st).2).1), (g (f st).2).2)) (xs ++ xs')
      fun p => ys p.1 ++ ys' p.2 :=
  seq hv h h' Prod.mk

theorem beside (hv : v.Relates rel good before after) {ts ts' : List Tour} {us : α → List Tour}
    {us' : β → List Tour}
    (h : Remarks rel good f (toursMarks before c ts) fun a => toursMarks after c (us a))
    (h' : Remarks rel good g (toursMarks before c ts') fun b => toursMarks after c (us' b)) :
    Remarks rel good (fun st => (((f st).1, (g (f st).2).1), (g (f st).2).2))
      (toursMarks before c (ts ++ ts')) fun p => toursMarks after c (us p.1 ++ us' p.2) := by
  rw [toursMarks_append]
  exact seq hv h h' Prod.mk fun _ => toursMarks_append ..

theorem besideDecls (hv : v.Relates rel good before after) {ts ts' : List DeclTour}
    {us : α → List DeclTour} {us' : β → List DeclTour}
    (h : Remarks rel good f (declToursMarks before c ts) fun a => declToursMarks after c (us a))
    (h' : Remarks rel good g (declToursMarks before c ts') fun b => declToursMarks after c (us' b)) :
    Remarks rel good (fun st => (((f st).1, (g (f st).2).1), (g (f st).2).2))
      (declToursMarks before c (ts ++ ts')) fun p => declToursMarks after c (us p.1 ++ us' p.2) := by
  rw [declToursMarks_append]
  exact seq hv h h' Prod.mk fun _ => declToursMarks_append ..

/-- The only piece in its place. -/
theorem single (h : Remarks rel good f xs ys) :
    Remarks rel good f (xs ++ []) fun a => ys a ++ [] := by
  simpa only [List.append_nil] using h

theorem visit (hv : v.Relates rel good before after) {e : Expr} (h : Remarks rel good f xs ys)
    (k : α → Expr)
    (hface : ∀ st, (k (f st).1).callFace? c.scopes place = e.callFace? c.scopes place := by
      exact fun _ => rfl)
    (hxs : xs = toursMarks before c e.operandTours := by rfl)
    (hys : ∀ a, toursMarks after c (k a).operandTours = ys a := by exact fun _ => rfl) :
    Remarks rel good (fun st => v.onExpr c.scopes place (k (f st).1) (f st).2)
      (e.marks before c place) fun e => e.marks after c place := by
  intro st hst
  have hmiddle := hv.handsBack _ _ _ _ hst
  obtain ⟨hstart, hrel⟩ := h _ hmiddle
  have hvisit := hv.visit c place _ _ xs hst (by rwa [hys])
  rw [hface, Expr.isCut_of_callFace? (hface st), hxs] at hvisit
  exact ⟨hstart, hvisit⟩

theorem leaf (hv : v.Relates rel good before after) {e : Expr} (he : e.operandTours = []) :
    Remarks rel good (v.onExpr c.scopes place e) (e.marks before c place)
      fun e => e.marks after c place := by
  have hnone : toursMarks before c e.operandTours = [] ∧ toursMarks after c e.operandTours = [] := by
    rw [he]
    exact ⟨rfl, rfl⟩
  have hbefore : Remarks rel good (fun st => ((), st)) [] fun _ => [] := nothing hv
  exact visit hv hbefore (fun _ => e) (fun _ => rfl) hnone.1.symm fun _ => hnone.2

theorem decl (hv : v.Relates rel good before after) {sc : ScopeStack} (d : Decl)
    (h : Remarks rel good f xs ys) (k : α → Decl)
    (hk : ∀ st, (k (f st).1).tour.marks after c = ys (f st).1 ++ [c.declared d] := by
      exact fun _ => rfl) :
    Remarks rel good (fun st => v.onDecl sc (k (f st).1) (f st).2) (xs ++ [c.declared d])
      fun d => d.tour.marks after c := by
  intro st hst
  dsimp only at hst ⊢
  rw [hv.leaves] at hst ⊢
  obtain ⟨hstart, hrel⟩ := h _ hst
  refine ⟨hstart, ?_⟩
  rw [hk]
  exact hv.piecewise.append hrel (hv.piecewise.decl _)

end Remarks

open Remarks

variable {v : Visitor σ}

theorem argsWalk_isSome (sc : ScopeStack) : ∀ (args : List (Option Expr)) (st : σ),
    (argsWalk v sc args st).1.map Option.isSome = args.map Option.isSome
  | [], _ => rfl
  | none :: args, st => congrArg (false :: ·) (argsWalk_isSome sc args st)
  | some _ :: args, _ => congrArg (true :: ·) (argsWalk_isSome sc args _)

theorem Spot.after_walk (c : Spot) (sc : ScopeStack) (stmt : Stmt) (st : σ) :
    c.after (stmt.walk v sc st).1 = c.after stmt := by
  cases stmt <;> rfl

mutual

-- The marks of a node are those of its parts and then its own, so the relation is put together in
-- the order in which the walk goes.
theorem Expr.walk_marks (hv : v.Relates rel good before after) : ∀ (e : Expr) (c : Spot)
    (place : Place), Remarks rel good (e.walk v c.scopes place) (e.marks before c place)
      fun e => e.marks after c place
  | .setVar s var value => fun c _ =>
    visit hv (value.walk_marks hv c .operand).single (.setVar s var)
  | .call s callee receiver typeArgs args => fun c place =>
    visit hv (beside hv (optionWalk_marks hv receiver c .operand) (argsWalk_marks hv args c))
      (fun p => .call s callee p.1 typeArgs p.2) fun _ =>
        congrArg (fun given => some (CallFace.mk c.scopes place s.span callee given))
          (argsWalk_isSome c.scopes args _)
  | .block s stmts => fun c _ => visit hv (stmtsWalk_marks hv stmts c.block).single (.block s)
  | .returnable s id stmts => fun c _ =>
    visit hv (stmtsWalk_marks hv stmts c.block).single (.returnable s id)
  | .ret s target value => fun c _ =>
    visit hv (value.walk_marks hv c .operand).single (.ret s target)
  | .when s branches otherwise => fun c _ =>
    visit hv (beside hv (branchesWalk_marks hv branches c)
      (optionWalk_marks hv otherwise c .operand)) fun p => .when s p.1 p.2
  | .loop s condition body => fun c _ =>
    visit hv (pair hv (condition.walk_marks hv c .operand) (body.walk_marks hv c .operand).single)
      fun p => .loop s p.1 p.2
  | .binary s op lhs rhs => fun c _ =>
    visit hv (pair hv (lhs.walk_marks hv c .operand) (rhs.walk_marks hv c .operand).single)
      fun p => .binary s op p.1 p.2
  | .not s operand => fun c _ => visit hv (operand.walk_marks hv c .operand).single (.not s)
  | .concat s parts => fun c _ => visit hv (exprsWalk_marks hv parts c) (.concat s)
  | .lambda s decl => fun c _ => visit hv (decl.walk_marks hv c).single (.lambda s)
  | .const _ _ | .getVar _ _ | .functionRef _ _ | .propertyRef _ _ | .descriptor _ _
  | .captureFrame _ _ => fun _ _ => leaf hv rfl

theorem optionWalk_marks (hv : v.Relates rel good before after) : ∀ (e : Option Expr) (c : Spot)
    (place : Place), Remarks rel good (optionWalk v c.scopes place e)
      (toursMarks before c (optionTours place e)) fun e => toursMarks after c (optionTours place e)
  | none => fun _ _ => nothing hv
  | some e => fun c place => (e.walk_marks hv c place).single.map some

theorem argsWalk_marks (hv : v.Relates rel good before after) : ∀ (args : List (Option Expr))
    (c : Spot), Remarks rel good (argsWalk v c.scopes args) (toursMarks before c (argsTours args))
      fun args => toursMarks after c (argsTours args)
  | [] => fun _ => nothing hv
  | none :: args => fun c => (argsWalk_marks hv args c).map (none :: ·)
  | some e :: args => fun c =>
    seq hv (e.walk_marks hv c .operand) (argsWalk_marks hv args c) fun e args => some e :: args

theorem exprsWalk_marks (hv : v.Relates rel good before after) : ∀ (es : List Expr) (c : Spot),
    Remarks rel good (exprsWalk v c.scopes es) (toursMarks before c (exprsTours es))
      fun es => toursMarks after c (exprsTours es)
  | [] => fun _ => nothing hv
  | e :: es => fun c => seq hv (e.walk_marks hv c .operand) (exprsWalk_marks hv es c) List.cons

theorem branchesWalk_marks (hv : v.Relates rel good before after) :
    ∀ (branches : List (Expr × Expr)) (c : Spot), Remarks rel good (branchesWalk v c.scopes branches)
      (toursMarks before c (branchesTours branches))
      fun branches => toursMarks after c (branchesTours branches)
  | [] => fun _ => nothing hv
  | (condition, result) :: branches => fun c =>
    seq hv (condition.walk_marks hv c .operand)
      (pair hv (result.walk_marks hv c .operand) (branchesWalk_marks hv branches c))
      fun c p => (c, p.1) :: p.2

theorem stmtsWalk_marks (hv : v.Relates rel good before after) : ∀ (stmts : List Stmt) (c : Spot),
    Remarks rel good (stmtsWalk v c.scopes stmts) (itemsMarks before c (stmtsItems stmts))
      fun stmts => itemsMarks after c (stmtsItems stmts)
  | [] => fun _ => nothing hv
  | stmt :: stmts => fun c => by
    rw [stmtsItems, itemsMarks_stmt]
    refine seq hv (stmt.walk_marks hv c) (stmtsWalk_marks hv stmts (c.after stmt)) List.cons
      fun st => ?_
    rw [stmtsItems, itemsMarks_stmt, Spot.after_walk]

theorem Stmt.walk_marks (hv : v.Relates rel good before after) : ∀ (stmt : Stmt) (c : Spot),
    Remarks rel good (stmt.walk v c.scopes) (itemsMarks before c stmt.items)
      fun stmt => itemsMarks after c stmt.items
  | .expr e => fun c => (e.walk_marks hv c .statement).single.map Stmt.expr
  | .var _ none => fun _ => nothing hv
  | .var head (some e) => fun c =>
    (e.walk_marks hv c .initializer).single.map fun e => Stmt.var head (some e)
  | .decl d => fun c => (d.walk_marks hv c).single.map Stmt.decl

theorem paramsWalk_marks (hv : v.Relates rel good before after) : ∀ (params : List Param)
    (c : Spot), Remarks rel good (paramsWalk v c.scopes params)
      (toursMarks before c (paramsTours params)) fun params => toursMarks after c (paramsTours params)
  | [] => fun _ => nothing hv
  | ⟨head, default⟩ :: params => fun c =>
    (beside hv (optionWalk_marks hv default c .defaultValue) (paramsWalk_marks hv params c)).map
      fun p => Param.mk head p.1 :: p.2

theorem Body.walk_marks (hv : v.Relates rel good before after) : ∀ (body : Body) (c : Spot),
    Remarks rel good (body.walk v c.scopes) (toursMarks before c body.tours)
      fun body => toursMarks after c body.tours
  | .absent => fun _ => nothing hv
  | .block stmts => fun c => (stmtsWalk_marks hv stmts c.block).single.map Body.block
  | .expression e => fun c => (e.walk_marks hv c .expressionBody).single.map Body.expression

theorem Decl.walk_marks (hv : v.Relates rel good before after) : ∀ (d : Decl) (c : Spot),
    Remarks rel good (d.walk v c.scopes) (d.tour.marks before c) fun d => d.tour.marks after c
  | .classDecl head info members => fun c =>
    decl hv _ (declsWalk_marks hv members (c.entering (.classDecl head info members)))
      (.classDecl head info)
  | .function head info params body => fun c =>
    let inner := c.entering (.function head info params body)
    decl hv _ (beside hv (paramsWalk_marks hv params inner) (body.walk_marks hv inner))
      (fun p => .function head info p.1 p.2) fun st => by
        obtain ⟨hentering, hdeclared⟩ := c.function_eq head info
          (paramsWalk_stays (v := v) inner.scopes params st) body
          (body.walk v inner.scopes (paramsWalk v inner.scopes params st).2).1
        exact congrArg₂ (fun c k => toursMarks after c _ ++ [k]) hentering hdeclared
  | .property head info backing getter setter => fun c =>
    let inner := c.entering (.property head info backing getter setter)
    decl hv _ (besideDecls hv (besideDecls hv (accessorWalk_marks hv backing inner)
      (accessorWalk_marks hv getter inner)) (accessorWalk_marks hv setter inner))
      fun p => .property head info p.1.1 p.1.2 p.2
  | .field head info init => fun c =>
    decl hv _ (optionWalk_marks hv init (c.entering (.field head info init)) .initializer)
      (.field head info)
  | .initializer head body => fun c =>
    decl hv _ (stmtsWalk_marks hv body (c.entering (.initializer head body)).block).single
      (.initializer head)

theorem accessorWalk_marks (hv : v.Relates rel good before after) : ∀ (d : Option Decl) (c : Spot),
    Remarks rel good (accessorWalk v c.scopes d) (declToursMarks before c (accessorTours d))
      fun d => declToursMarks after c (accessorTours d)
  | none => fun _ => nothing hv
  | some d => fun c => (d.walk_marks hv c).single.map some

theorem declsWalk_marks (hv : v.Relates rel good before after) : ∀ (ds : List Decl) (c : Spot),
    Remarks rel good (declsWalk v c.scopes ds) (declToursMarks before c (declsTours ds))
      fun ds => declToursMarks after c (declsTours ds)
  | [] => fun _ => nothing hv
  | d :: ds => fun c => seq hv (d.walk_marks hv c) (declsWalk_marks hv ds c) List.cons

end

theorem filesWalk_marks (hv : v.Relates rel good before after) : ∀ fs : List SourceFile,
    Remarks rel good (filesWalk v fs) (filesMarks before fs) (filesMarks after)
  | [] => nothing hv
  | f :: fs => seq hv (declsWalk_marks hv f.declarations f.spot) (filesWalk_marks hv fs)
    fun declarations fs => ({ f with declarations } : SourceFile) :: fs

end

/-! ## Removal -/

theorem ScopeStack.innermostDecl?_after (sc : ScopeStack) (stmt : Stmt) :
    (sc.after stmt).innermostDecl? = sc.innermostDecl? := by
  cases stmt with
  | var head init => rcases sc with ⟨_ | ⟨f, fs⟩⟩ <;> rfl
  | _ => rfl

theorem Spot.after_prune (c : Spot) (keys : List CallKey) (owner : Option DeclId) (stmt : Stmt) :
    c.after (Removal.stmtPrune keys owner stmt).1 = c.after stmt := by
  cases stmt <;> rfl

namespace Removal

/-- The places that calls can be taken out of. -/
def isRemovable : Place → Bool
  | .statement | .expressionBody => true
  | .initializer | .defaultValue | .operand => false

/-- What a call is scheduled by. -/
def keyOf (f : CallFace) : CallKey := ⟨f.scopes.innermostDecl?, f.span, f.callee⟩

variable {keys : List CallKey}

variable (keys) in
/-- Marks that are all left of others, with no scheduled call where it could be taken out. -/
def Thins (xs ys : List Mark) : Prop :=
  ∀ k ∈ ys, k ∈ xs ∧ ∀ f, k = .call f → isRemovable f.place = true → keyOf f ∉ keys

namespace Thins

variable {xs ys xs' ys' : List Mark} {c : Spot} {place : Place}

theorem drop : Thins keys xs [] := nofun

theorem append (h : Thins keys xs ys) (h' : Thins keys xs' ys') :
    Thins keys (xs ++ xs') (ys ++ ys') :=
  List.forall_mem_append.mpr ⟨fun k hk => ⟨List.mem_append_left _ (h k hk).1, (h k hk).2⟩,
    fun k hk => ⟨List.mem_append_right _ (h' k hk).1, (h' k hk).2⟩⟩

theorem single (h : Thins keys xs ys) : Thins keys (xs ++ []) (ys ++ []) := h.append .drop

theorem beside {ts ts' us us' : List Tour}
    (h : Thins keys (toursMarks .none c ts) (toursMarks .none c us))
    (h' : Thins keys (toursMarks .none c ts') (toursMarks .none c us')) :
    Thins keys (toursMarks .none c (ts ++ ts')) (toursMarks .none c (us ++ us')) := by
  rw [toursMarks_append, toursMarks_append]
  exact h.append h'

theorem besideDecls {ts ts' us us' : List DeclTour}
    (h : Thins keys (declToursMarks .none c ts) (declToursMarks .none c us))
    (h' : Thins keys (declToursMarks .none c ts') (declToursMarks .none c us')) :
    Thins keys (declToursMarks .none c (ts ++ ts')) (declToursMarks .none c (us ++ us')) := by
  rw [declToursMarks_append, declToursMarks_append]
  exact h.append h'

theorem decl (h : Thins keys xs ys) (c : Spot) (d : Decl) :
    Thins keys (xs ++ [c.declared d]) (ys ++ [c.declared d]) := by
  refine h.append fun k hk => ⟨hk, fun f hf => ?_⟩
  rw [List.mem_singleton.mp hk] at hf
  cases hf

theorem visit {e e' : Expr}
    (h : Thins keys (toursMarks .none c e.operandTours) (toursMarks .none c e'.operandTours))
    (hface : e'.callFace? c.scopes place = e.callFace? c.scopes place := by rfl)
    (he : isRemovable place = true → isScheduled keys c.scopes.innermostDecl? e = false := by
      exact fun _ => rfl) :
    Thins keys (e.marks .none c place) (e'.marks .none c place) := by
  rw [Expr.marks_of_isCut_eq_false e.isCut_none, Expr.marks_of_isCut_eq_false e'.isCut_none, hface]
  refine h.append fun k hk => ⟨hk, ?_⟩
  rintro f rfl hplace hkey
  cases e with
  | call s callee receiver typeArgs args =>
    obtain rfl : f = _ := by simpa [Expr.callFace?] using hk
    have hcontains : isScheduled keys c.scopes.innermostDecl?
        (.call s callee receiver typeArgs args) = true := List.contains_iff_mem.mpr hkey
    cases hcontains.symm.trans (he hplace)
  | _ => cases hk

end Thins

theorem argsPrune_isSome (owner : Option DeclId) : ∀ args : List (Option Expr),
    (argsPrune keys owner args).1.map Option.isSome = args.map Option.isSome
  | [] => rfl
  | none :: args => congrArg (false :: ·) (argsPrune_isSome owner args)
  | some _ :: args => congrArg (true :: ·) (argsPrune_isSome owner args)

variable (keys)

mutual

-- Operands stand where nothing can be taken out. That a call was not scheduled has to be shown for
-- statements and expression bodies only, by the caller.
theorem exprPrune_marks : ∀ (e : Expr) (c : Spot) (place : Place) (owner : Option DeclId),
    c.scopes.innermostDecl? = owner → (isRemovable place = true → isScheduled keys owner e = false) →
      Thins keys (e.marks .none c place) ((exprPrune keys owner e).1.marks .none c place)
  | .setVar _ _ value => fun c _ owner ho _ =>
    (exprPrune_marks value c .operand owner ho nofun).single.visit
  | .call s callee receiver _ args => fun c place owner ho he =>
    ((optionPrune_marks receiver c .operand owner ho rfl).beside
      (argsPrune_marks args c owner ho)).visit
      (congrArg (fun given => some (CallFace.mk c.scopes place s.span callee given))
        (argsPrune_isSome owner args)) (ho ▸ he)
  | .block _ stmts => fun c _ owner ho _ => (stmtsPrune_marks stmts c.block owner ho).single.visit
  | .returnable _ _ stmts => fun c _ owner ho _ =>
    (stmtsPrune_marks stmts c.block owner ho).single.visit
  | .ret _ _ value => fun c _ owner ho _ =>
    (exprPrune_marks value c .operand owner ho nofun).single.visit
  | .when _ branches otherwise => fun c _ owner ho _ =>
    ((branchesPrune_marks branches c owner ho).beside
      (optionPrune_marks otherwise c .operand owner ho rfl)).visit
  | .loop _ condition body => fun c _ owner ho _ =>
    ((exprPrune_marks condition c .operand owner ho nofun).append
      (exprPrune_marks body c .operand owner ho nofun).single).visit
  | .binary _ _ lhs rhs => fun c _ owner ho _ =>
    ((exprPrune_marks lhs c .operand owner ho nofun).append
      (exprPrune_marks rhs c .operand owner ho nofun).single).visit
  | .not _ operand => fun c _ owner ho _ =>
    (exprPrune_marks operand c .operand owner ho nofun).single.visit
  | .concat _ parts => fun c _ owner ho _ => (exprsPrune_marks parts c owner ho).visit
  | .lambda _ decl => fun c _ owner ho _ => (declPrune_marks decl c owner ho).single.visit
  | .const _ _ | .getVar _ _ | .functionRef _ _ | .propertyRef _ _ | .descriptor _ _
  | .captureFrame _ _ => fun _ _ _ _ _ => Thins.drop.visit

theorem optionPrune_marks : ∀ (e : Option Expr) (c : Spot) (place : Place)
    (owner : Option DeclId), c.scopes.innermostDecl? = owner → isRemovable place = false →
      Thins keys (toursMarks .none c (optionTours place e))
        (toursMarks .none c (optionTours place (optionPrune keys owner e).1))
  | none => fun _ _ _ _ _ => .drop
  | some e => fun c place owner ho hplace =>
    (exprPrune_marks e c place owner ho fun h => absurd (hplace.symm.trans h) nofun).single

theorem argsPrune_marks : ∀ (args : List (Option Expr)) (c : Spot) (owner : Option DeclId),
    c.scopes.innermostDecl? = owner → Thins keys (toursMarks .none c (argsTours args))
      (toursMarks .none c (argsTours (argsPrune keys owner args).1))
  | [] => fun _ _ _ => .drop
  | none :: args => fun c owner ho => argsPrune_marks args c owner ho
  | some e :: args => fun c owner ho =>
    (exprPrune_marks e c .operand owner ho nofun).append (argsPrune_marks args c owner ho)

theorem exprsPrune_marks : ∀ (es : List Expr) (c : Spot) (owner : Option DeclId),
    c.scopes.innermostDecl? = owner → Thins keys (toursMarks .none c (exprsTours es))
      (toursMarks .none c (exprsTours (exprsPrune keys owner es).1))
  | [] => fun _ _ _ => .drop
  | e :: es => fun c owner ho =>
    (exprPrune_marks e c .operand owner ho nofun).append (exprsPrune_marks es c owner ho)

theorem branchesPrune_marks : ∀ (branches : List (Expr × Expr)) (c : Spot)
    (owner : Option DeclId), c.scopes.innermostDecl? = owner →
      Thins keys (toursMarks .none c (branchesTours branches))
        (toursMarks .none c (branchesTours (branchesPrune keys owner branches).1))
  | [] => fun _ _ _ => .drop
  | (condition, result) :: branches => fun c owner ho =>
    (exprPrune_marks condition c .operand owner ho nofun).append
      ((exprPrune_marks result c .operand owner ho nofun).append
        (branchesPrune_marks branches c owner ho))

theorem stmtsPrune_marks : ∀ (stmts : List Stmt) (c : Spot) (owner : Option DeclId),
    c.scopes.innermostDecl? = owner → Thins keys (itemsMarks .none c (stmtsItems stmts))
      (itemsMarks .none c (stmtsItems (stmtsPrune keys owner stmts).1))
  | [] => fun _ _ _ => .drop
  | stmt :: stmts => fun c owner ho => by
    have hrest := stmtsPrune_marks stmts (c.after stmt) owner
      ((c.scopes.innermostDecl?_after stmt).trans ho)
    rw [stmtsItems, itemsMarks_stmt, stmtsPrune]
    split
    · -- only an expression is scheduled, and it brings no variable into scope
      rename_i hscheduled
      cases stmt with
      | expr e => exact Thins.drop.append hrest
      | _ => cases hscheduled
    · rename_i hscheduled
      change Thins keys _ (itemsMarks .none c ((stmtPrune keys owner stmt).1.items ++ _))
      rw [itemsMarks_stmt, Spot.after_prune]
      exact (stmtPrune_marks stmt c owner ho (Bool.not_eq_true _ ▸ hscheduled)).append hrest

theorem stmtPrune_marks : ∀ (stmt : Stmt) (c : Spot) (owner : Option DeclId),
    c.scopes.innermostDecl? = owner → isScheduledStmt keys owner stmt = false →
      Thins keys (itemsMarks .none c stmt.items)
        (itemsMarks .none c (stmtPrune keys owner stmt).1.items)
  | .expr e => fun c owner ho he => (exprPrune_marks e c .statement owner ho fun _ => he).single
  | .var _ none => fun _ _ _ _ => .drop
  | .var _ (some e) => fun c owner ho _ =>
    (exprPrune_marks e c .initializer owner ho nofun).single
  | .decl d => fun c owner ho _ => (declPrune_marks d c owner ho).single

theorem paramsPrune_marks : ∀ (params : List Param) (c : Spot) (owner : Option DeclId),
    c.scopes.innermostDecl? = owner → Thins keys (toursMarks .none c (paramsTours params))
      (toursMarks .none c (paramsTours (paramsPrune keys owner params).1))
  | [] => fun _ _ _ => .drop
  | ⟨_, default⟩ :: params => fun c owner ho =>
    (optionPrune_marks default c .defaultValue owner ho rfl).beside
      (paramsPrune_marks params c owner ho)

theorem bodyPrune_marks : ∀ (body : Body) (c : Spot) (owner : Option DeclId),
    c.scopes.innermostDecl? = owner → Thins keys (toursMarks .none c body.tours)
      (toursMarks .none c (bodyPrune keys owner body).1.tours)
  | .absent => fun _ _ _ => .drop
  | .block stmts => fun c owner ho => (stmtsPrune_marks stmts c.block owner ho).single
  | .expression e => fun c owner ho => by
    rw [bodyPrune]
    cases hscheduled : isScheduled keys owner e with
    | true => exact .drop
    | false =>
      exact (exprPrune_marks e c .expressionBody owner ho fun _ => hscheduled).single

theorem declPrune_marks : ∀ (d : Decl) (c : Spot) (owner : Option DeclId),
    c.scopes.innermostDecl? = owner →
      Thins keys (d.tour.marks .none c) ((declPrune keys owner d).1.tour.marks .none c)
  | .classDecl _ _ members => fun c _ _ => (declsPrune_marks members _ _ rfl).decl c _
  | .function head info params body => fun c _ _ => by
    let params' := (paramsPrune keys (some head.id) params).1
    let body' := (bodyPrune keys (some head.id) body).1
    obtain ⟨hentering, hdeclared⟩ := c.function_eq head info
      (paramsPrune_stays keys (some head.id) params) body body'
    change Thins keys _ (toursMarks .none (c.entering (.function head info params' body')) _ ++
      [c.declared (.function head info params' body')])
    rw [hentering, hdeclared]
    exact ((paramsPrune_marks params _ _ rfl).beside (bodyPrune_marks body _ _ rfl)).decl c _
  | .property head info backing getter setter => fun c owner ho =>
    let inner := c.entering (.property head info backing getter setter)
    (((accessorPrune_marks backing inner owner ho).besideDecls
      (accessorPrune_marks getter inner owner ho)).besideDecls
        (accessorPrune_marks setter inner owner ho)).decl c _
  | .field _ _ init => fun c _ _ => (optionPrune_marks init _ .initializer _ rfl rfl).decl c _
  | .initializer _ body => fun c _ _ => (stmtsPrune_marks body _ _ rfl).single.decl c _

theorem accessorPrune_marks : ∀ (d : Option Decl) (c : Spot) (owner : Option DeclId),
    c.scopes.innermostDecl? = owner → Thins keys (declToursMarks .none c (accessorTours d))
      (declToursMarks .none c (accessorTours (accessorPrune keys owner d).1))
  | none => fun _ _ _ => .drop
  | some d => fun c owner ho => (declPrune_marks d c owner ho).single

theorem declsPrune_marks : ∀ (ds : List Decl) (c : Spot) (owner : Option DeclId),
    c.scopes.innermostDecl? = owner → Thins keys (declToursMarks .none c (declsTours ds))
      (declToursMarks .none c (declsTours (declsPrune keys owner ds).1))
  | [] => fun _ _ _ => .drop
  | d :: ds => fun c owner ho =>
    (declPrune_marks d c owner ho).append (declsPrune_marks ds c owner ho)

end

theorem filesPrune_marks : ∀ fs : List SourceFile,
    Thins keys (filesMarks .none fs) (filesMarks .none (filesPrune keys fs).1)
  | [] => .drop
  | f :: fs => (declsPrune_marks keys f.declarations f.spot none rfl).append (filesPrune_marks fs)

end Removal

end TraceWeave

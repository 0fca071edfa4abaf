import TraceWeave.Proofs.Pipeline.Landmarks
import TraceWeave.Proofs.Program.Calls
import TraceWeave.Proofs.Program.Tour

/-! # Passes that find nothing to do

A walk whose visitor leaves every expression of the tour gives the program back, and its state has
seen the visits one after the other. Extraction gives a program back in which no default is an
intrinsic call, and taking no calls out gives every program back.

An `Onlooker` says which visits are idle, and `Onlooker.Passes` of a step that it leaves the
program. The results are `Module.filesWalk_of_idle` and `CallerCapture.extract_of_idle`.
-/

namespace TraceWeave

/-! ## Going through a program -/

section

variable {σ : Type}

/-- One who goes along a tour: the visits that leave the program alone, and the state behind a
visit. -/
structure Onlooker (σ : Type) where
  Idle : Visit → Prop
  see : σ → Visit → σ

/-- A step that goes through `a` and, if all visits are idle, leaves it as it is. -/
def Onlooker.Passes {α : Type} (o : Onlooker σ) (step : σ → α × σ) (a : α) (visits : List Visit) :
    Prop :=
  (∀ x ∈ visits, o.Idle x) → ∀ st, step st = (a, visits.foldl o.see st)

namespace Onlooker.Passes

variable {α β γ : Type} {o : Onlooker σ} {sc : ScopeStack} {around : List Decl} {f : σ → α × σ}
  {g : σ → β × σ} {a : α} {b : β} {xs ys : List Visit}

theorem nothing : o.Passes (fun st => (a, st)) a [] := fun _ _ => rfl

theorem map (h : o.Passes f a xs) (k : α → γ) :
    o.Passes (fun st => (k (f st).1, (f st).2)) (k a) xs := by
  intro hxs st
  dsimp only
  rw [h hxs]

theorem seq (h : o.Passes f a xs) (h' : o.Passes g b ys) (k : α → β → γ) :
    o.Passes (fun st => (k (f st).1 (g (f st).2).1, (g (f st).2).2)) (k a b) (xs ++ ys) := by
  intro hall st
  obtain ⟨hxs, hys⟩ := List.forall_mem_append.mp hall
  dsimp only
  rw [h hxs, h' hys, List.foldl_append]

theorem beside {ts us : List Tour} (h : o.Passes f a (toursVisits sc around ts))
    (h' : o.Passes g b (toursVisits sc around us)) (k : α → β → γ) :
    o.Passes (fun st => (k (f st).1 (g (f st).2).1, (g (f st).2).2)) (k a b)
      (toursVisits sc around (ts ++ us)) := by
  rw [toursVisits_append]
  exact h.seq h' k

theorem besideDecls {ts us : List DeclTour} (h : o.Passes f a (declToursVisits sc around ts))
    (h' : o.Passes g b (declToursVisits sc around us)) (k : α → β → γ) :
    o.Passes (fun st => (k (f st).1 (g (f st).2).1, (g (f st).2).2)) (k a b)
      (declToursVisits sc around (ts ++ us)) := by
  rw [declToursVisits_append]
  exact h.seq h' k

/-- The only tour in its place. -/
theorem single {t : Tour} (h : o.Passes f a (t.visits sc around)) :
    o.Passes f a (toursVisits sc around [t]) := by
  rw [toursVisits, toursVisits, List.append_nil]
  exact h

theorem singleItem {t : Tour} (h : o.Passes f a (t.visits sc around)) :
    o.Passes f a (itemsVisits sc around [.run t]) := by
  rw [itemsVisits, itemsVisits, List.append_nil]
  exact h

theorem singleDecl {t : DeclTour} (h : o.Passes f a (t.visits sc around)) :
    o.Passes f a (declToursVisits sc around [t]) := by
  rw [declToursVisits, declToursVisits, List.append_nil]
  exact h

end Onlooker.Passes

theorem mem_optionTours (sc : ScopeStack) (around : List Decl) (place : Place) (e : Expr) :
    ⟨sc, around, place, e⟩ ∈ toursVisits sc around (optionTours place (some e)) := by
  simp [optionTours, toursVisits, Tour.visits]

/-! ## Visitors -/

/-- The visits after which a visitor hands the expression back are idle. -/
def Visitor.onlooker (v : Visitor σ) : Onlooker σ where
  Idle x := ∀ st, (v.onExpr x.scopes x.place x.expr st).1 = x.expr
  see st x := (v.onExpr x.scopes x.place x.expr st).2

namespace Onlooker.Passes

variable {α : Type} {v : Visitor σ} {sc : ScopeStack} {around : List Decl} {place : Place}
  {f : σ → α × σ} {a : α}

/-- The visit of an expression comes behind those of its operands. -/
theorem visit {operands : List Tour}
    (h : v.onlooker.Passes f a (toursVisits sc around operands)) (k : α → Expr) :
    v.onlooker.Passes (fun st => v.onExpr sc place (k (f st).1) (f st).2) (k a)
      ((Tour.visit place (k a) operands).visits sc around) := by
  intro hall st
  rw [Tour.visits, List.forall_mem_append] at hall
  dsimp only
  rw [h hall.1, Tour.visits, List.foldl_append]
  exact Prod.ext (hall.2 _ List.mem_cons_self _) rfl

theorem leaf {e : Expr} :
    v.onlooker.Passes (v.onExpr sc place e) e ((Tour.visit place e []).visits sc around) :=
  fun hall st => visit (nothing (a := ())) (fun _ => e) hall st

/-- A declaration around what was passed. -/
theorem decl (hv : v.LeavesDecls) {xs : List Visit} (h : v.onlooker.Passes f a xs)
    (k : α → Decl) :
    v.onlooker.Passes (fun st => v.onDecl sc (k (f st).1) (f st).2) (k a) xs := by
  intro hxs st
  dsimp only
  rw [h hxs, hv]

end Onlooker.Passes

open Onlooker.Passes

variable {v : Visitor σ}

mutual

-- Idle visits hand back the node that they are given. So the operands have been left as they are
-- when the visit of the node itself comes.
theorem Expr.walk_passes (hv : v.LeavesDecls) : ∀ (e : Expr) (sc : ScopeStack) (place : Place)
    (around : List Decl), v.onlooker.Passes (e.walk v sc place) e
      ((Tour.visit place e e.operandTours).visits sc around)
  | .setVar s var value => fun sc _ around =>
    (value.walk_passes hv sc .operand around).single.visit (.setVar s var)
  | .call s callee receiver typeArgs args => fun sc _ around =>
    ((optionWalk_passes hv receiver sc .operand around).beside (argsWalk_passes hv args sc around)
      Prod.mk).visit fun p => .call s callee p.1 typeArgs p.2
  | .block s stmts => fun _ _ around =>
    (single (t := .block _) (stmtsWalk_passes hv stmts _ around)).visit (.block s)
  | .returnable s id stmts => fun _ _ around =>
    (single (t := .block _) (stmtsWalk_passes hv stmts _ around)).visit (.returnable s id)
  | .ret s target value => fun sc _ around =>
    (value.walk_passes hv sc .operand around).single.visit (.ret s target)
  | .when s branches otherwise => fun sc _ around =>
    ((branchesWalk_passes hv branches sc around).beside
      (optionWalk_passes hv otherwise sc .operand around) Prod.mk).visit fun p => .when s p.1 p.2
  | .loop s condition body => fun sc _ around =>
    ((condition.walk_passes hv sc .operand around).single.beside
      (body.walk_passes hv sc .operand around).single Prod.mk).visit fun p => .loop s p.1 p.2
  | .binary s op lhs rhs => fun sc _ around =>
    ((lhs.walk_passes hv sc .operand around).single.beside
      (rhs.walk_passes hv sc .operand around).single Prod.mk).visit fun p => .binary s op p.1 p.2
  | .not s operand => fun sc _ around =>
    (operand.walk_passes hv sc .operand around).single.visit (.not s)
  | .concat s parts => fun sc _ around =>
    (exprsWalk_passes hv parts sc around).visit (.concat s)
  | .lambda s decl => fun sc _ around =>
    (single (t := .nested _) (decl.walk_passes hv sc around)).visit (.lambda s)
  | .const _ _ | .getVar _ _ | .functionRef _ _ | .propertyRef _ _ | .descriptor _ _
  | .captureFrame _ _ => fun _ _ _ => leaf

theorem optionWalk_passes (hv : v.LeavesDecls) : ∀ (e : Option Expr) (sc : ScopeStack)
    (place : Place) (around : List Decl),
      v.onlooker.Passes (optionWalk v sc place e) e (toursVisits sc around (optionTours place e))
  | none => fun _ _ _ => nothing
  | some e => fun sc place around => (e.walk_passes hv sc place around).single.map some

theorem argsWalk_passes (hv : v.LeavesDecls) : ∀ (args : List (Option Expr)) (sc : ScopeStack)
    (around : List Decl),
      v.onlooker.Passes (argsWalk v sc args) args (toursVisits sc around (argsTours args))
  | [] => fun _ _ => nothing
  | none :: args => fun sc around => (argsWalk_passes hv args sc around).map (none :: ·)
  | some e :: args => fun sc around =>
    (e.walk_passes hv sc .operand around).seq (argsWalk_passes hv args sc around)
      fun e args => some e :: args

theorem exprsWalk_passes (hv : v.LeavesDecls) : ∀ (es : List Expr) (sc : ScopeStack)
    (around : List Decl),
      v.onlooker.Passes (exprsWalk v sc es) es (toursVisits sc around (exprsTours es))
  | [] => fun _ _ => nothing
  | e :: es => fun sc around =>
    (e.walk_passes hv sc .operand around).seq (exprsWalk_passes hv es sc around) List.cons

theorem branchesWalk_passes (hv : v.LeavesDecls) : ∀ (branches : List (Expr × Expr))
    (sc : ScopeStack) (around : List Decl),
      v.onlooker.Passes (branchesWalk v sc branches) branches
        (toursVisits sc around (branchesTours branches))
  | [] => fun _ _ => nothing
  | (condition, result) :: branches => fun sc around =>
    (condition.walk_passes hv sc .operand around).seq
      ((result.walk_passes hv sc .operand around).seq (branchesWalk_passes hv branches sc around)
        Prod.mk) fun c p => (c, p.1) :: p.2

theorem stmtsWalk_passes (hv : v.LeavesDecls) : ∀ (stmts : List Stmt) (sc : ScopeStack)
    (around : List Decl), v.onlooker.Passes (stmtsWalk v sc stmts) stmts
      (itemsVisits sc around (stmtsItems stmts))
  | [] => fun _ _ => nothing
  | stmt :: stmts => fun sc around => by
    rw [stmtsItems, itemsVisits_stmt]
    exact (stmt.walk_passes hv sc around).seq (stmtsWalk_passes hv stmts _ around) List.cons

theorem Stmt.walk_passes (hv : v.LeavesDecls) : ∀ (stmt : Stmt) (sc : ScopeStack)
    (around : List Decl), v.onlooker.Passes (stmt.walk v sc) stmt (itemsVisits sc around stmt.items)
  | .expr e => fun sc around => (e.walk_passes hv sc .statement around).singleItem.map Stmt.expr
  | .var _ none => fun _ _ => nothing
  | .var head (some e) => fun sc around =>
    (e.walk_passes hv sc .initializer around).singleItem.map fun e => Stmt.var head (some e)
  | .decl d => fun sc around =>
    (singleItem (t := .nested _) (d.walk_passes hv sc around)).map Stmt.decl

theorem paramsWalk_passes (hv : v.LeavesDecls) : ∀ (params : List Param) (sc : ScopeStack)
    (around : List Decl), v.onlooker.Passes (paramsWalk v sc params) params
      (toursVisits sc around (paramsTours params))
  | [] => fun _ _ => nothing
  | ⟨head, default⟩ :: params => fun sc around =>
    (optionWalk_passes hv default sc .defaultValue around).beside
      (paramsWalk_passes hv params sc around) fun default params => Param.mk head default :: params

theorem Body.walk_passes (hv : v.LeavesDecls) : ∀ (body : Body) (sc : ScopeStack)
    (around : List Decl), v.onlooker.Passes (body.walk v sc) body (toursVisits sc around body.tours)
  | .absent => fun _ _ => nothing
  | .block stmts => fun _ around =>
    (single (t := .block _) (stmtsWalk_passes hv stmts _ around)).map Body.block
  | .expression e => fun sc around =>
    (e.walk_passes hv sc .expressionBody around).single.map Body.expression

theorem Decl.walk_passes (hv : v.LeavesDecls) : ∀ (d : Decl) (sc : ScopeStack)
    (around : List Decl), v.onlooker.Passes (d.walk v sc) d (d.tour.visits sc around)
  | .classDecl head info members => fun _ _ =>
    (declsWalk_passes hv members _ _).decl hv (.classDecl head info)
  | .function head info params body => fun _ _ =>
    ((paramsWalk_passes hv params _ _).beside (body.walk_passes hv _ _) Prod.mk).decl hv
      fun p => .function head info p.1 p.2
  | .property head info backing getter setter => fun sc _ =>
    (((accessorWalk_passes hv backing sc _).besideDecls (accessorWalk_passes hv getter sc _)
      Prod.mk).besideDecls (accessorWalk_passes hv setter sc _) Prod.mk).decl hv
        fun p => .property head info p.1.1 p.1.2 p.2
  | .field head info init => fun _ _ =>
    (optionWalk_passes hv init _ .initializer _).decl hv (.field head info)
  | .initializer head body => fun _ _ =>
    (single (t := .block _) (stmtsWalk_passes hv body _ _)).decl hv (.initializer head)

theorem accessorWalk_passes (hv : v.LeavesDecls) : ∀ (d : Option Decl) (sc : ScopeStack)
    (around : List Decl), v.onlooker.Passes (accessorWalk v sc d) d
      (declToursVisits sc around (accessorTours d))
  | none => fun _ _ => nothing
  | some d => fun sc around => (d.walk_passes hv sc around).singleDecl.map some

theorem declsWalk_passes (hv : v.LeavesDecls) : ∀ (ds : List Decl) (sc : ScopeStack)
    (around : List Decl),
      v.onlooker.Passes (declsWalk v sc ds) ds (declToursVisits sc around (declsTours ds))
  | [] => fun _ _ => nothing
  | d :: ds => fun sc around =>
    (d.walk_passes hv sc around).seq (declsWalk_passes hv ds sc around) List.cons

end

theorem filesWalk_passes (hv : v.LeavesDecls) : ∀ fs : List SourceFile,
    v.onlooker.Passes (filesWalk v fs) fs (fs.flatMap fun f =>
      declToursVisits {} [] (declsTours f.declarations))
  | [] => nothing
  | f :: fs => (declsWalk_passes hv f.declarations {} []).seq (filesWalk_passes hv fs)
    fun declarations fs => ({ f with declarations } : SourceFile) :: fs

/-- A walk with idle visits only, none of which changes the state. -/
theorem Module.filesWalk_of_idle (hv : v.LeavesDecls) {m : Module} {st : σ}
    (h : ∀ x ∈ m.visits, v.onlooker.Idle x ∧ v.onlooker.see st x = st) :
    filesWalk v m.files st = (m.files, st) := by
  have hseen : ∀ {visits : List Visit}, (∀ x ∈ visits, v.onlooker.see st x = st) →
      visits.foldl v.onlooker.see st = st := by
    intro visits hsee
    induction visits with
    | nil => rfl
    | cons x visits ih =>
      rw [List.forall_mem_cons] at hsee
      rw [List.foldl_cons, hsee.1]
      exact ih hsee.2
  rw [filesWalk_passes hv m.files fun x hx => (h x hx).1]
  exact congrArg (m.files, ·) (hseen fun x hx => (h x hx).2)

end

/-! ## Extraction -/

namespace CallerCapture

open Onlooker.Passes

variable {env : PassEnv}

variable (env) in
/-- Extraction is idle where no intrinsic is called. -/
def onlooker : Onlooker Extraction where
  Idle x := ∀ callee, x.expr.callee? = some callee → env.linkage.intrinsicKind? callee = none
  see x _ := x

/-- An expression around what was passed. -/
theorem passes_expr {α : Type} {f : Extraction → α × Extraction} {a : α} {sc : ScopeStack}
    {around : List Decl} {operands : List Tour}
    (h : (onlooker env).Passes f a (toursVisits sc around operands)) {place : Place}
    (k : α → Expr) :
    (onlooker env).Passes (fun x => (k (f x).1, (f x).2)) (k a)
      ((Tour.visit place (k a) operands).visits sc around) := by
  intro hall x
  rw [Tour.visits, List.forall_mem_append] at hall
  dsimp only
  rw [h hall.1, Tour.visits, List.foldl_append]
  rfl

/-- A function without intrinsic calls for defaults is not captured. -/
theorem strippedDefault?_of_idle {sc : ScopeStack} {around : List Decl} :
    ∀ {params : List Param},
      (∀ x ∈ toursVisits sc around (paramsTours params), (onlooker env).Idle x) →
        ∀ p ∈ params, strippedDefault? env.linkage p.default = none
  | ⟨head, default⟩ :: params, h, p, hp => by
    rw [paramsTours, toursVisits_append, List.forall_mem_append] at h
    obtain rfl | hp := List.mem_cons.mp hp
    · refine Option.eq_none_iff_forall_ne_some.mpr fun taken htaken => ?_
      obtain ⟨site, callee, receiver, hdefault, hkind⟩ := strippedDefault?_eq_some.mp htaken
      obtain rfl : default = _ := hdefault
      have hidle := h.1 _ (mem_optionTours sc around .defaultValue _) callee rfl
      exact nomatch hidle.symm.trans hkind
    · exact strippedDefault?_of_idle h.2 p hp

theorem isCapturing_of_idle {sc : ScopeStack} {around : List Decl} {params : List Param}
    (h : ∀ x ∈ toursVisits sc around (paramsTours params), (onlooker env).Idle x)
    (head : DeclHead) : isCapturing env head params = false := by
  rw [isCapturing, Bool.and_eq_false_iff, List.any_eq_false]
  refine .inr fun p hp => ?_
  rw [strippedDefault?_of_idle h p hp]
  exact Bool.false_ne_true

mutual

theorem exprExtract_passes : ∀ (e : Expr) (sc : ScopeStack) (place : Place) (around : List Decl),
    (onlooker env).Passes (exprExtract env e) e
      ((Tour.visit place e e.operandTours).visits sc around)
  | .setVar s var value => fun sc _ around =>
    passes_expr (exprExtract_passes value sc .operand around).single (.setVar s var)
  | .call s callee receiver typeArgs args => fun sc _ around =>
    passes_expr ((optionExtract_passes receiver sc .operand around).beside
      (argsExtract_passes args sc around) Prod.mk) fun p => .call s callee p.1 typeArgs p.2
  | .block s stmts => fun _ _ around =>
    passes_expr (single (t := .block _) (stmtsExtract_passes stmts _ around)) (.block s)
  | .returnable s id stmts => fun _ _ around =>
    passes_expr (single (t := .block _) (stmtsExtract_passes stmts _ around)) (.returnable s id)
  | .ret s target value => fun sc _ around =>
    passes_expr (exprExtract_passes value sc .operand around).single (.ret s target)
  | .when s branches otherwise => fun sc _ around =>
    passes_expr ((branchesExtract_passes branches sc around).beside
      (optionExtract_passes otherwise sc .operand around) Prod.mk) fun p => .when s p.1 p.2
  | .loop s condition body => fun sc _ around =>
    passes_expr ((exprExtract_passes condition sc .operand around).single.beside
      (exprExtract_passes body sc .operand around).single Prod.mk) fun p => .loop s p.1 p.2
  | .binary s op lhs rhs => fun sc _ around =>
    passes_expr ((exprExtract_passes lhs sc .operand around).single.beside
      (exprExtract_passes rhs sc .operand around).single Prod.mk) fun p => .binary s op p.1 p.2
  | .not s operand => fun sc _ around =>
    passes_expr (exprExtract_passes operand sc .operand around).single (.not s)
  | .concat s parts => fun sc _ around =>
    passes_expr (exprsExtract_passes parts sc around) (.concat s)
  | .lambda s decl => fun sc _ around =>
    passes_expr (single (t := .nested _) (declExtract_passes decl sc around)) (.lambda s)
  | .const _ _ | .getVar _ _ | .functionRef _ _ | .propertyRef _ _ | .descriptor _ _
  | .captureFrame _ _ => fun _ _ _ _ _ => rfl

theorem optionExtract_passes : ∀ (e : Option Expr) (sc : ScopeStack) (place : Place)
    (around : List Decl), (onlooker env).Passes (optionExtract env e) e
      (toursVisits sc around (optionTours place e))
  | none => fun _ _ _ => nothing
  | some e => fun sc place around => (exprExtract_passes e sc place around).single.map some

theorem argsExtract_passes : ∀ (args : List (Option Expr)) (sc : ScopeStack) (around : List Decl),
    (onlooker env).Passes (argsExtract env args) args (toursVisits sc around (argsTours args))
  | [] => fun _ _ => nothing
  | none :: args => fun sc around => (argsExtract_passes args sc around).map (none :: ·)
  | some e :: args => fun sc around =>
    (exprExtract_passes e sc .operand around).seq (argsExtract_passes args sc around)
      fun e args => some e :: args

theorem exprsExtract_passes : ∀ (es : List Expr) (sc : ScopeStack) (around : List Decl),
    (onlooker env).Passes (exprsExtract env es) es (toursVisits sc around (exprsTours es))
  | [] => fun _ _ => nothing
  | e :: es => fun sc around =>
    (exprExtract_passes e sc .operand around).seq (exprsExtract_passes es sc around) List.cons

theorem branchesExtract_passes : ∀ (branches : List (Expr × Expr)) (sc : ScopeStack)
    (around : List Decl), (onlooker env).Passes (branchesExtract env branches) branches
      (toursVisits sc around (branchesTours branches))
  | [] => fun _ _ => nothing
  | (condition, result) :: branches => fun sc around =>
    (exprExtract_passes condition sc .operand around).seq
      ((exprExtract_passes result sc .operand around).seq
        (branchesExtract_passes branches sc around) Prod.mk) fun c p => (c, p.1) :: p.2

theorem stmtsExtract_passes : ∀ (stmts : List Stmt) (sc : ScopeStack) (around : List Decl),
    (onlooker env).Passes (stmtsExtract env stmts) stmts
      (itemsVisits sc around (stmtsItems stmts))
  | [] => fun _ _ => nothing
  | stmt :: stmts => fun sc around => by
    rw [stmtsItems, itemsVisits_stmt]
    exact (stmtExtract_passes stmt sc around).seq (stmtsExtract_passes stmts _ around) List.cons

theorem stmtExtract_passes : ∀ (stmt : Stmt) (sc : ScopeStack) (around : List Decl),
    (onlooker env).Passes (stmtExtract env stmt) stmt (itemsVisits sc around stmt.items)
  | .expr e => fun sc around =>
    (exprExtract_passes e sc .statement around).singleItem.map Stmt.expr
  | .var _ none => fun _ _ => nothing
  | .var head (some e) => fun sc around =>
    (exprExtract_passes e sc .initializer around).singleItem.map fun e => Stmt.var head (some e)
  | .decl d => fun sc around =>
    (singleItem (t := .nested _) (declExtract_passes d sc around)).map Stmt.decl

theorem paramsExtract_passes : ∀ (params : List Param) (sc : ScopeStack) (around : List Decl),
    (onlooker env).Passes (paramsExtract env false params) params
      (toursVisits sc around (paramsTours params))
  | [] => fun _ _ => nothing
  | ⟨head, default⟩ :: params => fun sc around =>
    (optionExtract_passes default sc .defaultValue around).beside
      (paramsExtract_passes params sc around) fun default params => Param.mk head default :: params

theorem bodyExtract_passes : ∀ (body : Body) (sc : ScopeStack) (around : List Decl),
    (onlooker env).Passes (bodyExtract env body) body (toursVisits sc around body.tours)
  | .absent => fun _ _ => nothing
  | .block stmts => fun _ around =>
    (single (t := .block _) (stmtsExtract_passes stmts _ around)).map Body.block
  | .expression e => fun sc around =>
    (exprExtract_passes e sc .expressionBody around).single.map Body.expression

theorem declExtract_passes : ∀ (d : Decl) (sc : ScopeStack) (around : List Decl),
    (onlooker env).Passes (declExtract env d) d (d.tour.visits sc around)
  | .classDecl head info members => fun _ _ =>
    (declsExtract_passes members _ _).map (Decl.classDecl head info)
  | .function head info params body => fun sc around => by
    intro hall x
    have hinner : (onlooker env).Passes _ _ _ :=
      (paramsExtract_passes params (sc.inFunction head.id params) _).beside
        (bodyExtract_passes body _ (.function head info params body :: around))
        (Decl.function head info)
    have hparams := hall
    rw [Decl.tour, DeclTour.visits.eq_def] at hparams
    dsimp only at hparams
    rw [toursVisits_append, List.forall_mem_append] at hparams
    rw [declExtract, isCapturing_of_idle hparams.1]
    exact hinner hall x
  | .property head info backing getter setter => fun sc _ =>
    ((((accessorExtract_passes backing sc _).besideDecls (accessorExtract_passes getter sc _)
      Prod.mk).besideDecls (accessorExtract_passes setter sc _) Prod.mk)).map
        fun p => Decl.property head info p.1.1 p.1.2 p.2
  | .field head info init => fun _ _ =>
    (optionExtract_passes init _ .initializer _).map (Decl.field head info)
  | .initializer head body => fun _ _ =>
    (single (t := .block _) (stmtsExtract_passes body _ _)).map (Decl.initializer head)

theorem accessorExtract_passes : ∀ (d : Option Decl) (sc : ScopeStack) (around : List Decl),
    (onlooker env).Passes (accessorExtract env d) d (declToursVisits sc around (accessorTours d))
  | none => fun _ _ => nothing
  | some d => fun sc around => (declExtract_passes d sc around).singleDecl.map some

theorem declsExtract_passes : ∀ (ds : List Decl) (sc : ScopeStack) (around : List Decl),
    (onlooker env).Passes (declsExtract env ds) ds (declToursVisits sc around (declsTours ds))
  | [] => fun _ _ => nothing
  | d :: ds => fun sc around =>
    (declExtract_passes d sc around).seq (declsExtract_passes ds sc around) List.cons

end

theorem filesExtract_passes : ∀ fs : List SourceFile,
    (onlooker env).Passes (filesExtract env fs) fs (fs.flatMap fun f =>
      declToursVisits {} [] (declsTours f.declarations))
  | [] => nothing
  | f :: fs => (declsExtract_passes f.declarations {} []).seq (filesExtract_passes fs)
    fun declarations fs => ({ f with declarations } : SourceFile) :: fs

/-- Nothing is taken out of a module that calls no intrinsics. -/
theorem extract_of_idle {m : Module} (h : ∀ x ∈ m.visits, (onlooker env).Idle x)
    (captured : CapturedDefaults) : extract env m captured = (m, { captured }) := by
  have hseen : ∀ (visits : List Visit) (x : Extraction), visits.foldl (onlooker env).see x = x := by
    intro visits x
    induction visits with
    | nil => rfl
    | cons y visits ih => exact ih
  rw [extract, filesExtract_passes m.files h, hseen]

end CallerCapture

/-! ## Removal -/

namespace Removal

theorem isScheduled_nil (owner : Option DeclId) (e : Expr) : isScheduled [] owner e = false := by
  cases e <;> rfl

theorem isScheduledStmt_nil (owner : Option DeclId) (stmt : Stmt) :
    isScheduledStmt [] owner stmt = false := by
  cases stmt with
  | expr e => exact isScheduled_nil owner e
  | _ => rfl

mutual

theorem exprPrune_nil (owner : Option DeclId) : ∀ e : Expr, exprPrune [] owner e = (e, 0)
  | .setVar _ _ value => by simp [exprPrune, exprPrune_nil owner value]
  | .call _ _ receiver _ args => by
    simp [exprPrune, optionPrune_nil owner receiver, argsPrune_nil owner args]
  | .block _ stmts | .returnable _ _ stmts => by simp [exprPrune, stmtsPrune_nil owner stmts]
  | .ret _ _ value => by simp [exprPrune, exprPrune_nil owner value]
  | .when _ branches otherwise => by
    simp [exprPrune, branchesPrune_nil owner branches, optionPrune_nil owner otherwise]
  | .loop _ condition body => by
    simp [exprPrune, exprPrune_nil owner condition, exprPrune_nil owner body]
  | .binary _ _ lhs rhs => by simp [exprPrune, exprPrune_nil owner lhs, exprPrune_nil owner rhs]
  | .not _ operand => by simp [exprPrune, exprPrune_nil owner operand]
  | .concat _ parts => by simp [exprPrune, exprsPrune_nil owner parts]
  | .lambda _ decl => by simp [exprPrune, declPrune_nil owner decl]
  | .const _ _ | .getVar _ _ | .functionRef _ _ | .propertyRef _ _ | .descriptor _ _
  | .captureFrame _ _ => rfl

theorem optionPrune_nil (owner : Option DeclId) : ∀ e : Option Expr,
    optionPrune [] owner e = (e, 0)
  | none => rfl
  | some e => by simp [optionPrune, exprPrune_nil owner e]

theorem argsPrune_nil (owner : Option DeclId) : ∀ args : List (Option Expr),
    argsPrune [] owner args = (args, 0)
  | [] => rfl
  | none :: args => by simp [argsPrune, argsPrune_nil owner args]
  | some e :: args => by simp [argsPrune, exprPrune_nil owner e, argsPrune_nil owner args]

theorem exprsPrune_nil (owner : Option DeclId) : ∀ es : List Expr, exprsPrune [] owner es = (es, 0)
  | [] => rfl
  | e :: es => by simp [exprsPrune, exprPrune_nil owner e, exprsPrune_nil owner es]

theorem branchesPrune_nil (owner : Option DeclId) : ∀ branches : List (Expr × Expr),
    branchesPrune [] owner branches = (branches, 0)
  | [] => rfl
  | (condition, result) :: branches => by
    simp [branchesPrune, exprPrune_nil owner condition, exprPrune_nil owner result,
      branchesPrune_nil owner branches]

theorem stmtsPrune_nil (owner : Option DeclId) : ∀ stmts : List Stmt,
    stmtsPrune [] owner stmts = (stmts, 0)
  | [] => rfl
  | stmt :: stmts => by
    simp [stmtsPrune, isScheduledStmt_nil, stmtPrune_nil owner stmt, stmtsPrune_nil owner stmts]

theorem stmtPrune_nil (owner : Option DeclId) : ∀ stmt : Stmt, stmtPrune [] owner stmt = (stmt, 0)
  | .expr e => by simp [stmtPrune, exprPrune_nil owner e]
  | .var _ init => by simp [stmtPrune, optionPrune_nil owner init]
  | .decl d => by simp [stmtPrune, declPrune_nil owner d]

theorem paramsPrune_nil (owner : Option DeclId) : ∀ params : List Param,
    paramsPrune [] owner params = (params, 0)
  | [] => rfl
  | ⟨_, default⟩ :: params => by
    simp [paramsPrune, optionPrune_nil owner default, paramsPrune_nil owner params]

theorem bodyPrune_nil (owner : Option DeclId) : ∀ body : Body, bodyPrune [] owner body = (body, 0)
  | .absent => rfl
  | .block stmts => by simp [bodyPrune, stmtsPrune_nil owner stmts]
  | .expression e => by simp [bodyPrune, isScheduled_nil, exprPrune_nil owner e]

theorem declPrune_nil (owner : Option DeclId) : ∀ d : Decl, declPrune [] owner d = (d, 0)
  | .classDecl _ _ members => by simp [declPrune, declsPrune_nil _ members]
  | .function _ _ params body => by
    simp [declPrune, paramsPrune_nil _ params, bodyPrune_nil _ body]
  | .property _ _ backing getter setter => by
    simp [declPrune, accessorPrune_nil owner backing, accessorPrune_nil owner getter,
      accessorPrune_nil owner setter]
  | .field _ _ init => by simp [declPrune, optionPrune_nil _ init]
  | .initializer _ body => by simp [declPrune, stmtsPrune_nil _ body]

theorem accessorPrune_nil (owner : Option DeclId) : ∀ d : Option Decl,
    accessorPrune [] owner d = (d, 0)
  | none => rfl
  | some d => by simp [accessorPrune, declPrune_nil owner d]

theorem declsPrune_nil (owner : Option DeclId) : ∀ ds : List Decl, declsPrune [] owner ds = (ds, 0)
  | [] => rfl
  | d :: ds => by simp [declsPrune, declPrune_nil owner d, declsPrune_nil owner ds]

end

theorem filesPrune_nil : ∀ fs : List SourceFile, filesPrune [] fs = (fs, 0)
  | [] => rfl
  | f :: fs => by simp [filesPrune, declsPrune_nil none f.declarations, filesPrune_nil fs]

end Removal

end TraceWeave

import TraceWeave.Proofs.Pipeline.Untouched

/-! # Rewriting expressions

The program that comes out if every expression is rewritten by itself, the inner ones first. A walk
whose visitor only rewrites, as long as its state stays quiet, comes to this program if its state
is quiet in the end.

`Module.rewrite` is the program, `filesWalk_comesTo` says that a walk comes to it, and
`Module.rewrite_eq_iff` when a rewriting changes nothing.
-/

namespace TraceWeave

/-- The visitor that rewrites every expression. -/
def Visitor.ofMap (g : Expr → Expr) : Visitor Unit where
  onExpr _ _ e s := (g e, s)

/-- A module whose expressions are rewritten, the inner ones first. -/
def Module.rewrite (m : Module) (g : Expr → Expr) : Module :=
  { m with files := (filesWalk (.ofMap g) m.files ()).1 }

/-! ## Quiet walks -/

section

variable {σ : Type}

/-- A step that, if the state behind it is quiet, started from a quiet state and gives `a`. -/
def ComesTo {α : Type} (quiet : σ → Prop) (step : σ → α × σ) (a : α) : Prop :=
  ∀ st, quiet (step st).2 → quiet st ∧ (step st).1 = a

/-- A visitor that in quiet states only rewrites expressions. -/
structure Visitor.Rewrites (v : Visitor σ) (quiet : σ → Prop) (g : Expr → Expr) : Prop where
  onExpr : ∀ sc place e, ComesTo quiet (v.onExpr sc place e) (g e)
  onDecl : ∀ sc d, ComesTo quiet (v.onDecl sc d) d

variable {quiet : σ → Prop}

namespace ComesTo

variable {α β γ : Type} {f : σ → α × σ} {h : σ → β × σ} {a : α} {b : β}

theorem nothing : ComesTo quiet (fun st => (a, st)) a := fun _ hquiet => ⟨hquiet, rfl⟩

theorem map (hf : ComesTo quiet f a) (k : α → γ) :
    ComesTo quiet (fun st => (k (f st).1, (f st).2)) (k a) := by
  intro st hquiet
  obtain ⟨hst, ha⟩ := hf st hquiet
  exact ⟨hst, congrArg k ha⟩

theorem seq (hf : ComesTo quiet f a) (hh : ComesTo quiet h b) (k : α → β → γ) :
    ComesTo quiet (fun st => (k (f st).1 (h (f st).2).1, (h (f st).2).2)) (k a b) := by
  intro st hquiet
  obtain ⟨hmid, hb⟩ := hh _ hquiet
  obtain ⟨hst, ha⟩ := hf st hmid
  exact ⟨hst, congrArg₂ k ha hb⟩

/-- A step that takes up what the step before it gave. -/
theorem andThen {next : α → σ → β × σ} {g : α → β} (hf : ComesTo quiet f a)
    (hnext : ∀ a, ComesTo quiet (next a) (g a)) :
    ComesTo quiet (fun st => next (f st).1 (f st).2) (g a) := by
  intro st hquiet
  obtain ⟨hmid, hb⟩ := hnext _ _ hquiet
  obtain ⟨hst, ha⟩ := hf st hmid
  exact ⟨hst, hb.trans (congrArg g ha)⟩

end ComesTo

open ComesTo

variable {v : Visitor σ} {g : Expr → Expr}

mutual

theorem Expr.walk_comesTo (hv : v.Rewrites quiet g) : ∀ (e : Expr) (sc : ScopeStack) (place : Place),
    ComesTo quiet (e.walk v sc place) (e.walk (.ofMap g) sc place ()).1
  | .setVar s var value => fun sc place =>
    (value.walk_comesTo hv sc .operand).andThen fun value => hv.onExpr sc place (.setVar s var value)
  | .call s callee receiver typeArgs args => fun sc place =>
    ((optionWalk_comesTo hv receiver sc .operand).seq (argsWalk_comesTo hv args sc)
      Prod.mk).andThen fun p => hv.onExpr sc place (.call s callee p.1 typeArgs p.2)
  | .block s stmts => fun sc place =>
    (stmtsWalk_comesTo hv stmts _).andThen fun stmts => hv.onExpr sc place (.block s stmts)
  | .returnable s id stmts => fun sc place =>
    (stmtsWalk_comesTo hv stmts _).andThen fun stmts => hv.onExpr sc place (.returnable s id stmts)
  | .ret s target value => fun sc place =>
    (value.walk_comesTo hv sc .operand).andThen fun value => hv.onExpr sc place (.ret s target value)
  | .when s branches otherwise => fun sc place =>
    ((branchesWalk_comesTo hv branches sc).seq (optionWalk_comesTo hv otherwise sc .operand)
      Prod.mk).andThen fun p => hv.onExpr sc place (.when s p.1 p.2)
  | .loop s condition body => fun sc place =>
    ((condition.walk_comesTo hv sc .operand).seq (body.walk_comesTo hv sc .operand)
      Prod.mk).andThen fun p => hv.onExpr sc place (.loop s p.1 p.2)
  | .binary s op lhs rhs => fun sc place =>
    ((lhs.walk_comesTo hv sc .operand).seq (rhs.walk_comesTo hv sc .operand)
      Prod.mk).andThen fun p => hv.onExpr sc place (.binary s op p.1 p.2)
  | .not s operand => fun sc place =>
    (operand.walk_comesTo hv sc .operand).andThen fun operand => hv.onExpr sc place (.not s operand)
  | .concat s parts => fun sc place =>
    (exprsWalk_comesTo hv parts sc).andThen fun parts => hv.onExpr sc place (.concat s parts)
  | .lambda s decl => fun sc place =>
    (decl.walk_comesTo hv sc).andThen fun decl => hv.onExpr sc place (.lambda s decl)
  | .const _ _ | .getVar _ _ | .functionRef _ _ | .propertyRef _ _ | .descriptor _ _
  | .captureFrame _ _ => fun sc place => hv.onExpr sc place _

theorem optionWalk_comesTo (hv : v.Rewrites quiet g) : ∀ (e : Option Expr) (sc : ScopeStack)
    (place : Place),
      ComesTo quiet (optionWalk v sc place e) (optionWalk (.ofMap g) sc place e ()).1
  | none => fun _ _ => nothing
  | some e => fun sc place => (e.walk_comesTo hv sc place).map some

theorem argsWalk_comesTo (hv : v.Rewrites quiet g) : ∀ (args : List (Option Expr))
    (sc : ScopeStack), ComesTo quiet (argsWalk v sc args) (argsWalk (.ofMap g) sc args ()).1
  | [] => fun _ => nothing
  | none :: args => fun sc => (argsWalk_comesTo hv args sc).map (none :: ·)
  | some e :: args => fun sc =>
    (e.walk_comesTo hv sc .operand).seq (argsWalk_comesTo hv args sc) fun e args => some e :: args

theorem exprsWalk_comesTo (hv : v.Rewrites quiet g) : ∀ (es : List Expr) (sc : ScopeStack),
    ComesTo quiet (exprsWalk v sc es) (exprsWalk (.ofMap g) sc es ()).1
  | [] => fun _ => nothing
  | e :: es => fun sc =>
    (e.walk_comesTo hv sc .operand).seq (exprsWalk_comesTo hv es sc) List.cons

theorem branchesWalk_comesTo (hv : v.Rewrites quiet g) : ∀ (branches : List (Expr × Expr))
    (sc : ScopeStack),
      ComesTo quiet (branchesWalk v sc branches) (branchesWalk (.ofMap g) sc branches ()).1
  | [] => fun _ => nothing
  | (condition, result) :: branches => fun sc =>
    (condition.walk_comesTo hv sc .operand).seq
      ((result.walk_comesTo hv sc .operand).seq (branchesWalk_comesTo hv branches sc) Prod.mk)
        fun c p => (c, p.1) :: p.2

theorem stmtsWalk_comesTo (hv : v.Rewrites quiet g) : ∀ (stmts : List Stmt) (sc : ScopeStack),
    ComesTo quiet (stmtsWalk v sc stmts) (stmtsWalk (.ofMap g) sc stmts ()).1
  | [] => fun _ => nothing
  | stmt :: stmts => fun sc =>
    (stmt.walk_comesTo hv sc).seq (stmtsWalk_comesTo hv stmts (sc.after stmt)) List.cons

theorem Stmt.walk_comesTo (hv : v.Rewrites quiet g) : ∀ (stmt : Stmt) (sc : ScopeStack),
    ComesTo quiet (stmt.walk v sc) (stmt.walk (.ofMap g) sc ()).1
  | .expr e => fun sc => (e.walk_comesTo hv sc .statement).map Stmt.expr
  | .var head init => fun sc => (optionWalk_comesTo hv init sc .initializer).map (Stmt.var head)
  | .decl d => fun sc => (d.walk_comesTo hv sc).map Stmt.decl

theorem paramsWalk_comesTo (hv : v.Rewrites quiet g) : ∀ (params : List Param) (sc : ScopeStack),
    ComesTo quiet (paramsWalk v sc params) (paramsWalk (.ofMap g) sc params ()).1
  | [] => fun _ => nothing
  | ⟨head, default⟩ :: params => fun sc =>
    (optionWalk_comesTo hv default sc .defaultValue).seq (paramsWalk_comesTo hv params sc)
      fun default params => Param.mk head default :: params

theorem Body.walk_comesTo (hv : v.Rewrites quiet g) : ∀ (body : Body) (sc : ScopeStack),
    ComesTo quiet (body.walk v sc) (body.walk (.ofMap g) sc ()).1
  | .absent => fun _ => nothing
  | .block stmts => fun _ => (stmtsWalk_comesTo hv stmts _).map Body.block
  | .expression e => fun sc => (e.walk_comesTo hv sc .expressionBody).map Body.expression

theorem Decl.walk_comesTo (hv : v.Rewrites quiet g) : ∀ (d : Decl) (sc : ScopeStack),
    ComesTo quiet (d.walk v sc) (d.walk (.ofMap g) sc ()).1
  | .classDecl head info members => fun sc =>
    (declsWalk_comesTo hv members _).andThen fun members =>
      hv.onDecl sc (.classDecl head info members)
  | .function head info params body => fun sc =>
    ((paramsWalk_comesTo hv params _).seq (body.walk_comesTo hv _) Prod.mk).andThen fun p =>
      hv.onDecl sc (.function head info p.1 p.2)
  | .property head info backing getter setter => fun sc =>
    ((accessorWalk_comesTo hv backing sc).seq ((accessorWalk_comesTo hv getter sc).seq
      (accessorWalk_comesTo hv setter sc) Prod.mk) Prod.mk).andThen fun p =>
        hv.onDecl sc (.property head info p.1 p.2.1 p.2.2)
  | .field head info init => fun sc =>
    (optionWalk_comesTo hv init _ .initializer).andThen fun init =>
      hv.onDecl sc (.field head info init)
  | .initializer head body => fun sc =>
    (stmtsWalk_comesTo hv body _).andThen fun body => hv.onDecl sc (.initializer head body)

theorem accessorWalk_comesTo (hv : v.Rewrites quiet g) : ∀ (d : Option Decl) (sc : ScopeStack),
    ComesTo quiet (accessorWalk v sc d) (accessorWalk (.ofMap g) sc d ()).1
  | none => fun _ => nothing
  | some d => fun sc => (d.walk_comesTo hv sc).map some

theorem declsWalk_comesTo (hv : v.Rewrites quiet g) : ∀ (ds : List Decl) (sc : ScopeStack),
    ComesTo quiet (declsWalk v sc ds) (declsWalk (.ofMap g) sc ds ()).1
  | [] => fun _ => nothing
  | d :: ds => fun sc => (d.walk_comesTo hv sc).seq (declsWalk_comesTo hv ds sc) List.cons

end

theorem filesWalk_comesTo (hv : v.Rewrites quiet g) : ∀ fs : List SourceFile,
    ComesTo quiet (filesWalk v fs) (filesWalk (.ofMap g) fs ()).1
  | [] => nothing
  | f :: fs => (declsWalk_comesTo hv f.declarations {}).seq (filesWalk_comesTo hv fs)
    fun declarations fs => ({ f with declarations } : SourceFile) :: fs

end

/-! ## Programs that stay as they are -/

/-- A rewriting of calls whose result tells the receiver and the arguments of the call, if it is
known how many arguments there were. -/
structure TellsCalls (g : Expr → Expr) : Prop where
  other : ∀ e, e.callee? = none → g e = e
  call : ∀ {s callee receiver receiver' typeArgs args args'}, args'.length = args.length →
    g (.call s callee receiver' typeArgs args') = .call s callee receiver typeArgs args →
      receiver' = receiver ∧ args' = args

/-- If rewriting gives `a` back, it leaves every expression that is visited in `a`. -/
def Reveals {α : Type} (g : Expr → Expr) (rewritten a : α) (visits : List Visit) : Prop :=
  rewritten = a → ∀ x ∈ visits, g x.expr = x.expr

section

variable {g : Expr → Expr}

namespace Reveals

variable {α β γ : Type} {a a' : α} {b b' : β} {xs ys : List Visit} {sc : ScopeStack}
  {around : List Decl} {place : Place}

theorem nothing : Reveals g a' a [] := fun _ _ hx => nomatch hx

theorem map (h : Reveals g a' a xs) (k : α → γ) (hk : ∀ {a a'}, k a' = k a → a' = a) :
    Reveals g (k a') (k a) xs := fun heq => h (hk heq)

theorem seq (h : Reveals g a' a xs) (h' : Reveals g b' b ys) (k : α → β → γ)
    (hk : ∀ {a a' b b'}, k a' b' = k a b → a' = a ∧ b' = b) :
    Reveals g (k a' b') (k a b) (xs ++ ys) := fun heq =>
  List.forall_mem_append.mpr ⟨h (hk heq).1, h' (hk heq).2⟩

theorem pair (h : Reveals g a' a xs) (h' : Reveals g b' b ys) :
    Reveals g (a', b') (a, b) (xs ++ ys) :=
  h.seq h' Prod.mk fun heq => ⟨congrArg Prod.fst heq, congrArg Prod.snd heq⟩

theorem beside {ts us : List Tour} (h : Reveals g a' a (toursVisits sc around ts))
    (h' : Reveals g b' b (toursVisits sc around us)) :
    Reveals g (a', b') (a, b) (toursVisits sc around (ts ++ us)) := by
  rw [toursVisits_append]
  exact h.pair h'

theorem besideDecls {ts us : List DeclTour} (h : Reveals g a' a (declToursVisits sc around ts))
    (h' : Reveals g b' b (declToursVisits sc around us)) :
    Reveals g (a', b') (a, b) (declToursVisits sc around (ts ++ us)) := by
  rw [declToursVisits_append]
  exact h.pair h'

/-- The only tour in its place. -/
theorem single {t : Tour} (h : Reveals g a' a (t.visits sc around)) :
    Reveals g a' a (toursVisits sc around [t]) := by
  rw [toursVisits, toursVisits, List.append_nil]
  exact h

theorem singleItem {t : Tour} (h : Reveals g a' a (t.visits sc around)) :
    Reveals g a' a (itemsVisits sc around [.run t]) := by
  rw [itemsVisits, itemsVisits, List.append_nil]
  exact h

theorem singleDecl {t : DeclTour} (h : Reveals g a' a (t.visits sc around)) :
    Reveals g a' a (declToursVisits sc around [t]) := by
  rw [declToursVisits, declToursVisits, List.append_nil]
  exact h

/-- An expression that is no call, around its operands. -/
theorem visit {operands : List Tour} (h : Reveals g a' a (toursVisits sc around operands))
    (hg : TellsCalls g) (k : α → Expr) (hk : ∀ {a a'}, k a' = k a → a' = a)
    (hcall : ∀ a, (k a).callee? = none := by exact fun _ => rfl) :
    Reveals g (g (k a')) (k a) ((Tour.visit place (k a) operands).visits sc around) := by
  intro heq
  rw [hg.other _ (hcall a')] at heq
  rw [Tour.visits, List.forall_mem_append]
  refine ⟨h (hk heq), fun x hx => ?_⟩
  obtain rfl := List.mem_singleton.mp hx
  exact hg.other _ (hcall a)

theorem leaf (hg : TellsCalls g) {e : Expr} (he : e.callee? = none) :
    Reveals g (g e) e ((Tour.visit place e []).visits sc around) :=
  visit (nothing : Reveals g () () []) hg (fun _ => e) (fun _ => rfl) fun _ => he

end Reveals

open Reveals

theorem argsWalk_length {σ : Type} {v : Visitor σ} {sc : ScopeStack} :
    ∀ (args : List (Option Expr)) (st : σ), (argsWalk v sc args st).1.length = args.length
  | [], _ => rfl
  | none :: args, st => congrArg (· + 1) (argsWalk_length args st)
  | some _ :: args, _ => congrArg (· + 1) (argsWalk_length args _)

mutual

-- A node that comes out as it went in has parts that came out as they went in, since nothing but a
-- call is rewritten, and a call tells what its parts were.
theorem Expr.rewrite_reveals (hg : TellsCalls g) : ∀ (e : Expr) (sc : ScopeStack) (place : Place)
    (around : List Decl), Reveals g (e.walk (.ofMap g) sc place ()).1 e
      ((Tour.visit place e e.operandTours).visits sc around)
  | .setVar s var value => fun sc _ around =>
    (value.rewrite_reveals hg sc .operand around).single.visit hg (.setVar s var)
      fun heq => (Expr.setVar.inj heq).2.2
  | .call s callee receiver typeArgs args => fun sc place around heq => by
    obtain ⟨hreceiver, hargs⟩ := hg.call (argsWalk_length args _) heq
    have hbelow := ((optionWalk_reveals hg receiver sc .operand around).beside
      (argsWalk_reveals hg args sc around)) (Prod.ext hreceiver hargs)
    have hcall : g (.call s callee (optionWalk (.ofMap g) sc .operand receiver ()).1 typeArgs
        (argsWalk (.ofMap g) sc args ()).1) = .call s callee receiver typeArgs args := heq
    rw [hreceiver, hargs] at hcall
    rw [Tour.visits, List.forall_mem_append]
    refine ⟨hbelow, fun x hx => ?_⟩
    obtain rfl := List.mem_singleton.mp hx
    exact hcall
  | .block s stmts => fun sc _ around =>
    (single (t := .block _) (stmtsWalk_reveals hg stmts _ around)).visit hg (.block s)
      fun heq => (Expr.block.inj heq).2
  | .returnable s id stmts => fun sc _ around =>
    (single (t := .block _) (stmtsWalk_reveals hg stmts _ around)).visit hg (.returnable s id)
      fun heq => (Expr.returnable.inj heq).2.2
  | .ret s target value => fun sc _ around =>
    (value.rewrite_reveals hg sc .operand around).single.visit hg (.ret s target)
      fun heq => (Expr.ret.inj heq).2.2
  | .when s branches otherwise => fun sc _ around =>
    ((branchesWalk_reveals hg branches sc around).beside
      (optionWalk_reveals hg otherwise sc .operand around)).visit hg (fun p => .when s p.1 p.2)
        fun heq => Prod.ext (Expr.when.inj heq).2.1 (Expr.when.inj heq).2.2
  | .loop s condition body => fun sc _ around =>
    ((condition.rewrite_reveals hg sc .operand around).single.beside
      (body.rewrite_reveals hg sc .operand around).single).visit hg (fun p => .loop s p.1 p.2)
        fun heq => Prod.ext (Expr.loop.inj heq).2.1 (Expr.loop.inj heq).2.2
  | .binary s op lhs rhs => fun sc _ around =>
    ((lhs.rewrite_reveals hg sc .operand around).single.beside
      (rhs.rewrite_reveals hg sc .operand around).single).visit hg (fun p => .binary s op p.1 p.2)
        fun heq => Prod.ext (Expr.binary.inj heq).2.2.1 (Expr.binary.inj heq).2.2.2
  | .not s operand => fun sc _ around =>
    (operand.rewrite_reveals hg sc .operand around).single.visit hg (.not s)
      fun heq => (Expr.not.inj heq).2
  | .concat s parts => fun sc _ around =>
    (exprsWalk_reveals hg parts sc around).visit hg (.concat s) fun heq => (Expr.concat.inj heq).2
  | .lambda s decl => fun sc _ around =>
    (single (t := .nested _) (decl.rewrite_reveals hg sc around)).visit hg (.lambda s)
      fun heq => (Expr.lambda.inj heq).2
  | .const _ _ | .getVar _ _ | .functionRef _ _ | .propertyRef _ _ | .descriptor _ _
  | .captureFrame _ _ => fun _ _ _ => leaf hg rfl

theorem optionWalk_reveals (hg : TellsCalls g) : ∀ (e : Option Expr) (sc : ScopeStack)
    (place : Place) (around : List Decl), Reveals g (optionWalk (.ofMap g) sc place e ()).1 e
      (toursVisits sc around (optionTours place e))
  | none => fun _ _ _ => nothing
  | some e => fun sc place around =>
    (e.rewrite_reveals hg sc place around).single.map some Option.some.inj

theorem argsWalk_reveals (hg : TellsCalls g) : ∀ (args : List (Option Expr)) (sc : ScopeStack)
    (around : List Decl), Reveals g (argsWalk (.ofMap g) sc args ()).1 args
      (toursVisits sc around (argsTours args))
  | [] => fun _ _ => nothing
  | none :: args => fun sc around =>
    (argsWalk_reveals hg args sc around).map (none :: ·) fun heq => (List.cons.inj heq).2
  | some e :: args => fun sc around =>
    (e.rewrite_reveals hg sc .operand around).seq (argsWalk_reveals hg args sc around)
      (fun e args => some e :: args)
      fun heq => ⟨Option.some.inj (List.cons.inj heq).1, (List.cons.inj heq).2⟩

theorem exprsWalk_reveals (hg : TellsCalls g) : ∀ (es : List Expr) (sc : ScopeStack)
    (around : List Decl), Reveals g (exprsWalk (.ofMap g) sc es ()).1 es
      (toursVisits sc around (exprsTours es))
  | [] => fun _ _ => nothing
  | e :: es => fun sc around =>
    (e.rewrite_reveals hg sc .operand around).seq (exprsWalk_reveals hg es sc around) List.cons
      List.cons.inj

theorem branchesWalk_reveals (hg : TellsCalls g) : ∀ (branches : List (Expr × Expr))
    (sc : ScopeStack) (around : List Decl), Reveals g (branchesWalk (.ofMap g) sc branches ()).1
      branches (toursVisits sc around (branchesTours branches))
  | [] => fun _ _ => nothing
  | (condition, result) :: branches => fun sc around =>
    (condition.rewrite_reveals hg sc .operand around).seq
      ((result.rewrite_reveals hg sc .operand around).pair
        (branchesWalk_reveals hg branches sc around)) (fun c p => (c, p.1) :: p.2) fun heq => by
          simp only [List.cons.injEq, Prod.mk.injEq] at heq
          exact ⟨heq.1.1, Prod.ext heq.1.2 heq.2⟩

theorem stmtsWalk_reveals (hg : TellsCalls g) : ∀ (stmts : List Stmt) (sc : ScopeStack)
    (around : List Decl), Reveals g (stmtsWalk (.ofMap g) sc stmts ()).1 stmts
      (itemsVisits sc around (stmtsItems stmts))
  | [] => fun _ _ => nothing
  | stmt :: stmts => fun sc around => by
    rw [stmtsItems, itemsVisits_stmt]
    exact (stmt.rewrite_reveals hg sc around).seq (stmtsWalk_reveals hg stmts _ around) List.cons
      List.cons.inj

theorem Stmt.rewrite_reveals (hg : TellsCalls g) : ∀ (stmt : Stmt) (sc : ScopeStack)
    (around : List Decl), Reveals g (stmt.walk (.ofMap g) sc ()).1 stmt
      (itemsVisits sc around stmt.items)
  | .expr e => fun sc around =>
    (e.rewrite_reveals hg sc .statement around).singleItem.map Stmt.expr Stmt.expr.inj
  | .var _ none => fun _ _ => nothing
  | .var head (some e) => fun sc around =>
    (e.rewrite_reveals hg sc .initializer around).singleItem.map (fun e => Stmt.var head (some e))
      fun heq => Option.some.inj (Stmt.var.inj heq).2
  | .decl d => fun sc around =>
    (singleItem (t := .nested _) (d.rewrite_reveals hg sc around)).map Stmt.decl Stmt.decl.inj

theorem paramsWalk_reveals (hg : TellsCalls g) : ∀ (params : List Param) (sc : ScopeStack)
    (around : List Decl), Reveals g (paramsWalk (.ofMap g) sc params ()).1 params
      (toursVisits sc around (paramsTours params))
  | [] => fun _ _ => nothing
  | ⟨head, default⟩ :: params => fun sc around =>
    ((optionWalk_reveals hg default sc .defaultValue around).beside
      (paramsWalk_reveals hg params sc around)).map (fun p => Param.mk head p.1 :: p.2)
        fun heq => Prod.ext (Param.mk.inj (List.cons.inj heq).1).2 (List.cons.inj heq).2

theorem Body.rewrite_reveals (hg : TellsCalls g) : ∀ (body : Body) (sc : ScopeStack)
    (around : List Decl), Reveals g (body.walk (.ofMap g) sc ()).1 body
      (toursVisits sc around body.tours)
  | .absent => fun _ _ => nothing
  | .block stmts => fun _ around =>
    (single (t := .block _) (stmtsWalk_reveals hg stmts _ around)).map Body.block Body.block.inj
  | .expression e => fun sc around =>
    (e.rewrite_reveals hg sc .expressionBody around).single.map Body.expression Body.expression.inj

theorem Decl.rewrite_reveals (hg : TellsCalls g) : ∀ (d : Decl) (sc : ScopeStack)
    (around : List Decl), Reveals g (d.walk (.ofMap g) sc ()).1 d (d.tour.visits sc around)
  | .classDecl head info members => fun _ _ =>
    (declsWalk_reveals hg members _ _).map (Decl.classDecl head info)
      fun heq => (Decl.classDecl.inj heq).2.2
  | .function head info params body => fun _ _ =>
    ((paramsWalk_reveals hg params _ _).beside (body.rewrite_reveals hg _ _)).map
      (fun p => Decl.function head info p.1 p.2)
      fun heq => Prod.ext (Decl.function.inj heq).2.2.1 (Decl.function.inj heq).2.2.2
  | .property head info backing getter setter => fun sc _ =>
    (((accessorWalk_reveals hg backing sc _).besideDecls
      (accessorWalk_reveals hg getter sc _)).besideDecls (accessorWalk_reveals hg setter sc _)).map
        (fun p => Decl.property head info p.1.1 p.1.2 p.2) fun heq => by
          obtain ⟨-, -, hbacking, hgetter, hsetter⟩ := Decl.property.inj heq
          exact Prod.ext (Prod.ext hbacking hgetter) hsetter
  | .field head info init => fun _ _ =>
    (optionWalk_reveals hg init _ .initializer _).map (Decl.field head info)
      fun heq => (Decl.field.inj heq).2.2
  | .initializer head body => fun _ _ =>
    (single (t := .block _) (stmtsWalk_reveals hg body _ _)).map (Decl.initializer head)
      fun heq => (Decl.initializer.inj heq).2

theorem accessorWalk_reveals (hg : TellsCalls g) : ∀ (d : Option Decl) (sc : ScopeStack)
    (around : List Decl), Reveals g (accessorWalk (.ofMap g) sc d ()).1 d
      (declToursVisits sc around (accessorTours d))
  | none => fun _ _ => nothing
  | some d => fun sc around =>
    (d.rewrite_reveals hg sc around).singleDecl.map some Option.some.inj

theorem declsWalk_reveals (hg : TellsCalls g) : ∀ (ds : List Decl) (sc : ScopeStack)
    (around : List Decl), Reveals g (declsWalk (.ofMap g) sc ds ()).1 ds
      (declToursVisits sc around (declsTours ds))
  | [] => fun _ _ => nothing
  | d :: ds => fun sc around =>
    (d.rewrite_reveals hg sc around).seq (declsWalk_reveals hg ds sc around) List.cons
      List.cons.inj

end

theorem filesWalk_reveals (hg : TellsCalls g) : ∀ fs : List SourceFile,
    Reveals g (filesWalk (.ofMap g) fs ()).1 fs
      (fs.flatMap fun f => declToursVisits {} [] (declsTours f.declarations))
  | [] => nothing
  | f :: fs => (declsWalk_reveals hg f.declarations {} []).seq (filesWalk_reveals hg fs)
    (fun declarations fs => ({ f with declarations } : SourceFile) :: fs)
    fun heq => ⟨congrArg SourceFile.declarations (List.cons.inj heq).1, (List.cons.inj heq).2⟩

/-- A module stays as it is exactly if every expression in it does. -/
theorem Module.rewrite_eq_iff (hg : TellsCalls g) (m : Module) :
    m.rewrite g = m ↔ ∀ x ∈ m.visits, g x.expr = x.expr := by
  constructor
  · intro heq
    exact filesWalk_reveals hg m.files (congrArg Module.files heq)
  · intro hidle
    have hwalk : filesWalk (.ofMap g) m.files () = (m.files, ()) :=
      Module.filesWalk_of_idle (fun _ _ _ => rfl) fun x hx => ⟨fun _ => hidle x hx, rfl⟩
    rw [Module.rewrite, hwalk]

theorem Module.rewrite_id (m : Module) : m.rewrite id = m :=
  (Module.rewrite_eq_iff ⟨fun _ _ => rfl, fun _ heq =>
    ⟨(Expr.call.inj heq).2.2.1, (Expr.call.inj heq).2.2.2.2⟩⟩ m).mpr fun _ _ => rfl

end

end TraceWeave

import TraceWeave.Pass.LeaveReturns
import TraceWeave.Proofs.Program.Rebuilding
import TraceWeave.Proofs.Program.Scoped
import TraceWeave.Proofs.Program.Walks

/-! # Accounts of a transformation

An account relates the nodes before a transformation to the nodes after it, in terms of the states
around it. If it adds up over nodes that lie next to each other, and over a node and what is below
it, then it holds for whole trees: for those that a visitor walks through, and for those whose
returns run a hook.

`Account.Stepwise` says that an account adds up. It covers walks by `filesWalk_accounts`, if it
covers the visitor (`Visitor.Accounts`), and returns by `LeaveHook.Accounts`.
-/

namespace TraceWeave

/-! ## Husks -/

/-- An expression apart from the expressions and declarations below it. Which arguments a call has
belongs to the call, what they are does not. -/
def Expr.husk : Expr → Expr
  | .setVar s var _ => .setVar s var default
  | .call s callee receiver typeArgs args =>
    .call s callee (receiver.map fun _ => default) typeArgs (args.map (·.map fun _ => default))
  | .block s _ => .block s []
  | .returnable s id _ => .returnable s id []
  | .ret s target _ => .ret s target default
  | .when s _ _ => .when s [] none
  | .loop s _ _ => .loop s default default
  | .binary s op _ _ => .binary s op default default
  | .not s _ => .not s default
  | .concat s _ => .concat s []
  | .lambda s _ => .lambda s default
  | .const s value => .const s value
  | .getVar s var => .getVar s var
  | .functionRef s id => .functionRef s id
  | .propertyRef s id => .propertyRef s id
  | .descriptor s ref => .descriptor s ref
  | .captureFrame s capture => .captureFrame s capture

/-- A declaration apart from its parameters and its code. -/
def Decl.husk : Decl → Decl
  | .classDecl head info _ => .classDecl head info []
  | .function head info _ _ => .function head info [] .absent
  | .property head info _ _ _ => .property head info none none none
  | .field head info _ => .field head info none
  | .initializer head _ => .initializer head []

/-- A node apart from those below it. -/
def Node.husk : Node → Node
  | .decl d => .decl d.husk
  | .param head => .param head
  | .var head => .var head
  | .expr e => .expr e.husk

/-- A node shows what its husk shows. -/
theorem Node.shell_husk (n : Node) : n.husk.shell = n.shell := by
  rcases n with d | head | head | e
  · cases d <;> rfl
  · rfl
  · rfl
  · cases e <;> rfl

theorem Node.decl?_of_husk {n n' : Node} (h : n'.husk = n.husk) (hn : n.decl? = none) :
    n'.decl? = none := by
  cases n' with
  | decl d' =>
    cases n with
    | decl d => cases hn
    | _ => cases h
  | _ => rfl

theorem Node.shell_of_husk {n n' : Node} (h : n'.husk = n.husk) : n'.shell = n.shell := by
  rw [← n'.shell_husk, h, n.shell_husk]

/-! ## Accounts -/

/-- What can be said of the nodes before and after a transformation, in terms of the states before
and after it. -/
structure Account (σ : Type) where
  Holds : σ → σ → List Node → List Node → Prop
  nothing : ∀ st, Holds st st [] []
  append : ∀ {st st' st'' as bs cs ds}, Holds st st' as bs → Holds st' st'' cs ds →
    Holds st st'' (as ++ cs) (bs ++ ds)
  param : ∀ st head, Holds st st [.param head] [.param head]
  var : ∀ st head, Holds st st [.var head] [.var head]

variable {σ : Type} {A : Account σ}

/-- The nodes below a declaration. -/
def Decl.innerNodes (d : Decl) : List Node := d.nodes.tail

theorem Decl.nodes_eq_cons (d : Decl) : d.nodes = .decl d :: d.innerNodes := by
  cases d <;> rfl

/-- A declaration as it is when what is below it has been walked through. -/
def Decl.walkBelow (v : Visitor σ) (sc : ScopeStack) : Decl → σ → Decl × σ
  | .classDecl head info members, st =>
    let (members, st) := declsWalk v (sc.push (.ofClass head.id)) members st
    (.classDecl head info members, st)
  | .function head info params body, st =>
    let inner := sc.inFunction head.id params
    let (params, st) := paramsWalk v inner params st
    let (body, st) := body.walk v inner st
    (.function head info params body, st)
  | .property head info backing getter setter, st =>
    let (backing, st) := accessorWalk v sc backing st
    let (getter, st) := accessorWalk v sc getter st
    let (setter, st) := accessorWalk v sc setter st
    (.property head info backing getter setter, st)
  | .field head info init, st =>
    let (init, st) := optionWalk v (sc.push (.ofInitializer head.id)) .initializer init st
    (.field head info init, st)
  | .initializer head body, st =>
    let (body, st) := stmtsWalk v ((sc.push (.ofInitializer head.id)).push .ofBody) body st
    (.initializer head body, st)

/-- The declaration itself is visited last. -/
theorem Decl.walk_eq (v : Visitor σ) (sc : ScopeStack) (d : Decl) (st : σ) :
    d.walk v sc st = v.onDecl sc (d.walkBelow v sc st).1 (d.walkBelow v sc st).2 := by
  cases d <;> rfl

theorem Decl.husk_walkBelow (v : Visitor σ) (sc : ScopeStack) (d : Decl) (st : σ) :
    (d.walkBelow v sc st).1.husk = d.husk := by
  cases d <;> rfl

/-- A visitor that an account covers: if it holds below a node that is visited, then it holds for
the node and what the visit makes of it. -/
structure Visitor.Accounts (v : Visitor σ) (A : Account σ) : Prop where
  onExpr : ∀ sc place {e e' : Expr} {st st'}, e'.husk = e.husk →
    A.Holds st st' e.innerNodes e'.innerNodes →
      A.Holds st (v.onExpr sc place e' st').2 e.nodes (v.onExpr sc place e' st').1.nodes
  onDecl : ∀ sc (d : Decl) st,
    A.Holds st (d.walkBelow v sc st).2 d.innerNodes (d.walkBelow v sc st).1.innerNodes →
      A.Holds st (d.walk v sc st).2 d.nodes (d.walk v sc st).1.nodes

section

variable {v : Visitor σ}

/-- An account that adds up over steps, and over a node whose husk stays. -/
structure Account.Stepwise (A : Account σ) : Prop where
  around : ∀ {n n' : Node} {st st' as bs}, n'.husk = n.husk → A.Holds st st' as bs →
    A.Holds st st' (n :: as) (n' :: bs)
  seq : ∀ {st st' st'' as bs cs}, A.Holds st st' as bs → A.Holds st' st'' bs cs →
    A.Holds st st'' as cs

/-- Such an account covers a visitor if it holds for the visits alone. -/
theorem Account.Stepwise.accounts (hA : A.Stepwise)
    (hexpr : ∀ sc place e st,
      A.Holds st (v.onExpr sc place e st).2 e.nodes (v.onExpr sc place e st).1.nodes)
    (hdecl : ∀ sc d st, A.Holds st (v.onDecl sc d st).2 d.nodes (v.onDecl sc d st).1.nodes) :
    v.Accounts A where
  onExpr sc place e e' st st' hhusk hinner := by
    have hbelow : A.Holds st st' e.nodes e'.nodes := by
      rw [e.nodes_eq_cons, e'.nodes_eq_cons]
      exact hA.around (congrArg Node.expr hhusk) hinner
    exact hA.seq hbelow (hexpr sc place e' st')
  onDecl sc d st hinner := by
    have hbelow : A.Holds st (d.walkBelow v sc st).2 d.nodes (d.walkBelow v sc st).1.nodes := by
      rw [d.nodes_eq_cons, Decl.nodes_eq_cons (d.walkBelow v sc st).1]
      exact hA.around (congrArg Node.decl (d.husk_walkBelow v sc st)) hinner
    rw [d.walk_eq]
    exact hA.seq hbelow (hdecl sc _ _)

private theorem optionWalk_given (sc : ScopeStack) (place : Place) (e : Option Expr) (st : σ) :
    (optionWalk v sc place e st).1.map (fun _ => (default : Expr)) = e.map fun _ => default := by
  cases e <;> rfl

private theorem argsWalk_given (sc : ScopeStack) (args : List (Option Expr)) : ∀ st : σ,
    (argsWalk v sc args st).1.map (·.map fun _ => (default : Expr)) =
      args.map (·.map fun _ => default) := by
  induction args with
  | nil => exact fun _ => rfl
  | cons arg args ih =>
    cases arg with
    | none => exact fun st => congrArg (none :: ·) (ih st)
    | some e => exact fun st => congrArg (some default :: ·) (ih _)

mutual

-- The operands of a node are accounted for one after the other; the visitor covers what the node
-- adds to them.
theorem Expr.walk_accounts (hv : v.Accounts A) : ∀ (e : Expr) (sc : ScopeStack) (place : Place)
    (st : σ), A.Holds st (e.walk v sc place st).2 e.nodes (e.walk v sc place st).1.nodes
  | .setVar _ _ value => fun sc place st => by
    rw [Expr.walk]
    exact hv.onExpr _ _ rfl (value.walk_accounts hv _ _ _)
  | .call s callee receiver typeArgs args => fun sc place st => by
    rw [Expr.walk]
    refine hv.onExpr _ _ ?_ (A.append (optionWalk_accounts hv receiver _ _ _)
      (argsWalk_accounts hv args _ _))
    rw [Expr.husk, Expr.husk, optionWalk_given, argsWalk_given]
  | .block _ stmts | .returnable _ _ stmts => fun sc place st => by
    rw [Expr.walk]
    exact hv.onExpr _ _ rfl (stmtsWalk_accounts hv stmts _ _)
  | .ret _ _ value => fun sc place st => by
    rw [Expr.walk]
    exact hv.onExpr _ _ rfl (value.walk_accounts hv _ _ _)
  | .when _ branches otherwise => fun sc place st => by
    rw [Expr.walk]
    exact hv.onExpr _ _ rfl (A.append (branchesWalk_accounts hv branches _ _)
      (optionWalk_accounts hv otherwise _ _ _))
  | .loop _ condition body => fun sc place st => by
    rw [Expr.walk]
    exact hv.onExpr _ _ rfl (A.append (condition.walk_accounts hv _ _ _)
      (body.walk_accounts hv _ _ _))
  | .binary _ _ lhs rhs => fun sc place st => by
    rw [Expr.walk]
    exact hv.onExpr _ _ rfl (A.append (lhs.walk_accounts hv _ _ _) (rhs.walk_accounts hv _ _ _))
  | .not _ operand => fun sc place st => by
    rw [Expr.walk]
    exact hv.onExpr _ _ rfl (operand.walk_accounts hv _ _ _)
  | .concat _ parts => fun sc place st => by
    rw [Expr.walk]
    exact hv.onExpr _ _ rfl (exprsWalk_accounts hv parts _ _)
  | .lambda _ decl => fun sc place st => by
    rw [Expr.walk]
    exact hv.onExpr _ _ rfl (decl.walk_accounts hv _ _)
  | .const _ _ | .getVar _ _ | .functionRef _ _ | .propertyRef _ _ | .descriptor _ _
  | .captureFrame _ _ => fun sc place st => by
    rw [Expr.walk]
    exact hv.onExpr _ _ rfl (A.nothing st)

theorem optionWalk_accounts (hv : v.Accounts A) : ∀ (e : Option Expr) (sc : ScopeStack)
    (place : Place) (st : σ), A.Holds st (optionWalk v sc place e st).2 (optionNodes e)
      (optionNodes (optionWalk v sc place e st).1)
  | none => fun _ _ _ => A.nothing _
  | some e => fun sc place st => e.walk_accounts hv sc place st

theorem argsWalk_accounts (hv : v.Accounts A) : ∀ (args : List (Option Expr)) (sc : ScopeStack)
    (st : σ), A.Holds st (argsWalk v sc args st).2 (argsNodes args)
      (argsNodes (argsWalk v sc args st).1)
  | [] => fun _ _ => A.nothing _
  | none :: args => fun sc st => argsWalk_accounts hv args sc st
  | some e :: args => fun _ _ =>
    A.append (e.walk_accounts hv _ _ _) (argsWalk_accounts hv args _ _)

theorem exprsWalk_accounts (hv : v.Accounts A) : ∀ (es : List Expr) (sc : ScopeStack) (st : σ),
    A.Holds st (exprsWalk v sc es st).2 (exprsNodes es) (exprsNodes (exprsWalk v sc es st).1)
  | [] => fun _ _ => A.nothing _
  | e :: es => fun _ _ => A.append (e.walk_accounts hv _ _ _) (exprsWalk_accounts hv es _ _)

theorem branchesWalk_accounts (hv : v.Accounts A) : ∀ (branches : List (Expr × Expr))
    (sc : ScopeStack) (st : σ), A.Holds st (branchesWalk v sc branches st).2
      (branchesNodes branches) (branchesNodes (branchesWalk v sc branches st).1)
  | [] => fun _ _ => A.nothing _
  | (condition, result) :: branches => fun _ _ =>
    A.append (A.append (condition.walk_accounts hv _ _ _) (result.walk_accounts hv _ _ _))
      (branchesWalk_accounts hv branches _ _)

theorem stmtsWalk_accounts (hv : v.Accounts A) : ∀ (stmts : List Stmt) (sc : ScopeStack) (st : σ),
    A.Holds st (stmtsWalk v sc stmts st).2 (stmtsNodes stmts)
      (stmtsNodes (stmtsWalk v sc stmts st).1)
  | [] => fun _ _ => A.nothing _
  | stmt :: stmts => fun _ _ =>
    A.append (stmt.walk_accounts hv _ _) (stmtsWalk_accounts hv stmts _ _)

theorem Stmt.walk_accounts (hv : v.Accounts A) : ∀ (stmt : Stmt) (sc : ScopeStack) (st : σ),
    A.Holds st (stmt.walk v sc st).2 stmt.nodes (stmt.walk v sc st).1.nodes
  | .expr e => fun _ _ => e.walk_accounts hv _ _ _
  | .var head init => fun _ st => A.append (A.var st head) (optionWalk_accounts hv init _ _ _)
  | .decl d => fun _ _ => d.walk_accounts hv _ _

theorem paramsWalk_accounts (hv : v.Accounts A) : ∀ (params : List Param) (sc : ScopeStack)
    (st : σ), A.Holds st (paramsWalk v sc params st).2 (paramsNodes params)
      (paramsNodes (paramsWalk v sc params st).1)
  | [] => fun _ _ => A.nothing _
  | ⟨head, default⟩ :: params => fun _ st => A.append (A.param st head)
    (A.append (optionWalk_accounts hv default _ _ _) (paramsWalk_accounts hv params _ _))

theorem Body.walk_accounts (hv : v.Accounts A) : ∀ (body : Body) (sc : ScopeStack) (st : σ),
    A.Holds st (body.walk v sc st).2 body.nodes (body.walk v sc st).1.nodes
  | .absent => fun _ _ => A.nothing _
  | .block stmts => fun _ _ => stmtsWalk_accounts hv stmts _ _
  | .expression e => fun _ _ => e.walk_accounts hv _ _ _

theorem Decl.walk_accounts (hv : v.Accounts A) : ∀ (d : Decl) (sc : ScopeStack) (st : σ),
    A.Holds st (d.walk v sc st).2 d.nodes (d.walk v sc st).1.nodes
  | .classDecl _ _ members => fun _ _ =>
    hv.onDecl _ (.classDecl _ _ members) _ (declsWalk_accounts hv members _ _)
  | .function _ _ params body => fun _ _ =>
    hv.onDecl _ (.function _ _ params body) _
      (A.append (paramsWalk_accounts hv params _ _) (body.walk_accounts hv _ _))
  | .property _ _ backing getter setter => fun _ _ =>
    hv.onDecl _ (.property _ _ backing getter setter) _
      (A.append (A.append (accessorWalk_accounts hv backing _ _)
        (accessorWalk_accounts hv getter _ _)) (accessorWalk_accounts hv setter _ _))
  | .field _ _ init => fun _ _ =>
    hv.onDecl _ (.field _ _ init) _ (optionWalk_accounts hv init _ _ _)
  | .initializer _ body => fun _ _ =>
    hv.onDecl _ (.initializer _ body) _ (stmtsWalk_accounts hv body _ _)

theorem accessorWalk_accounts (hv : v.Accounts A) : ∀ (d : Option Decl) (sc : ScopeStack) (st : σ),
    A.Holds st (accessorWalk v sc d st).2 (accessorNodes d)
      (accessorNodes (accessorWalk v sc d st).1)
  | none => fun _ _ => A.nothing _
  | some d => fun sc st => d.walk_accounts hv sc st

theorem declsWalk_accounts (hv : v.Accounts A) : ∀ (ds : List Decl) (sc : ScopeStack) (st : σ),
    A.Holds st (declsWalk v sc ds st).2 (declsNodes ds) (declsNodes (declsWalk v sc ds st).1)
  | [] => fun _ _ => A.nothing _
  | d :: ds => fun _ _ => A.append (d.walk_accounts hv _ _) (declsWalk_accounts hv ds _ _)

end

theorem filesWalk_accounts (hv : v.Accounts A) : ∀ (fs : List SourceFile) (st : σ),
    A.Holds st (filesWalk v fs st).2 (filesNodes fs) (filesNodes (filesWalk v fs st).1)
  | [], _ => A.nothing _
  | f :: fs, _ => A.append (declsWalk_accounts hv f.declarations _ _) (filesWalk_accounts hv fs _)

end

/-! ## Declarations that come out of a walk -/

section

variable {v : Visitor σ} {good : σ → Prop}

/-- If the state is good in the end, each declaration comes from the walk of a declaration. -/
def Account.walkedDecls (v : Visitor σ) (good : σ → Prop) : Account σ where
  Holds st st' before after := good st' → good st ∧ ∀ d' ∈ declsOf after, ∃ d ∈ declsOf before,
    ∃ sc st, good (d.walk v sc st).2 ∧ (d.walk v sc st).1 = d'
  nothing _ h := ⟨h, nofun⟩
  append {st st' st'' as bs cs ds} h h' hgood := by
    obtain ⟨hmid, hright⟩ := h' hgood
    obtain ⟨hst, hleft⟩ := h hmid
    refine ⟨hst, fun d' hd' => ?_⟩
    rw [declsOf_append, List.mem_append] at hd'
    rw [declsOf_append]
    obtain hd' | hd' := hd'
    · obtain ⟨d, hd, hwalk⟩ := hleft d' hd'
      exact ⟨d, List.mem_append_left _ hd, hwalk⟩
    · obtain ⟨d, hd, hwalk⟩ := hright d' hd'
      exact ⟨d, List.mem_append_right _ hd, hwalk⟩
  param _ _ h := ⟨h, nofun⟩
  var _ _ h := ⟨h, nofun⟩

/-- A visitor that brings in no declarations and leaves them as they are. -/
theorem Visitor.accounts_walkedDecls (hv : v.HandsBack good)
    (hexpr : ∀ sc place e st, declsOf (v.onExpr sc place e st).1.nodes ⊆ declsOf e.nodes)
    (hdecl : ∀ sc d st, (v.onDecl sc d st).1 = d) : v.Accounts (.walkedDecls v good) where
  onExpr sc place e e' st st' _ hinner hgood := by
    obtain ⟨hst, hdecls⟩ := hinner (hv.onExpr _ _ _ _ hgood)
    refine ⟨hst, fun d' hd' => ?_⟩
    have hd' := hexpr _ _ _ _ hd'
    rw [e'.nodes_eq_cons, declsOf_expr] at hd'
    rw [e.nodes_eq_cons, declsOf_expr]
    exact hdecls d' hd'
  onDecl sc d st hinner hgood := by
    have hwalk : (d.walk v sc st).1 = (d.walkBelow v sc st).1 := by rw [d.walk_eq, hdecl]
    have hbelow := hgood
    rw [d.walk_eq] at hbelow
    obtain ⟨hst, hdecls⟩ := hinner (hv.onDecl _ _ _ hbelow)
    refine ⟨hst, fun d' hd' => ?_⟩
    rw [hwalk, Decl.nodes_eq_cons, declsOf_decl, List.mem_cons] at hd'
    rw [d.nodes_eq_cons, declsOf_decl]
    obtain rfl | hd' := hd'
    · exact ⟨d, List.mem_cons_self, sc, st, hgood, hwalk⟩
    · obtain ⟨d₀, hd₀, hfrom⟩ := hdecls d' hd'
      exact ⟨d₀, List.mem_cons_of_mem _ hd₀, hfrom⟩

end

/-! ## Returns that run a hook -/

/-- A hook at returns that an account covers. -/
structure LeaveHook.Accounts (h : LeaveHook) (A : Account IdAllocator) : Prop where
  /-- What lies in places that are not entered stays. -/
  same : ∀ ids nodes, A.Holds ids ids nodes nodes
  around : ∀ {n n' : Node} {ids ids' as bs}, n'.husk = n.husk → A.Holds ids ids' as bs →
    A.Holds ids ids' (n :: as) (n' :: bs)
  returned : ∀ target {value : Expr} {ids ids' as}, A.Holds ids ids' as value.nodes →
    A.Holds ids (h.returned target value ids').2 as (h.returned target value ids').1.nodes

section

variable {A : Account IdAllocator} {h : LeaveHook}

private theorem optionLeaveReturns_given (e : Option Expr) (ids : IdAllocator) :
    (optionLeaveReturns h e ids).1.map (fun _ => (default : Expr)) = e.map fun _ => default := by
  cases e <;> rfl

private theorem argsLeaveReturns_given (args : List (Option Expr)) : ∀ ids : IdAllocator,
    (argsLeaveReturns h args ids).1.map (·.map fun _ => (default : Expr)) =
      args.map (·.map fun _ => default) := by
  induction args with
  | nil => exact fun _ => rfl
  | cons arg args ih =>
    cases arg with
    | none => exact fun ids => congrArg (none :: ·) (ih ids)
    | some e => exact fun ids => congrArg (some default :: ·) (ih _)

mutual

theorem Expr.leaveReturns_accounts (hA : h.Accounts A) : ∀ (e : Expr) (ids : IdAllocator),
    A.Holds ids (e.leaveReturns h ids).2 e.nodes (e.leaveReturns h ids).1.nodes
  | .setVar _ _ value, _ => hA.around rfl (value.leaveReturns_accounts hA _)
  | .call s callee receiver typeArgs args, ids => by
    refine hA.around ?_ (A.append (optionLeaveReturns_accounts hA receiver _)
      (argsLeaveReturns_accounts hA args _))
    rw [Node.husk, Node.husk, Expr.husk, Expr.husk, optionLeaveReturns_given,
      argsLeaveReturns_given]
  | .block _ stmts, _ => hA.around rfl (stmtsLeaveReturns_accounts hA stmts _)
  | .returnable _ _ stmts, _ => hA.around rfl (stmtsLeaveReturns_accounts hA stmts _)
  | .ret _ target value, _ =>
    hA.around rfl (hA.returned target (value.leaveReturns_accounts hA _))
  | .when _ branches otherwise, _ =>
    hA.around rfl (A.append (branchesLeaveReturns_accounts hA branches _)
      (optionLeaveReturns_accounts hA otherwise _))
  | .loop _ condition body, _ =>
    hA.around rfl (A.append (condition.leaveReturns_accounts hA _)
      (body.leaveReturns_accounts hA _))
  | .binary _ _ lhs rhs, _ =>
    hA.around rfl (A.append (lhs.leaveReturns_accounts hA _) (rhs.leaveReturns_accounts hA _))
  | .not _ operand, _ => hA.around rfl (operand.leaveReturns_accounts hA _)
  | .concat _ parts, _ => hA.around rfl (exprsLeaveReturns_accounts hA parts _)
  | .lambda _ decl, _ => hA.around rfl (decl.leaveReturns_accounts hA _)
  | .const _ _, _ | .getVar _ _, _ | .functionRef _ _, _ | .propertyRef _ _, _
  | .descriptor _ _, _ | .captureFrame _ _, _ => hA.same _ _

theorem optionLeaveReturns_accounts (hA : h.Accounts A) : ∀ (e : Option Expr) (ids : IdAllocator),
    A.Holds ids (optionLeaveReturns h e ids).2 (optionNodes e)
      (optionNodes (optionLeaveReturns h e ids).1)
  | none, _ => hA.same _ _
  | some e, ids => e.leaveReturns_accounts hA ids

theorem argsLeaveReturns_accounts (hA : h.Accounts A) : ∀ (args : List (Option Expr))
    (ids : IdAllocator), A.Holds ids (argsLeaveReturns h args ids).2 (argsNodes args)
      (argsNodes (argsLeaveReturns h args ids).1)
  | [], _ => hA.same _ _
  | none :: args, ids => argsLeaveReturns_accounts hA args ids
  | some e :: args, _ =>
    A.append (e.leaveReturns_accounts hA _) (argsLeaveReturns_accounts hA args _)

theorem exprsLeaveReturns_accounts (hA : h.Accounts A) : ∀ (es : List Expr) (ids : IdAllocator),
    A.Holds ids (exprsLeaveReturns h es ids).2 (exprsNodes es)
      (exprsNodes (exprsLeaveReturns h es ids).1)
  | [], _ => hA.same _ _
  | e :: es, _ => A.append (e.leaveReturns_accounts hA _) (exprsLeaveReturns_accounts hA es _)

theorem branchesLeaveReturns_accounts (hA : h.Accounts A) : ∀ (branches : List (Expr × Expr))
    (ids : IdAllocator), A.Holds ids (branchesLeaveReturns h branches ids).2
      (branchesNodes branches) (branchesNodes (branchesLeaveReturns h branches ids).1)
  | [], _ => hA.same _ _
  | (condition, result) :: branches, _ =>
    A.append (A.append (condition.leaveReturns_accounts hA _) (result.leaveReturns_accounts hA _))
      (branchesLeaveReturns_accounts hA branches _)

theorem stmtsLeaveReturns_accounts (hA : h.Accounts A) : ∀ (stmts : List Stmt) (ids : IdAllocator),
    A.Holds ids (stmtsLeaveReturns h stmts ids).2 (stmtsNodes stmts)
      (stmtsNodes (stmtsLeaveReturns h stmts ids).1)
  | [], _ => hA.same _ _
  | stmt :: stmts, _ =>
    A.append (stmt.leaveReturns_accounts hA _) (stmtsLeaveReturns_accounts hA stmts _)

theorem Stmt.leaveReturns_accounts (hA : h.Accounts A) : ∀ (stmt : Stmt) (ids : IdAllocator),
    A.Holds ids (stmt.leaveReturns h ids).2 stmt.nodes (stmt.leaveReturns h ids).1.nodes
  | .expr e, _ => e.leaveReturns_accounts hA _
  | .var _ init, _ => hA.around rfl (optionLeaveReturns_accounts hA init _)
  | .decl d, _ => d.leaveReturns_accounts hA _

theorem Body.leaveReturns_accounts (hA : h.Accounts A) : ∀ (body : Body) (ids : IdAllocator),
    A.Holds ids (body.leaveReturns h ids).2 body.nodes (body.leaveReturns h ids).1.nodes
  | .absent, _ => hA.same _ _
  | .block stmts, _ => stmtsLeaveReturns_accounts hA stmts _
  | .expression e, _ => e.leaveReturns_accounts hA _

theorem Decl.leaveReturns_accounts (hA : h.Accounts A) : ∀ (d : Decl) (ids : IdAllocator),
    A.Holds ids (d.leaveReturns h ids).2 d.nodes (d.leaveReturns h ids).1.nodes
  | .function _ _ _ body, ids =>
    hA.around rfl (A.append (hA.same _ _) (body.leaveReturns_accounts hA ids))
  | .classDecl _ _ members, _ => hA.around rfl (declsLeaveReturns_accounts hA members _)
  | .property _ _ _ _ _, _ | .field _ _ _, _ | .initializer _ _, _ => hA.same _ _

theorem declsLeaveReturns_accounts (hA : h.Accounts A) : ∀ (ds : List Decl) (ids : IdAllocator),
    A.Holds ids (declsLeaveReturns h ds ids).2 (declsNodes ds)
      (declsNodes (declsLeaveReturns h ds ids).1)
  | [], _ => hA.same _ _
  | d :: ds, _ => A.append (d.leaveReturns_accounts hA _) (declsLeaveReturns_accounts hA ds _)

end

end

end TraceWeave

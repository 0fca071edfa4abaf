import Mathlib.Data.List.Forall2
import TraceWeave.Proofs.Program.Calls
import TraceWeave.Proofs.Program.References
import TraceWeave.Proofs.Program.Walks

/-! # Trees that are rebuilt

A tree is rebuilt from the leaves up: each expression is related to what takes its place, after the
expressions below it have been replaced, and all else stays as it is. This says what a walk does
without the state that its visitor carries. What is found in the rebuilt tree, and how often the
visitor changes something, follows from what it does to one expression.

`filesRebuilt` is the relation on files; `filesWalk_rebuilds` says that walks rebuild, for
visitors that `Visitor.Rebuilds` holds of. `KeepsCalls` and `Visitor.Tallies` are about the calls
that are left and their number.
-/

namespace TraceWeave

section

variable (R : ScopeStack → Expr → Expr → Prop)

mutual

/-- The same expression, rebuilt in its scopes. -/
def Expr.Rebuilt : Expr → ScopeStack → Expr → Prop
  | .setVar s var value => fun sc e' =>
    ∃ value', value.Rebuilt sc value' ∧ R sc (.setVar s var value') e'
  | .call s callee receiver typeArgs args => fun sc e' =>
    ∃ receiver' args', optionRebuilt receiver sc receiver' ∧ argsRebuilt args sc args' ∧
      R sc (.call s callee receiver' typeArgs args') e'
  | .block s stmts => fun sc e' =>
    ∃ stmts', stmtsRebuilt stmts (sc.push .ofBody) stmts' ∧ R sc (.block s stmts') e'
  | .returnable s id stmts => fun sc e' =>
    ∃ stmts', stmtsRebuilt stmts (sc.push .ofBody) stmts' ∧ R sc (.returnable s id stmts') e'
  | .ret s target value => fun sc e' =>
    ∃ value', value.Rebuilt sc value' ∧ R sc (.ret s target value') e'
  | .when s branches otherwise => fun sc e' =>
    ∃ branches' otherwise', branchesRebuilt branches sc branches' ∧
      optionRebuilt otherwise sc otherwise' ∧ R sc (.when s branches' otherwise') e'
  | .loop s condition body => fun sc e' =>
    ∃ condition' body', condition.Rebuilt sc condition' ∧ body.Rebuilt sc body' ∧
      R sc (.loop s condition' body') e'
  | .binary s op lhs rhs => fun sc e' =>
    ∃ lhs' rhs', lhs.Rebuilt sc lhs' ∧ rhs.Rebuilt sc rhs' ∧ R sc (.binary s op lhs' rhs') e'
  | .not s operand => fun sc e' => ∃ operand', operand.Rebuilt sc operand' ∧ R sc (.not s operand') e'
  | .concat s parts => fun sc e' => ∃ parts', exprsRebuilt parts sc parts' ∧ R sc (.concat s parts') e'
  | .lambda s decl => fun sc e' => ∃ decl', decl.Rebuilt sc decl' ∧ R sc (.lambda s decl') e'
  | .const s value => fun sc e' => R sc (.const s value) e'
  | .getVar s var => fun sc e' => R sc (.getVar s var) e'
  | .functionRef s id => fun sc e' => R sc (.functionRef s id) e'
  | .propertyRef s id => fun sc e' => R sc (.propertyRef s id) e'
  | .descriptor s ref => fun sc e' => R sc (.descriptor s ref) e'
  | .captureFrame s capture => fun sc e' => R sc (.captureFrame s capture) e'

def optionRebuilt : Option Expr → ScopeStack → Option Expr → Prop
  | none => fun _ e' => e' = none
  | some e => fun sc e' => ∃ x, e.Rebuilt sc x ∧ e' = some x

def argsRebuilt : List (Option Expr) → ScopeStack → List (Option Expr) → Prop
  | [] => fun _ args' => args' = []
  | none :: args => fun sc args' => ∃ rest, argsRebuilt args sc rest ∧ args' = none :: rest
  | some e :: args => fun sc args' =>
    ∃ x rest, e.Rebuilt sc x ∧ argsRebuilt args sc rest ∧ args' = some x :: rest

def exprsRebuilt : List Expr → ScopeStack → List Expr → Prop
  | [] => fun _ es' => es' = []
  | e :: es => fun sc es' => ∃ x rest, e.Rebuilt sc x ∧ exprsRebuilt es sc rest ∧ es' = x :: rest

def branchesRebuilt : List (Expr × Expr) → ScopeStack → List (Expr × Expr) → Prop
  | [] => fun _ branches' => branches' = []
  | (condition, result) :: branches => fun sc branches' =>
    ∃ x y rest, condition.Rebuilt sc x ∧ result.Rebuilt sc y ∧ branchesRebuilt branches sc rest ∧
      branches' = (x, y) :: rest

def stmtsRebuilt : List Stmt → ScopeStack → List Stmt → Prop
  | [] => fun _ stmts' => stmts' = []
  | stmt :: stmts => fun sc stmts' =>
    ∃ x rest, stmt.Rebuilt sc x ∧ stmtsRebuilt stmts (sc.after stmt) rest ∧ stmts' = x :: rest

def Stmt.Rebuilt : Stmt → ScopeStack → Stmt → Prop
  | .expr e => fun sc stmt' => ∃ x, e.Rebuilt sc x ∧ stmt' = .expr x
  | .var head init => fun sc stmt' => ∃ init', optionRebuilt init sc init' ∧ stmt' = .var head init'
  | .decl d => fun sc stmt' => ∃ d', d.Rebuilt sc d' ∧ stmt' = .decl d'

def paramsRebuilt : List Param → ScopeStack → List Param → Prop
  | [] => fun _ params' => params' = []
  | ⟨head, default⟩ :: params => fun sc params' =>
    ∃ default' rest, optionRebuilt default sc default' ∧ paramsRebuilt params sc rest ∧
      params' = ⟨head, default'⟩ :: rest

def Body.Rebuilt : Body → ScopeStack → Body → Prop
  | .absent => fun _ body' => body' = .absent
  | .block stmts => fun sc body' =>
    ∃ stmts', stmtsRebuilt stmts (sc.push .ofBody) stmts' ∧ body' = .block stmts'
  | .expression e => fun sc body' => ∃ x, e.Rebuilt sc x ∧ body' = .expression x

/-- The same declaration with the expressions in it rebuilt. -/
def Decl.Rebuilt : Decl → ScopeStack → Decl → Prop
  | .classDecl head info members => fun sc d' =>
    ∃ members', declsRebuilt members (sc.push (.ofClass head.id)) members' ∧
      d' = .classDecl head info members'
  | .function head info params body => fun sc d' =>
    ∃ params' body', paramsRebuilt params (sc.inFunction head.id params) params' ∧
      body.Rebuilt (sc.inFunction head.id params) body' ∧ d' = .function head info params' body'
  | .property head info backing getter setter => fun sc d' =>
    ∃ backing' getter' setter', accessorRebuilt backing sc backing' ∧
      accessorRebuilt getter sc getter' ∧ accessorRebuilt setter sc setter' ∧
      d' = .property head info backing' getter' setter'
  | .field head info init => fun sc d' =>
    ∃ init', optionRebuilt init (sc.push (.ofInitializer head.id)) init' ∧
      d' = .field head info init'
  | .initializer head body => fun sc d' =>
    ∃ body', stmtsRebuilt body ((sc.push (.ofInitializer head.id)).push .ofBody) body' ∧
      d' = .initializer head body'

def accessorRebuilt : Option Decl → ScopeStack → Option Decl → Prop
  | none => fun _ d' => d' = none
  | some d => fun sc d' => ∃ x, d.Rebuilt sc x ∧ d' = some x

def declsRebuilt : List Decl → ScopeStack → List Decl → Prop
  | [] => fun _ ds' => ds' = []
  | d :: ds => fun sc ds' => ∃ x rest, d.Rebuilt sc x ∧ declsRebuilt ds sc rest ∧ ds' = x :: rest

end

/-- The same files with the expressions in them rebuilt. -/
def filesRebuilt : List SourceFile → List SourceFile → Prop :=
  List.Forall₂ fun f f' =>
    ∃ ds, declsRebuilt R f.declarations {} ds ∧ f' = { f with declarations := ds }

end

/-! ## What a walk rebuilds -/

variable {σ : Type}

/-- A visitor that, as long as all is well, puts related expressions in place, and leaves
declarations alone. -/
structure Visitor.Rebuilds (v : Visitor σ) (good : σ → Prop) (R : ScopeStack → Expr → Expr → Prop) :
    Prop where
  handsBack : v.HandsBack good
  onExpr : ∀ sc place e st, good (v.onExpr sc place e st).2 → R sc e (v.onExpr sc place e st).1
  onDecl : ∀ sc d st, (v.onDecl sc d st).1 = d

section

variable {v : Visitor σ} {good : σ → Prop} {R : ScopeStack → Expr → Expr → Prop}

mutual

-- All is well at the end of a node, so it was so at the end of each of its parts.
theorem Expr.walk_rebuilds (hv : v.Rebuilds good R) : ∀ (e : Expr) (sc : ScopeStack)
    (place : Place) (st : σ), good (e.walk v sc place st).2 →
      e.Rebuilt R sc (e.walk v sc place st).1
  | .setVar _ _ value => fun sc place st h => by
    rw [Expr.walk] at h ⊢
    exact ⟨_, value.walk_rebuilds hv _ _ _ (hv.handsBack.onExpr _ _ _ _ h), hv.onExpr _ _ _ _ h⟩
  | .call _ _ receiver _ args => fun sc place st h => by
    rw [Expr.walk] at h ⊢
    have hargs := hv.handsBack.onExpr _ _ _ _ h
    have hreceiver := argsWalk_handsBack hv.handsBack args _ _ hargs
    exact ⟨_, _, optionWalk_rebuilds hv receiver _ _ _ hreceiver,
      argsWalk_rebuilds hv args _ _ hargs, hv.onExpr _ _ _ _ h⟩
  | .block _ stmts | .returnable _ _ stmts => fun sc place st h => by
    rw [Expr.walk] at h ⊢
    exact ⟨_, stmtsWalk_rebuilds hv stmts _ _ (hv.handsBack.onExpr _ _ _ _ h),
      hv.onExpr _ _ _ _ h⟩
  | .ret _ _ value => fun sc place st h => by
    rw [Expr.walk] at h ⊢
    exact ⟨_, value.walk_rebuilds hv _ _ _ (hv.handsBack.onExpr _ _ _ _ h), hv.onExpr _ _ _ _ h⟩
  | .when _ branches otherwise => fun sc place st h => by
    rw [Expr.walk] at h ⊢
    have hotherwise := hv.handsBack.onExpr _ _ _ _ h
    have hbranches := optionWalk_handsBack hv.handsBack otherwise _ _ _ hotherwise
    exact ⟨_, _, branchesWalk_rebuilds hv branches _ _ hbranches,
      optionWalk_rebuilds hv otherwise _ _ _ hotherwise, hv.onExpr _ _ _ _ h⟩
  | .loop _ condition body => fun sc place st h => by
    rw [Expr.walk] at h ⊢
    have hbody := hv.handsBack.onExpr _ _ _ _ h
    have hcondition := body.walk_handsBack hv.handsBack _ _ _ hbody
    exact ⟨_, _, condition.walk_rebuilds hv _ _ _ hcondition, body.walk_rebuilds hv _ _ _ hbody,
      hv.onExpr _ _ _ _ h⟩
  | .binary _ _ lhs rhs => fun sc place st h => by
    rw [Expr.walk] at h ⊢
    have hrhs := hv.handsBack.onExpr _ _ _ _ h
    have hlhs := rhs.walk_handsBack hv.handsBack _ _ _ hrhs
    exact ⟨_, _, lhs.walk_rebuilds hv _ _ _ hlhs, rhs.walk_rebuilds hv _ _ _ hrhs,
      hv.onExpr _ _ _ _ h⟩
  | .not _ operand => fun sc place st h => by
    rw [Expr.walk] at h ⊢
    exact ⟨_, operand.walk_rebuilds hv _ _ _ (hv.handsBack.onExpr _ _ _ _ h), hv.onExpr _ _ _ _ h⟩
  | .concat _ parts => fun sc place st h => by
    rw [Expr.walk] at h ⊢
    exact ⟨_, exprsWalk_rebuilds hv parts _ _ (hv.handsBack.onExpr _ _ _ _ h), hv.onExpr _ _ _ _ h⟩
  | .lambda _ decl => fun sc place st h => by
    rw [Expr.walk] at h ⊢
    exact ⟨_, decl.walk_rebuilds hv _ _ (hv.handsBack.onExpr _ _ _ _ h), hv.onExpr _ _ _ _ h⟩
  | .const _ _ | .getVar _ _ | .functionRef _ _ | .propertyRef _ _ | .descriptor _ _
  | .captureFrame _ _ => fun sc place st h => hv.onExpr sc place _ st h

theorem optionWalk_rebuilds (hv : v.Rebuilds good R) : ∀ (e : Option Expr) (sc : ScopeStack)
    (place : Place) (st : σ), good (optionWalk v sc place e st).2 →
      optionRebuilt R e sc (optionWalk v sc place e st).1
  | none => fun _ _ _ _ => rfl
  | some e => fun _ _ _ h => ⟨_, e.walk_rebuilds hv _ _ _ h, rfl⟩

theorem argsWalk_rebuilds (hv : v.Rebuilds good R) : ∀ (args : List (Option Expr))
    (sc : ScopeStack) (st : σ), good (argsWalk v sc args st).2 →
      argsRebuilt R args sc (argsWalk v sc args st).1
  | [] => fun _ _ _ => rfl
  | none :: args => fun _ _ h => ⟨_, argsWalk_rebuilds hv args _ _ h, rfl⟩
  | some e :: args => fun _ _ h =>
    ⟨_, _, e.walk_rebuilds hv _ _ _ (argsWalk_handsBack hv.handsBack args _ _ h),
      argsWalk_rebuilds hv args _ _ h, rfl⟩

theorem exprsWalk_rebuilds (hv : v.Rebuilds good R) : ∀ (es : List Expr) (sc : ScopeStack)
    (st : σ), good (exprsWalk v sc es st).2 → exprsRebuilt R es sc (exprsWalk v sc es st).1
  | [] => fun _ _ _ => rfl
  | e :: es => fun _ _ h =>
    ⟨_, _, e.walk_rebuilds hv _ _ _ (exprsWalk_handsBack hv.handsBack es _ _ h),
      exprsWalk_rebuilds hv es _ _ h, rfl⟩

theorem branchesWalk_rebuilds (hv : v.Rebuilds good R) : ∀ (branches : List (Expr × Expr))
    (sc : ScopeStack) (st : σ), good (branchesWalk v sc branches st).2 →
      branchesRebuilt R branches sc (branchesWalk v sc branches st).1
  | [] => fun _ _ _ => rfl
  | (condition, result) :: branches => fun _ _ h =>
    have hresult := branchesWalk_handsBack hv.handsBack branches _ _ h
    have hcondition := result.walk_handsBack hv.handsBack _ _ _ hresult
    ⟨_, _, _, condition.walk_rebuilds hv _ _ _ hcondition, result.walk_rebuilds hv _ _ _ hresult,
      branchesWalk_rebuilds hv branches _ _ h, rfl⟩

theorem stmtsWalk_rebuilds (hv : v.Rebuilds good R) : ∀ (stmts : List Stmt) (sc : ScopeStack)
    (st : σ), good (stmtsWalk v sc stmts st).2 → stmtsRebuilt R stmts sc (stmtsWalk v sc stmts st).1
  | [] => fun _ _ _ => rfl
  | stmt :: stmts => fun _ _ h =>
    ⟨_, _, stmt.walk_rebuilds hv _ _ (stmtsWalk_handsBack hv.handsBack stmts _ _ h),
      stmtsWalk_rebuilds hv stmts _ _ h, rfl⟩

theorem Stmt.walk_rebuilds (hv : v.Rebuilds good R) : ∀ (stmt : Stmt) (sc : ScopeStack) (st : σ),
    good (stmt.walk v sc st).2 → stmt.Rebuilt R sc (stmt.walk v sc st).1
  | .expr e => fun _ _ h => ⟨_, e.walk_rebuilds hv _ _ _ h, rfl⟩
  | .var _ init => fun _ _ h => ⟨_, optionWalk_rebuilds hv init _ _ _ h, rfl⟩
  | .decl d => fun _ _ h => ⟨_, d.walk_rebuilds hv _ _ h, rfl⟩

theorem paramsWalk_rebuilds (hv : v.Rebuilds good R) : ∀ (params : List Param) (sc : ScopeStack)
    (st : σ), good (paramsWalk v sc params st).2 →
      paramsRebuilt R params sc (paramsWalk v sc params st).1
  | [] => fun _ _ _ => rfl
  | ⟨_, default⟩ :: params => fun _ _ h =>
    ⟨_, _, optionWalk_rebuilds hv default _ _ _ (paramsWalk_handsBack hv.handsBack params _ _ h),
      paramsWalk_rebuilds hv params _ _ h, rfl⟩

theorem Body.walk_rebuilds (hv : v.Rebuilds good R) : ∀ (body : Body) (sc : ScopeStack) (st : σ),
    good (body.walk v sc st).2 → body.Rebuilt R sc (body.walk v sc st).1
  | .absent => fun _ _ _ => rfl
  | .block stmts => fun _ _ h => ⟨_, stmtsWalk_rebuilds hv stmts _ _ h, rfl⟩
  | .expression e => fun _ _ h => ⟨_, e.walk_rebuilds hv _ _ _ h, rfl⟩

theorem Decl.walk_rebuilds (hv : v.Rebuilds good R) : ∀ (d : Decl) (sc : ScopeStack) (st : σ),
    good (d.walk v sc st).2 → d.Rebuilt R sc (d.walk v sc st).1
  | .classDecl _ _ members => fun sc st h => by
    rw [Decl.walk] at h ⊢
    exact ⟨_, declsWalk_rebuilds hv members _ _ (hv.handsBack.onDecl _ _ _ h), hv.onDecl _ _ _⟩
  | .function _ _ params body => fun sc st h => by
    rw [Decl.walk] at h ⊢
    have hbody := hv.handsBack.onDecl _ _ _ h
    have hparams := body.walk_handsBack hv.handsBack _ _ hbody
    exact ⟨_, _, paramsWalk_rebuilds hv params _ _ hparams, body.walk_rebuilds hv _ _ hbody,
      hv.onDecl _ _ _⟩
  | .property _ _ backing getter setter => fun sc st h => by
    rw [Decl.walk] at h ⊢
    have hsetter := hv.handsBack.onDecl _ _ _ h
    have hgetter := accessorWalk_handsBack hv.handsBack setter _ _ hsetter
    have hbacking := accessorWalk_handsBack hv.handsBack getter _ _ hgetter
    exact ⟨_, _, _, accessorWalk_rebuilds hv backing _ _ hbacking,
      accessorWalk_rebuilds hv getter _ _ hgetter, accessorWalk_rebuilds hv setter _ _ hsetter,
      hv.onDecl _ _ _⟩
  | .field _ _ init => fun sc st h => by
    rw [Decl.walk] at h ⊢
    exact ⟨_, optionWalk_rebuilds hv init _ _ _ (hv.handsBack.onDecl _ _ _ h), hv.onDecl _ _ _⟩
  | .initializer _ body => fun sc st h => by
    rw [Decl.walk] at h ⊢
    exact ⟨_, stmtsWalk_rebuilds hv body _ _ (hv.handsBack.onDecl _ _ _ h), hv.onDecl _ _ _⟩

theorem accessorWalk_rebuilds (hv : v.Rebuilds good R) : ∀ (d : Option Decl) (sc : ScopeStack)
    (st : σ), good (accessorWalk v sc d st).2 → accessorRebuilt R d sc (accessorWalk v sc d st).1
  | none => fun _ _ _ => rfl
  | some d => fun _ _ h => ⟨_, d.walk_rebuilds hv _ _ h, rfl⟩

theorem declsWalk_rebuilds (hv : v.Rebuilds good R) : ∀ (ds : List Decl) (sc : ScopeStack) (st : σ),
    good (declsWalk v sc ds st).2 → declsRebuilt R ds sc (declsWalk v sc ds st).1
  | [] => fun _ _ _ => rfl
  | d :: ds => fun _ _ h =>
    ⟨_, _, d.walk_rebuilds hv _ _ (declsWalk_handsBack hv.handsBack ds _ _ h),
      declsWalk_rebuilds hv ds _ _ h, rfl⟩

end

theorem filesWalk_rebuilds (hv : v.Rebuilds good R) : ∀ (fs : List SourceFile) (st : σ),
    good (filesWalk v fs st).2 → filesRebuilt R fs (filesWalk v fs st).1
  | [], _, _ => .nil
  | f :: fs, _, h =>
    .cons ⟨_, declsWalk_rebuilds hv f.declarations _ _ (filesWalk_handsBack hv.handsBack fs _ h), rfl⟩
      (filesWalk_rebuilds hv fs _ h)

end

/-! ## The functions that are called -/

/-- The function that a node calls. -/
def Node.callee? : Node → Option DeclId
  | .expr e => e.callee?
  | .decl _ | .param _ | .var _ => none

/-- The functions that are called in some nodes, with one entry for each call. -/
def calleesOf (nodes : List Node) : List DeclId := nodes.filterMap Node.callee?

@[simp] theorem calleesOf_nil : calleesOf [] = [] := rfl

@[simp] theorem calleesOf_append (xs ys : List Node) :
    calleesOf (xs ++ ys) = calleesOf xs ++ calleesOf ys := List.filterMap_append

@[simp] theorem calleesOf_decl (d : Decl) (nodes : List Node) :
    calleesOf (.decl d :: nodes) = calleesOf nodes := rfl

@[simp] theorem calleesOf_param (head : ParamHead) (nodes : List Node) :
    calleesOf (.param head :: nodes) = calleesOf nodes := rfl

@[simp] theorem calleesOf_var (head : VarHead) (nodes : List Node) :
    calleesOf (.var head :: nodes) = calleesOf nodes := rfl

theorem calleesOf_expr (e : Expr) (nodes : List Node) :
    calleesOf (.expr e :: nodes) = e.callee?.toList ++ calleesOf nodes := by
  unfold calleesOf
  cases h : e.callee? with
  | none => exact List.filterMap_cons_none h
  | some id => exact List.filterMap_cons_some h

/-- The nodes below an expression. -/
def Expr.innerNodes (e : Expr) : List Node := e.nodes.tail

theorem Expr.nodes_eq_cons (e : Expr) : e.nodes = .expr e :: e.innerNodes := by
  cases e <;> rfl

/-- Nodes in which only some functions are called. -/
def OnlyCalls (P : DeclId → Prop) (nodes : List Node) : Prop := ∀ id ∈ calleesOf nodes, P id

namespace OnlyCalls

variable {P : DeclId → Prop} {xs ys : List Node}

theorem nil : OnlyCalls P [] := nofun

theorem append (hx : OnlyCalls P xs) (hy : OnlyCalls P ys) : OnlyCalls P (xs ++ ys) := by
  intro id hid
  rw [calleesOf_append, List.mem_append] at hid
  exact hid.elim (hx id) (hy id)

end OnlyCalls

/-- Whether the functions called in what takes the place of an expression are as they should be, if
those called below the expression are. -/
def KeepsCalls (R : ScopeStack → Expr → Expr → Prop) (P : DeclId → Prop) : Prop :=
  ∀ {sc e e'}, R sc e e' → OnlyCalls P e.innerNodes → OnlyCalls P e'.nodes

section

variable {R : ScopeStack → Expr → Expr → Prop} {P : DeclId → Prop}

mutual

theorem Expr.rebuilt_calls (hR : KeepsCalls R P) : ∀ (e : Expr) {sc : ScopeStack} {e' : Expr},
    e.Rebuilt R sc e' → OnlyCalls P e'.nodes
  | .setVar _ _ value, _, _, ⟨_, hvalue, h⟩ => hR h (value.rebuilt_calls hR hvalue)
  | .call _ _ receiver _ args, _, _, ⟨_, _, hreceiver, hargs, h⟩ =>
    hR h ((option_rebuilt_calls hR receiver hreceiver).append (args_rebuilt_calls hR args hargs))
  | .block _ stmts, _, _, ⟨_, hstmts, h⟩ => hR h (stmts_rebuilt_calls hR stmts hstmts)
  | .returnable _ _ stmts, _, _, ⟨_, hstmts, h⟩ => hR h (stmts_rebuilt_calls hR stmts hstmts)
  | .ret _ _ value, _, _, ⟨_, hvalue, h⟩ => hR h (value.rebuilt_calls hR hvalue)
  | .when _ branches otherwise, _, _, ⟨_, _, hbranches, hotherwise, h⟩ =>
    hR h ((branches_rebuilt_calls hR branches hbranches).append
      (option_rebuilt_calls hR otherwise hotherwise))
  | .loop _ condition body, _, _, ⟨_, _, hcondition, hbody, h⟩ =>
    hR h ((condition.rebuilt_calls hR hcondition).append (body.rebuilt_calls hR hbody))
  | .binary _ _ lhs rhs, _, _, ⟨_, _, hlhs, hrhs, h⟩ =>
    hR h ((lhs.rebuilt_calls hR hlhs).append (rhs.rebuilt_calls hR hrhs))
  | .not _ operand, _, _, ⟨_, hoperand, h⟩ => hR h (operand.rebuilt_calls hR hoperand)
  | .concat _ parts, _, _, ⟨_, hparts, h⟩ => hR h (exprs_rebuilt_calls hR parts hparts)
  | .lambda _ decl, _, _, ⟨_, hdecl, h⟩ => hR h (decl.rebuilt_calls hR hdecl)
  | .const _ _, _, _, h | .getVar _ _, _, _, h | .functionRef _ _, _, _, h
  | .propertyRef _ _, _, _, h | .descriptor _ _, _, _, h | .captureFrame _ _, _, _, h => hR h .nil
termination_by structural e => e

theorem option_rebuilt_calls (hR : KeepsCalls R P) : ∀ (e : Option Expr) {sc : ScopeStack}
    {e' : Option Expr}, optionRebuilt R e sc e' → OnlyCalls P (optionNodes e')
  | none, _, _, rfl => .nil
  | some e, _, _, ⟨_, he, rfl⟩ => e.rebuilt_calls hR he
termination_by structural e => e

theorem args_rebuilt_calls (hR : KeepsCalls R P) : ∀ (args : List (Option Expr)) {sc : ScopeStack}
    {args' : List (Option Expr)}, argsRebuilt R args sc args' → OnlyCalls P (argsNodes args')
  | [], _, _, rfl => .nil
  | none :: args, _, _, ⟨rest, hargs, rfl⟩ =>
    show OnlyCalls P (argsNodes rest) from args_rebuilt_calls hR args hargs
  | some e :: args, _, _, ⟨_, _, he, hargs, rfl⟩ =>
    (e.rebuilt_calls hR he).append (args_rebuilt_calls hR args hargs)
termination_by structural args => args

theorem exprs_rebuilt_calls (hR : KeepsCalls R P) : ∀ (es : List Expr) {sc : ScopeStack}
    {es' : List Expr}, exprsRebuilt R es sc es' → OnlyCalls P (exprsNodes es')
  | [], _, _, rfl => .nil
  | e :: es, _, _, ⟨_, _, he, hes, rfl⟩ =>
    (e.rebuilt_calls hR he).append (exprs_rebuilt_calls hR es hes)
termination_by structural es => es

theorem branches_rebuilt_calls (hR : KeepsCalls R P) : ∀ (branches : List (Expr × Expr))
    {sc : ScopeStack} {branches' : List (Expr × Expr)}, branchesRebuilt R branches sc branches' →
      OnlyCalls P (branchesNodes branches')
  | [], _, _, rfl => .nil
  | (condition, result) :: branches, _, _, ⟨_, _, _, hcondition, hresult, hbranches, rfl⟩ =>
    ((condition.rebuilt_calls hR hcondition).append (result.rebuilt_calls hR hresult)).append
      (branches_rebuilt_calls hR branches hbranches)
termination_by structural branches => branches

theorem stmts_rebuilt_calls (hR : KeepsCalls R P) : ∀ (stmts : List Stmt) {sc : ScopeStack}
    {stmts' : List Stmt}, stmtsRebuilt R stmts sc stmts' → OnlyCalls P (stmtsNodes stmts')
  | [], _, _, rfl => .nil
  | stmt :: stmts, _, _, ⟨_, _, hstmt, hstmts, rfl⟩ =>
    (stmt.rebuilt_calls hR hstmt).append (stmts_rebuilt_calls hR stmts hstmts)
termination_by structural stmts => stmts

theorem Stmt.rebuilt_calls (hR : KeepsCalls R P) : ∀ (stmt : Stmt) {sc : ScopeStack}
    {stmt' : Stmt}, stmt.Rebuilt R sc stmt' → OnlyCalls P stmt'.nodes
  | .expr e, _, _, ⟨_, he, rfl⟩ => e.rebuilt_calls hR he
  | .var _ init, _, _, ⟨_, hinit, rfl⟩ => option_rebuilt_calls hR init hinit
  | .decl d, _, _, ⟨_, hd, rfl⟩ => d.rebuilt_calls hR hd
termination_by structural stmt => stmt

theorem params_rebuilt_calls (hR : KeepsCalls R P) : ∀ (params : List Param) {sc : ScopeStack}
    {params' : List Param}, paramsRebuilt R params sc params' → OnlyCalls P (paramsNodes params')
  | [], _, _, rfl => .nil
  | ⟨_, default⟩ :: params, _, _, ⟨_, _, hdefault, hparams, rfl⟩ =>
    (option_rebuilt_calls hR default hdefault).append (params_rebuilt_calls hR params hparams)
termination_by structural params => params

theorem Body.rebuilt_calls (hR : KeepsCalls R P) : ∀ (body : Body) {sc : ScopeStack}
    {body' : Body}, body.Rebuilt R sc body' → OnlyCalls P body'.nodes
  | .absent, _, _, rfl => .nil
  | .block stmts, _, _, ⟨_, hstmts, rfl⟩ => stmts_rebuilt_calls hR stmts hstmts
  | .expression e, _, _, ⟨_, he, rfl⟩ => e.rebuilt_calls hR he
termination_by structural body => body

theorem Decl.rebuilt_calls (hR : KeepsCalls R P) : ∀ (d : Decl) {sc : ScopeStack} {d' : Decl},
    d.Rebuilt R sc d' → OnlyCalls P d'.nodes
  | .classDecl _ _ members, _, _, ⟨_, hmembers, rfl⟩ => decls_rebuilt_calls hR members hmembers
  | .function _ _ params body, _, _, ⟨_, _, hparams, hbody, rfl⟩ =>
    (params_rebuilt_calls hR params hparams).append (body.rebuilt_calls hR hbody)
  | .property _ _ backing getter setter, _, _, ⟨_, _, _, hbacking, hgetter, hsetter, rfl⟩ =>
    ((accessor_rebuilt_calls hR backing hbacking).append
      (accessor_rebuilt_calls hR getter hgetter)).append (accessor_rebuilt_calls hR setter hsetter)
  | .field _ _ init, _, _, ⟨_, hinit, rfl⟩ => option_rebuilt_calls hR init hinit
  | .initializer _ body, _, _, ⟨_, hbody, rfl⟩ => stmts_rebuilt_calls hR body hbody
termination_by structural d => d

theorem accessor_rebuilt_calls (hR : KeepsCalls R P) : ∀ (d : Option Decl) {sc : ScopeStack}
    {d' : Option Decl}, accessorRebuilt R d sc d' → OnlyCalls P (accessorNodes d')
  | none, _, _, rfl => .nil
  | some d, _, _, ⟨_, hd, rfl⟩ => d.rebuilt_calls hR hd
termination_by structural d => d

theorem decls_rebuilt_calls (hR : KeepsCalls R P) : ∀ (ds : List Decl) {sc : ScopeStack}
    {ds' : List Decl}, declsRebuilt R ds sc ds' → OnlyCalls P (declsNodes ds')
  | [], _, _, rfl => .nil
  | d :: ds, _, _, ⟨_, _, hd, hds, rfl⟩ =>
    (d.rebuilt_calls hR hd).append (decls_rebuilt_calls hR ds hds)
termination_by structural ds => ds

end

theorem files_rebuilt_calls (hR : KeepsCalls R P) {fs fs' : List SourceFile}
    (h : filesRebuilt R fs fs') : OnlyCalls P (filesNodes fs') := by
  induction h with
  | nil => exact .nil
  | @cons f f' fs fs' hf _ ih =>
    obtain ⟨ds, hds, rfl⟩ := hf
    exact (decls_rebuilt_calls hR f.declarations hds).append ih

end

/-! ## How often something is changed -/

/-- A visitor that, as long as all is well, counts the calls of some functions. -/
structure Visitor.Tallies (v : Visitor σ) (good : σ → Prop) (tally : σ → Nat)
    (counted : DeclId → Bool) : Prop where
  handsBack : v.HandsBack good
  onExpr : ∀ sc place e st, good (v.onExpr sc place e st).2 →
    tally (v.onExpr sc place e st).2 = tally st + e.callee?.toList.countP counted
  onDecl : ∀ sc d st, tally (v.onDecl sc d st).2 = tally st

/-- A step that counts the calls in some nodes, if all is well behind it. -/
def Counts {α : Type} (good : σ → Prop) (tally : σ → Nat) (counted : DeclId → Bool)
    (step : σ → α × σ) (nodes : List Node) : Prop :=
  ∀ st, good (step st).2 →
    good st ∧ tally (step st).2 = tally st + (calleesOf nodes).countP counted

section

variable {v : Visitor σ} {good : σ → Prop} {tally : σ → Nat} {counted : DeclId → Bool}
  {α β γ : Type} {f : σ → α × σ} {g : σ → β × σ} {xs ys : List Node}

namespace Counts

theorem nothing (a : α) : Counts good tally counted (fun st => (a, st)) [] := fun _ h => ⟨h, rfl⟩

theorem map (h : Counts good tally counted f xs) (k : α → γ) :
    Counts good tally counted (fun st => (k (f st).1, (f st).2)) xs := h

theorem seq (h : Counts good tally counted f xs) (h' : Counts good tally counted g ys)
    (k : α → β → γ) : Counts good tally counted
      (fun st => (k (f st).1 (g (f st).2).1, (g (f st).2).2)) (xs ++ ys) := by
  intro st hst
  obtain ⟨hmiddle, hsecond⟩ := h' _ hst
  obtain ⟨hstart, hfirst⟩ := h _ hmiddle
  refine ⟨hstart, ?_⟩
  rw [calleesOf_append, List.countP_append]
  dsimp only
  omega

theorem visit (hv : v.Tallies good tally counted) {sc : ScopeStack} {place : Place} {e : Expr}
    (h : Counts good tally counted f xs) (k : α → Expr)
    (hk : ∀ a, (k a).callee? = e.callee? := by exact fun _ => rfl) :
    Counts good tally counted (fun st => v.onExpr sc place (k (f st).1) (f st).2)
      (.expr e :: xs) := by
  intro st hst
  have hmiddle := hv.handsBack.onExpr _ _ _ _ hst
  obtain ⟨hstart, hbelow⟩ := h st hmiddle
  have hhere := hv.onExpr _ _ _ _ hst
  refine ⟨hstart, ?_⟩
  rw [hk] at hhere
  rw [calleesOf_expr, List.countP_append]
  dsimp only at hhere hbelow ⊢
  omega

theorem leaf (hv : v.Tallies good tally counted) {sc : ScopeStack} {place : Place} (e : Expr) :
    Counts good tally counted (v.onExpr sc place e) [.expr e] :=
  visit (f := fun st => ((), st)) hv (nothing ()) fun _ => e

theorem decl (hv : v.Tallies good tally counted) {sc : ScopeStack} (d : Decl)
    (h : Counts good tally counted f xs) (k : α → Decl) :
    Counts good tally counted (fun st => v.onDecl sc (k (f st).1) (f st).2) (.decl d :: xs) := by
  intro st hst
  obtain ⟨hstart, hbelow⟩ := h st (hv.handsBack.onDecl _ _ _ hst)
  exact ⟨hstart, (hv.onDecl _ _ _).trans hbelow⟩

theorem var (h : Counts good tally counted f xs) (head : VarHead) :
    Counts good tally counted f (.var head :: xs) := h

theorem param (h : Counts good tally counted f xs) (head : ParamHead) :
    Counts good tally counted f (.param head :: xs) := h

end Counts

open Counts

mutual

theorem Expr.walk_counts (hv : v.Tallies good tally counted) : ∀ (e : Expr) (sc : ScopeStack)
    (place : Place), Counts good tally counted (e.walk v sc place) e.nodes
  | .setVar s var value => fun sc _ => visit hv (value.walk_counts hv sc .operand) (.setVar s var)
  | .call s callee receiver typeArgs args => fun sc _ =>
    visit hv (seq (optionWalk_counts hv receiver sc .operand) (argsWalk_counts hv args sc) Prod.mk)
      fun p => .call s callee p.1 typeArgs p.2
  | .block s stmts => fun sc _ => visit hv (stmtsWalk_counts hv stmts (sc.push .ofBody)) (.block s)
  | .returnable s id stmts => fun sc _ =>
    visit hv (stmtsWalk_counts hv stmts (sc.push .ofBody)) (.returnable s id)
  | .ret s target value => fun sc _ => visit hv (value.walk_counts hv sc .operand) (.ret s target)
  | .when s branches otherwise => fun sc _ =>
    visit hv (seq (branchesWalk_counts hv branches sc) (optionWalk_counts hv otherwise sc .operand)
      Prod.mk) fun p => .when s p.1 p.2
  | .loop s condition body => fun sc _ =>
    visit hv (seq (condition.walk_counts hv sc .operand) (body.walk_counts hv sc .operand) Prod.mk)
      fun p => .loop s p.1 p.2
  | .binary s op lhs rhs => fun sc _ =>
    visit hv (seq (lhs.walk_counts hv sc .operand) (rhs.walk_counts hv sc .operand) Prod.mk)
      fun p => .binary s op p.1 p.2
  | .not s operand => fun sc _ => visit hv (operand.walk_counts hv sc .operand) (.not s)
  | .concat s parts => fun sc _ => visit hv (exprsWalk_counts hv parts sc) (.concat s)
  | .lambda s decl => fun sc _ => visit hv (decl.walk_counts hv sc) (.lambda s)
  | .const _ _ | .getVar _ _ | .functionRef _ _ | .propertyRef _ _ | .descriptor _ _
  | .captureFrame _ _ => fun _ _ => leaf hv _

theorem optionWalk_counts (hv : v.Tallies good tally counted) : ∀ (e : Option Expr)
    (sc : ScopeStack) (place : Place),
    Counts good tally counted (optionWalk v sc place e) (optionNodes e)
  | none => fun _ _ => nothing none
  | some e => fun sc place => (e.walk_counts hv sc place).map some

theorem argsWalk_counts (hv : v.Tallies good tally counted) : ∀ (args : List (Option Expr))
    (sc : ScopeStack), Counts good tally counted (argsWalk v sc args) (argsNodes args)
  | [] => fun _ => nothing []
  | none :: args => fun sc => (argsWalk_counts hv args sc).map (none :: ·)
  | some e :: args => fun sc =>
    seq (e.walk_counts hv sc .operand) (argsWalk_counts hv args sc) fun e args => some e :: args

theorem exprsWalk_counts (hv : v.Tallies good tally counted) : ∀ (es : List Expr)
    (sc : ScopeStack), Counts good tally counted (exprsWalk v sc es) (exprsNodes es)
  | [] => fun _ => nothing []
  | e :: es => fun sc => seq (e.walk_counts hv sc .operand) (exprsWalk_counts hv es sc) List.cons

theorem branchesWalk_counts (hv : v.Tallies good tally counted) :
    ∀ (branches : List (Expr × Expr)) (sc : ScopeStack),
      Counts good tally counted (branchesWalk v sc branches) (branchesNodes branches)
  | [] => fun _ => nothing []
  | (condition, result) :: branches => fun sc =>
    seq (seq (condition.walk_counts hv sc .operand) (result.walk_counts hv sc .operand) Prod.mk)
      (branchesWalk_counts hv branches sc) List.cons

theorem stmtsWalk_counts (hv : v.Tallies good tally counted) : ∀ (stmts : List Stmt)
    (sc : ScopeStack), Counts good tally counted (stmtsWalk v sc stmts) (stmtsNodes stmts)
  | [] => fun _ => nothing []
  | stmt :: stmts => fun sc =>
    seq (stmt.walk_counts hv sc) (stmtsWalk_counts hv stmts (sc.after stmt)) List.cons

theorem Stmt.walk_counts (hv : v.Tallies good tally counted) : ∀ (stmt : Stmt) (sc : ScopeStack),
    Counts good tally counted (stmt.walk v sc) stmt.nodes
  | .expr e => fun sc => (e.walk_counts hv sc .statement).map Stmt.expr
  | .var head init => fun sc =>
    ((optionWalk_counts hv init sc .initializer).map (Stmt.var head)).var head
  | .decl d => fun sc => (d.walk_counts hv sc).map Stmt.decl

theorem paramsWalk_counts (hv : v.Tallies good tally counted) : ∀ (params : List Param)
    (sc : ScopeStack), Counts good tally counted (paramsWalk v sc params) (paramsNodes params)
  | [] => fun _ => nothing []
  | ⟨head, default⟩ :: params => fun sc =>
    (seq (optionWalk_counts hv default sc .defaultValue) (paramsWalk_counts hv params sc)
      fun default params => Param.mk head default :: params).param head

theorem Body.walk_counts (hv : v.Tallies good tally counted) : ∀ (body : Body) (sc : ScopeStack),
    Counts good tally counted (body.walk v sc) body.nodes
  | .absent => fun _ => nothing Body.absent
  | .block stmts => fun sc => (stmtsWalk_counts hv stmts (sc.push .ofBody)).map Body.block
  | .expression e => fun sc => (e.walk_counts hv sc .expressionBody).map Body.expression

theorem Decl.walk_counts (hv : v.Tallies good tally counted) : ∀ (d : Decl) (sc : ScopeStack),
    Counts good tally counted (d.walk v sc) d.nodes
  | .classDecl head info members => fun sc =>
    decl hv _ (declsWalk_counts hv members (sc.push (.ofClass head.id))) (.classDecl head info)
  | .function head info params body => fun sc =>
    decl hv _ (seq (paramsWalk_counts hv params (sc.inFunction head.id params))
      (body.walk_counts hv (sc.inFunction head.id params)) Prod.mk)
      fun p => .function head info p.1 p.2
  | .property head info backing getter setter => fun sc =>
    decl hv _ (seq (seq (accessorWalk_counts hv backing sc) (accessorWalk_counts hv getter sc)
      Prod.mk) (accessorWalk_counts hv setter sc) Prod.mk)
      fun p => .property head info p.1.1 p.1.2 p.2
  | .field head info init => fun sc =>
    decl hv _ (optionWalk_counts hv init (sc.push (.ofInitializer head.id)) .initializer)
      (.field head info)
  | .initializer head body => fun sc =>
    decl hv _ (stmtsWalk_counts hv body ((sc.push (.ofInitializer head.id)).push .ofBody))
      (.initializer head)

theorem accessorWalk_counts (hv : v.Tallies good tally counted) : ∀ (d : Option Decl)
    (sc : ScopeStack), Counts good tally counted (accessorWalk v sc d) (accessorNodes d)
  | none => fun _ => nothing none
  | some d => fun sc => (d.walk_counts hv sc).map some

theorem declsWalk_counts (hv : v.Tallies good tally counted) : ∀ (ds : List Decl)
    (sc : ScopeStack), Counts good tally counted (declsWalk v sc ds) (declsNodes ds)
  | [] => fun _ => nothing []
  | d :: ds => fun sc => seq (d.walk_counts hv sc) (declsWalk_counts hv ds sc) List.cons

end

theorem filesWalk_counts (hv : v.Tallies good tally counted) : ∀ fs : List SourceFile,
    Counts good tally counted (filesWalk v fs) (filesNodes fs)
  | [] => nothing []
  | f :: fs => seq (declsWalk_counts hv f.declarations {}) (filesWalk_counts hv fs)
    fun declarations fs => ({ f with declarations } : SourceFile) :: fs

end

end TraceWeave

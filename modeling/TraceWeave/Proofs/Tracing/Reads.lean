import TraceWeave.Proofs.Tracing.Inserting

/-! # Reads next to their bindings

What instrumentation puts in reads a temporary in the block that binds it, behind the binding: the
block around a call or the value of a return, or the block that an expression body becomes. There
the read stands as a statement or in a return. The other reads, the stray ones, are told apart here.
Instrumentation brings in none of them.

`Module.stray` lists them. A visitor that brings in none is one that `Visitor.Settles` holds of,
and `Instrument.run_stray` is about runs of the instrumentation.
-/

namespace TraceWeave

/-! ## Stray reads -/

/-- The variables that a statement binds for those behind it. -/
def Stmt.binds : Stmt → List VarId
  | .var head _ => [head.id]
  | _ => []

mutual

/-- The reads in an expression that are stray. If it is a statement of a block, it may read what is
bound `here`, before it in the block. If it is in a return, it may read what is `held`: bound in the
block of the return, before it. -/
def Expr.stray (here held : List VarId) : Expr → List VarId
  | .getVar _ v => if v ∈ here ∨ v ∈ held then [] else [v]
  | .ret _ _ value => value.stray [] (here ++ held)
  | .block _ stmts => stmtsStray [] held stmts
  | .returnable _ _ stmts => stmtsStray [] held stmts
  | .setVar _ _ value => value.stray [] held
  | .call _ _ receiver _ args => optionStray held receiver ++ argsStray held args
  | .when _ branches otherwise => branchesStray held branches ++ optionStray held otherwise
  | .loop _ condition body => condition.stray [] held ++ body.stray [] held
  | .binary _ _ lhs rhs => lhs.stray [] held ++ rhs.stray [] held
  | .not _ operand => operand.stray [] held
  | .concat _ parts => exprsStray held parts
  | .lambda _ decl => decl.stray
  | .const _ _ | .functionRef _ _ | .propertyRef _ _ | .descriptor _ _ | .captureFrame _ _ => []

def optionStray (held : List VarId) : Option Expr → List VarId
  | none => []
  | some e => e.stray [] held

def argsStray (held : List VarId) : List (Option Expr) → List VarId
  | [] => []
  | none :: args => argsStray held args
  | some e :: args => e.stray [] held ++ argsStray held args

def exprsStray (held : List VarId) : List Expr → List VarId
  | [] => []
  | e :: es => e.stray [] held ++ exprsStray held es

def branchesStray (held : List VarId) : List (Expr × Expr) → List VarId
  | [] => []
  | (condition, result) :: branches =>
    condition.stray [] held ++ result.stray [] held ++ branchesStray held branches

def stmtsStray (here held : List VarId) : List Stmt → List VarId
  | [] => []
  | stmt :: stmts => stmt.stray here held ++ stmtsStray (stmt.binds ++ here) held stmts

def Stmt.stray (here held : List VarId) : Stmt → List VarId
  | .expr e => e.stray here held
  | .var _ init => optionStray held init
  | .decl d => d.stray

def paramsStray : List Param → List VarId
  | [] => []
  | ⟨_, default⟩ :: params => optionStray [] default ++ paramsStray params

def Body.stray : Body → List VarId
  | .absent => []
  | .block stmts => stmtsStray [] [] stmts
  | .expression e => e.stray [] []

def Decl.stray : Decl → List VarId
  | .classDecl _ _ members => declsStray members
  | .function _ _ params body => paramsStray params ++ body.stray
  | .property _ _ backing getter setter =>
    accessorStray backing ++ accessorStray getter ++ accessorStray setter
  | .field _ _ init => optionStray [] init
  | .initializer _ body => stmtsStray [] [] body

def accessorStray : Option Decl → List VarId
  | none => []
  | some d => d.stray

def declsStray : List Decl → List VarId
  | [] => []
  | d :: ds => d.stray ++ declsStray ds

end

def filesStray (fs : List SourceFile) : List VarId := fs.flatMap fun f => declsStray f.declarations

/-- The stray reads of a module. -/
def Module.stray (m : Module) : List VarId := filesStray m.files ++ filesStray m.external

/-! ## Walks -/

variable {σ : Type}

/-- A visitor that brings in no stray reads. -/
structure Visitor.Settles (v : Visitor σ) : Prop where
  onExpr : ∀ sc place e st here held,
    ((v.onExpr sc place e st).1.stray here held).Sublist (e.stray here held)
  onDecl : ∀ sc d st, (v.onDecl sc d st).1.stray.Sublist d.stray

section

variable {v : Visitor σ}

theorem Stmt.binds_walk (sc : ScopeStack) (stmt : Stmt) (st : σ) :
    (stmt.walk v sc st).1.binds = stmt.binds := by
  cases stmt <;> rfl

mutual

-- A part of a node can see what the node lets it see, whatever it has become, and the visit of the
-- node brings in nothing stray.
theorem Expr.walk_stray (hv : v.Settles) : ∀ (e : Expr) (sc : ScopeStack) (place : Place) (st : σ)
    (here held : List VarId),
      ((e.walk v sc place st).1.stray here held).Sublist (e.stray here held)
  | .setVar _ _ value => fun _ _ _ _ held =>
    (hv.onExpr _ _ _ _ _ _).trans (value.walk_stray hv _ _ _ [] held)
  | .call _ _ receiver _ args => fun _ _ _ _ held => (hv.onExpr _ _ _ _ _ _).trans
    ((optionWalk_stray hv receiver _ _ _ held).append (argsWalk_stray hv args _ _ held))
  | .block _ stmts | .returnable _ _ stmts => fun _ _ _ _ held =>
    (hv.onExpr _ _ _ _ _ _).trans (stmtsWalk_stray hv stmts _ _ [] held)
  | .ret _ _ value => fun _ _ _ here held =>
    (hv.onExpr _ _ _ _ _ _).trans (value.walk_stray hv _ _ _ [] (here ++ held))
  | .when _ branches otherwise => fun _ _ _ _ held => (hv.onExpr _ _ _ _ _ _).trans
    ((branchesWalk_stray hv branches _ _ held).append (optionWalk_stray hv otherwise _ _ _ held))
  | .loop _ condition body => fun _ _ _ _ held => (hv.onExpr _ _ _ _ _ _).trans
    ((condition.walk_stray hv _ _ _ [] held).append (body.walk_stray hv _ _ _ [] held))
  | .binary _ _ lhs rhs => fun _ _ _ _ held => (hv.onExpr _ _ _ _ _ _).trans
    ((lhs.walk_stray hv _ _ _ [] held).append (rhs.walk_stray hv _ _ _ [] held))
  | .not _ operand => fun _ _ _ _ held =>
    (hv.onExpr _ _ _ _ _ _).trans (operand.walk_stray hv _ _ _ [] held)
  | .concat _ parts => fun _ _ _ _ held =>
    (hv.onExpr _ _ _ _ _ _).trans (exprsWalk_stray hv parts _ _ held)
  | .lambda _ decl => fun _ _ _ _ _ => (hv.onExpr _ _ _ _ _ _).trans (decl.walk_stray hv _ _)
  | .const _ _ | .getVar _ _ | .functionRef _ _ | .propertyRef _ _ | .descriptor _ _
  | .captureFrame _ _ => fun _ _ _ _ _ => hv.onExpr _ _ _ _ _ _

theorem optionWalk_stray (hv : v.Settles) : ∀ (e : Option Expr) (sc : ScopeStack) (place : Place)
    (st : σ) (held : List VarId),
      (optionStray held (optionWalk v sc place e st).1).Sublist (optionStray held e)
  | none => fun _ _ _ _ => .refl _
  | some e => fun _ _ _ held => e.walk_stray hv _ _ _ [] held

theorem argsWalk_stray (hv : v.Settles) : ∀ (args : List (Option Expr)) (sc : ScopeStack) (st : σ)
    (held : List VarId), (argsStray held (argsWalk v sc args st).1).Sublist (argsStray held args)
  | [] => fun _ _ _ => .refl _
  | none :: args => fun _ _ held => argsWalk_stray hv args _ _ held
  | some e :: args => fun _ _ held =>
    (e.walk_stray hv _ _ _ [] held).append (argsWalk_stray hv args _ _ held)

theorem exprsWalk_stray (hv : v.Settles) : ∀ (es : List Expr) (sc : ScopeStack) (st : σ)
    (held : List VarId), (exprsStray held (exprsWalk v sc es st).1).Sublist (exprsStray held es)
  | [] => fun _ _ _ => .refl _
  | e :: es => fun _ _ held =>
    (e.walk_stray hv _ _ _ [] held).append (exprsWalk_stray hv es _ _ held)

theorem branchesWalk_stray (hv : v.Settles) : ∀ (branches : List (Expr × Expr)) (sc : ScopeStack)
    (st : σ) (held : List VarId),
      (branchesStray held (branchesWalk v sc branches st).1).Sublist (branchesStray held branches)
  | [] => fun _ _ _ => .refl _
  | (condition, result) :: branches => fun _ _ held =>
    ((condition.walk_stray hv _ _ _ [] held).append (result.walk_stray hv _ _ _ [] held)).append
      (branchesWalk_stray hv branches _ _ held)

theorem stmtsWalk_stray (hv : v.Settles) : ∀ (stmts : List Stmt) (sc : ScopeStack) (st : σ)
    (here held : List VarId),
      (stmtsStray here held (stmtsWalk v sc stmts st).1).Sublist (stmtsStray here held stmts)
  | [] => fun _ _ _ _ => .refl _
  | stmt :: stmts => fun sc st here held => by
    have hrest := stmtsWalk_stray hv stmts (sc.after stmt) (stmt.walk v sc st).2
      ((stmt.walk v sc st).1.binds ++ here) held
    rw [stmt.binds_walk sc st] at hrest
    exact (stmt.walk_stray hv sc st here held).append
      (by rw [stmt.binds_walk sc st]; exact hrest)

theorem Stmt.walk_stray (hv : v.Settles) : ∀ (stmt : Stmt) (sc : ScopeStack) (st : σ)
    (here held : List VarId), ((stmt.walk v sc st).1.stray here held).Sublist (stmt.stray here held)
  | .expr e => fun _ _ here held => e.walk_stray hv _ _ _ here held
  | .var _ init => fun _ _ _ held => optionWalk_stray hv init _ _ _ held
  | .decl d => fun _ _ _ _ => d.walk_stray hv _ _

theorem paramsWalk_stray (hv : v.Settles) : ∀ (params : List Param) (sc : ScopeStack) (st : σ),
    (paramsStray (paramsWalk v sc params st).1).Sublist (paramsStray params)
  | [] => fun _ _ => .refl _
  | ⟨_, default⟩ :: params => fun _ _ =>
    (optionWalk_stray hv default _ _ _ []).append (paramsWalk_stray hv params _ _)

theorem Body.walk_stray (hv : v.Settles) : ∀ (body : Body) (sc : ScopeStack) (st : σ),
    (body.walk v sc st).1.stray.Sublist body.stray
  | .absent => fun _ _ => .refl _
  | .block stmts => fun _ _ => stmtsWalk_stray hv stmts _ _ [] []
  | .expression e => fun _ _ => e.walk_stray hv _ _ _ [] []

theorem Decl.walk_stray (hv : v.Settles) : ∀ (d : Decl) (sc : ScopeStack) (st : σ),
    (d.walk v sc st).1.stray.Sublist d.stray
  | .classDecl _ _ members => fun _ _ =>
    (hv.onDecl _ _ _).trans (declsWalk_stray hv members _ _)
  | .function _ _ params body => fun _ _ => (hv.onDecl _ _ _).trans
    ((paramsWalk_stray hv params _ _).append (body.walk_stray hv _ _))
  | .property _ _ backing getter setter => fun _ _ => (hv.onDecl _ _ _).trans
    (((accessorWalk_stray hv backing _ _).append (accessorWalk_stray hv getter _ _)).append
      (accessorWalk_stray hv setter _ _))
  | .field _ _ init => fun _ _ =>
    (hv.onDecl _ _ _).trans (optionWalk_stray hv init _ _ _ [])
  | .initializer _ body => fun _ _ =>
    (hv.onDecl _ _ _).trans (stmtsWalk_stray hv body _ _ [] [])

theorem accessorWalk_stray (hv : v.Settles) : ∀ (d : Option Decl) (sc : ScopeStack) (st : σ),
    (accessorStray (accessorWalk v sc d st).1).Sublist (accessorStray d)
  | none => fun _ _ => .refl _
  | some d => fun _ _ => d.walk_stray hv _ _

theorem declsWalk_stray (hv : v.Settles) : ∀ (ds : List Decl) (sc : ScopeStack) (st : σ),
    (declsStray (declsWalk v sc ds st).1).Sublist (declsStray ds)
  | [] => fun _ _ => .refl _
  | d :: ds => fun _ _ => (d.walk_stray hv _ _).append (declsWalk_stray hv ds _ _)

end

theorem filesWalk_stray (hv : v.Settles) : ∀ (fs : List SourceFile) (st : σ),
    (filesStray (filesWalk v fs st).1).Sublist (filesStray fs)
  | [], _ => .refl _
  | f :: fs, _ => by
    rw [filesWalk, filesStray, filesStray, List.flatMap_cons, List.flatMap_cons]
    exact (declsWalk_stray hv f.declarations _ _).append (filesWalk_stray hv fs _)

end

/-! ## Blocks around a value -/

theorem stmtsStray_append (held : List VarId) : ∀ (here : List VarId) (xs ys : List Stmt),
    stmtsStray here held (xs ++ ys) =
      stmtsStray here held xs ++ stmtsStray ((xs.flatMap Stmt.binds).reverse ++ here) held ys
  | _, [], _ => rfl
  | here, stmt :: xs, ys => by
    rw [List.cons_append, stmtsStray, stmtsStray, stmtsStray_append held _ xs ys, List.append_assoc,
      List.flatMap_cons, List.reverse_append, List.append_assoc]
    cases stmt <;> rfl

/-- Statements in which nothing is read astray and nothing is bound. -/
structure Unobtrusive (stmts : List Stmt) : Prop where
  stray : ∀ here held, stmtsStray here held stmts = []
  binds : stmts.flatMap Stmt.binds = []

namespace Unobtrusive

variable {stmts : List Stmt} {x : Expr}

theorem nil : Unobtrusive [] := ⟨fun _ _ => rfl, rfl⟩

theorem cons (hx : ∀ here held, x.stray here held = []) (h : Unobtrusive stmts) :
    Unobtrusive (.expr x :: stmts) where
  stray here held := by
    rw [stmtsStray, Stmt.stray, hx, List.nil_append]
    exact h.stray _ held
  binds := h.binds

theorem stmtsStray_append (h : Unobtrusive stmts) (here held : List VarId) (rest : List Stmt) :
    stmtsStray here held (stmts ++ rest) = stmtsStray here held rest := by
  rw [TraceWeave.stmtsStray_append, h.stray, h.binds]
  rfl

theorem stmtsStray_before (h : Unobtrusive stmts) (here held : List VarId) (rest : List Stmt) :
    stmtsStray here held (rest ++ stmts) = stmtsStray here held rest := by
  rw [TraceWeave.stmtsStray_append, h.stray, List.append_nil]

/-- A block that runs hooks before it comes to its value. -/
theorem quietBlock (h : Unobtrusive stmts) (core : Expr) (span : Span) (here held : List VarId) :
    (Lowering.blockWithResult stmts core span).stray here held = core.stray [] held := by
  change stmtsStray [] held (stmts ++ [Stmt.expr core]) = _
  rw [h.stmtsStray_append]
  exact List.append_nil _

/-- A block that runs hooks before and after a value that is not kept. -/
theorem droppedBlock (h : Unobtrusive stmts) (hx : ∀ here held, x.stray here held = [])
    (core : Expr) (unitSpan span : Span) (here held : List VarId) :
    (Lowering.blockWithResult (stmts ++ [Stmt.expr core, .expr x]) (.unit unitSpan) span).stray here
      held = core.stray [] held := by
  have hbehind : Unobtrusive [.expr x, .expr (.unit unitSpan)] :=
    .cons hx (.cons (fun _ _ => rfl) .nil)
  change stmtsStray [] held
    ((stmts ++ [Stmt.expr core, .expr x]) ++ [Stmt.expr (.unit unitSpan)]) = _
  rw [List.append_assoc, h.stmtsStray_append]
  exact (hbehind.stmtsStray_before [] held [.expr core]).trans (List.append_nil _)

/-- A value that is kept in a temporary, which is read behind some statements in the same block. -/
theorem stmtsStray_temporary {between : List Stmt} (h : Unobtrusive between) (e : Expr)
    (ids : IdAllocator) (here held : List VarId) {last : Stmt}
    (hlast : ∀ here, ids.var.1 ∈ here → last.stray here held = []) :
    stmtsStray here held ((Lowering.temporary e ids).2.1 :: (between ++ [last])) =
      e.stray [] held := by
  have hread : last.stray ((Lowering.temporary e ids).2.1.binds ++ here) held = [] :=
    hlast _ List.mem_cons_self
  rw [stmtsStray, h.stmtsStray_append, stmtsStray, hread]
  exact List.append_nil _

/-- A block that keeps a value in a temporary while it runs a hook. -/
theorem keptBlock (h : Unobtrusive stmts) (hx : ∀ here held, x.stray here held = [])
    (core : Expr) (ids : IdAllocator) (span : Span) (here held : List VarId) :
    (Lowering.blockWithResult (stmts ++ [(Lowering.temporary core ids).2.1, .expr x])
      (Lowering.temporary core ids).1 span).stray here held = core.stray [] held := by
  change stmtsStray [] held ((stmts ++ [(Lowering.temporary core ids).2.1, .expr x]) ++
    [Stmt.expr (Lowering.temporary core ids).1]) = _
  rw [List.append_assoc, h.stmtsStray_append]
  exact stmtsStray_temporary (.cons hx .nil) core ids [] held fun _ hread => if_pos (.inl hread)

end Unobtrusive

/-! ## Returns that run a hook -/

section

variable {h : LeaveHook}

/-- The hook reads nothing, and a value that is kept for it is read where it is bound. -/
theorem LeaveHook.returned_stray (hcall : ∀ here held, h.call.stray here held = [])
    (target : ReturnTarget) (value : Expr) (ids : IdAllocator) (held : List VarId) :
    (h.returned target value ids).1.stray [] held = value.stray [] held := by
  unfold returned
  split
  · unfold after
    split
    · exact Unobtrusive.nil.droppedBlock hcall value _ _ [] held
    · exact Unobtrusive.nil.keptBlock hcall value ids _ [] held
  · rfl

theorem Stmt.binds_leaveReturns (stmt : Stmt) (ids : IdAllocator) :
    (stmt.leaveReturns h ids).1.binds = stmt.binds := by
  cases stmt <;> rfl

mutual

theorem Expr.leaveReturns_stray (hcall : ∀ here held, h.call.stray here held = []) :
    ∀ (e : Expr) (ids : IdAllocator) (here held : List VarId),
      (e.leaveReturns h ids).1.stray here held = e.stray here held
  | .setVar _ _ value, _, _, held => value.leaveReturns_stray hcall _ [] held
  | .call _ _ receiver _ args, _, _, held => congrArg₂ (· ++ ·)
    (optionLeaveReturns_stray hcall receiver _ held) (argsLeaveReturns_stray hcall args _ held)
  | .block _ stmts, _, _, held | .returnable _ _ stmts, _, _, held =>
    stmtsLeaveReturns_stray hcall stmts _ [] held
  | .ret _ target value, _, here, held =>
    (LeaveHook.returned_stray hcall target _ _ (here ++ held)).trans
      (value.leaveReturns_stray hcall _ [] (here ++ held))
  | .when _ branches otherwise, _, _, held => congrArg₂ (· ++ ·)
    (branchesLeaveReturns_stray hcall branches _ held)
    (optionLeaveReturns_stray hcall otherwise _ held)
  | .loop _ condition body, _, _, held => congrArg₂ (· ++ ·)
    (condition.leaveReturns_stray hcall _ [] held) (body.leaveReturns_stray hcall _ [] held)
  | .binary _ _ lhs rhs, _, _, held => congrArg₂ (· ++ ·)
    (lhs.leaveReturns_stray hcall _ [] held) (rhs.leaveReturns_stray hcall _ [] held)
  | .not _ operand, _, _, held => operand.leaveReturns_stray hcall _ [] held
  | .concat _ parts, _, _, held => exprsLeaveReturns_stray hcall parts _ held
  | .lambda _ decl, _, _, _ => decl.leaveReturns_stray hcall _
  | .const _ _, _, _, _ | .getVar _ _, _, _, _ | .functionRef _ _, _, _, _
  | .propertyRef _ _, _, _, _ | .descriptor _ _, _, _, _ | .captureFrame _ _, _, _, _ => rfl

theorem optionLeaveReturns_stray (hcall : ∀ here held, h.call.stray here held = []) :
    ∀ (e : Option Expr) (ids : IdAllocator) (held : List VarId),
      optionStray held (optionLeaveReturns h e ids).1 = optionStray held e
  | none, _, _ => rfl
  | some e, _, held => e.leaveReturns_stray hcall _ [] held

theorem argsLeaveReturns_stray (hcall : ∀ here held, h.call.stray here held = []) :
    ∀ (args : List (Option Expr)) (ids : IdAllocator) (held : List VarId),
      argsStray held (argsLeaveReturns h args ids).1 = argsStray held args
  | [], _, _ => rfl
  | none :: args, _, held => argsLeaveReturns_stray hcall args _ held
  | some e :: args, _, held => congrArg₂ (· ++ ·) (e.leaveReturns_stray hcall _ [] held)
    (argsLeaveReturns_stray hcall args _ held)

theorem exprsLeaveReturns_stray (hcall : ∀ here held, h.call.stray here held = []) :
    ∀ (es : List Expr) (ids : IdAllocator) (held : List VarId),
      exprsStray held (exprsLeaveReturns h es ids).1 = exprsStray held es
  | [], _, _ => rfl
  | e :: es, _, held => congrArg₂ (· ++ ·) (e.leaveReturns_stray hcall _ [] held)
    (exprsLeaveReturns_stray hcall es _ held)

theorem branchesLeaveReturns_stray (hcall : ∀ here held, h.call.stray here held = []) :
    ∀ (branches : List (Expr × Expr)) (ids : IdAllocator) (held : List VarId),
      branchesStray held (branchesLeaveReturns h branches ids).1 = branchesStray held branches
  | [], _, _ => rfl
  | (condition, result) :: branches, _, held => congrArg₂ (· ++ ·)
    (congrArg₂ (· ++ ·) (condition.leaveReturns_stray hcall _ [] held)
      (result.leaveReturns_stray hcall _ [] held))
    (branchesLeaveReturns_stray hcall branches _ held)

theorem stmtsLeaveReturns_stray (hcall : ∀ here held, h.call.stray here held = []) :
    ∀ (stmts : List Stmt) (ids : IdAllocator) (here held : List VarId),
      stmtsStray here held (stmtsLeaveReturns h stmts ids).1 = stmtsStray here held stmts
  | [], _, _, _ => rfl
  | stmt :: stmts, ids, here, held => by
    rw [stmtsLeaveReturns, stmtsStray, stmtsStray, stmt.leaveReturns_stray hcall ids here held,
      stmt.binds_leaveReturns, stmtsLeaveReturns_stray hcall stmts]

theorem Stmt.leaveReturns_stray (hcall : ∀ here held, h.call.stray here held = []) :
    ∀ (stmt : Stmt) (ids : IdAllocator) (here held : List VarId),
      (stmt.leaveReturns h ids).1.stray here held = stmt.stray here held
  | .expr e, _, here, held => e.leaveReturns_stray hcall _ here held
  | .var _ init, _, _, held => optionLeaveReturns_stray hcall init _ held
  | .decl d, _, _, _ => d.leaveReturns_stray hcall _

theorem Body.leaveReturns_stray (hcall : ∀ here held, h.call.stray here held = []) :
    ∀ (body : Body) (ids : IdAllocator), (body.leaveReturns h ids).1.stray = body.stray
  | .absent, _ => rfl
  | .block stmts, _ => stmtsLeaveReturns_stray hcall stmts _ [] []
  | .expression e, _ => e.leaveReturns_stray hcall _ [] []

theorem Decl.leaveReturns_stray (hcall : ∀ here held, h.call.stray here held = []) :
    ∀ (d : Decl) (ids : IdAllocator), (d.leaveReturns h ids).1.stray = d.stray
  | .function _ _ params body, _ =>
    congrArg (paramsStray params ++ ·) (body.leaveReturns_stray hcall _)
  | .classDecl _ _ members, _ => declsLeaveReturns_stray hcall members _
  | .property _ _ _ _ _, _ | .field _ _ _, _ | .initializer _ _, _ => rfl

theorem declsLeaveReturns_stray (hcall : ∀ here held, h.call.stray here held = []) :
    ∀ (ds : List Decl) (ids : IdAllocator), declsStray (declsLeaveReturns h ds ids).1 = declsStray ds
  | [], _ => rfl
  | d :: ds, _ => congrArg₂ (· ++ ·) (d.leaveReturns_stray hcall _)
    (declsLeaveReturns_stray hcall ds _)

end

end

/-! ## Instrumentation -/

open Tracing

variable {env : PassEnv}

/-- A hook call reads nothing. -/
theorem Tracing.Tells.stray {ev : TraceEvent} {x : Expr} (h : Tells env ev x)
    (here held : List VarId) : x.stray here held = [] := by
  obtain ⟨id, span, -, rfl⟩ := h
  cases ev <;> rfl

theorem Tracing.TellsAll.unobtrusive {evs : List TraceEvent} {stmts : List Stmt}
    (h : TellsAll env evs stmts) : Unobtrusive stmts := by
  induction h with
  | nil => exact .nil
  | cons h _ ih =>
    obtain ⟨x, rfl, hx⟩ := h
    exact .cons hx.stray ih

namespace Instrument

theorem TellsOption.stray {ev : Option TraceEvent} {hook : Option Expr}
    (h : TellsOption env ev hook) : ∀ x, hook = some x → ∀ here held, x.stray here held = [] := by
  rintro x rfl
  cases h with
  | some htells => exact htells.stray

variable {st : PassState} {hooks : BodyHooks}

/-- Hook calls for a body in which nothing is read. -/
structure ReadNothing (hooks : BodyHooks) : Prop where
  enter : Unobtrusive (hookStmts hooks.enter)
  leave : ∀ x, hooks.leave = some x → ∀ here held, x.stray here held = []

theorem wrapCall_stray {c : CallSite} {evs : List TraceEvent} (hbefore : TellsAll env evs c.before)
    {e e' : Expr} {st' : PassState} (h : (wrapCall env c e).runOn st = (.ok e', st'))
    (here held : List VarId) : e'.stray here held = e.stray [] held := by
  have hstmts := hbefore.unobtrusive
  unfold wrapCall at h
  split at h
  · obtain ⟨x, st₁, hhook, h⟩ := Build.of_bind h
    obtain ⟨-, htells⟩ := of_siteHook siteEvents_afterCall hhook
    obtain ⟨ev, -, hx⟩ := htells st₁.store (.refl _)
    split at h
    · obtain ⟨rfl, -⟩ := Build.of_pure h
      exact hstmts.droppedBlock hx.stray e _ _ here held
    · cases h
      exact hstmts.keptBlock hx.stray e st₁.ids _ here held
  · obtain ⟨rfl, -⟩ := Build.of_pure h
    exact hstmts.quietBlock e _ here held

/-- A call that is wrapped has no new stray reads, and one that is lost has none. -/
theorem instrumentCall_stray (env : PassEnv) (sc : ScopeStack) (e : Expr) (st : PassState)
    (here held : List VarId) :
    ((instrumentCall env sc e st).1.stray here held).Sublist (e.stray here held) := by
  cases e with
  | call site callee receiver typeArgs args =>
    rw [instrumentCall]
    rcases hprepare : (prepareCall env sc site callee).runOn st with ⟨err | none | c, st'⟩
    · exact .refl _
    · exact .refl _
    · have hbefore := ((of_prepareCall hprepare).2 st'.store (.refl _)).1.1
      dsimp only
      rcases hwrap : (wrapCall env c (.call site callee receiver typeArgs args)).runOn st' with
        ⟨err | e', st''⟩
      · exact List.nil_sublist _
      · dsimp only
        rw [wrapCall_stray hbefore hwrap here held]
        exact .refl _
  | _ => exact .refl _

/-- A block body that gets hooks. -/
theorem wrapBlock_stray (hhooks : ReadNothing hooks) (id : DeclId) (returnTy : Ty)
    (stmts : List Stmt) (ids : IdAllocator) :
    stmtsStray [] [] (wrapBlock id returnTy hooks stmts ids).1 = stmtsStray [] [] stmts := by
  unfold wrapBlock
  split
  · exact hhooks.enter.stmtsStray_append [] [] stmts
  · rename_i leave hleave
    have hcall := hhooks.leave leave hleave
    have hreturns := stmtsLeaveReturns_stray (h := ⟨id, leave⟩) hcall stmts ids [] []
    dsimp only
    rw [List.append_assoc, hhooks.enter.stmtsStray_append]
    split
    · exact ((Unobtrusive.nil.cons hcall).stmtsStray_before [] [] _).trans hreturns
    · rw [List.append_nil]
      exact hreturns

/-- An expression body that becomes a block, in which its value is read. -/
theorem wrapExpression_stray (hhooks : ReadNothing hooks) (id : DeclId) (returnTy : Ty)
    (e : Expr) (ids : IdAllocator) :
    stmtsStray [] [] (wrapExpression id returnTy hooks e ids).1 = e.stray [] [] := by
  unfold wrapExpression
  split
  · rename_i leave hleave
    have hcall := hhooks.leave leave hleave
    have hreturns := e.leaveReturns_stray (h := ⟨id, leave⟩) hcall ids [] []
    rw [← hreturns]
    generalize e.leaveReturns ⟨id, leave⟩ ids = left
    obtain ⟨e, ids⟩ := left
    dsimp only
    split
    · rw [hhooks.enter.stmtsStray_append]
      exact List.append_nil _
    · split
      · rw [hhooks.enter.stmtsStray_append]
        exact ((Unobtrusive.nil.cons hcall).stmtsStray_before [] [] [.expr e]).trans
          (List.append_nil _)
      · rw [hhooks.enter.stmtsStray_append]
        -- the return holds what the block has bound
        exact Unobtrusive.stmtsStray_temporary (.cons hcall .nil) e ids [] [] fun here hread =>
          if_pos (.inr (List.mem_append_left [] hread))
  · split <;> rw [hhooks.enter.stmtsStray_append] <;> exact List.append_nil _

/-- A body that gets hooks has no new stray reads. -/
theorem instrumentBody_stray (env : PassEnv) (sc : ScopeStack) (d : Decl) (st : PassState) :
    (instrumentBody env sc d st).1.stray = d.stray := by
  unfold instrumentBody
  split
  · rename_i head info params body
    split
    · rfl
    · rename_i hpresent
      have htraceable : isTraceable head body := by simpa [isTraceable] using hpresent
      rcases hprepare : (prepareBody env sc head).runOn st with ⟨err | none | hooks, st'⟩
      · rfl
      · rfl
      · obtain ⟨-, hprepared⟩ := of_prepareBody htraceable hprepare
        obtain ⟨henter, hleave, -⟩ := (hprepared st'.store (.refl _)).1
        have hhooks : ReadNothing hooks := ⟨henter.hookStmts.unobtrusive, hleave.stray⟩
        refine congrArg (paramsStray params ++ ·) ?_
        cases body with
        | absent => rfl
        | block stmts => exact wrapBlock_stray hhooks head.id info.returnTy stmts st'.ids
        | expression e => exact wrapExpression_stray hhooks head.id info.returnTy e st'.ids
  · rfl

theorem instrumenter_settles (env : PassEnv) : (instrumenter env).Settles where
  onExpr sc place e st here held := by
    change ((PassState.edit (instrumentCall env sc) e st).1.stray here held).Sublist _
    unfold PassState.edit
    split
    · exact .refl _
    · exact instrumentCall_stray env sc e st here held
  onDecl sc d st := by
    change (PassState.edit (instrumentBody env sc) d st).1.stray.Sublist _
    unfold PassState.edit
    split
    · exact .refl _
    · rw [instrumentBody_stray]

/-- A run, failed or not, brings in no stray reads. -/
theorem run_stray (env : PassEnv) (m : Module) (store : Store) :
    (run env m store).module.stray.Sublist m.stray :=
  (filesWalk_stray (instrumenter_settles env) m.files _).append (.refl _)

end Instrument

end TraceWeave

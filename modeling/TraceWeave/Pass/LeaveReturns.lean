import TraceWeave.Program.Lowering

/-! # Leaving through a return

Every `return` that leaves a function runs the leave hook after its value is computed. The
returns of nested functions that leave the outer one count, those in defaults of parameters and in
local properties do not.

`Body.leaveReturns` rewrites a body, by one function for each kind of node; `LeaveHook.returned`
is what one `return` becomes.
-/

namespace TraceWeave

/-- The function whose returns are changed, and the hook call that they run. -/
structure LeaveHook where
  target : DeclId
  call : Expr

namespace LeaveHook

/-- The value, and the hook call after it: through a temporary, unless there is no value to
keep. -/
def after (h : LeaveHook) (value : Expr) (ids : IdAllocator) : Expr × IdAllocator :=
  if value.ty.isTrivial then
    (Lowering.blockWithResult [.expr value, .expr h.call] (.unit value.span.toSynthetic) value.span,
      ids)
  else
    let (read, binding, ids) := Lowering.temporary value ids
    (Lowering.blockWithResult [binding, .expr h.call] read value.span, ids)

/-- The value of a `return`, with the hook call if the function is left here. -/
def returned (h : LeaveHook) (target : ReturnTarget) (value : Expr) (ids : IdAllocator) :
    Expr × IdAllocator :=
  if target = .function h.target ∧ ¬value.ty.isNothing then h.after value ids else (value, ids)

end LeaveHook

mutual

def Expr.leaveReturns (h : LeaveHook) : Expr → IdAllocator → Expr × IdAllocator
  | .setVar s var value, ids =>
    let (value, ids) := value.leaveReturns h ids
    (.setVar s var value, ids)
  | .call s callee receiver typeArgs args, ids =>
    let (receiver, ids) := optionLeaveReturns h receiver ids
    let (args, ids) := argsLeaveReturns h args ids
    (.call s callee receiver typeArgs args, ids)
  | .block s stmts, ids =>
    let (stmts, ids) := stmtsLeaveReturns h stmts ids
    (.block s stmts, ids)
  | .returnable s id stmts, ids =>
    let (stmts, ids) := stmtsLeaveReturns h stmts ids
    (.returnable s id stmts, ids)
  | .ret s target value, ids =>
    let (value, ids) := value.leaveReturns h ids
    let (value, ids) := h.returned target value ids
    (.ret s target value, ids)
  | .when s branches otherwise, ids =>
    let (branches, ids) := branchesLeaveReturns h branches ids
    let (otherwise, ids) := optionLeaveReturns h otherwise ids
    (.when s branches otherwise, ids)
  | .loop s condition body, ids =>
    let (condition, ids) := condition.leaveReturns h ids
    let (body, ids) := body.leaveReturns h ids
    (.loop s condition body, ids)
  | .binary s op lhs rhs, ids =>
    let (lhs, ids) := lhs.leaveReturns h ids
    let (rhs, ids) := rhs.leaveReturns h ids
    (.binary s op lhs rhs, ids)
  | .not s operand, ids =>
    let (operand, ids) := operand.leaveReturns h ids
    (.not s operand, ids)
  | .concat s parts, ids =>
    let (parts, ids) := exprsLeaveReturns h parts ids
    (.concat s parts, ids)
  | .lambda s decl, ids =>
    let (decl, ids) := decl.leaveReturns h ids
    (.lambda s decl, ids)
  | .const s value, ids => (.const s value, ids)
  | .getVar s var, ids => (.getVar s var, ids)
  | .functionRef s id, ids => (.functionRef s id, ids)
  | .propertyRef s id, ids => (.propertyRef s id, ids)
  | .descriptor s ref, ids => (.descriptor s ref, ids)
  | .captureFrame s capture, ids => (.captureFrame s capture, ids)

def optionLeaveReturns (h : LeaveHook) : Option Expr → IdAllocator → Option Expr × IdAllocator
  | none, ids => (none, ids)
  | some e, ids =>
    let (e, ids) := e.leaveReturns h ids
    (some e, ids)

def argsLeaveReturns (h : LeaveHook) :
    List (Option Expr) → IdAllocator → List (Option Expr) × IdAllocator
  | [], ids => ([], ids)
  | none :: args, ids =>
    let (args, ids) := argsLeaveReturns h args ids
    (none :: args, ids)
  | some e :: args, ids =>
    let (e, ids) := e.leaveReturns h ids
    let (args, ids) := argsLeaveReturns h args ids
    (some e :: args, ids)

def exprsLeaveReturns (h : LeaveHook) : List Expr → IdAllocator → List Expr × IdAllocator
  | [], ids => ([], ids)
  | e :: es, ids =>
    let (e, ids) := e.leaveReturns h ids
    let (es, ids) := exprsLeaveReturns h es ids
    (e :: es, ids)

def branchesLeaveReturns (h : LeaveHook) :
    List (Expr × Expr) → IdAllocator → List (Expr × Expr) × IdAllocator
  | [], ids => ([], ids)
  | (condition, result) :: branches, ids =>
    let (condition, ids) := condition.leaveReturns h ids
    let (result, ids) := result.leaveReturns h ids
    let (branches, ids) := branchesLeaveReturns h branches ids
    ((condition, result) :: branches, ids)

def stmtsLeaveReturns (h : LeaveHook) : List Stmt → IdAllocator → List Stmt × IdAllocator
  | [], ids => ([], ids)
  | stmt :: stmts, ids =>
    let (stmt, ids) := stmt.leaveReturns h ids
    let (stmts, ids) := stmtsLeaveReturns h stmts ids
    (stmt :: stmts, ids)

def Stmt.leaveReturns (h : LeaveHook) : Stmt → IdAllocator → Stmt × IdAllocator
  | .expr e, ids =>
    let (e, ids) := e.leaveReturns h ids
    (.expr e, ids)
  | .var head init, ids =>
    let (init, ids) := optionLeaveReturns h init ids
    (.var head init, ids)
  | .decl d, ids =>
    let (d, ids) := d.leaveReturns h ids
    (.decl d, ids)

def Body.leaveReturns (h : LeaveHook) : Body → IdAllocator → Body × IdAllocator
  | .absent, ids => (.absent, ids)
  | .block stmts, ids =>
    let (stmts, ids) := stmtsLeaveReturns h stmts ids
    (.block stmts, ids)
  | .expression e, ids =>
    let (e, ids) := e.leaveReturns h ids
    (.expression e, ids)

def Decl.leaveReturns (h : LeaveHook) : Decl → IdAllocator → Decl × IdAllocator
  | .function head info params body, ids =>
    let (body, ids) := body.leaveReturns h ids
    (.function head info params body, ids)
  | .classDecl head info members, ids =>
    let (members, ids) := declsLeaveReturns h members ids
    (.classDecl head info members, ids)
  | .property head info backing getter setter, ids =>
    (.property head info backing getter setter, ids)
  | .field head info init, ids => (.field head info init, ids)
  | .initializer head body, ids => (.initializer head body, ids)

def declsLeaveReturns (h : LeaveHook) : List Decl → IdAllocator → List Decl × IdAllocator
  | [], ids => ([], ids)
  | d :: ds, ids =>
    let (d, ids) := d.leaveReturns h ids
    let (ds, ids) := declsLeaveReturns h ds ids
    (d :: ds, ids)

end

end TraceWeave

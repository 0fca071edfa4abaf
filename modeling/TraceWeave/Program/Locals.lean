import TraceWeave.Program.Tree

/-! # Local variables

The variables that code declares, outside of the declarations nested in it. A variable comes
before those of its initial value.

`Body.locals` and `Expr.locals`, by one function for each kind of node.
-/

namespace TraceWeave

mutual

def Expr.locals : Expr → List VarHead
  | .setVar _ _ value => value.locals
  | .call _ _ receiver _ args => optionLocals receiver ++ argsLocals args
  | .block _ stmts => stmtsLocals stmts
  | .returnable _ _ stmts => stmtsLocals stmts
  | .ret _ _ value => value.locals
  | .when _ branches otherwise => branchesLocals branches ++ optionLocals otherwise
  | .loop _ condition body => condition.locals ++ body.locals
  | .binary _ _ lhs rhs => lhs.locals ++ rhs.locals
  | .not _ operand => operand.locals
  | .concat _ parts => exprsLocals parts
  | .lambda _ _ | .const _ _ | .getVar _ _ | .functionRef _ _ | .propertyRef _ _
  | .descriptor _ _ | .captureFrame _ _ => []

def optionLocals : Option Expr → List VarHead
  | none => []
  | some e => e.locals

def argsLocals : List (Option Expr) → List VarHead
  | [] => []
  | none :: args => argsLocals args
  | some e :: args => e.locals ++ argsLocals args

def exprsLocals : List Expr → List VarHead
  | [] => []
  | e :: es => e.locals ++ exprsLocals es

def branchesLocals : List (Expr × Expr) → List VarHead
  | [] => []
  | (condition, result) :: branches => condition.locals ++ result.locals ++ branchesLocals branches

def stmtsLocals : List Stmt → List VarHead
  | [] => []
  | stmt :: stmts => stmt.locals ++ stmtsLocals stmts

def Stmt.locals : Stmt → List VarHead
  | .expr e => e.locals
  | .var head init => head :: optionLocals init
  | .decl _ => []

end

/-- The variables that a function body declares. -/
def Body.locals : Body → List VarHead
  | .absent => []
  | .block stmts => stmtsLocals stmts
  | .expression e => e.locals

end TraceWeave

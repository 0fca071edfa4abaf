import TraceWeave.Program.Tree

/-! # The calls in code

The calls that the code of a function makes itself. Declarations that are nested in it have code of
their own, and their calls do not count.

`Expr.calls` and `Decl.calls` list them by recursion, `CallsOnly` says that each is one of those
that are allowed.
-/

namespace TraceWeave

/-- The function that a call calls. -/
def Expr.callee? : Expr → Option DeclId
  | .call _ callee _ _ _ => some callee
  | _ => none

mutual

/-- The calls in an expression: where they stand and what they call. -/
def Expr.calls : Expr → List (Site × DeclId)
  | .setVar _ _ value => value.calls
  | .call s callee receiver _ args => (s, callee) :: (optionCalls receiver ++ argsCalls args)
  | .block _ stmts => stmtsCalls stmts
  | .returnable _ _ stmts => stmtsCalls stmts
  | .ret _ _ value => value.calls
  | .when _ branches otherwise => branchesCalls branches ++ optionCalls otherwise
  | .loop _ condition body => condition.calls ++ body.calls
  | .binary _ _ lhs rhs => lhs.calls ++ rhs.calls
  | .not _ operand => operand.calls
  | .concat _ parts => exprsCalls parts
  | .const _ _ | .getVar _ _ | .functionRef _ _ | .propertyRef _ _ | .lambda _ _
  | .descriptor _ _ | .captureFrame _ _ => []

def optionCalls : Option Expr → List (Site × DeclId)
  | none => []
  | some e => e.calls

def argsCalls : List (Option Expr) → List (Site × DeclId)
  | [] => []
  | none :: args => argsCalls args
  | some e :: args => e.calls ++ argsCalls args

def exprsCalls : List Expr → List (Site × DeclId)
  | [] => []
  | e :: es => e.calls ++ exprsCalls es

def branchesCalls : List (Expr × Expr) → List (Site × DeclId)
  | [] => []
  | (condition, result) :: branches => condition.calls ++ result.calls ++ branchesCalls branches

def stmtsCalls : List Stmt → List (Site × DeclId)
  | [] => []
  | stmt :: stmts => stmt.calls ++ stmtsCalls stmts

def Stmt.calls : Stmt → List (Site × DeclId)
  | .expr e => e.calls
  | .var _ init => optionCalls init
  | .decl _ => []

end

def paramsCalls : List Param → List (Site × DeclId)
  | [] => []
  | ⟨_, default⟩ :: params => optionCalls default ++ paramsCalls params

def Body.calls : Body → List (Site × DeclId)
  | .absent => []
  | .block stmts => stmtsCalls stmts
  | .expression e => e.calls

/-- The calls that a function makes: in the default values of its parameters and in its body. -/
def Decl.calls : Decl → List (Site × DeclId)
  | .function _ _ params body => paramsCalls params ++ body.calls
  | _ => []

/-- Every call among some is an allowed one. -/
def CallsOnly (allowed : Site → DeclId → Prop) (calls : List (Site × DeclId)) : Prop :=
  ∀ call ∈ calls, allowed call.1 call.2

namespace CallsOnly

variable {allowed : Site → DeclId → Prop} {xs ys : List (Site × DeclId)}

theorem append_iff : CallsOnly allowed (xs ++ ys) ↔ CallsOnly allowed xs ∧ CallsOnly allowed ys :=
  List.forall_mem_append

theorem cons_iff {call : Site × DeclId} :
    CallsOnly allowed (call :: ys) ↔ allowed call.1 call.2 ∧ CallsOnly allowed ys :=
  List.forall_mem_cons

end CallsOnly

end TraceWeave

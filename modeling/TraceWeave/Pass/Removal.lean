import TraceWeave.Pass.Active

/-! # Trace removal

Span and event calls whose type is not active where they stand are taken out. A first look
schedules them and fails if one stands where it cannot be taken out; only then they are deleted
from lists of statements, or blanked where they are the whole body of a function.

`Removal.run` is the pass, `Removal.search` its first look and `Removal.filesPrune` the deletion.
`Removal.userCall?` recognises the calls, `Removal.fixedContainer?` the places that a call cannot
be taken out of.
-/

namespace TraceWeave

/-- What a scheduled call is known by. -/
structure CallKey where
  owner : Option DeclId
  span : Span
  callee : DeclId
  deriving DecidableEq, Inhabited

namespace Removal

/-- What the first look has found. -/
structure Search where
  scheduled : List CallKey := []
  failure : Option Error := none
  deriving Inhabited

/-- Whether the innermost declaration is a lambda, whose expression body is its value. -/
def inLambda (env : PassEnv) (sc : ScopeStack) : Bool :=
  match sc.innermostDecl?.bind env.symbols.function? with
  | some (_, info) => info.head.kind == .lambda
  | none => false

/-- The place that a call cannot be taken out of, if it is one. -/
def fixedContainer? (env : PassEnv) (sc : ScopeStack) : Place → Option String
  | .statement => none
  | .expressionBody => if inLambda env sc then some "a lambda expression body" else none
  | place => some place.name

/-- The trace type of a user's trace call. -/
def userCall? (env : PassEnv) (callee : DeclId) : Option TraceType :=
  (env.linkage.hookKind? callee).filter TraceType.isUserCall

/-- Schedules a trace call that is not active. -/
def schedule (env : PassEnv) (sc : ScopeStack) (place : Place) (e : Expr) (found : Search) :
    Search :=
  match e with
  | .call s callee _ _ _ =>
    match userCall? env callee with
    | none => found
    | some ty =>
      match activeTypes env sc with
      | .error err => { found with failure := some err }
      | .ok active =>
        if active.has ty then found
        else
          match fixedContainer? env sc place with
          | some container =>
            { found with
              failure := some (.unsupportedContainer (env.options.tracing.hooks.get ty) container
                s.span) }
          | none =>
            { found with scheduled := ⟨sc.innermostDecl?, s.span, callee⟩ :: found.scheduled }
  | _ => found

/-- The first look; it ends at its first failure. -/
def searcher (env : PassEnv) : Visitor Search where
  onExpr sc place e found :=
    (e, if found.failure.isSome then found else schedule env sc place e found)

/-- Whether an expression is a scheduled call of an owner. -/
def isScheduled (keys : List CallKey) (owner : Option DeclId) : Expr → Bool
  | .call s callee _ _ _ => keys.contains ⟨owner, s.span, callee⟩
  | _ => false

/-- Whether a statement is a scheduled call of an owner. -/
def isScheduledStmt (keys : List CallKey) (owner : Option DeclId) : Stmt → Bool
  | .expr e => isScheduled keys owner e
  | _ => false

mutual

/-- An expression without the scheduled calls in its blocks, and how many were taken out. -/
def exprPrune (keys : List CallKey) (owner : Option DeclId) : Expr → Expr × Nat
  | .setVar s var value =>
    let (value, n) := exprPrune keys owner value
    (.setVar s var value, n)
  | .call s callee receiver typeArgs args =>
    let (receiver, m) := optionPrune keys owner receiver
    let (args, n) := argsPrune keys owner args
    (.call s callee receiver typeArgs args, m + n)
  | .block s stmts =>
    let (stmts, n) := stmtsPrune keys owner stmts
    (.block s stmts, n)
  | .returnable s id stmts =>
    let (stmts, n) := stmtsPrune keys owner stmts
    (.returnable s id stmts, n)
  | .ret s target value =>
    let (value, n) := exprPrune keys owner value
    (.ret s target value, n)
  | .when s branches otherwise =>
    let (branches, m) := branchesPrune keys owner branches
    let (otherwise, n) := optionPrune keys owner otherwise
    (.when s branches otherwise, m + n)
  | .loop s condition body =>
    let (condition, m) := exprPrune keys owner condition
    let (body, n) := exprPrune keys owner body
    (.loop s condition body, m + n)
  | .binary s op lhs rhs =>
    let (lhs, m) := exprPrune keys owner lhs
    let (rhs, n) := exprPrune keys owner rhs
    (.binary s op lhs rhs, m + n)
  | .not s operand =>
    let (operand, n) := exprPrune keys owner operand
    (.not s operand, n)
  | .concat s parts =>
    let (parts, n) := exprsPrune keys owner parts
    (.concat s parts, n)
  | .lambda s decl =>
    let (decl, n) := declPrune keys owner decl
    (.lambda s decl, n)
  | .const s value => (.const s value, 0)
  | .getVar s var => (.getVar s var, 0)
  | .functionRef s id => (.functionRef s id, 0)
  | .propertyRef s id => (.propertyRef s id, 0)
  | .descriptor s ref => (.descriptor s ref, 0)
  | .captureFrame s capture => (.captureFrame s capture, 0)

def optionPrune (keys : List CallKey) (owner : Option DeclId) : Option Expr → Option Expr × Nat
  | none => (none, 0)
  | some e =>
    let (e, n) := exprPrune keys owner e
    (some e, n)

def argsPrune (keys : List CallKey) (owner : Option DeclId) :
    List (Option Expr) → List (Option Expr) × Nat
  | [] => ([], 0)
  | none :: args =>
    let (args, n) := argsPrune keys owner args
    (none :: args, n)
  | some e :: args =>
    let (e, m) := exprPrune keys owner e
    let (args, n) := argsPrune keys owner args
    (some e :: args, m + n)

def exprsPrune (keys : List CallKey) (owner : Option DeclId) : List Expr → List Expr × Nat
  | [] => ([], 0)
  | e :: es =>
    let (e, m) := exprPrune keys owner e
    let (es, n) := exprsPrune keys owner es
    (e :: es, m + n)

def branchesPrune (keys : List CallKey) (owner : Option DeclId) :
    List (Expr × Expr) → List (Expr × Expr) × Nat
  | [] => ([], 0)
  | (condition, result) :: branches =>
    let (condition, l) := exprPrune keys owner condition
    let (result, m) := exprPrune keys owner result
    let (branches, n) := branchesPrune keys owner branches
    ((condition, result) :: branches, l + m + n)

/-- Statements without the scheduled calls among them. -/
def stmtsPrune (keys : List CallKey) (owner : Option DeclId) : List Stmt → List Stmt × Nat
  | [] => ([], 0)
  | stmt :: stmts =>
    if isScheduledStmt keys owner stmt then
      let (stmts, n) := stmtsPrune keys owner stmts
      (stmts, n + 1)
    else
      let (stmt, m) := stmtPrune keys owner stmt
      let (stmts, n) := stmtsPrune keys owner stmts
      (stmt :: stmts, m + n)

def stmtPrune (keys : List CallKey) (owner : Option DeclId) : Stmt → Stmt × Nat
  | .expr e =>
    let (e, n) := exprPrune keys owner e
    (.expr e, n)
  | .var head init =>
    let (init, n) := optionPrune keys owner init
    (.var head init, n)
  | .decl d =>
    let (d, n) := declPrune keys owner d
    (.decl d, n)

def paramsPrune (keys : List CallKey) (owner : Option DeclId) : List Param → List Param × Nat
  | [] => ([], 0)
  | ⟨head, default⟩ :: params =>
    let (default, m) := optionPrune keys owner default
    let (params, n) := paramsPrune keys owner params
    (⟨head, default⟩ :: params, m + n)

/-- A function body; a body that is a scheduled call as a whole becomes a constant. -/
def bodyPrune (keys : List CallKey) (owner : Option DeclId) : Body → Body × Nat
  | .absent => (.absent, 0)
  | .block stmts =>
    let (stmts, n) := stmtsPrune keys owner stmts
    (.block stmts, n)
  | .expression e =>
    if isScheduled keys owner e then (.expression (.unit e.span.toSynthetic), 1)
    else
      let (e, n) := exprPrune keys owner e
      (.expression e, n)

def declPrune (keys : List CallKey) (owner : Option DeclId) : Decl → Decl × Nat
  | .classDecl head info members =>
    let (members, n) := declsPrune keys (some head.id) members
    (.classDecl head info members, n)
  | .function head info params body =>
    let (params, m) := paramsPrune keys (some head.id) params
    let (body, n) := bodyPrune keys (some head.id) body
    (.function head info params body, m + n)
  | .property head info backing getter setter =>
    let (backing, l) := accessorPrune keys owner backing
    let (getter, m) := accessorPrune keys owner getter
    let (setter, n) := accessorPrune keys owner setter
    (.property head info backing getter setter, l + m + n)
  | .field head info init =>
    let (init, n) := optionPrune keys (some head.id) init
    (.field head info init, n)
  | .initializer head body =>
    let (body, n) := stmtsPrune keys (some head.id) body
    (.initializer head body, n)

def accessorPrune (keys : List CallKey) (owner : Option DeclId) : Option Decl → Option Decl × Nat
  | none => (none, 0)
  | some d =>
    let (d, n) := declPrune keys owner d
    (some d, n)

def declsPrune (keys : List CallKey) (owner : Option DeclId) : List Decl → List Decl × Nat
  | [] => ([], 0)
  | d :: ds =>
    let (d, m) := declPrune keys owner d
    let (ds, n) := declsPrune keys owner ds
    (d :: ds, m + n)

end

/-- Files without the scheduled calls in them. -/
def filesPrune (keys : List CallKey) : List SourceFile → List SourceFile × Nat
  | [] => ([], 0)
  | f :: fs =>
    let (declarations, m) := declsPrune keys none f.declarations
    let (fs, n) := filesPrune keys fs
    ({ f with declarations } :: fs, m + n)

/-- The calls of a module that are to be taken out, or why one of them cannot be. -/
def search (env : PassEnv) (m : Module) : Except Error (List CallKey) :=
  let found := (filesWalk (searcher env) m.files {}).2
  match found.failure with
  | some e => .error e
  | none => .ok found.scheduled

/-- Takes the inactive trace calls out of a module, or leaves it as it is. -/
def run (env : PassEnv) (m : Module) : Except Error (Module × Nat) := do
  let keys ← search env m
  let (files, removed) := filesPrune keys m.files
  return ({ m with files }, removed)

end Removal

end TraceWeave

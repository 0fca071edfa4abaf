import TraceWeave.Eval.Machine
import TraceWeave.Eval.Operators
import TraceWeave.Program.Nodes
import TraceWeave.Program.Symbols

/-! # Running programs

Evaluation of expressions. A `return` unwinds to the function or block that it leaves. What an
expression does is said by recursion on the expression; a call goes through the `Activation` that
the code is evaluated in, and activations are nested at most `maxCallDepth` deep. So the only thing
that may go on forever is a loop, and a run is given a bound on the rounds of each loop.

`Expr.eval` and its companions evaluate code inside an `Activation`; `Interpreter.callWithin`
calls a function within a bound on rounds and on depth, and `Interpreter.call` is the call from
outside. An `Observer` stands around expressions, returned values and bodies; the one that a
program runs with by default does nothing.
-/

namespace TraceWeave

/-- What an expression comes to: a value, or a `return` that unwinds to its target. -/
inductive Flow where
  | value (v : Value)
  | ret (target : ReturnTarget) (v : Value)
  deriving Inhabited

/-- What stands around the evaluations of a run. By default nothing does. -/
structure Observer where
  /-- Around an expression in the code of a function. -/
  expr : DeclId → Expr → Eval Flow → Eval Flow := fun _ _ step => step
  /-- Around the value that a `return` in the code of a function hands over. -/
  returned : DeclId → ReturnTarget → Expr → Eval Flow → Eval Flow := fun _ _ _ step => step
  /-- Around the body of a function. -/
  body : DeclId → Eval Flow → Eval Flow := fun _ step => step

instance : Inhabited Observer := ⟨{}⟩

/-- What the code of a function is evaluated in. -/
structure Activation where
  /-- The function whose code it is. -/
  function : DeclId
  /-- How many rounds a loop can take. -/
  rounds : Nat
  observer : Observer := {}
  /-- Calls a function with the arguments that are given. -/
  call : DeclId → List (Option Value) → Span → Eval Value

/-- A program that is ready to run. -/
structure Interpreter where
  /-- The declarations, the last in node order first. -/
  decls : List (DeclId × Decl)
  symbols : SymbolTable
  hosts : HostTable := []
  observer : Observer := {}
  deriving Inhabited

namespace Interpreter

/-- The declarations of a module by identity. -/
def declIndex (m : Module) : List (DeclId × Decl) :=
  (m.nodes.filterMap fun
    | .decl d => some (d.id, d)
    | _ => none).reverse

def ofModule (m : Module) (hosts : HostTable) : Interpreter :=
  { decls := declIndex m, symbols := SymbolTable.build m, hosts }

def decl? (p : Interpreter) (id : DeclId) : Option Decl := p.decls.lookup id

/-- How many function activations there can be. -/
def maxCallDepth : Nat := 512

/-- How a target is written in messages. -/
def targetText : ReturnTarget → String
  | .function id => s!"Function(DeclId({id.val}))"
  | .block id => s!"Block(BlockId({id.val}))"

/-! ## What the kinds of expressions do with their parts -/

/-- Goes on with a value; a `return` ends the expression around it. -/
@[always_inline, inline]
def withValue (step : Eval Flow) (next : Value → Eval Flow) : Eval Flow :=
  Eval.andThen step fun
    | .value v => next v
    | .ret target v => Eval.yield (.ret target v)

/-- Goes on with a truth value. -/
@[always_inline, inline]
def withBool (step : Eval Flow) (next : Bool → Eval Flow) : Eval Flow :=
  withValue step fun v => Eval.andThen (Eval.ofExcept v.asBool) next

/-- Reads a variable. -/
def evalGet (site : Site) (var : VarId) : Eval Flow :=
  Eval.andThen Eval.frame fun f =>
    match f.find? var with
    | some v => Eval.yield (.value v)
    | none => Eval.refuseAt s!"read of unbound variable {var.text}" site.span

/-- Overwrites a variable. -/
def evalSet (site : Site) (var : VarId) (v : Value) : Eval Flow :=
  Eval.andThen Eval.frame fun f =>
    match f.assign? var v with
    | some f => Eval.andThen (Eval.setFrame f) fun _ => Eval.yield (.value .unit)
    | none => Eval.refuseAt s!"write to unbound variable {var.text}" site.span

/-- A block that a `return` can leave. -/
def evalReturnable (id : BlockId) (block : Eval Flow) : Eval Flow :=
  Eval.andThen block fun
    | .ret target v => Eval.yield (if target = .block id then .value v else .ret target v)
    | .value v => Eval.yield (.value v)

def evalBinary (op : BinOp) (lhs rhs : Eval Flow) : Eval Flow :=
  match op with
  | .and =>
    withBool lhs fun l =>
      if l then withBool rhs fun r => Eval.yield (.value (.bool r))
      else Eval.yield (.value (.bool false))
  | .or =>
    withBool lhs fun l =>
      if l then Eval.yield (.value (.bool true))
      else withBool rhs fun r => Eval.yield (.value (.bool r))
  | op =>
    withValue lhs fun l => withValue rhs fun r =>
      Eval.andThen (Eval.ofExcept (Value.binary op l r)) fun v => Eval.yield (.value v)

/-- At most `rounds` rounds of a loop. -/
def evalLoop (condition body : Eval Flow) : Nat → Eval Flow
  | 0 => fun m => (.outOfFuel, m)
  | rounds + 1 =>
    withBool condition fun holds =>
      if holds then withValue body fun _ => evalLoop condition body rounds
      else Eval.yield (.value .unit)

/-- The values of captured variables. -/
def captureValues (span : Span) (f : Frame) :
    List CapturedLocal → Eval (List (Handle .localInfo × Value))
  | [] => Eval.yield []
  | entry :: entries =>
    match f.find? entry.var with
    | some v => Eval.andThen (captureValues span f entries) fun vs => Eval.yield ((entry.info, v) :: vs)
    | none => Eval.refuseAt s!"captured variable {entry.var.text} is not bound" span

/-- Captures variables of the innermost activation. -/
def evalCapture (site : Site) (capture : FrameCapture) : Eval Flow :=
  Eval.andThen Eval.frame fun f =>
    Eval.andThen (captureValues site.span f capture.entries) fun values =>
      Eval.yield (.value (.snapshot ⟨capture.location, values⟩))

end Interpreter

/-- What an observer makes of the evaluation of an expression. -/
@[always_inline, inline]
def Activation.seen (a : Activation) (e : Expr) (step : Eval Flow) : Eval Flow :=
  a.observer.expr a.function e step

/-! ## Evaluation -/

open Interpreter

mutual

/-- What an expression comes to. -/
def Expr.eval (a : Activation) : Expr → Eval Flow
  | .const s value => a.seen (.const s value) (Eval.yield (.value (.ofConst value)))
  | .getVar s var => a.seen (.getVar s var) (evalGet s var)
  | .setVar s var value => a.seen (.setVar s var value) (withValue (value.eval a) (evalSet s var))
  | .call s callee receiver typeArgs args =>
    a.seen (.call s callee receiver typeArgs args)
      (withValue (optionEval a .unit receiver) fun _ =>
        argsEval a (fun args =>
          Eval.andThen (a.call callee args s.span) fun v => Eval.yield (.value v)) [] args)
  | .functionRef s id =>
    a.seen (.functionRef s id) (Eval.refuseAt "references are not first-class values" s.span)
  | .propertyRef s id =>
    a.seen (.propertyRef s id) (Eval.refuseAt "references are not first-class values" s.span)
  | .block s stmts => a.seen (.block s stmts) (Eval.inScope (stmtsEval a .unit stmts))
  | .returnable s id stmts =>
    a.seen (.returnable s id stmts) (evalReturnable id (Eval.inScope (stmtsEval a .unit stmts)))
  | .ret s target value =>
    a.seen (.ret s target value)
      (withValue (a.observer.returned a.function target value (value.eval a)) fun v =>
        Eval.yield (.ret target v))
  | .when s branches otherwise =>
    a.seen (.when s branches otherwise) (branchesEval a (optionEval a .unit otherwise) branches)
  | .loop s condition body =>
    a.seen (.loop s condition body) (evalLoop (condition.eval a) (body.eval a) a.rounds)
  | .binary s op lhs rhs =>
    a.seen (.binary s op lhs rhs) (evalBinary op (lhs.eval a) (rhs.eval a))
  | .not s operand =>
    a.seen (.not s operand) (withBool (operand.eval a) fun b => Eval.yield (.value (.bool !b)))
  | .concat s parts => a.seen (.concat s parts) (partsEval a "" parts)
  | .lambda s decl => a.seen (.lambda s decl) (Eval.refuseAt "lambdas are not supported" s.span)
  | .descriptor s ref => a.seen (.descriptor s ref) (Eval.yield (.value (.descriptor ref)))
  | .captureFrame s capture => a.seen (.captureFrame s capture) (evalCapture s capture)

/-- What an expression that may be missing comes to. -/
def optionEval (a : Activation) (missing : Value) : Option Expr → Eval Flow
  | none => Eval.yield (.value missing)
  | some e => e.eval a

/-- The arguments of a call, `next` with their values. -/
def argsEval (a : Activation) (next : List (Option Value) → Eval Flow) :
    List (Option Value) → List (Option Expr) → Eval Flow
  | seen, [] => next seen.reverse
  | seen, none :: args => argsEval a next (none :: seen) args
  | seen, some e :: args => withValue (e.eval a) fun v => argsEval a next (some v :: seen) args

/-- The texts of values one after the other. -/
def partsEval (a : Activation) : String → List Expr → Eval Flow
  | text, [] => Eval.yield (.value (.string text))
  | text, e :: es => withValue (e.eval a) fun v => partsEval a (text ++ v.text) es

/-- The result of the first branch whose condition holds. -/
def branchesEval (a : Activation) (otherwise : Eval Flow) : List (Expr × Expr) → Eval Flow
  | [] => otherwise
  | (condition, result) :: branches =>
    withBool (condition.eval a) fun holds =>
      if holds then result.eval a else branchesEval a otherwise branches

/-- Statements one after the other; `last` is the value of the one before. -/
def stmtsEval (a : Activation) : Value → List Stmt → Eval Flow
  | last, [] => Eval.yield (.value last)
  | _, stmt :: stmts => withValue (stmt.eval a) fun v => stmtsEval a v stmts

/-- The value of a statement; a variable is bound to its initial value. -/
def Stmt.eval (a : Activation) : Stmt → Eval Flow
  | .expr e => e.eval a
  | .var head init =>
    withValue (optionEval a .null init) fun v =>
      Eval.andThen (Eval.declare head.id v) fun _ => Eval.yield (.value .unit)
  | .decl _ => Eval.yield (.value .unit)

end

/-- The code of a function. -/
def Body.eval (a : Activation) : Body → Eval Flow
  | .absent => Eval.yield (.value .unit)
  | .block stmts => Eval.inScope (stmtsEval a .unit stmts)
  | .expression e => e.eval a

namespace Interpreter

/-- The value of an expression that must not return. -/
def evalOperand (a : Activation) (e : Expr) : Eval Value :=
  Eval.andThen (e.eval a) fun
    | .value v => Eval.yield v
    | .ret _ _ => Eval.refuseAt "return is not allowed here" e.span

/-- The argument for a parameter: the one that is given, or else the default. -/
def paramValue (a : Activation) (functionName : String) (p : Param) : Option Value → Eval Value
  | some v => Eval.yield v
  | none =>
    match p.default with
    | some e => evalOperand a e
    | none => Eval.refuse s!"missing argument `{p.head.name}` of `{functionName}`"

/-- Binds parameters to arguments or to their defaults. -/
def bindParams (a : Activation) (functionName : String) :
    List Param → List (Option Value) → Eval Unit
  | [], _ => Eval.yield ()
  | p :: ps, args =>
    Eval.andThen (paramValue a functionName p args.head?.join) fun v =>
      Eval.andThen (Eval.declare p.head.id v) fun _ => bindParams a functionName ps args.tail

/-- What a function call comes to when its body came to `flow`. -/
def leaveFunction (id : DeclId) (info : FunctionHead) : Flow → Eval Value
  | .value v => Eval.yield (if info.returnTy = .unit then .unit else v)
  | .ret target v =>
    if target = .function id then Eval.yield v
    else Eval.refuse s!"return to {targetText target} escaped `{info.name}`"

/-- Runs a function in the current activation. -/
def runFunction (a : Activation) (info : FunctionHead) (params : List Param) (body : Body)
    (args : List (Option Value)) : Eval Value :=
  Eval.andThen (bindParams a info.name params args) fun _ =>
    Eval.andThen (a.observer.body a.function (body.eval a)) (leaveFunction a.function info)

/-- The arguments of a host call, none of which may be omitted. -/
def hostArgs (name : String) (span : Span) : Nat → List (Option Value) → Eval (List Value)
  | _, [] => Eval.yield []
  | index, some v :: args =>
    Eval.andThen (hostArgs name span (index + 1) args) fun vs => Eval.yield (v :: vs)
  | index, none :: _ =>
    Eval.refuseAt s!"host function `{name}` needs argument {index}" span

/-- The name by which the host knows a function. -/
def hostName (p : Interpreter) (id : DeclId) (info : FunctionHead) : String :=
  match p.symbols.get? id with
  | some s => s.fqName
  | none => info.name

/-- Calls a function: by the host if it provides it, else by running its code with `run`. -/
def invoke (p : Interpreter)
    (run : DeclId → FunctionHead → List Param → Body → List (Option Value) → Eval Value)
    (id : DeclId) (args : List (Option Value)) (span : Span) : Eval Value :=
  match p.decl? id with
  | none => Eval.refuseAt s!"call of unknown declaration {id.text}" span
  | some (.function _ info params body) =>
    let name := p.hostName id info
    match p.hosts.lookup name with
    | some host =>
      Eval.andThen (hostArgs name span 0 args) fun args => Eval.callHost name host args
    | none =>
      if !body.isPresent then
        Eval.refuseAt s!"`{name}` has no body and no host function" span
      else fun m =>
        if m.frames.length < maxCallDepth then Eval.inFrame (run id info params body args) m
        else Eval.refuseAt s!"call depth limit reached calling `{name}`" span m
  | some _ => Eval.refuseAt s!"{id.text} is not callable" span

/-- Runs the code of a function with at most `depth` activations inside each other. -/
def runWithin (p : Interpreter) (rounds : Nat) :
    Nat → DeclId → FunctionHead → List Param → Body → List (Option Value) → Eval Value
  | 0, _, _, _, _, _ => fun m => (.outOfFuel, m)
  | depth + 1, id, info, params, body, args =>
    runFunction
      { function := id, rounds, observer := p.observer, call := p.invoke (p.runWithin rounds depth) }
      info params body args

/-- The span that a call from outside is reported at. -/
def callSpan (p : Interpreter) (id : DeclId) : Span :=
  match p.decl? id with
  | some d => d.span
  | none => .undefined ⟨0⟩

/-- Calls a function with all arguments given, with at most `rounds` rounds of each loop. -/
def callWithin (p : Interpreter) (rounds : Nat) (id : DeclId) (args : List Value) : Eval Value :=
  p.invoke (p.runWithin rounds maxCallDepth) id (args.map some) (p.callSpan id)

/-- More rounds than any loop gets through. -/
def ample : Nat := 1000000000000

/-- Calls a function with all arguments given. -/
def call (p : Interpreter) (id : DeclId) (args : List Value) : Eval Value :=
  p.callWithin ample id args

/-- The function with a qualified name. -/
def functionId (p : Interpreter) (name : String) : Except Error DeclId :=
  match p.symbols.lookupFunction? name with
  | some id => .ok id
  | none => .error (.generic s!"no function named `{name}`")

end Interpreter

end TraceWeave

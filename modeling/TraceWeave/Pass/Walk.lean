import TraceWeave.Scope

/-! # Walking a program

A walk visits every expression and declaration of a tree after the ones below it, with the scopes
around it, and puts in its place what the visitor makes of it. The visitor keeps a state, which
goes through the tree from left to right.

`filesWalk` walks a program with a `Visitor`, and the scopes at a node are those of its `Place`.
The second half says the same walk as a tour with one stack of scopes for the whole way: a `Tour`
is the order of the nodes and the frames around them, and `filesRun` follows it, pushing a frame
where a declaration begins and cutting the stack back where it ends.
-/

namespace TraceWeave

/-- The place of an expression within its parent. -/
inductive Place where
  /-- Directly in a list of statements. -/
  | statement
  /-- The whole body of a function. -/
  | expressionBody
  /-- The initial value of a variable or field. -/
  | initializer
  /-- The default value of a parameter. -/
  | defaultValue
  | operand
  deriving DecidableEq, Repr, Inhabited

namespace Place

def name : Place → String
  | .statement => "a statement list"
  | .expressionBody => "an expression body"
  | .initializer => "an initializer"
  | .defaultValue => "a default value"
  | .operand => "an operand position"

end Place

/-- What a walk does to the nodes it visits. -/
structure Visitor (σ : Type) where
  onExpr : ScopeStack → Place → Expr → σ → Expr × σ := fun _ _ e s => (e, s)
  onDecl : ScopeStack → Decl → σ → Decl × σ := fun _ d s => (d, s)

/-- The scopes behind a statement: a variable can be seen from the next statement on. -/
def ScopeStack.after (sc : ScopeStack) : Stmt → ScopeStack
  | .var head _ => sc.declare (.ofVar head)
  | _ => sc

/-- A variable that becomes visible changes nothing about the declarations around a point. -/
theorem ScopeStack.declarations_after (sc : ScopeStack) (stmt : Stmt) :
    (sc.after stmt).declarations = sc.declarations := by
  cases stmt with
  | var head init =>
    rcases sc with ⟨_ | ⟨f, fs⟩⟩
    · rfl
    · simp only [after, declare, declarations, List.filter_cons]
      split <;> rfl
  | _ => rfl

/-- The scopes inside a function. -/
def ScopeStack.inFunction (sc : ScopeStack) (id : DeclId) (params : List Param) : ScopeStack :=
  sc.push (.ofFunction id (params.map fun p => .ofParam p.head))

variable {σ : Type}

mutual

def Expr.walk (v : Visitor σ) (sc : ScopeStack) (place : Place) : Expr → σ → Expr × σ
  | .setVar s var value, st =>
    let (value, st) := value.walk v sc .operand st
    v.onExpr sc place (.setVar s var value) st
  | .call s callee receiver typeArgs args, st =>
    let (receiver, st) := optionWalk v sc .operand receiver st
    let (args, st) := argsWalk v sc args st
    v.onExpr sc place (.call s callee receiver typeArgs args) st
  | .block s stmts, st =>
    let (stmts, st) := stmtsWalk v (sc.push .ofBody) stmts st
    v.onExpr sc place (.block s stmts) st
  | .returnable s id stmts, st =>
    let (stmts, st) := stmtsWalk v (sc.push .ofBody) stmts st
    v.onExpr sc place (.returnable s id stmts) st
  | .ret s target value, st =>
    let (value, st) := value.walk v sc .operand st
    v.onExpr sc place (.ret s target value) st
  | .when s branches otherwise, st =>
    let (branches, st) := branchesWalk v sc branches st
    let (otherwise, st) := optionWalk v sc .operand otherwise st
    v.onExpr sc place (.when s branches otherwise) st
  | .loop s condition body, st =>
    let (condition, st) := condition.walk v sc .operand st
    let (body, st) := body.walk v sc .operand st
    v.onExpr sc place (.loop s condition body) st
  | .binary s op lhs rhs, st =>
    let (lhs, st) := lhs.walk v sc .operand st
    let (rhs, st) := rhs.walk v sc .operand st
    v.onExpr sc place (.binary s op lhs rhs) st
  | .not s operand, st =>
    let (operand, st) := operand.walk v sc .operand st
    v.onExpr sc place (.not s operand) st
  | .concat s parts, st =>
    let (parts, st) := exprsWalk v sc parts st
    v.onExpr sc place (.concat s parts) st
  | .lambda s decl, st =>
    let (decl, st) := decl.walk v sc st
    v.onExpr sc place (.lambda s decl) st
  | .const s value, st => v.onExpr sc place (.const s value) st
  | .getVar s var, st => v.onExpr sc place (.getVar s var) st
  | .functionRef s id, st => v.onExpr sc place (.functionRef s id) st
  | .propertyRef s id, st => v.onExpr sc place (.propertyRef s id) st
  | .descriptor s ref, st => v.onExpr sc place (.descriptor s ref) st
  | .captureFrame s capture, st => v.onExpr sc place (.captureFrame s capture) st

def optionWalk (v : Visitor σ) (sc : ScopeStack) (place : Place) :
    Option Expr → σ → Option Expr × σ
  | none, st => (none, st)
  | some e, st =>
    let (e, st) := e.walk v sc place st
    (some e, st)

def argsWalk (v : Visitor σ) (sc : ScopeStack) :
    List (Option Expr) → σ → List (Option Expr) × σ
  | [], st => ([], st)
  | none :: args, st =>
    let (args, st) := argsWalk v sc args st
    (none :: args, st)
  | some e :: args, st =>
    let (e, st) := e.walk v sc .operand st
    let (args, st) := argsWalk v sc args st
    (some e :: args, st)

def exprsWalk (v : Visitor σ) (sc : ScopeStack) : List Expr → σ → List Expr × σ
  | [], st => ([], st)
  | e :: es, st =>
    let (e, st) := e.walk v sc .operand st
    let (es, st) := exprsWalk v sc es st
    (e :: es, st)

def branchesWalk (v : Visitor σ) (sc : ScopeStack) :
    List (Expr × Expr) → σ → List (Expr × Expr) × σ
  | [], st => ([], st)
  | (condition, result) :: branches, st =>
    let (condition, st) := condition.walk v sc .operand st
    let (result, st) := result.walk v sc .operand st
    let (branches, st) := branchesWalk v sc branches st
    ((condition, result) :: branches, st)

def stmtsWalk (v : Visitor σ) (sc : ScopeStack) : List Stmt → σ → List Stmt × σ
  | [], st => ([], st)
  | stmt :: stmts, st =>
    let (walked, st) := stmt.walk v sc st
    let (stmts, st) := stmtsWalk v (sc.after stmt) stmts st
    (walked :: stmts, st)

def Stmt.walk (v : Visitor σ) (sc : ScopeStack) : Stmt → σ → Stmt × σ
  | .expr e, st =>
    let (e, st) := e.walk v sc .statement st
    (.expr e, st)
  | .var head init, st =>
    let (init, st) := optionWalk v sc .initializer init st
    (.var head init, st)
  | .decl d, st =>
    let (d, st) := d.walk v sc st
    (.decl d, st)

def paramsWalk (v : Visitor σ) (sc : ScopeStack) : List Param → σ → List Param × σ
  | [], st => ([], st)
  | ⟨head, default⟩ :: params, st =>
    let (default, st) := optionWalk v sc .defaultValue default st
    let (params, st) := paramsWalk v sc params st
    (⟨head, default⟩ :: params, st)

def Body.walk (v : Visitor σ) (sc : ScopeStack) : Body → σ → Body × σ
  | .absent, st => (.absent, st)
  | .block stmts, st =>
    let (stmts, st) := stmtsWalk v (sc.push .ofBody) stmts st
    (.block stmts, st)
  | .expression e, st =>
    let (e, st) := e.walk v sc .expressionBody st
    (.expression e, st)

def Decl.walk (v : Visitor σ) (sc : ScopeStack) : Decl → σ → Decl × σ
  | .classDecl head info members, st =>
    let (members, st) := declsWalk v (sc.push (.ofClass head.id)) members st
    v.onDecl sc (.classDecl head info members) st
  | .function head info params body, st =>
    let inner := sc.inFunction head.id params
    let (params, st) := paramsWalk v inner params st
    let (body, st) := body.walk v inner st
    v.onDecl sc (.function head info params body) st
  | .property head info backing getter setter, st =>
    let (backing, st) := accessorWalk v sc backing st
    let (getter, st) := accessorWalk v sc getter st
    let (setter, st) := accessorWalk v sc setter st
    v.onDecl sc (.property head info backing getter setter) st
  | .field head info init, st =>
    let (init, st) := optionWalk v (sc.push (.ofInitializer head.id)) .initializer init st
    v.onDecl sc (.field head info init) st
  | .initializer head body, st =>
    let (body, st) := stmtsWalk v ((sc.push (.ofInitializer head.id)).push .ofBody) body st
    v.onDecl sc (.initializer head body) st

def accessorWalk (v : Visitor σ) (sc : ScopeStack) : Option Decl → σ → Option Decl × σ
  | none, st => (none, st)
  | some d, st =>
    let (d, st) := d.walk v sc st
    (some d, st)

def declsWalk (v : Visitor σ) (sc : ScopeStack) : List Decl → σ → List Decl × σ
  | [], st => ([], st)
  | d :: ds, st =>
    let (d, st) := d.walk v sc st
    let (ds, st) := declsWalk v sc ds st
    (d :: ds, st)

end

/-- Walks files one after the other. -/
def filesWalk (v : Visitor σ) : List SourceFile → σ → List SourceFile × σ
  | [], st => ([], st)
  | f :: fs, st =>
    let (declarations, st) := declsWalk v {} f.declarations st
    let (fs, st) := filesWalk v fs st
    ({ f with declarations } :: fs, st)

/-! ## The tour of a program

What a walk goes through, without what a visitor makes of it. -/

/-- Whether expressions stand directly in a declaration; the others hold further declarations. -/
def Decl.holdsCode : Decl → Bool
  | .classDecl .. | .property .. => false
  | .function .. | .field .. | .initializer .. => true

mutual

/-- What a walk does in one place. -/
inductive Tour where
  /-- It visits an expression, after the operands. -/
  | visit (place : Place) (e : Expr) (operands : List Tour)
  /-- It goes through a block. -/
  | block (items : List BlockItem)
  | nested (d : DeclTour)

/-- What happens in a block. -/
inductive BlockItem where
  | run (t : Tour)
  /-- A variable becomes visible. -/
  | declare (v : VisibleLocal)

/-- What a walk does in a declaration. -/
inductive DeclTour where
  | group (d : Decl) (h : d.holdsCode = false) (members : List DeclTour)
  | code (d : Decl) (h : d.holdsCode = true) (parts : List Tour)

end

mutual

/-- The tours of what stands in an expression. -/
def Expr.operandTours : Expr → List Tour
  | .setVar _ _ value => [.visit .operand value value.operandTours]
  | .call _ _ receiver _ args => optionTours .operand receiver ++ argsTours args
  | .block _ stmts => [.block (stmtsItems stmts)]
  | .returnable _ _ stmts => [.block (stmtsItems stmts)]
  | .ret _ _ value => [.visit .operand value value.operandTours]
  | .when _ branches otherwise => branchesTours branches ++ optionTours .operand otherwise
  | .loop _ condition body =>
    [.visit .operand condition condition.operandTours, .visit .operand body body.operandTours]
  | .binary _ _ lhs rhs =>
    [.visit .operand lhs lhs.operandTours, .visit .operand rhs rhs.operandTours]
  | .not _ operand => [.visit .operand operand operand.operandTours]
  | .concat _ parts => exprsTours parts
  | .lambda _ decl => [.nested decl.tour]
  | .const _ _ | .getVar _ _ | .functionRef _ _ | .propertyRef _ _ | .descriptor _ _
  | .captureFrame _ _ => []

def optionTours (place : Place) : Option Expr → List Tour
  | none => []
  | some e => [.visit place e e.operandTours]

def argsTours : List (Option Expr) → List Tour
  | [] => []
  | none :: args => argsTours args
  | some e :: args => .visit .operand e e.operandTours :: argsTours args

def exprsTours : List Expr → List Tour
  | [] => []
  | e :: es => .visit .operand e e.operandTours :: exprsTours es

def branchesTours : List (Expr × Expr) → List Tour
  | [] => []
  | (condition, result) :: branches =>
    .visit .operand condition condition.operandTours ::
      .visit .operand result result.operandTours :: branchesTours branches

def stmtsItems : List Stmt → List BlockItem
  | [] => []
  | stmt :: stmts => stmt.items ++ stmtsItems stmts

/-- A variable becomes visible behind its initial value. -/
def Stmt.items : Stmt → List BlockItem
  | .expr e => [.run (.visit .statement e e.operandTours)]
  | .var head init => (optionTours .initializer init).map .run ++ [.declare (.ofVar head)]
  | .decl d => [.run (.nested d.tour)]

def paramsTours : List Param → List Tour
  | [] => []
  | ⟨_, default⟩ :: params => optionTours .defaultValue default ++ paramsTours params

def Body.tours : Body → List Tour
  | .absent => []
  | .block stmts => [.block (stmtsItems stmts)]
  | .expression e => [.visit .expressionBody e e.operandTours]

def Decl.tour : Decl → DeclTour
  | .classDecl head info members => .group (.classDecl head info members) rfl (declsTours members)
  | .function head info params body =>
    .code (.function head info params body) rfl (paramsTours params ++ body.tours)
  | .property head info backing getter setter =>
    .group (.property head info backing getter setter) rfl
      (accessorTours backing ++ accessorTours getter ++ accessorTours setter)
  | .field head info init => .code (.field head info init) rfl (optionTours .initializer init)
  | .initializer head body => .code (.initializer head body) rfl [.block (stmtsItems body)]

def accessorTours : Option Decl → List DeclTour
  | none => []
  | some d => [d.tour]

def declsTours : List Decl → List DeclTour
  | [] => []
  | d :: ds => d.tour :: declsTours ds

end

/-! ## A walk with one stack

The walk above hands the scopes of each place down to it. One with a step that may fail keeps them on
one stack that all visits share, and takes a tour in place of the tree. -/

/-- The scopes in a declaration. The accessors of a property stand in its own scopes. -/
def ScopeStack.entering (sc : ScopeStack) : Decl → ScopeStack
  | .classDecl head _ _ => sc.push (.ofClass head.id)
  | .function head _ params _ => sc.inFunction head.id params
  | .property .. => sc
  | .field head _ _ => sc.push (.ofInitializer head.id)
  | .initializer head _ => sc.push (.ofInitializer head.id)

section

variable {ε : Type}

/-- Leaves a block or a declaration. Who enters one gets a guard, which remembers the depth of the
stack before the new frame; when the guard goes out of scope it cuts the stack back to that depth, on
success and on failure alike. A property is entered without a frame of its own. -/
def leave (depth : Nat) (r : Except ε σ × ScopeStack) : Except ε σ × ScopeStack :=
  (r.1, r.2.truncate depth)

variable (step : ScopeStack → Place → Expr → σ → Except ε σ)

mutual

/-- What becomes of the state and of the stack. A failure ends the walk where it is, and the guards
of what was entered cut the stack back on the way out. -/
def Tour.run : Tour → ScopeStack → σ → Except ε σ × ScopeStack
  | .visit place e operands, sc, st =>
    match toursRun operands sc st with
    | (.ok st, sc) => (step sc place e st, sc)
    | (.error err, sc) => (.error err, sc)
  | .block items, sc, st => leave sc.depth (itemsRun items (sc.push .ofBody) st)
  | .nested d, sc, st => d.run sc st

def toursRun : List Tour → ScopeStack → σ → Except ε σ × ScopeStack
  | [], sc, st => (.ok st, sc)
  | t :: ts, sc, st =>
    match t.run sc st with
    | (.ok st, sc) => toursRun ts sc st
    | (.error err, sc) => (.error err, sc)

def itemsRun : List BlockItem → ScopeStack → σ → Except ε σ × ScopeStack
  | [], sc, st => (.ok st, sc)
  | .run t :: items, sc, st =>
    match t.run sc st with
    | (.ok st, sc) => itemsRun items sc st
    | (.error err, sc) => (.error err, sc)
  | .declare v :: items, sc, st => itemsRun items (sc.declare v) st

def DeclTour.run : DeclTour → ScopeStack → σ → Except ε σ × ScopeStack
  | .group d _ members, sc, st => leave sc.depth (declToursRun members (sc.entering d) st)
  | .code d _ parts, sc, st => leave sc.depth (toursRun parts (sc.entering d) st)

def declToursRun : List DeclTour → ScopeStack → σ → Except ε σ × ScopeStack
  | [], sc, st => (.ok st, sc)
  | d :: ds, sc, st =>
    match d.run sc st with
    | (.ok st, sc) => declToursRun ds sc st
    | (.error err, sc) => (.error err, sc)

end

/-- The files of a module one after the other, with one stack. -/
def filesRun : List SourceFile → ScopeStack → σ → Except ε σ × ScopeStack
  | [], sc, st => (.ok st, sc)
  | f :: fs, sc, st =>
    match declToursRun step (declsTours f.declarations) sc st with
    | (.ok st, sc) => filesRun fs sc st
    | (.error err, sc) => (.error err, sc)

end

end TraceWeave

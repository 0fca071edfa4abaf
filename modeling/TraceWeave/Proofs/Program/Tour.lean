import TraceWeave.Pass.Walk
import TraceWeave.Program.Symbols

/-! # The tour of a walk

What a walk goes through, without what a visitor makes of it: the expressions it visits, the
blocks and declarations it enters and the variables that become visible on the way. Each visit has
scopes and declarations around it, which are computed here apart from each other. Every walk visits
the expressions of the tour, in its order and with its scopes.

`Module.visits` lists the visits of a module and `Tour.symbols` the symbols of a tour, which are
those of the index. `Visitor.recording` writes down what a walk comes by, and
`filesWalk_recording` says that this is the tour.
-/

namespace TraceWeave

/-! ## The visits of a tour -/

/-- An expression where a walk comes across it. -/
structure Visit where
  scopes : ScopeStack
  /-- The declarations around it, innermost first. -/
  around : List Decl
  place : Place
  expr : Expr

mutual

def Tour.visits (sc : ScopeStack) (around : List Decl) : Tour → List Visit
  | .visit place e operands => toursVisits sc around operands ++ [⟨sc, around, place, e⟩]
  | .block items => itemsVisits (sc.push .ofBody) around items
  | .nested d => d.visits sc around

def toursVisits (sc : ScopeStack) (around : List Decl) : List Tour → List Visit
  | [] => []
  | t :: ts => t.visits sc around ++ toursVisits sc around ts

/-- A variable is in scope for all that follows in its block. -/
def itemsVisits (sc : ScopeStack) (around : List Decl) : List BlockItem → List Visit
  | [] => []
  | .run t :: items => t.visits sc around ++ itemsVisits sc around items
  | .declare v :: items => itemsVisits (sc.declare v) around items

def DeclTour.visits (sc : ScopeStack) (around : List Decl) : DeclTour → List Visit
  | .group d _ members => declToursVisits (sc.entering d) (d :: around) members
  | .code d _ parts => toursVisits (sc.entering d) (d :: around) parts

def declToursVisits (sc : ScopeStack) (around : List Decl) : List DeclTour → List Visit
  | [] => []
  | d :: ds => d.visits sc around ++ declToursVisits sc around ds

end

/-- The visits of a walk over the own files of a module. -/
def Module.visits (m : Module) : List Visit :=
  m.files.flatMap fun f => declToursVisits {} [] (declsTours f.declarations)

@[simp] theorem toursVisits_append (sc : ScopeStack) (around : List Decl) : ∀ xs ys : List Tour,
    toursVisits sc around (xs ++ ys) = toursVisits sc around xs ++ toursVisits sc around ys
  | [], _ => rfl
  | x :: xs, ys => by
    rw [List.cons_append, toursVisits, toursVisits, toursVisits_append sc around xs ys,
      List.append_assoc]

@[simp] theorem declToursVisits_append (sc : ScopeStack) (around : List Decl) :
    ∀ xs ys : List DeclTour, declToursVisits sc around (xs ++ ys) =
      declToursVisits sc around xs ++ declToursVisits sc around ys
  | [], _ => rfl
  | x :: xs, ys => by
    rw [List.cons_append, declToursVisits, declToursVisits, declToursVisits_append sc around xs ys,
      List.append_assoc]

/-- Behind a statement its variable is in scope. -/
theorem itemsVisits_stmt (sc : ScopeStack) (around : List Decl) (items : List BlockItem) :
    ∀ stmt : Stmt, itemsVisits sc around (stmt.items ++ items) =
      itemsVisits sc around stmt.items ++ itemsVisits (sc.after stmt) around items
  | .expr _ => by simp [Stmt.items, itemsVisits, ScopeStack.after]
  | .var _ none => by simp [Stmt.items, optionTours, itemsVisits, ScopeStack.after]
  | .var _ (some _) => by simp [Stmt.items, optionTours, itemsVisits, ScopeStack.after]
  | .decl _ => by simp [Stmt.items, itemsVisits, ScopeStack.after]

/-! ## The symbols of a tour -/

/-- What the index knows about a declaration by its kind. -/
def Decl.symbolKind : Decl → SymbolKind
  | .classDecl _ info members => .classSymbol {
      head := info
      members := members.map Decl.id
      primaryConstructor := (members.find? Decl.isPrimaryConstructor).map Decl.id }
  | .function _ info params body => .function {
      head := info
      params := params.map fun p => ⟨p.head, p.default.isSome⟩
      hasBody := body.isPresent
      locals := body.locals }
  | .property _ info backing getter setter => .property {
      head := info
      getter := getter.map Decl.id
      setter := setter.map Decl.id
      backing := backing.map Decl.id }
  | .field _ info _ => .field info
  | .initializer _ _ => .initializer

namespace SymbolScope

/-- The scope of what a declaration holds. -/
def entering (sc : SymbolScope) : Decl → SymbolScope
  | .property head info backing getter setter =>
    sc.accessors (.property head info backing getter setter)
  | d => sc.inside d

/-- The symbol that the index gets for a declaration. -/
def declared (sc : SymbolScope) (d : Decl) : Symbol := sc.symbol d d.symbolKind

theorem parent_entering (sc : SymbolScope) (d : Decl) : (sc.entering d).parent = some d.id := by
  cases d <;> rfl

end SymbolScope

mutual

/-- The symbols of the declarations of a tour, each behind those nested in it. -/
def Tour.symbols (sc : SymbolScope) : Tour → List Symbol
  | .visit _ _ operands => toursSymbols sc operands
  | .block items => itemsSymbols sc items
  | .nested d => d.symbols sc

def toursSymbols (sc : SymbolScope) : List Tour → List Symbol
  | [] => []
  | t :: ts => t.symbols sc ++ toursSymbols sc ts

def itemsSymbols (sc : SymbolScope) : List BlockItem → List Symbol
  | [] => []
  | .run t :: items => t.symbols sc ++ itemsSymbols sc items
  | .declare _ :: items => itemsSymbols sc items

def DeclTour.symbols (sc : SymbolScope) : DeclTour → List Symbol
  | .group d _ members => declToursSymbols (sc.entering d) members ++ [sc.declared d]
  | .code d _ parts => toursSymbols (sc.entering d) parts ++ [sc.declared d]

def declToursSymbols (sc : SymbolScope) : List DeclTour → List Symbol
  | [] => []
  | d :: ds => d.symbols sc ++ declToursSymbols sc ds

end

@[simp] theorem toursSymbols_append (sc : SymbolScope) : ∀ xs ys : List Tour,
    toursSymbols sc (xs ++ ys) = toursSymbols sc xs ++ toursSymbols sc ys
  | [], _ => rfl
  | x :: xs, ys => by
    rw [List.cons_append, toursSymbols, toursSymbols, toursSymbols_append sc xs ys,
      List.append_assoc]

@[simp] theorem itemsSymbols_append (sc : SymbolScope) : ∀ xs ys : List BlockItem,
    itemsSymbols sc (xs ++ ys) = itemsSymbols sc xs ++ itemsSymbols sc ys
  | [], _ => rfl
  | .run x :: xs, ys => by
    rw [List.cons_append, itemsSymbols, itemsSymbols, itemsSymbols_append sc xs ys,
      List.append_assoc]
  | .declare _ :: xs, ys => itemsSymbols_append sc xs ys

@[simp] theorem declToursSymbols_append (sc : SymbolScope) : ∀ xs ys : List DeclTour,
    declToursSymbols sc (xs ++ ys) = declToursSymbols sc xs ++ declToursSymbols sc ys
  | [], _ => rfl
  | x :: xs, ys => by
    rw [List.cons_append, declToursSymbols, declToursSymbols, declToursSymbols_append sc xs ys,
      List.append_assoc]

mutual

theorem Expr.symbols_eq : ∀ (e : Expr) (sc : SymbolScope),
    e.symbols sc = toursSymbols sc e.operandTours
  | .setVar _ _ value => fun sc => by
    simp [Expr.symbols, Expr.operandTours, toursSymbols, Tour.symbols, value.symbols_eq]
  | .call _ _ receiver _ args => fun sc => by
    simp [Expr.symbols, Expr.operandTours, optionSymbols_eq receiver _ .operand,
      argsSymbols_eq args]
  | .block _ stmts | .returnable _ _ stmts => fun sc => by
    simp [Expr.symbols, Expr.operandTours, toursSymbols, Tour.symbols, stmtsSymbols_eq stmts]
  | .ret _ _ value => fun sc => by
    simp [Expr.symbols, Expr.operandTours, toursSymbols, Tour.symbols, value.symbols_eq]
  | .when _ branches otherwise => fun sc => by
    simp [Expr.symbols, Expr.operandTours, branchesSymbols_eq branches,
      optionSymbols_eq otherwise _ .operand]
  | .loop _ condition body => fun sc => by
    simp [Expr.symbols, Expr.operandTours, toursSymbols, Tour.symbols, condition.symbols_eq,
      body.symbols_eq]
  | .binary _ _ lhs rhs => fun sc => by
    simp [Expr.symbols, Expr.operandTours, toursSymbols, Tour.symbols, lhs.symbols_eq,
      rhs.symbols_eq]
  | .not _ operand => fun sc => by
    simp [Expr.symbols, Expr.operandTours, toursSymbols, Tour.symbols, operand.symbols_eq]
  | .concat _ parts => fun sc => by
    simp [Expr.symbols, Expr.operandTours, exprsSymbols_eq parts]
  | .lambda _ decl => fun sc => by
    simp [Expr.symbols, Expr.operandTours, toursSymbols, Tour.symbols, decl.symbols_eq]
  | .const _ _ | .getVar _ _ | .functionRef _ _ | .propertyRef _ _ | .descriptor _ _
  | .captureFrame _ _ => fun _ => rfl

theorem optionSymbols_eq : ∀ (e : Option Expr) (sc : SymbolScope) (place : Place),
    optionSymbols sc e = toursSymbols sc (optionTours place e)
  | none => fun _ _ => rfl
  | some e => fun sc place => by
    simp [optionSymbols, optionTours, toursSymbols, Tour.symbols, e.symbols_eq]

theorem argsSymbols_eq : ∀ (args : List (Option Expr)) (sc : SymbolScope),
    argsSymbols sc args = toursSymbols sc (argsTours args)
  | [] => fun _ => rfl
  | none :: args => fun sc => argsSymbols_eq args sc
  | some e :: args => fun sc => by
    simp [argsSymbols, argsTours, toursSymbols, Tour.symbols, e.symbols_eq, argsSymbols_eq args]

theorem exprsSymbols_eq : ∀ (es : List Expr) (sc : SymbolScope),
    exprsSymbols sc es = toursSymbols sc (exprsTours es)
  | [] => fun _ => rfl
  | e :: es => fun sc => by
    simp [exprsSymbols, exprsTours, toursSymbols, Tour.symbols, e.symbols_eq, exprsSymbols_eq es]

theorem branchesSymbols_eq : ∀ (branches : List (Expr × Expr)) (sc : SymbolScope),
    branchesSymbols sc branches = toursSymbols sc (branchesTours branches)
  | [] => fun _ => rfl
  | (condition, result) :: branches => fun sc => by
    simp [branchesSymbols, branchesTours, toursSymbols, Tour.symbols, condition.symbols_eq,
      result.symbols_eq, branchesSymbols_eq branches]

theorem stmtsSymbols_eq : ∀ (stmts : List Stmt) (sc : SymbolScope),
    stmtsSymbols sc stmts = itemsSymbols sc (stmtsItems stmts)
  | [] => fun _ => rfl
  | stmt :: stmts => fun sc => by
    simp [stmtsSymbols, stmtsItems, stmt.symbols_eq, stmtsSymbols_eq stmts]

theorem Stmt.symbols_eq : ∀ (stmt : Stmt) (sc : SymbolScope),
    stmt.symbols sc = itemsSymbols sc stmt.items
  | .expr e => fun sc => by
    simp [Stmt.symbols, Stmt.items, itemsSymbols, Tour.symbols, e.symbols_eq]
  | .var _ none => fun _ => rfl
  | .var _ (some e) => fun sc => by
    simp [Stmt.symbols, optionSymbols, Stmt.items, optionTours, itemsSymbols, Tour.symbols,
      e.symbols_eq]
  | .decl d => fun sc => by
    simp [Stmt.symbols, Stmt.items, itemsSymbols, Tour.symbols, d.symbols_eq]

theorem paramsSymbols_eq : ∀ (params : List Param) (sc : SymbolScope),
    paramsSymbols sc params = toursSymbols sc (paramsTours params)
  | [] => fun _ => rfl
  | ⟨_, default⟩ :: params => fun sc => by
    simp [paramsSymbols, paramsTours, optionSymbols_eq default _ .defaultValue,
      paramsSymbols_eq params]

theorem Body.symbols_eq : ∀ (body : Body) (sc : SymbolScope),
    body.symbols sc = toursSymbols sc body.tours
  | .absent => fun _ => rfl
  | .block stmts => fun sc => by
    simp [Body.symbols, Body.tours, toursSymbols, Tour.symbols, stmtsSymbols_eq stmts]
  | .expression e => fun sc => by
    simp [Body.symbols, Body.tours, toursSymbols, Tour.symbols, e.symbols_eq]

theorem Decl.symbols_eq : ∀ (d : Decl) (sc : SymbolScope), d.symbols sc = d.tour.symbols sc
  | .classDecl _ _ members => fun sc => by
    rw [Decl.symbols, declsSymbols_eq members]
    rfl
  | .function _ _ params body => fun sc => by
    rw [Decl.symbols, paramsSymbols_eq params, body.symbols_eq]
    simp only [Decl.tour, DeclTour.symbols, toursSymbols_append]
    rfl
  | .property _ _ backing getter setter => fun sc => by
    rw [Decl.symbols, accessorSymbols_eq backing, accessorSymbols_eq getter,
      accessorSymbols_eq setter]
    simp only [Decl.tour, DeclTour.symbols, declToursSymbols_append]
    rfl
  | .field _ _ init => fun sc => by
    rw [Decl.symbols, optionSymbols_eq init _ .initializer]
    rfl
  | .initializer _ body => fun sc => by
    rw [Decl.symbols, stmtsSymbols_eq body]
    simp only [Decl.tour, DeclTour.symbols, toursSymbols, Tour.symbols, List.append_nil]
    rfl

theorem accessorSymbols_eq : ∀ (d : Option Decl) (sc : SymbolScope),
    accessorSymbols sc d = declToursSymbols sc (accessorTours d)
  | none => fun _ => rfl
  | some d => fun sc => by
    simp [accessorSymbols, accessorTours, declToursSymbols, d.symbols_eq]

theorem declsSymbols_eq : ∀ (ds : List Decl) (sc : SymbolScope),
    declsSymbols sc ds = declToursSymbols sc (declsTours ds)
  | [] => fun _ => rfl
  | d :: ds => fun sc => by
    simp [declsSymbols, declsTours, declToursSymbols, d.symbols_eq,
      declsSymbols_eq ds]

end

/-! ## Walks follow the tour -/

/-- What a visitor is told about an expression, apart from its operands. -/
structure Call where
  scopes : ScopeStack
  place : Place
  site : Site

def Visit.call (x : Visit) : Call := ⟨x.scopes, x.place, x.expr.site⟩

variable {σ : Type}

/-- A visitor that also writes down which expressions it is called for. -/
def Visitor.recording (v : Visitor σ) : Visitor (σ × List Call) where
  onExpr sc place e st :=
    let (e', s) := v.onExpr sc place e st.1
    (e', s, st.2 ++ [⟨sc, place, e.site⟩])
  onDecl sc d st :=
    let (d', s) := v.onDecl sc d st.1
    (d', s, st.2)

section

variable (v : Visitor σ)

@[simp] theorem Visitor.recording_onExpr (sc : ScopeStack) (place : Place) (e : Expr)
    (st : σ × List Call) :
    (v.recording.onExpr sc place e st).2.2 = st.2 ++ [⟨sc, place, e.site⟩] := rfl

@[simp] theorem Visitor.recording_onDecl (sc : ScopeStack) (d : Decl) (st : σ × List Call) :
    (v.recording.onDecl sc d st).2.2 = st.2 := rfl

mutual

-- What is written down at a node comes behind what its operands have written down, which is the
-- order of the tour.
theorem Expr.walk_recording : ∀ (e : Expr) (sc : ScopeStack) (place : Place) (around : List Decl)
    (st : σ × List Call), (e.walk v.recording sc place st).2.2 =
      st.2 ++ ((Tour.visit place e e.operandTours).visits sc around).map Visit.call
  | .setVar _ _ value => fun sc _ around st => by
    simp [Expr.walk, Expr.operandTours, Tour.visits, toursVisits, Visit.call, Expr.site,
      value.walk_recording sc .operand around]
  | .call _ _ receiver _ args => fun sc _ around st => by
    simp [Expr.walk, Expr.operandTours, Tour.visits, Visit.call, Expr.site,
      optionWalk_recording receiver sc .operand around, argsWalk_recording args sc around]
  | .block _ stmts | .returnable _ _ stmts => fun sc _ around st => by
    simp [Expr.walk, Expr.operandTours, Tour.visits, toursVisits, Visit.call, Expr.site,
      stmtsWalk_recording stmts _ around]
  | .ret _ _ value => fun sc _ around st => by
    simp [Expr.walk, Expr.operandTours, Tour.visits, toursVisits, Visit.call, Expr.site,
      value.walk_recording sc .operand around]
  | .when _ branches otherwise => fun sc _ around st => by
    simp [Expr.walk, Expr.operandTours, Tour.visits, Visit.call, Expr.site,
      branchesWalk_recording branches sc around,
      optionWalk_recording otherwise sc .operand around]
  | .loop _ condition body => fun sc _ around st => by
    simp [Expr.walk, Expr.operandTours, Tour.visits, toursVisits, Visit.call, Expr.site,
      condition.walk_recording sc .operand around, body.walk_recording sc .operand around]
  | .binary _ _ lhs rhs => fun sc _ around st => by
    simp [Expr.walk, Expr.operandTours, Tour.visits, toursVisits, Visit.call, Expr.site,
      lhs.walk_recording sc .operand around, rhs.walk_recording sc .operand around]
  | .not _ operand => fun sc _ around st => by
    simp [Expr.walk, Expr.operandTours, Tour.visits, toursVisits, Visit.call, Expr.site,
      operand.walk_recording sc .operand around]
  | .concat _ parts => fun sc _ around st => by
    simp [Expr.walk, Expr.operandTours, Tour.visits, Visit.call, Expr.site,
      exprsWalk_recording parts sc around]
  | .lambda _ decl => fun sc _ around st => by
    simp [Expr.walk, Expr.operandTours, Tour.visits, toursVisits, Visit.call, Expr.site,
      decl.walk_recording sc around]
  | .const _ _ | .getVar _ _ | .functionRef _ _ | .propertyRef _ _ | .descriptor _ _
  | .captureFrame _ _ => fun _ _ _ _ => rfl

theorem optionWalk_recording : ∀ (e : Option Expr) (sc : ScopeStack) (place : Place)
    (around : List Decl) (st : σ × List Call), (optionWalk v.recording sc place e st).2.2 =
      st.2 ++ (toursVisits sc around (optionTours place e)).map Visit.call
  | none => fun _ _ _ st => (List.append_nil st.2).symm
  | some e => fun sc place around st => by
    simp [optionWalk, optionTours, toursVisits, e.walk_recording sc place around]

theorem argsWalk_recording : ∀ (args : List (Option Expr)) (sc : ScopeStack)
    (around : List Decl) (st : σ × List Call), (argsWalk v.recording sc args st).2.2 =
      st.2 ++ (toursVisits sc around (argsTours args)).map Visit.call
  | [] => fun _ _ st => (List.append_nil st.2).symm
  | none :: args => fun sc around st => argsWalk_recording args sc around st
  | some e :: args => fun sc around st => by
    simp [argsWalk, argsTours, toursVisits, e.walk_recording sc .operand around,
      argsWalk_recording args sc around]

theorem exprsWalk_recording : ∀ (es : List Expr) (sc : ScopeStack) (around : List Decl)
    (st : σ × List Call), (exprsWalk v.recording sc es st).2.2 =
      st.2 ++ (toursVisits sc around (exprsTours es)).map Visit.call
  | [] => fun _ _ st => (List.append_nil st.2).symm
  | e :: es => fun sc around st => by
    simp [exprsWalk, exprsTours, toursVisits, e.walk_recording sc .operand around,
      exprsWalk_recording es sc around]

theorem branchesWalk_recording : ∀ (branches : List (Expr × Expr)) (sc : ScopeStack)
    (around : List Decl) (st : σ × List Call), (branchesWalk v.recording sc branches st).2.2 =
      st.2 ++ (toursVisits sc around (branchesTours branches)).map Visit.call
  | [] => fun _ _ st => (List.append_nil st.2).symm
  | (condition, result) :: branches => fun sc around st => by
    simp [branchesWalk, branchesTours, toursVisits, condition.walk_recording sc .operand around,
      result.walk_recording sc .operand around, branchesWalk_recording branches sc around]

theorem stmtsWalk_recording : ∀ (stmts : List Stmt) (sc : ScopeStack) (around : List Decl)
    (st : σ × List Call), (stmtsWalk v.recording sc stmts st).2.2 =
      st.2 ++ (itemsVisits sc around (stmtsItems stmts)).map Visit.call
  | [] => fun _ _ st => (List.append_nil st.2).symm
  | stmt :: stmts => fun sc around st => by
    simp [stmtsWalk, stmtsItems, itemsVisits_stmt, stmt.walk_recording sc around,
      stmtsWalk_recording stmts _ around]

theorem Stmt.walk_recording : ∀ (stmt : Stmt) (sc : ScopeStack) (around : List Decl)
    (st : σ × List Call), (stmt.walk v.recording sc st).2.2 =
      st.2 ++ (itemsVisits sc around stmt.items).map Visit.call
  | .expr e => fun sc around st => by
    simp [Stmt.walk, Stmt.items, itemsVisits, e.walk_recording sc .statement around]
  | .var _ none => fun _ _ st => (List.append_nil st.2).symm
  | .var _ (some e) => fun sc around st => by
    simp [Stmt.walk, Stmt.items, optionTours, itemsVisits, optionWalk,
      e.walk_recording sc .initializer around]
  | .decl d => fun sc around st => by
    simp [Stmt.walk, Stmt.items, itemsVisits, Tour.visits, d.walk_recording sc around]

theorem paramsWalk_recording : ∀ (params : List Param) (sc : ScopeStack) (around : List Decl)
    (st : σ × List Call), (paramsWalk v.recording sc params st).2.2 =
      st.2 ++ (toursVisits sc around (paramsTours params)).map Visit.call
  | [] => fun _ _ st => (List.append_nil st.2).symm
  | ⟨_, default⟩ :: params => fun sc around st => by
    simp [paramsWalk, paramsTours, optionWalk_recording default sc .defaultValue around,
      paramsWalk_recording params sc around]

theorem Body.walk_recording : ∀ (body : Body) (sc : ScopeStack) (around : List Decl)
    (st : σ × List Call), (body.walk v.recording sc st).2.2 =
      st.2 ++ (toursVisits sc around body.tours).map Visit.call
  | .absent => fun _ _ st => (List.append_nil st.2).symm
  | .block stmts => fun sc around st => by
    simp [Body.walk, Body.tours, toursVisits, Tour.visits, stmtsWalk_recording stmts _ around]
  | .expression e => fun sc around st => by
    simp [Body.walk, Body.tours, toursVisits, e.walk_recording sc .expressionBody around]

theorem Decl.walk_recording : ∀ (d : Decl) (sc : ScopeStack) (around : List Decl)
    (st : σ × List Call), (d.walk v.recording sc st).2.2 =
      st.2 ++ (d.tour.visits sc around).map Visit.call
  | .classDecl head info members => fun sc around st => by
    rw [Decl.walk]
    exact declsWalk_recording members _ _ st
  | .function head info params body => fun sc around st => by
    simp [Decl.walk, Decl.tour, DeclTour.visits, ScopeStack.entering,
      paramsWalk_recording params _ (.function head info params body :: around),
      body.walk_recording _ (.function head info params body :: around)]
  | .property head info backing getter setter => fun sc around st => by
    let inner : List Decl := .property head info backing getter setter :: around
    simp [Decl.walk, Decl.tour, DeclTour.visits, ScopeStack.entering,
      accessorWalk_recording backing sc inner, accessorWalk_recording getter sc inner,
      accessorWalk_recording setter sc inner, inner]
  | .field head info init => fun sc around st => by
    rw [Decl.walk]
    exact optionWalk_recording init _ _ _ st
  | .initializer head body => fun sc around st => by
    simp [Decl.walk, Decl.tour, DeclTour.visits, toursVisits, Tour.visits, ScopeStack.entering,
      stmtsWalk_recording body _ (.initializer head body :: around)]

theorem accessorWalk_recording : ∀ (d : Option Decl) (sc : ScopeStack) (around : List Decl)
    (st : σ × List Call), (accessorWalk v.recording sc d st).2.2 =
      st.2 ++ (declToursVisits sc around (accessorTours d)).map Visit.call
  | none => fun _ _ st => (List.append_nil st.2).symm
  | some d => fun sc around st => by
    simp [accessorWalk, accessorTours, declToursVisits, d.walk_recording sc around]

theorem declsWalk_recording : ∀ (ds : List Decl) (sc : ScopeStack) (around : List Decl)
    (st : σ × List Call), (declsWalk v.recording sc ds st).2.2 =
      st.2 ++ (declToursVisits sc around (declsTours ds)).map Visit.call
  | [] => fun _ _ st => (List.append_nil st.2).symm
  | d :: ds => fun sc around st => by
    simp [declsWalk, declsTours, declToursVisits, d.walk_recording sc around,
      declsWalk_recording ds sc around]

end

/-- Whatever a visitor makes of them, a walk calls it for the expressions of the tour. -/
theorem filesWalk_recording : ∀ (fs : List SourceFile) (st : σ × List Call),
    (filesWalk v.recording fs st).2.2 =
      st.2 ++ (fs.flatMap fun f =>
        declToursVisits {} [] (declsTours f.declarations)).map Visit.call
  | [], st => (List.append_nil st.2).symm
  | f :: fs, st => by
    simp [filesWalk, declsWalk_recording v f.declarations {} [], filesWalk_recording fs]

end

end TraceWeave

import TraceWeave.Pass.Removal
import TraceWeave.Proofs.Pipeline.Marks

/-! # Programs without some calls

Some expressions go away where they stand: from lists of statements they are deleted, and an
expression body becomes a constant. This is said here by what goes away, and in these terms
pruning by keys is explained. All calls of the program are then accounted for: they are still there,
or they went away with one of the expressions that were taken out.

`filesWithout` gives what is left together with the visits that are taken out, and
`Removal.filesPrune_counted` explains pruning by it, where the keys tell what goes away
(`Removal.Tells`).
-/

namespace TraceWeave

section

variable (gone : Visit → Bool)

mutual

/-- An expression without what goes away in it, and the visits that are taken out. What stands in
them goes away with them. -/
def Expr.without (sc : ScopeStack) (around : List Decl) : Expr → Expr × List Visit
  | .setVar s var value =>
    let (value, xs) := value.without sc around
    (.setVar s var value, xs)
  | .call s callee receiver typeArgs args =>
    let (receiver, xs) := optionWithout sc around receiver
    let (args, ys) := argsWithout sc around args
    (.call s callee receiver typeArgs args, xs ++ ys)
  | .block s stmts =>
    let (stmts, xs) := stmtsWithout (sc.push .ofBody) around stmts
    (.block s stmts, xs)
  | .returnable s id stmts =>
    let (stmts, xs) := stmtsWithout (sc.push .ofBody) around stmts
    (.returnable s id stmts, xs)
  | .ret s target value =>
    let (value, xs) := value.without sc around
    (.ret s target value, xs)
  | .when s branches otherwise =>
    let (branches, xs) := branchesWithout sc around branches
    let (otherwise, ys) := optionWithout sc around otherwise
    (.when s branches otherwise, xs ++ ys)
  | .loop s condition body =>
    let (condition, xs) := condition.without sc around
    let (body, ys) := body.without sc around
    (.loop s condition body, xs ++ ys)
  | .binary s op lhs rhs =>
    let (lhs, xs) := lhs.without sc around
    let (rhs, ys) := rhs.without sc around
    (.binary s op lhs rhs, xs ++ ys)
  | .not s operand =>
    let (operand, xs) := operand.without sc around
    (.not s operand, xs)
  | .concat s parts =>
    let (parts, xs) := exprsWithout sc around parts
    (.concat s parts, xs)
  | .lambda s decl =>
    let (decl, xs) := decl.without sc around
    (.lambda s decl, xs)
  | .const s value => (.const s value, [])
  | .getVar s var => (.getVar s var, [])
  | .functionRef s id => (.functionRef s id, [])
  | .propertyRef s id => (.propertyRef s id, [])
  | .descriptor s ref => (.descriptor s ref, [])
  | .captureFrame s capture => (.captureFrame s capture, [])
termination_by structural e => e

def optionWithout (sc : ScopeStack) (around : List Decl) : Option Expr → Option Expr × List Visit
  | none => (none, [])
  | some e =>
    let (e, xs) := e.without sc around
    (some e, xs)
termination_by structural e => e

def argsWithout (sc : ScopeStack) (around : List Decl) :
    List (Option Expr) → List (Option Expr) × List Visit
  | [] => ([], [])
  | none :: args =>
    let (args, xs) := argsWithout sc around args
    (none :: args, xs)
  | some e :: args =>
    let (e, xs) := e.without sc around
    let (args, ys) := argsWithout sc around args
    (some e :: args, xs ++ ys)
termination_by structural args => args

def exprsWithout (sc : ScopeStack) (around : List Decl) : List Expr → List Expr × List Visit
  | [] => ([], [])
  | e :: es =>
    let (e, xs) := e.without sc around
    let (es, ys) := exprsWithout sc around es
    (e :: es, xs ++ ys)
termination_by structural es => es

def branchesWithout (sc : ScopeStack) (around : List Decl) :
    List (Expr × Expr) → List (Expr × Expr) × List Visit
  | [] => ([], [])
  | (condition, result) :: branches =>
    let (condition, xs) := condition.without sc around
    let (result, ys) := result.without sc around
    let (branches, zs) := branchesWithout sc around branches
    ((condition, result) :: branches, xs ++ ys ++ zs)
termination_by structural branches => branches

/-- Statements that are what goes away are deleted. -/
def stmtsWithout (sc : ScopeStack) (around : List Decl) : List Stmt → List Stmt × List Visit
  | [] => ([], [])
  | .expr e :: stmts =>
    let (stmts, ys) := stmtsWithout sc around stmts
    if gone ⟨sc, around, .statement, e⟩ then (stmts, ⟨sc, around, .statement, e⟩ :: ys)
    else
      let (e, xs) := e.without sc around
      (.expr e :: stmts, xs ++ ys)
  | .var head init :: stmts =>
    let (init, xs) := optionWithout sc around init
    let (stmts, ys) := stmtsWithout (sc.declare (.ofVar head)) around stmts
    (.var head init :: stmts, xs ++ ys)
  | .decl d :: stmts =>
    let (d, xs) := d.without sc around
    let (stmts, ys) := stmtsWithout sc around stmts
    (.decl d :: stmts, xs ++ ys)
termination_by structural stmts => stmts

def paramsWithout (sc : ScopeStack) (around : List Decl) : List Param → List Param × List Visit
  | [] => ([], [])
  | ⟨head, default⟩ :: params =>
    let (default, xs) := optionWithout sc around default
    let (params, ys) := paramsWithout sc around params
    (⟨head, default⟩ :: params, xs ++ ys)
termination_by structural params => params

/-- An expression body that goes away becomes a constant. -/
def Body.without (sc : ScopeStack) (around : List Decl) : Body → Body × List Visit
  | .absent => (.absent, [])
  | .block stmts =>
    let (stmts, xs) := stmtsWithout (sc.push .ofBody) around stmts
    (.block stmts, xs)
  | .expression e =>
    if gone ⟨sc, around, .expressionBody, e⟩ then
      (.expression (.unit e.span.toSynthetic), [⟨sc, around, .expressionBody, e⟩])
    else
      let (e, xs) := e.without sc around
      (.expression e, xs)
termination_by structural body => body

def Decl.without (sc : ScopeStack) (around : List Decl) : Decl → Decl × List Visit
  | .classDecl head info members =>
    let d : Decl := .classDecl head info members
    let (members, xs) := declsWithout (sc.entering d) (d :: around) members
    (.classDecl head info members, xs)
  | .function head info params body =>
    let d : Decl := .function head info params body
    let (params, xs) := paramsWithout (sc.entering d) (d :: around) params
    let (body, ys) := body.without (sc.entering d) (d :: around)
    (.function head info params body, xs ++ ys)
  | .property head info backing getter setter =>
    let d : Decl := .property head info backing getter setter
    let (backing, xs) := accessorWithout (sc.entering d) (d :: around) backing
    let (getter, ys) := accessorWithout (sc.entering d) (d :: around) getter
    let (setter, zs) := accessorWithout (sc.entering d) (d :: around) setter
    (.property head info backing getter setter, xs ++ ys ++ zs)
  | .field head info init =>
    let d : Decl := .field head info init
    let (init, xs) := optionWithout (sc.entering d) (d :: around) init
    (.field head info init, xs)
  | .initializer head body =>
    let d : Decl := .initializer head body
    let (body, xs) := stmtsWithout ((sc.entering d).push .ofBody) (d :: around) body
    (.initializer head body, xs)
termination_by structural d => d

def accessorWithout (sc : ScopeStack) (around : List Decl) : Option Decl → Option Decl × List Visit
  | none => (none, [])
  | some d =>
    let (d, xs) := d.without sc around
    (some d, xs)
termination_by structural d => d

def declsWithout (sc : ScopeStack) (around : List Decl) : List Decl → List Decl × List Visit
  | [] => ([], [])
  | d :: ds =>
    let (d, xs) := d.without sc around
    let (ds, ys) := declsWithout sc around ds
    (d :: ds, xs ++ ys)
termination_by structural ds => ds

end

/-- Files without what goes away in them, and the visits that are taken out. -/
def filesWithout : List SourceFile → List SourceFile × List Visit
  | [] => ([], [])
  | f :: fs =>
    let (declarations, xs) := declsWithout gone {} [] f.declarations
    let (fs, ys) := filesWithout fs
    ({ f with declarations } :: fs, xs ++ ys)

end

/-! ## Pruning by keys -/

namespace Removal

/-- Visits where the calls with a key are those that go away. -/
def Tells (keys : List CallKey) (gone : Visit → Bool) (visits : List Visit) : Prop :=
  ∀ x ∈ visits, isScheduled keys x.scopes.innermostDecl? x.expr = gone x

namespace Tells

variable {keys : List CallKey} {gone : Visit → Bool} {sc : ScopeStack} {around : List Decl}

theorem tours {ts us : List Tour} (h : Tells keys gone (toursVisits sc around (ts ++ us))) :
    Tells keys gone (toursVisits sc around ts) ∧ Tells keys gone (toursVisits sc around us) := by
  rw [toursVisits_append] at h
  exact List.forall_mem_append.mp h

theorem declTours {ts us : List DeclTour}
    (h : Tells keys gone (declToursVisits sc around (ts ++ us))) :
    Tells keys gone (declToursVisits sc around ts) ∧
      Tells keys gone (declToursVisits sc around us) := by
  rw [declToursVisits_append] at h
  exact List.forall_mem_append.mp h

/-- One tour before others. -/
theorem cons {t : Tour} {ts : List Tour} (h : Tells keys gone (toursVisits sc around (t :: ts))) :
    Tells keys gone (t.visits sc around) ∧ Tells keys gone (toursVisits sc around ts) :=
  List.forall_mem_append.mp h

theorem declCons {t : DeclTour} {ts : List DeclTour}
    (h : Tells keys gone (declToursVisits sc around (t :: ts))) :
    Tells keys gone (t.visits sc around) ∧ Tells keys gone (declToursVisits sc around ts) :=
  List.forall_mem_append.mp h

/-- What stands in an expression, and the expression. -/
theorem visit {place : Place} {e : Expr} {operands : List Tour}
    (h : Tells keys gone ((Tour.visit place e operands).visits sc around)) :
    Tells keys gone (toursVisits sc around operands) ∧
      isScheduled keys sc.innermostDecl? e = gone ⟨sc, around, place, e⟩ := by
  obtain ⟨hoperands, hown⟩ := List.forall_mem_append.mp h
  exact ⟨hoperands, hown _ List.mem_cons_self⟩

/-- What stands in the first of some expressions, and the others. -/
theorem operand {place : Place} {e : Expr} {operands ts : List Tour}
    (h : Tells keys gone (toursVisits sc around (.visit place e operands :: ts))) :
    Tells keys gone (toursVisits sc around operands) ∧ Tells keys gone (toursVisits sc around ts) :=
  ⟨h.cons.1.visit.1, h.cons.2⟩

theorem stmt {stmt : Stmt} {stmts : List Stmt}
    (h : Tells keys gone (itemsVisits sc around (stmtsItems (stmt :: stmts)))) :
    Tells keys gone (itemsVisits sc around stmt.items) ∧
      Tells keys gone (itemsVisits (sc.after stmt) around (stmtsItems stmts)) := by
  rw [stmtsItems, itemsVisits_stmt] at h
  exact List.forall_mem_append.mp h

theorem run {t : Tour} {items : List BlockItem}
    (h : Tells keys gone (itemsVisits sc around (.run t :: items))) :
    Tells keys gone (t.visits sc around) :=
  (List.forall_mem_append.mp h).1

end Tells

/-- The same outcome, with as many visits taken out as are counted. -/
def Counted {α : Type} (r : α × Nat) (r' : α × List Visit) : Prop :=
  r.1 = r'.1 ∧ r.2 = r'.2.length

namespace Counted

variable {α β γ : Type} {f : α × Nat} {f' : α × List Visit} {g : β × Nat} {g' : β × List Visit}

theorem none (a : α) : Counted (a, 0) (a, []) := ⟨rfl, rfl⟩

theorem map (h : Counted f f') (k : α → γ) : Counted (k f.1, f.2) (k f'.1, f'.2) :=
  ⟨congrArg k h.1, h.2⟩

theorem both (h : Counted f f') (h' : Counted g g') (k : α → β → γ) :
    Counted (k f.1 g.1, f.2 + g.2) (k f'.1 g'.1, f'.2 ++ g'.2) := by
  refine ⟨congrArg₂ k h.1 h'.1, ?_⟩
  rw [List.length_append, h.2, h'.2]

end Counted

open Counted

variable {keys : List CallKey} {gone : Visit → Bool}

mutual

-- Pruning goes by keys and `without` by visits. They go through the same nodes, and wherever
-- something could be taken out the keys tell what goes away.
theorem exprPrune_counted : ∀ (e : Expr) (sc : ScopeStack) (around : List Decl)
    (owner : Option DeclId), sc.innermostDecl? = owner →
      Tells keys gone (toursVisits sc around e.operandTours) →
        Counted (exprPrune keys owner e) (e.without gone sc around)
  | .setVar s var value => fun sc around owner ho h =>
    (exprPrune_counted value sc around owner ho h.operand.1).map (Expr.setVar s var)
  | .call s callee receiver typeArgs args => fun sc around owner ho h =>
    (optionPrune_counted receiver sc around .operand owner ho h.tours.1).both
      (argsPrune_counted args sc around owner ho h.tours.2) fun receiver args =>
        Expr.call s callee receiver typeArgs args
  | .block s stmts => fun sc around owner ho h =>
    (stmtsPrune_counted stmts (sc.push .ofBody) around owner ho h.cons.1).map (Expr.block s)
  | .returnable s id stmts => fun sc around owner ho h =>
    (stmtsPrune_counted stmts (sc.push .ofBody) around owner ho h.cons.1).map (Expr.returnable s id)
  | .ret s target value => fun sc around owner ho h =>
    (exprPrune_counted value sc around owner ho h.operand.1).map (Expr.ret s target)
  | .when s branches otherwise => fun sc around owner ho h =>
    (branchesPrune_counted branches sc around owner ho h.tours.1).both
      (optionPrune_counted otherwise sc around .operand owner ho h.tours.2) (Expr.when s)
  | .loop s condition body => fun sc around owner ho h =>
    (exprPrune_counted condition sc around owner ho h.operand.1).both
      (exprPrune_counted body sc around owner ho h.operand.2.operand.1) (Expr.loop s)
  | .binary s op lhs rhs => fun sc around owner ho h =>
    (exprPrune_counted lhs sc around owner ho h.operand.1).both
      (exprPrune_counted rhs sc around owner ho h.operand.2.operand.1) (Expr.binary s op)
  | .not s operand => fun sc around owner ho h =>
    (exprPrune_counted operand sc around owner ho h.operand.1).map (Expr.not s)
  | .concat s parts => fun sc around owner ho h =>
    (exprsPrune_counted parts sc around owner ho h).map (Expr.concat s)
  | .lambda s decl => fun sc around owner ho h =>
    (declPrune_counted decl sc around owner ho h.cons.1).map (Expr.lambda s)
  | .const _ _ => fun _ _ _ _ _ => none _
  | .getVar _ _ => fun _ _ _ _ _ => none _
  | .functionRef _ _ => fun _ _ _ _ _ => none _
  | .propertyRef _ _ => fun _ _ _ _ _ => none _
  | .descriptor _ _ => fun _ _ _ _ _ => none _
  | .captureFrame _ _ => fun _ _ _ _ _ => none _

theorem optionPrune_counted : ∀ (e : Option Expr) (sc : ScopeStack) (around : List Decl)
    (place : Place) (owner : Option DeclId), sc.innermostDecl? = owner →
      Tells keys gone (toursVisits sc around (optionTours place e)) →
        Counted (optionPrune keys owner e) (optionWithout gone sc around e)
  | .none => fun _ _ _ _ _ _ => none _
  | some e => fun sc around _ owner ho h =>
    (exprPrune_counted e sc around owner ho h.operand.1).map some

theorem argsPrune_counted : ∀ (args : List (Option Expr)) (sc : ScopeStack) (around : List Decl)
    (owner : Option DeclId), sc.innermostDecl? = owner →
      Tells keys gone (toursVisits sc around (argsTours args)) →
        Counted (argsPrune keys owner args) (argsWithout gone sc around args)
  | [] => fun _ _ _ _ _ => none _
  | .none :: args => fun sc around owner ho h =>
    (argsPrune_counted args sc around owner ho h).map (Option.none :: ·)
  | some e :: args => fun sc around owner ho h =>
    (exprPrune_counted e sc around owner ho h.operand.1).both
      (argsPrune_counted args sc around owner ho h.operand.2) fun e args => some e :: args

theorem exprsPrune_counted : ∀ (es : List Expr) (sc : ScopeStack) (around : List Decl)
    (owner : Option DeclId), sc.innermostDecl? = owner →
      Tells keys gone (toursVisits sc around (exprsTours es)) →
        Counted (exprsPrune keys owner es) (exprsWithout gone sc around es)
  | [] => fun _ _ _ _ _ => none _
  | e :: es => fun sc around owner ho h =>
    (exprPrune_counted e sc around owner ho h.operand.1).both
      (exprsPrune_counted es sc around owner ho h.operand.2) List.cons

theorem branchesPrune_counted : ∀ (branches : List (Expr × Expr)) (sc : ScopeStack)
    (around : List Decl) (owner : Option DeclId), sc.innermostDecl? = owner →
      Tells keys gone (toursVisits sc around (branchesTours branches)) →
        Counted (branchesPrune keys owner branches) (branchesWithout gone sc around branches)
  | [] => fun _ _ _ _ _ => none _
  | (condition, result) :: branches => fun sc around owner ho h =>
    ((exprPrune_counted condition sc around owner ho h.operand.1).both
      (exprPrune_counted result sc around owner ho h.operand.2.operand.1) Prod.mk).both
        (branchesPrune_counted branches sc around owner ho h.operand.2.operand.2) List.cons

theorem stmtsPrune_counted : ∀ (stmts : List Stmt) (sc : ScopeStack) (around : List Decl)
    (owner : Option DeclId), sc.innermostDecl? = owner →
      Tells keys gone (itemsVisits sc around (stmtsItems stmts)) →
        Counted (stmtsPrune keys owner stmts) (stmtsWithout gone sc around stmts)
  | [] => fun _ _ _ _ _ => none _
  | .expr e :: stmts => fun sc around owner ho h => by
    obtain ⟨hoperands, hown⟩ := h.stmt.1.run.visit
    have hrest := stmtsPrune_counted stmts sc around owner ho h.stmt.2
    have hscheduled : isScheduledStmt keys owner (.expr e) = gone ⟨sc, around, .statement, e⟩ := by
      rw [← hown, ho]
      rfl
    rw [stmtsPrune, stmtsWithout, hscheduled]
    split
    · exact ⟨hrest.1, congrArg (· + 1) hrest.2⟩
    · exact (exprPrune_counted e sc around owner ho hoperands).both hrest fun e stmts =>
        Stmt.expr e :: stmts
  | .var head init :: stmts => fun sc around owner ho h => by
    have hafter := (sc.innermostDecl?_after (.var head init)).trans ho
    have hinit : Tells keys gone (toursVisits sc around (optionTours .initializer init)) := by
      cases init with
      | none => nofun
      | some e => exact fun x hx => h.stmt.1.run x (by simpa [optionTours, toursVisits] using hx)
    exact (optionPrune_counted init sc around .initializer owner ho hinit).both
      (stmtsPrune_counted stmts (sc.after (.var head init)) around owner hafter h.stmt.2)
      fun init stmts => Stmt.var head init :: stmts
  | .decl d :: stmts => fun sc around owner ho h =>
    (declPrune_counted d sc around owner ho h.stmt.1.run).both
      (stmtsPrune_counted stmts sc around owner ho h.stmt.2) fun d stmts => Stmt.decl d :: stmts

theorem paramsPrune_counted : ∀ (params : List Param) (sc : ScopeStack) (around : List Decl)
    (owner : Option DeclId), sc.innermostDecl? = owner →
      Tells keys gone (toursVisits sc around (paramsTours params)) →
        Counted (paramsPrune keys owner params) (paramsWithout gone sc around params)
  | [] => fun _ _ _ _ _ => none _
  | ⟨head, default⟩ :: params => fun sc around owner ho h =>
    (optionPrune_counted default sc around .defaultValue owner ho h.tours.1).both
      (paramsPrune_counted params sc around owner ho h.tours.2) fun default params =>
        Param.mk head default :: params

theorem bodyPrune_counted : ∀ (body : Body) (sc : ScopeStack) (around : List Decl)
    (owner : Option DeclId), sc.innermostDecl? = owner →
      Tells keys gone (toursVisits sc around body.tours) →
        Counted (bodyPrune keys owner body) (body.without gone sc around)
  | .absent => fun _ _ _ _ _ => none _
  | .block stmts => fun sc around owner ho h =>
    (stmtsPrune_counted stmts (sc.push .ofBody) around owner ho h.cons.1).map Body.block
  | .expression e => fun sc around owner ho h => by
    obtain ⟨hoperands, hown⟩ := h.cons.1.visit
    rw [bodyPrune, Body.without, ← hown, ho]
    split
    · exact ⟨rfl, rfl⟩
    · exact (exprPrune_counted e sc around owner ho hoperands).map Body.expression

theorem declPrune_counted : ∀ (d : Decl) (sc : ScopeStack) (around : List Decl)
    (owner : Option DeclId), sc.innermostDecl? = owner →
      Tells keys gone (d.tour.visits sc around) →
        Counted (declPrune keys owner d) (d.without gone sc around)
  | .classDecl head info members => fun _ _ _ _ h =>
    (declsPrune_counted members _ _ _ rfl h).map (Decl.classDecl head info)
  | .function head info params body => fun _ _ _ _ h =>
    (paramsPrune_counted params _ _ _ rfl h.tours.1).both
      (bodyPrune_counted body _ _ _ rfl h.tours.2) (Decl.function head info)
  | .property head info backing getter setter => fun sc _ owner ho h =>
    ((accessorPrune_counted backing sc _ owner ho h.declTours.1.declTours.1).both
      (accessorPrune_counted getter sc _ owner ho h.declTours.1.declTours.2) Prod.mk).both
        (accessorPrune_counted setter sc _ owner ho h.declTours.2) fun p setter =>
          Decl.property head info p.1 p.2 setter
  | .field head info init => fun _ _ _ _ h =>
    (optionPrune_counted init _ _ .initializer _ rfl h).map (Decl.field head info)
  | .initializer head body => fun _ _ _ _ h =>
    (stmtsPrune_counted body _ _ _ rfl h.cons.1).map (Decl.initializer head)

theorem accessorPrune_counted : ∀ (d : Option Decl) (sc : ScopeStack) (around : List Decl)
    (owner : Option DeclId), sc.innermostDecl? = owner →
      Tells keys gone (declToursVisits sc around (accessorTours d)) →
        Counted (accessorPrune keys owner d) (accessorWithout gone sc around d)
  | .none => fun _ _ _ _ _ => none _
  | some d => fun sc around owner ho h =>
    (declPrune_counted d sc around owner ho h.declCons.1).map some

theorem declsPrune_counted : ∀ (ds : List Decl) (sc : ScopeStack) (around : List Decl)
    (owner : Option DeclId), sc.innermostDecl? = owner →
      Tells keys gone (declToursVisits sc around (declsTours ds)) →
        Counted (declsPrune keys owner ds) (declsWithout gone sc around ds)
  | [] => fun _ _ _ _ _ => none _
  | d :: ds => fun sc around owner ho h =>
    (declPrune_counted d sc around owner ho h.declCons.1).both
      (declsPrune_counted ds sc around owner ho h.declCons.2) List.cons

end

/-- Pruning by keys takes out what goes away, if the keys tell what that is. -/
theorem filesPrune_counted : ∀ fs : List SourceFile,
    Tells keys gone (fs.flatMap fun f => declToursVisits {} [] (declsTours f.declarations)) →
      Counted (filesPrune keys fs) (filesWithout gone fs)
  | [], _ => none _
  | f :: fs, h =>
    have h := List.forall_mem_append.mp h
    (declsPrune_counted f.declarations {} [] .none rfl h.1).both (filesPrune_counted fs h.2)
      fun declarations fs => ({ f with declarations } : SourceFile) :: fs

end Removal

end TraceWeave

import TraceWeave.Pipeline
import TraceWeave.Proofs.Capture.Extracted

/-! # Arguments that are written out

A relation between a program and one in which some omitted arguments are written out, by recursion
on the program. A written argument is a call with nothing but references and constants below it, so
both programs have the same declarations, variables and identities.

Extraction takes the same defaults out of both, and what is left of them is related again. For this
the default that is taken out of a parameter must not be one that an argument is written into.

`Writing` says what may be written where, `Expr.Written` and its companions up to `Module.Written`
are the relation. Both sides have the same symbols, variables and identities (`SameIndex`), so the
same index is built for them (`Module.Written.build_eq`).
-/

namespace TraceWeave

/-- Whether an expression is a reference or a constant. -/
def Expr.isLeaf : Expr → Bool
  | .const _ _ | .getVar _ _ | .functionRef _ _ | .propertyRef _ _ | .descriptor _ _
  | .captureFrame _ _ => true
  | _ => false

/-- Whether an expression is a call without a receiver whose arguments are references and
constants. -/
def Expr.isBareCall : Expr → Bool
  | .call _ _ none _ args => args.all fun a => a.all Expr.isLeaf
  | _ => false

/-- Which arguments may be written out, and which defaults must stay as they are. -/
structure Writing where
  /-- What may be written for an argument of a function that a call at a span omits. -/
  argument : DeclId → Nat → Span → Expr → Prop
  /-- The functions whose defaults are taken out. -/
  capturing : DeclHead → List Param → Bool
  linkage : Linkage

/-- The same arguments, when no more defaults are taken out. -/
def Writing.settled (w : Writing) : Writing := { w with capturing := fun _ _ => false }

/-- Arguments that are written out behind the last one of a call. -/
def tailWritten (argument : Nat → Expr → Prop) : List (Option Expr) → Nat → Prop
  | [], _ => True
  | a :: rest, i => (rest = [] → a.isSome) ∧ (∀ e, a = some e → argument i e) ∧
      tailWritten argument rest (i + 1)

section

variable (w : Writing)

mutual

/-- The same expression with some arguments written out. -/
def Expr.Written : Expr → Expr → Prop
  | .const s value => fun e' => e' = .const s value
  | .getVar s var => fun e' => e' = .getVar s var
  | .setVar s var value => fun e' => ∃ value', value.Written value' ∧ e' = .setVar s var value'
  | .call s callee receiver typeArgs args => fun e' =>
    ∃ receiver' args', optionWritten receiver receiver' ∧ argsWritten callee s.span args 0 args' ∧
      e' = .call s callee receiver' typeArgs args'
  | .functionRef s id => fun e' => e' = .functionRef s id
  | .propertyRef s id => fun e' => e' = .propertyRef s id
  | .block s stmts => fun e' => ∃ stmts', stmtsWritten stmts stmts' ∧ e' = .block s stmts'
  | .returnable s id stmts => fun e' =>
    ∃ stmts', stmtsWritten stmts stmts' ∧ e' = .returnable s id stmts'
  | .ret s target value => fun e' => ∃ value', value.Written value' ∧ e' = .ret s target value'
  | .when s branches otherwise => fun e' =>
    ∃ branches' otherwise', branchesWritten branches branches' ∧
      optionWritten otherwise otherwise' ∧ e' = .when s branches' otherwise'
  | .loop s condition body => fun e' =>
    ∃ condition' body', condition.Written condition' ∧ body.Written body' ∧
      e' = .loop s condition' body'
  | .binary s op lhs rhs => fun e' =>
    ∃ lhs' rhs', lhs.Written lhs' ∧ rhs.Written rhs' ∧ e' = .binary s op lhs' rhs'
  | .not s operand => fun e' => ∃ operand', operand.Written operand' ∧ e' = .not s operand'
  | .concat s parts => fun e' => ∃ parts', exprsWritten parts parts' ∧ e' = .concat s parts'
  | .lambda s decl => fun e' => ∃ decl', decl.Written decl' ∧ e' = .lambda s decl'
  | .descriptor s ref => fun e' => e' = .descriptor s ref
  | .captureFrame s capture => fun e' => e' = .captureFrame s capture

def optionWritten : Option Expr → Option Expr → Prop
  | none => fun e' => e' = none
  | some e => fun e' => ∃ x, e.Written x ∧ e' = some x

/-- Arguments of a call from an index on. An omitted one may be written out. -/
def argsWritten (callee : DeclId) (span : Span) :
    List (Option Expr) → Nat → List (Option Expr) → Prop
  | [] => fun i args' => tailWritten (w.argument callee · span) args' i
  | none :: args => fun i args' =>
    ∃ a rest, (∀ e, a = some e → w.argument callee i span e) ∧
      argsWritten callee span args (i + 1) rest ∧ args' = a :: rest
  | some e :: args => fun i args' =>
    ∃ x rest, e.Written x ∧ argsWritten callee span args (i + 1) rest ∧ args' = some x :: rest

def exprsWritten : List Expr → List Expr → Prop
  | [] => fun es' => es' = []
  | e :: es => fun es' => ∃ x rest, e.Written x ∧ exprsWritten es rest ∧ es' = x :: rest

def branchesWritten : List (Expr × Expr) → List (Expr × Expr) → Prop
  | [] => fun branches' => branches' = []
  | (condition, result) :: branches => fun branches' =>
    ∃ x y rest, condition.Written x ∧ result.Written y ∧ branchesWritten branches rest ∧
      branches' = (x, y) :: rest

def stmtsWritten : List Stmt → List Stmt → Prop
  | [] => fun stmts' => stmts' = []
  | stmt :: stmts => fun stmts' =>
    ∃ x rest, stmt.Written x ∧ stmtsWritten stmts rest ∧ stmts' = x :: rest

def Stmt.Written : Stmt → Stmt → Prop
  | .expr e => fun stmt' => ∃ x, e.Written x ∧ stmt' = .expr x
  | .var head init => fun stmt' => ∃ init', optionWritten init init' ∧ stmt' = .var head init'
  | .decl d => fun stmt' => ∃ d', d.Written d' ∧ stmt' = .decl d'

/-- Parameters with some arguments written out in their defaults, but where defaults are taken out,
the same ones are. -/
def paramsWritten (capturing : Bool) : List Param → List Param → Prop
  | [] => fun params' => params' = []
  | ⟨head, default⟩ :: params => fun params' =>
    ∃ default' rest, optionWritten default default' ∧
      (capturing → CallerCapture.strippedDefault? w.linkage default' =
        CallerCapture.strippedDefault? w.linkage default) ∧
      paramsWritten capturing params rest ∧ params' = ⟨head, default'⟩ :: rest

def Body.Written : Body → Body → Prop
  | .absent => fun body' => body' = .absent
  | .block stmts => fun body' => ∃ stmts', stmtsWritten stmts stmts' ∧ body' = .block stmts'
  | .expression e => fun body' => ∃ x, e.Written x ∧ body' = .expression x

/-- The same declaration with some arguments written out. -/
def Decl.Written : Decl → Decl → Prop
  | .classDecl head info members => fun d' =>
    ∃ members', declsWritten members members' ∧ d' = .classDecl head info members'
  | .function head info params body => fun d' =>
    ∃ params' body', paramsWritten (w.capturing head params) params params' ∧ body.Written body' ∧
      d' = .function head info params' body'
  | .property head info backing getter setter => fun d' =>
    ∃ backing' getter' setter', accessorWritten backing backing' ∧ accessorWritten getter getter' ∧
      accessorWritten setter setter' ∧ d' = .property head info backing' getter' setter'
  | .field head info init => fun d' => ∃ init', optionWritten init init' ∧ d' = .field head info init'
  | .initializer head body => fun d' => ∃ body', stmtsWritten body body' ∧ d' = .initializer head body'

def accessorWritten : Option Decl → Option Decl → Prop
  | none => fun d' => d' = none
  | some d => fun d' => ∃ x, d.Written x ∧ d' = some x

def declsWritten : List Decl → List Decl → Prop
  | [] => fun ds' => ds' = []
  | d :: ds => fun ds' => ∃ x rest, d.Written x ∧ declsWritten ds rest ∧ ds' = x :: rest

end

def filesWritten : List SourceFile → List SourceFile → Prop :=
  List.Forall₂ fun f f' =>
    ∃ ds', declsWritten w f.declarations ds' ∧ f' = { f with declarations := ds' }

/-- The same module with some arguments written out in its own files. -/
def Module.Written (m m' : Module) : Prop :=
  ∃ files', filesWritten w m.files files' ∧ m' = { m with files := files' }

end

variable {w : Writing}

/-! ## Heads stay the same -/

theorem Decl.Written.head_eq {d d' : Decl} (h : d.Written w d') :
    d'.head = d.head ∧ d'.isPrimaryConstructor = d.isPrimaryConstructor := by
  cases d with
  | function head info params body =>
    obtain ⟨_, _, -, -, rfl⟩ := h
    exact ⟨rfl, rfl⟩
  | property head info backing getter setter =>
    obtain ⟨_, _, _, -, -, -, rfl⟩ := h
    exact ⟨rfl, rfl⟩
  | classDecl | field | initializer =>
    obtain ⟨_, -, rfl⟩ := h
    exact ⟨rfl, rfl⟩

theorem declsWritten.ids_eq : ∀ {ds ds' : List Decl}, declsWritten w ds ds' →
    ds'.map Decl.id = ds.map Decl.id ∧ (ds'.find? Decl.isPrimaryConstructor).map Decl.id =
      (ds.find? Decl.isPrimaryConstructor).map Decl.id
  | [], _, h => by
    cases h
    exact ⟨rfl, rfl⟩
  | d :: ds, _, h => by
    obtain ⟨d', rest, hd, hrest, rfl⟩ := h
    obtain ⟨hids, hprimary⟩ := declsWritten.ids_eq hrest
    have hid : d'.id = d.id := congrArg DeclHead.id hd.head_eq.1
    refine ⟨by rw [List.map_cons, List.map_cons, hid, hids], ?_⟩
    rw [List.find?_cons, List.find?_cons, hd.head_eq.2]
    cases d.isPrimaryConstructor with
    | true => exact congrArg some hid
    | false => exact hprimary

theorem accessorWritten.id_eq {d d' : Option Decl} (h : accessorWritten w d d') :
    d'.map Decl.id = d.map Decl.id := by
  cases d with
  | none =>
    cases h
    rfl
  | some d =>
    obtain ⟨x, hd, rfl⟩ := h
    exact congrArg (fun head => some head.id) hd.head_eq.1

theorem optionWritten.isSome_eq {e e' : Option Expr} (h : optionWritten w e e') :
    e'.isSome = e.isSome := by
  cases e with
  | none =>
    cases h
    rfl
  | some e =>
    obtain ⟨x, -, rfl⟩ := h
    rfl

theorem paramsWritten.heads_eq {capturing : Bool} : ∀ {params params' : List Param},
    paramsWritten w capturing params params' →
      (params'.map fun p => (⟨p.head, p.default.isSome⟩ : ParamSymbol)) =
        params.map fun p => ⟨p.head, p.default.isSome⟩
  | [], _, h => by
    cases h
    rfl
  | ⟨head, default⟩ :: params, _, h => by
    obtain ⟨default', rest, hdefault, -, hrest, rfl⟩ := h
    rw [List.map_cons, List.map_cons, hdefault.isSome_eq, paramsWritten.heads_eq hrest]

theorem Body.Written.isPresent_eq {body body' : Body} (h : body.Written w body') :
    body'.isPresent = body.isPresent := by
  cases body with
  | absent =>
    cases h
    rfl
  | block | expression =>
    obtain ⟨_, -, rfl⟩ := h
    rfl

/-! ## Declarations, variables and identities -/

/-- Two pieces of code with the same symbols, variables and identities. -/
structure SameIndex (symbols symbols' : SymbolScope → List Symbol) (locals locals' : List VarHead)
    (nodes nodes' : List Node) : Prop where
  symbols : ∀ sc, symbols' sc = symbols sc
  locals : locals' = locals
  ids : ∀ ids : IdAllocator,
    nodes'.foldl IdAllocator.observe ids = nodes.foldl IdAllocator.observe ids

namespace SameIndex

variable {symbols symbols' syms syms' : SymbolScope → List Symbol}
  {locals locals' locs locs' : List VarHead} {ns ns' ms ms' : List Node}

theorem refl (symbols : SymbolScope → List Symbol) (locals : List VarHead) (ns : List Node) :
    SameIndex symbols symbols locals locals ns ns := ⟨fun _ => rfl, rfl, fun _ => rfl⟩

theorem append (h : SameIndex symbols symbols' locals locals' ns ns')
    (h' : SameIndex syms syms' locs locs' ms ms') :
    SameIndex (fun sc => symbols sc ++ syms sc) (fun sc => symbols' sc ++ syms' sc)
      (locals ++ locs) (locals' ++ locs') (ns ++ ms) (ns' ++ ms') where
  symbols sc := by rw [h.symbols, h'.symbols]
  locals := by rw [h.locals, h'.locals]
  ids ids := by rw [List.foldl_append, List.foldl_append, h.ids, h'.ids]

/-- A node before those below it. -/
theorem cons (h : SameIndex symbols symbols' locals locals' ns ns') {n n' : Node}
    (hn : ∀ ids : IdAllocator, ids.observe n' = ids.observe n) :
    SameIndex symbols symbols' locals locals' (n :: ns) (n' :: ns') where
  symbols := h.symbols
  locals := h.locals
  ids ids := by rw [List.foldl_cons, List.foldl_cons, hn, h.ids]

/-- A declaration around code: its variables do not count outside. -/
theorem decl {d d' : Decl} (h : SameIndex symbols symbols' locals locals' ns ns')
    {inner : SymbolScope → SymbolScope} {own own' : SymbolScope → Symbol} (hid : d'.id = d.id)
    (hsymbols : ∀ sc, d.symbols sc = symbols (inner sc) ++ [own sc])
    (hsymbols' : ∀ sc, d'.symbols sc = symbols' (inner sc) ++ [own' sc])
    (hown : ∀ sc, own' sc = own sc) :
    SameIndex d.symbols d'.symbols [] [] (.decl d :: ns) (.decl d' :: ns') where
  symbols sc := by rw [hsymbols, hsymbols', h.symbols, hown]
  locals := rfl
  ids := (h.cons fun ids => show ids.observe (.decl d') = ids.observe (.decl d) from
    congrArg ids.observeDecl hid).ids

end SameIndex

theorem Expr.sameIndex_of_isLeaf {e : Expr} (h : e.isLeaf) :
    SameIndex (fun _ => []) e.symbols [] e.locals [] e.nodes := by
  cases e with
  | const | getVar | functionRef | propertyRef | descriptor | captureFrame =>
    exact ⟨fun _ => rfl, rfl, fun _ => rfl⟩
  | _ => exact absurd h Bool.false_ne_true

theorem argsLeaf_sameIndex : ∀ (args : List (Option Expr)),
    (args.all fun a => a.all Expr.isLeaf) = true →
      SameIndex (fun _ => []) (argsSymbols · args) [] (argsLocals args) [] (argsNodes args)
  | [], _ => .refl _ _ _
  | none :: args, h => argsLeaf_sameIndex args h
  | some e :: args, h => by
    rw [List.all_cons, Bool.and_eq_true] at h
    exact (Expr.sameIndex_of_isLeaf h.1).append (argsLeaf_sameIndex args h.2)

/-- A call without a receiver whose arguments are references and constants. -/
theorem Expr.exists_of_isBareCall {e : Expr} (h : e.isBareCall) :
    ∃ s callee typeArgs args, e = .call s callee none typeArgs args ∧
      (args.all fun a => a.all Expr.isLeaf) = true := by
  unfold isBareCall at h
  split at h
  · exact ⟨_, _, _, _, rfl, h⟩
  · exact absurd h Bool.false_ne_true

/-- A written argument declares nothing. -/
theorem Expr.sameIndex_of_isBareCall {e : Expr} (h : e.isBareCall) :
    SameIndex (fun _ => []) e.symbols [] e.locals [] e.nodes := by
  obtain ⟨s, callee, typeArgs, args, rfl, hargs⟩ := e.exists_of_isBareCall h
  have hall := argsLeaf_sameIndex args hargs
  exact ⟨hall.symbols, hall.locals, hall.ids⟩

/-- All arguments that may be written out are calls with references and constants only. -/
def Writing.Bare (w : Writing) : Prop :=
  ∀ callee i span e, w.argument callee i span e → e.isBareCall

namespace Writing.Bare

variable (hw : w.Bare)

include hw

theorem omitted_sameIndex {callee : DeclId} {i : Nat} {span : Span} {a : Option Expr}
    (ha : ∀ e, a = some e → w.argument callee i span e) {args : List (Option Expr)}
    {symbols : SymbolScope → List Symbol} {locals : List VarHead} {ns : List Node}
    (h : SameIndex symbols (argsSymbols · args) locals (argsLocals args) ns (argsNodes args)) :
    SameIndex symbols (argsSymbols · (a :: args)) locals (argsLocals (a :: args)) ns
      (argsNodes (a :: args)) := by
  cases a with
  | none => exact h
  | some e => exact (Expr.sameIndex_of_isBareCall (hw _ _ _ _ (ha e rfl))).append h

theorem tail_sameIndex {callee : DeclId} {span : Span} : ∀ {args : List (Option Expr)} {i : Nat},
    tailWritten (w.argument callee · span) args i →
      SameIndex (fun _ => []) (argsSymbols · args) [] (argsLocals args) [] (argsNodes args)
  | [], _, _ => .refl _ _ _
  | _ :: _, _, h => hw.omitted_sameIndex h.2.1 (tail_sameIndex h.2.2)

end Writing.Bare

mutual

-- An argument that was written out is a leaf as far as the index goes: it has neither symbols nor
-- variables nor identities.
theorem Expr.Written.sameIndex (hw : w.Bare) : ∀ (e e' : Expr), e.Written w e' →
    SameIndex e.symbols e'.symbols e.locals e'.locals e.nodes e'.nodes
  | .setVar _ _ value => by
    rintro _ ⟨_, hvalue, rfl⟩
    exact (hvalue.sameIndex hw _ _).cons fun _ => rfl
  | .call _ _ receiver _ args => by
    rintro _ ⟨_, _, hreceiver, hargs, rfl⟩
    exact ((hreceiver.sameIndex hw _ _).append (hargs.sameIndex hw _ _ _)).cons fun _ => rfl
  | .block _ stmts => by
    rintro _ ⟨_, hstmts, rfl⟩
    exact (hstmts.sameIndex hw _ _).cons fun _ => rfl
  | .returnable _ _ stmts => by
    rintro _ ⟨_, hstmts, rfl⟩
    exact (hstmts.sameIndex hw _ _).cons fun _ => rfl
  | .ret _ _ value => by
    rintro _ ⟨_, hvalue, rfl⟩
    exact (hvalue.sameIndex hw _ _).cons fun _ => rfl
  | .when _ branches otherwise => by
    rintro _ ⟨_, _, hbranches, hotherwise, rfl⟩
    exact ((hbranches.sameIndex hw _ _).append (hotherwise.sameIndex hw _ _)).cons fun _ => rfl
  | .loop _ condition body => by
    rintro _ ⟨_, _, hcondition, hbody, rfl⟩
    exact ((hcondition.sameIndex hw _ _).append (hbody.sameIndex hw _ _)).cons fun _ => rfl
  | .binary _ _ lhs rhs => by
    rintro _ ⟨_, _, hlhs, hrhs, rfl⟩
    exact ((hlhs.sameIndex hw _ _).append (hrhs.sameIndex hw _ _)).cons fun _ => rfl
  | .not _ operand => by
    rintro _ ⟨_, hoperand, rfl⟩
    exact (hoperand.sameIndex hw _ _).cons fun _ => rfl
  | .concat _ parts => by
    rintro _ ⟨_, hparts, rfl⟩
    exact (hparts.sameIndex hw _ _).cons fun _ => rfl
  | .lambda _ decl => by
    rintro _ ⟨_, hdecl, rfl⟩
    exact (hdecl.sameIndex hw _ _).cons fun _ => rfl
  | .const _ _ | .getVar _ _ | .functionRef _ _ | .propertyRef _ _ | .descriptor _ _
  | .captureFrame _ _ => by
    rintro _ rfl
    exact .refl _ _ _

theorem optionWritten.sameIndex (hw : w.Bare) : ∀ (e e' : Option Expr), optionWritten w e e' →
    SameIndex (optionSymbols · e) (optionSymbols · e') (optionLocals e) (optionLocals e')
      (optionNodes e) (optionNodes e')
  | none => by
    rintro _ rfl
    exact .refl _ _ _
  | some _ => by
    rintro _ ⟨_, h, rfl⟩
    exact h.sameIndex hw _ _

theorem argsWritten.sameIndex (hw : w.Bare) {callee : DeclId} {span : Span} :
    ∀ (args args' : List (Option Expr)) (i : Nat), argsWritten w callee span args i args' →
      SameIndex (argsSymbols · args) (argsSymbols · args') (argsLocals args) (argsLocals args')
        (argsNodes args) (argsNodes args')
  | [] => fun _ _ h => hw.tail_sameIndex h
  | none :: args => by
    rintro _ _ ⟨a, rest, ha, hrest, rfl⟩
    exact hw.omitted_sameIndex ha (hrest.sameIndex hw _ _ _)
  | some e :: args => by
    rintro _ _ ⟨_, _, he, hrest, rfl⟩
    exact (he.sameIndex hw _ _).append (hrest.sameIndex hw _ _ _)

theorem exprsWritten.sameIndex (hw : w.Bare) : ∀ (es es' : List Expr), exprsWritten w es es' →
    SameIndex (exprsSymbols · es) (exprsSymbols · es') (exprsLocals es) (exprsLocals es')
      (exprsNodes es) (exprsNodes es')
  | [] => by
    rintro _ rfl
    exact .refl _ _ _
  | e :: es => by
    rintro _ ⟨_, _, he, hrest, rfl⟩
    exact (he.sameIndex hw _ _).append (hrest.sameIndex hw _ _)

theorem branchesWritten.sameIndex (hw : w.Bare) : ∀ (branches branches' : List (Expr × Expr)),
    branchesWritten w branches branches' →
      SameIndex (branchesSymbols · branches) (branchesSymbols · branches')
        (branchesLocals branches) (branchesLocals branches') (branchesNodes branches)
        (branchesNodes branches')
  | [] => by
    rintro _ rfl
    exact .refl _ _ _
  | (condition, result) :: branches => by
    rintro _ ⟨_, _, _, hcondition, hresult, hrest, rfl⟩
    exact ((hcondition.sameIndex hw _ _).append (hresult.sameIndex hw _ _)).append (hrest.sameIndex hw _ _)

theorem stmtsWritten.sameIndex (hw : w.Bare) : ∀ (stmts stmts' : List Stmt),
    stmtsWritten w stmts stmts' →
      SameIndex (stmtsSymbols · stmts) (stmtsSymbols · stmts') (stmtsLocals stmts)
        (stmtsLocals stmts') (stmtsNodes stmts) (stmtsNodes stmts')
  | [] => by
    rintro _ rfl
    exact .refl _ _ _
  | stmt :: stmts => by
    rintro _ ⟨_, _, hstmt, hrest, rfl⟩
    exact (hstmt.sameIndex hw _ _).append (hrest.sameIndex hw _ _)

theorem Stmt.Written.sameIndex (hw : w.Bare) : ∀ (stmt stmt' : Stmt), stmt.Written w stmt' →
    SameIndex stmt.symbols stmt'.symbols stmt.locals stmt'.locals stmt.nodes stmt'.nodes
  | .expr _ => by
    rintro _ ⟨_, h, rfl⟩
    exact h.sameIndex hw _ _
  | .var head init => by
    rintro _ ⟨_, hinit, rfl⟩
    have hindex := hinit.sameIndex hw _ _
    have hids := hindex.cons fun ids => (rfl : ids.observe (.var head) = ids.observe (.var head))
    exact ⟨hindex.symbols, congrArg (head :: ·) hindex.locals, hids.ids⟩
  | .decl _ => by
    rintro _ ⟨_, h, rfl⟩
    exact h.sameIndex hw _ _

theorem paramsWritten.sameIndex (hw : w.Bare) {capturing : Bool} :
    ∀ (params params' : List Param), paramsWritten w capturing params params' →
      SameIndex (paramsSymbols · params) (paramsSymbols · params') [] [] (paramsNodes params)
        (paramsNodes params')
  | [] => by
    rintro _ rfl
    exact .refl _ _ _
  | ⟨head, default⟩ :: params => by
    rintro _ ⟨_, _, hdefault, -, hrest, rfl⟩
    have hboth := (hdefault.sameIndex hw _ _).append (hrest.sameIndex hw _ _)
    have hids := hboth.cons fun ids => (rfl : ids.observe (.param head) = ids.observe (.param head))
    exact ⟨hboth.symbols, rfl, hids.ids⟩

theorem Body.Written.sameIndex (hw : w.Bare) : ∀ (body body' : Body), body.Written w body' →
    SameIndex body.symbols body'.symbols body.locals body'.locals body.nodes body'.nodes
  | .absent => by
    rintro _ rfl
    exact .refl _ _ _
  | .block _ => by
    rintro _ ⟨_, h, rfl⟩
    exact h.sameIndex hw _ _
  | .expression _ => by
    rintro _ ⟨_, h, rfl⟩
    exact h.sameIndex hw _ _

theorem Decl.Written.sameIndex (hw : w.Bare) : ∀ (d d' : Decl), d.Written w d' →
    SameIndex d.symbols d'.symbols [] [] d.nodes d'.nodes
  | .classDecl head info members => by
    rintro _ ⟨members', hmembers, rfl⟩
    obtain ⟨hids, hprimary⟩ := hmembers.ids_eq
    refine (hmembers.sameIndex hw _ _).decl rfl (fun _ => rfl) (fun _ => rfl) fun sc => ?_
    rw [hids, hprimary]
    rfl
  | .function head info params body => by
    rintro _ ⟨params', body', hparams, hbody, rfl⟩
    have hinside := (hparams.sameIndex hw _ _).append (hbody.sameIndex hw _ _)
    refine hinside.decl rfl (fun _ => rfl) (fun _ => rfl) fun sc => ?_
    rw [hparams.heads_eq, hbody.isPresent_eq, (hbody.sameIndex hw _ _).locals]
    rfl
  | .property head info backing getter setter => by
    rintro _ ⟨_, _, _, hbacking, hgetter, hsetter, rfl⟩
    have hinside := ((hbacking.sameIndex hw _ _).append (hgetter.sameIndex hw _ _)).append
      (hsetter.sameIndex hw _ _)
    refine hinside.decl rfl (fun _ => rfl) (fun _ => rfl) fun sc => ?_
    rw [hbacking.id_eq, hgetter.id_eq, hsetter.id_eq]
    rfl
  | .field head info init => by
    rintro _ ⟨_, hinit, rfl⟩
    exact (hinit.sameIndex hw _ _).decl rfl (fun _ => rfl) (fun _ => rfl) fun _ => rfl
  | .initializer head body => by
    rintro _ ⟨_, hbody, rfl⟩
    exact (hbody.sameIndex hw _ _).decl rfl (fun _ => rfl) (fun _ => rfl) fun _ => rfl

theorem accessorWritten.sameIndex (hw : w.Bare) : ∀ (d d' : Option Decl), accessorWritten w d d' →
    SameIndex (accessorSymbols · d) (accessorSymbols · d') [] [] (accessorNodes d) (accessorNodes d')
  | none => by
    rintro _ rfl
    exact .refl _ _ _
  | some _ => by
    rintro _ ⟨_, h, rfl⟩
    exact h.sameIndex hw _ _

theorem declsWritten.sameIndex (hw : w.Bare) : ∀ (ds ds' : List Decl), declsWritten w ds ds' →
    SameIndex (declsSymbols · ds) (declsSymbols · ds') [] [] (declsNodes ds) (declsNodes ds')
  | [] => by
    rintro _ rfl
    exact .refl _ _ _
  | d :: ds => by
    rintro _ ⟨_, _, hd, hrest, rfl⟩
    exact (hd.sameIndex hw _ _).append (hrest.sameIndex hw _ _)

end

/-! ## Modules -/

theorem filesWritten.addFile_eq (hw : w.Bare) (external : Bool) {fs fs' : List SourceFile}
    (h : filesWritten w fs fs') (t : SymbolTable) :
    fs'.foldl (SymbolTable.addFile external) t = fs.foldl (SymbolTable.addFile external) t := by
  induction h generalizing t with
  | nil => rfl
  | @cons f _ _ _ hf _ ih =>
    obtain ⟨ds', hds, rfl⟩ := hf
    have hfile : SymbolTable.addFile external t { f with declarations := ds' } =
        SymbolTable.addFile external t f := by
      unfold SymbolTable.addFile
      rw [(hds.sameIndex hw _ _).symbols]
    rw [List.foldl_cons, List.foldl_cons, hfile, ih]

theorem filesWritten.observe_eq (hw : w.Bare) {fs fs' : List SourceFile} (h : filesWritten w fs fs')
    (ids : IdAllocator) :
    (filesNodes fs').foldl IdAllocator.observe ids =
      (filesNodes fs).foldl IdAllocator.observe ids := by
  induction h generalizing ids with
  | nil => rfl
  | cons hf _ ih =>
    obtain ⟨ds', hds, rfl⟩ := hf
    unfold filesNodes at ih ⊢
    rw [List.flatMap_cons, List.flatMap_cons, List.foldl_append, List.foldl_append, ih,
      (hds.sameIndex hw _ _).ids]

namespace Module.Written

variable {m m' : Module}

/-- Both modules have the same index. -/
theorem build_eq (h : m.Written w m') (hw : w.Bare) :
    SymbolTable.build m' = SymbolTable.build m := by
  obtain ⟨files', hfiles, rfl⟩ := h
  unfold SymbolTable.build
  rw [hfiles.addFile_eq hw]

theorem syncIds (h : m.Written w m') (hw : w.Bare) : m.syncIds.Written w m'.syncIds := by
  obtain ⟨files', hfiles, rfl⟩ := h
  refine ⟨files', hfiles, ?_⟩
  have hids : ({ m with files := files' } : Module).nodes.foldl IdAllocator.observe m.ids =
      m.nodes.foldl IdAllocator.observe m.ids := by
    rw [nodes_eq, nodes_eq, List.foldl_append, List.foldl_append, hfiles.observe_eq hw]
  unfold Module.syncIds
  rw [hids]

end Module.Written

/-! ## Requested types -/

namespace Pipeline

mutual

theorem traceable_written : ∀ (d d' : Decl), d.Written w d' →
    (traceable d').map Decl.head = (traceable d).map Decl.head
  | .classDecl head info members => by
    rintro _ ⟨members', hmembers, rfl⟩
    exact congrArg (head :: ·) (traceables_written members members' hmembers)
  | .property head info backing getter setter => by
    rintro _ ⟨backing', getter', setter', -, hgetter, hsetter, rfl⟩
    simp only [traceable, List.map_cons, List.map_append,
      traceableOption_written setter setter' hsetter, traceableOption_written getter getter' hgetter]
    rfl
  | .function _ _ _ _ => by
    rintro _ ⟨_, _, -, -, rfl⟩
    rfl
  | .field _ _ _ | .initializer _ _ => by
    rintro _ ⟨_, -, rfl⟩
    rfl

theorem traceableOption_written : ∀ (d d' : Option Decl), accessorWritten w d d' →
    (traceableOption d').map Decl.head = (traceableOption d).map Decl.head
  | none => by
    rintro _ rfl
    rfl
  | some d => by
    rintro _ ⟨d', hd, rfl⟩
    exact traceable_written d d' hd

theorem traceables_written : ∀ (ds ds' : List Decl), declsWritten w ds ds' →
    (traceables ds').map Decl.head = (traceables ds).map Decl.head
  | [] => by
    rintro _ rfl
    rfl
  | d :: ds => by
    rintro _ ⟨d', ds', hd, hds, rfl⟩
    simp only [traceables, List.map_append, traceables_written ds ds' hds,
      traceable_written d d' hd]

end

theorem addRequested_congr (o : Options) : ∀ {ds ds' : List Decl} (set : TraceSet),
    ds'.map Decl.head = ds.map Decl.head → addRequested o ds' set = addRequested o ds set
  | [], [], _, _ => rfl
  | d :: ds, d' :: ds', set, h => by
    rw [List.map_cons, List.map_cons, List.cons.injEq] at h
    rw [addRequested, addRequested, h.1]
    split
    · exact addRequested_congr o _ h.2
    · rfl

theorem declsWritten_append : ∀ {xs xs' ys ys' : List Decl}, declsWritten w xs xs' →
    declsWritten w ys ys' → declsWritten w (xs ++ ys) (xs' ++ ys')
  | [], _, _, _, hxs, hys => by
    cases hxs
    exact hys
  | _ :: _, _, _, _, hxs, hys => by
    obtain ⟨x', rest, hx, hrest, rfl⟩ := hxs
    exact ⟨x', _, hx, declsWritten_append hrest hys, rfl⟩

theorem declarations_written {fs fs' : List SourceFile} (h : filesWritten w fs fs') :
    declsWritten w (fs.flatMap SourceFile.declarations) (fs'.flatMap SourceFile.declarations) := by
  induction h with
  | nil => rfl
  | cons hf _ ih =>
    obtain ⟨ds', hds, rfl⟩ := hf
    exact declsWritten_append hds ih

/-- Both modules ask for the same hooks. -/
theorem checkLinkage_written {m m' : Module} (h : m.Written w m') (o : Options) (l : Linkage) :
    checkLinkage o m' l = checkLinkage o m l := by
  obtain ⟨files', hfiles, rfl⟩ := h
  have hrequested : requestedTypes o { m with files := files' } = requestedTypes o m :=
    addRequested_congr o _ (traceables_written _ _ (declarations_written hfiles))
  rw [checkLinkage, checkLinkage, hrequested]

end Pipeline

end TraceWeave

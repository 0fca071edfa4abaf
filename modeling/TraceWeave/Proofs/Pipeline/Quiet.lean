import TraceWeave.Proofs.Descriptor.Growth
import TraceWeave.Proofs.Pipeline.Rerun
import TraceWeave.Proofs.Program.Rewrites

/-! # Runs that report no changes

Every pass counts what it changes, with one exception: injection writes out the omitted arguments of
a call of a marked function whether or not it fills one of them. So a run without reported changes
leaves the module as it is up to omitted arguments at the end of such calls.

`PassState.Quiet` is a pass without changes, and `Module.runVisitor_of_zero` says what its module
is. `Module.padCalls` writes the omitted arguments out, and `Pipeline.zero_report_leaves_module`
is about whole runs.
-/

namespace TraceWeave

/-! ## Extraction -/

namespace CallerCapture

variable {env : PassEnv}

open ComesTo

/-- Extraction that has marked nothing yet. -/
abbrev Unmarked (x : Extraction) : Prop := x.marked = 0

mutual

theorem exprExtract_comesTo : ∀ e : Expr, ComesTo Unmarked (exprExtract env e) e
  | .setVar s var value => (exprExtract_comesTo value).map (Expr.setVar s var)
  | .call s callee receiver typeArgs args =>
    (optionExtract_comesTo receiver).seq (argsExtract_comesTo args)
      fun receiver args => Expr.call s callee receiver typeArgs args
  | .block s stmts => (stmtsExtract_comesTo stmts).map (Expr.block s)
  | .returnable s id stmts => (stmtsExtract_comesTo stmts).map (Expr.returnable s id)
  | .ret s target value => (exprExtract_comesTo value).map (Expr.ret s target)
  | .when s branches otherwise =>
    (branchesExtract_comesTo branches).seq (optionExtract_comesTo otherwise) (Expr.when s)
  | .loop s condition body =>
    (exprExtract_comesTo condition).seq (exprExtract_comesTo body) (Expr.loop s)
  | .binary s op lhs rhs => (exprExtract_comesTo lhs).seq (exprExtract_comesTo rhs) (Expr.binary s op)
  | .not s operand => (exprExtract_comesTo operand).map (Expr.not s)
  | .concat s parts => (exprsExtract_comesTo parts).map (Expr.concat s)
  | .lambda s decl => (declExtract_comesTo decl).map (Expr.lambda s)
  | .const _ _ | .getVar _ _ | .functionRef _ _ | .propertyRef _ _ | .descriptor _ _
  | .captureFrame _ _ => nothing

theorem optionExtract_comesTo : ∀ e : Option Expr, ComesTo Unmarked (optionExtract env e) e
  | none => nothing
  | some e => (exprExtract_comesTo e).map some

theorem argsExtract_comesTo : ∀ args : List (Option Expr),
    ComesTo Unmarked (argsExtract env args) args
  | [] => nothing
  | none :: args => (argsExtract_comesTo args).map (none :: ·)
  | some e :: args =>
    (exprExtract_comesTo e).seq (argsExtract_comesTo args) fun e args => some e :: args

theorem exprsExtract_comesTo : ∀ es : List Expr, ComesTo Unmarked (exprsExtract env es) es
  | [] => nothing
  | e :: es => (exprExtract_comesTo e).seq (exprsExtract_comesTo es) List.cons

theorem branchesExtract_comesTo : ∀ branches : List (Expr × Expr),
    ComesTo Unmarked (branchesExtract env branches) branches
  | [] => nothing
  | (condition, result) :: branches =>
    (exprExtract_comesTo condition).seq
      ((exprExtract_comesTo result).seq (branchesExtract_comesTo branches) Prod.mk)
        fun c p => (c, p.1) :: p.2

theorem stmtsExtract_comesTo : ∀ stmts : List Stmt, ComesTo Unmarked (stmtsExtract env stmts) stmts
  | [] => nothing
  | stmt :: stmts => (stmtExtract_comesTo stmt).seq (stmtsExtract_comesTo stmts) List.cons

theorem stmtExtract_comesTo : ∀ stmt : Stmt, ComesTo Unmarked (stmtExtract env stmt) stmt
  | .expr e => (exprExtract_comesTo e).map Stmt.expr
  | .var head init => (optionExtract_comesTo init).map (Stmt.var head)
  | .decl d => (declExtract_comesTo d).map Stmt.decl

/-- Only where a function is captured, defaults are taken out. -/
theorem paramsExtract_comesTo (capturing : Bool) : ∀ params : List Param,
    ∃ params', ComesTo Unmarked (paramsExtract env capturing params) params' ∧
      (capturing = false → params' = params)
  | [] => ⟨[], nothing, fun _ => rfl⟩
  | ⟨head, default⟩ :: params => by
    obtain ⟨params', hparams, hkept⟩ := paramsExtract_comesTo capturing params
    by_cases htaken : (capturing && (strippedDefault? env.linkage default).isSome) = true
    · refine ⟨⟨head, none⟩ :: params', ?_, fun hfalse => ?_⟩
      · have hstep : ∀ x, paramsExtract env capturing (⟨head, default⟩ :: params) x =
            (⟨head, none⟩ :: (paramsExtract env capturing params x).1,
              (paramsExtract env capturing params x).2) := by
          intro x
          rw [paramsExtract, if_pos htaken]
        rw [funext hstep]
        exact hparams.map _
      · rw [hfalse] at htaken
        cases htaken
    · refine ⟨⟨head, default⟩ :: params', ?_, fun hfalse => by rw [hkept hfalse]⟩
      have hstep : ∀ x, paramsExtract env capturing (⟨head, default⟩ :: params) x =
          (⟨head, (optionExtract env default x).1⟩ ::
            (paramsExtract env capturing params (optionExtract env default x).2).1,
            (paramsExtract env capturing params (optionExtract env default x).2).2) := by
        intro x
        rw [paramsExtract, if_neg htaken]
      rw [funext hstep]
      exact (optionExtract_comesTo default).seq hparams fun default params =>
        Param.mk head default :: params

theorem bodyExtract_comesTo : ∀ body : Body, ComesTo Unmarked (bodyExtract env body) body
  | .absent => nothing
  | .block stmts => (stmtsExtract_comesTo stmts).map Body.block
  | .expression e => (exprExtract_comesTo e).map Body.expression

theorem declExtract_comesTo : ∀ d : Decl, ComesTo Unmarked (declExtract env d) d
  | .classDecl head info members => (declsExtract_comesTo members).map (Decl.classDecl head info)
  | .function head info params body => by
    intro x hquiet
    rw [declExtract] at hquiet ⊢
    split at hquiet
    · -- the function was marked, which was counted
      obtain ⟨params', hparams, -⟩ := paramsExtract_comesTo true params
      obtain ⟨hmid, -⟩ := bodyExtract_comesTo body _ hquiet
      obtain ⟨hmarked, -⟩ := hparams _ hmid
      cases hmarked
    · rename_i hfree
      obtain ⟨params', hparams, hkept⟩ := paramsExtract_comesTo false params
      obtain ⟨hmid, hbody⟩ := bodyExtract_comesTo body _ hquiet
      obtain ⟨hx, hresult⟩ := hparams _ hmid
      rw [if_neg hfree]
      exact ⟨hx, congrArg₂ (Decl.function head info) (hresult.trans (hkept rfl)) hbody⟩
  | .property head info backing getter setter =>
    (accessorExtract_comesTo backing).seq ((accessorExtract_comesTo getter).seq
      (accessorExtract_comesTo setter) Prod.mk) fun backing p =>
        Decl.property head info backing p.1 p.2
  | .field head info init => (optionExtract_comesTo init).map (Decl.field head info)
  | .initializer head body => (stmtsExtract_comesTo body).map (Decl.initializer head)

theorem accessorExtract_comesTo : ∀ d : Option Decl, ComesTo Unmarked (accessorExtract env d) d
  | none => nothing
  | some d => (declExtract_comesTo d).map some

theorem declsExtract_comesTo : ∀ ds : List Decl, ComesTo Unmarked (declsExtract env ds) ds
  | [] => nothing
  | d :: ds => (declExtract_comesTo d).seq (declsExtract_comesTo ds) List.cons

end

theorem filesExtract_comesTo : ∀ fs : List SourceFile, ComesTo Unmarked (filesExtract env fs) fs
  | [] => nothing
  | f :: fs => (declsExtract_comesTo f.declarations).seq (filesExtract_comesTo fs)
    fun declarations fs => ({ f with declarations } : SourceFile) :: fs

/-- A module in which no function is marked stays as it is. -/
theorem extract_of_unmarked {m : Module} {captured : CapturedDefaults}
    (h : (extract env m captured).2.marked = 0) : (extract env m captured).1 = m := by
  have hfiles : (filesExtract env m.files { captured }).1 = m.files :=
    (filesExtract_comesTo m.files _ h).2
  show { m with files := (filesExtract env m.files { captured }).1 } = m
  rw [hfiles]

end CallerCapture

/-! ## Removal -/

namespace Removal

/-- What is left is `a` if nothing was taken out. -/
def Whole {α : Type} (pruned : α × Nat) (a : α) : Prop := pruned.2 = 0 → pruned.1 = a

namespace Whole

variable {α β γ : Type} {p : α × Nat} {q : β × Nat} {a : α} {b : β}

theorem nothing : Whole (a, 0) a := fun _ => rfl

theorem map (h : Whole p a) (k : α → γ) : Whole (k p.1, p.2) (k a) := fun hzero =>
  congrArg k (h hzero)

theorem seq (h : Whole p a) (h' : Whole q b) (k : α → β → γ) :
    Whole (k p.1 q.1, p.2 + q.2) (k a b) := by
  intro hzero
  obtain ⟨hp, hq⟩ := Nat.add_eq_zero_iff.mp hzero
  exact congrArg₂ k (h hp) (h' hq)

end Whole

open Whole

variable {keys : List CallKey}

mutual

-- Counts are added up, so a count of zero was zero in every part.
theorem exprPrune_whole (owner : Option DeclId) : ∀ e : Expr, Whole (exprPrune keys owner e) e
  | .setVar s var value => (exprPrune_whole owner value).map (Expr.setVar s var)
  | .call s callee receiver typeArgs args =>
    (optionPrune_whole owner receiver).seq (argsPrune_whole owner args)
      fun receiver args => Expr.call s callee receiver typeArgs args
  | .block s stmts => (stmtsPrune_whole owner stmts).map (Expr.block s)
  | .returnable s id stmts => (stmtsPrune_whole owner stmts).map (Expr.returnable s id)
  | .ret s target value => (exprPrune_whole owner value).map (Expr.ret s target)
  | .when s branches otherwise =>
    (branchesPrune_whole owner branches).seq (optionPrune_whole owner otherwise) (Expr.when s)
  | .loop s condition body =>
    (exprPrune_whole owner condition).seq (exprPrune_whole owner body) (Expr.loop s)
  | .binary s op lhs rhs =>
    (exprPrune_whole owner lhs).seq (exprPrune_whole owner rhs) (Expr.binary s op)
  | .not s operand => (exprPrune_whole owner operand).map (Expr.not s)
  | .concat s parts => (exprsPrune_whole owner parts).map (Expr.concat s)
  | .lambda s decl => (declPrune_whole owner decl).map (Expr.lambda s)
  | .const _ _ | .getVar _ _ | .functionRef _ _ | .propertyRef _ _ | .descriptor _ _
  | .captureFrame _ _ => nothing

theorem optionPrune_whole (owner : Option DeclId) : ∀ e : Option Expr,
    Whole (optionPrune keys owner e) e
  | none => nothing
  | some e => (exprPrune_whole owner e).map some

theorem argsPrune_whole (owner : Option DeclId) : ∀ args : List (Option Expr),
    Whole (argsPrune keys owner args) args
  | [] => nothing
  | none :: args => (argsPrune_whole owner args).map (none :: ·)
  | some e :: args =>
    (exprPrune_whole owner e).seq (argsPrune_whole owner args) fun e args => some e :: args

theorem exprsPrune_whole (owner : Option DeclId) : ∀ es : List Expr,
    Whole (exprsPrune keys owner es) es
  | [] => nothing
  | e :: es => (exprPrune_whole owner e).seq (exprsPrune_whole owner es) List.cons

theorem branchesPrune_whole (owner : Option DeclId) : ∀ branches : List (Expr × Expr),
    Whole (branchesPrune keys owner branches) branches
  | [] => nothing
  | (condition, result) :: branches =>
    ((exprPrune_whole owner condition).seq (exprPrune_whole owner result) Prod.mk).seq
      (branchesPrune_whole owner branches) List.cons

/-- Statements that were taken out are counted. -/
theorem stmtsPrune_whole (owner : Option DeclId) : ∀ stmts : List Stmt,
    Whole (stmtsPrune keys owner stmts) stmts
  | [] => nothing
  | stmt :: stmts => by
    rw [stmtsPrune]
    split
    · intro hzero
      cases hzero
    · exact (stmtPrune_whole owner stmt).seq (stmtsPrune_whole owner stmts) List.cons

theorem stmtPrune_whole (owner : Option DeclId) : ∀ stmt : Stmt,
    Whole (stmtPrune keys owner stmt) stmt
  | .expr e => (exprPrune_whole owner e).map Stmt.expr
  | .var head init => (optionPrune_whole owner init).map (Stmt.var head)
  | .decl d => (declPrune_whole owner d).map Stmt.decl

theorem paramsPrune_whole (owner : Option DeclId) : ∀ params : List Param,
    Whole (paramsPrune keys owner params) params
  | [] => nothing
  | ⟨head, default⟩ :: params =>
    (optionPrune_whole owner default).seq (paramsPrune_whole owner params)
      fun default params => Param.mk head default :: params

/-- A body that became a constant is counted. -/
theorem bodyPrune_whole (owner : Option DeclId) : ∀ body : Body,
    Whole (bodyPrune keys owner body) body
  | .absent => nothing
  | .block stmts => (stmtsPrune_whole owner stmts).map Body.block
  | .expression e => by
    rw [bodyPrune]
    split
    · intro hzero
      cases hzero
    · exact (exprPrune_whole owner e).map Body.expression

theorem declPrune_whole (owner : Option DeclId) : ∀ d : Decl, Whole (declPrune keys owner d) d
  | .classDecl head info members =>
    (declsPrune_whole (some head.id) members).map (Decl.classDecl head info)
  | .function head info params body =>
    (paramsPrune_whole (some head.id) params).seq (bodyPrune_whole (some head.id) body)
      (Decl.function head info)
  | .property head info backing getter setter =>
    ((accessorPrune_whole owner backing).seq (accessorPrune_whole owner getter) Prod.mk).seq
      (accessorPrune_whole owner setter) fun p => Decl.property head info p.1 p.2
  | .field head info init => (optionPrune_whole (some head.id) init).map (Decl.field head info)
  | .initializer head body =>
    (stmtsPrune_whole (some head.id) body).map (Decl.initializer head)

theorem accessorPrune_whole (owner : Option DeclId) : ∀ d : Option Decl,
    Whole (accessorPrune keys owner d) d
  | none => nothing
  | some d => (declPrune_whole owner d).map some

theorem declsPrune_whole (owner : Option DeclId) : ∀ ds : List Decl,
    Whole (declsPrune keys owner ds) ds
  | [] => nothing
  | d :: ds => (declPrune_whole owner d).seq (declsPrune_whole owner ds) List.cons

end

theorem filesPrune_whole : ∀ fs : List SourceFile, Whole (filesPrune keys fs) fs
  | [] => nothing
  | f :: fs => (declsPrune_whole none f.declarations).seq (filesPrune_whole fs)
    fun declarations fs => ({ f with declarations } : SourceFile) :: fs

theorem run_of_zero {env : PassEnv} {m m' : Module} (h : run env m = .ok (m', 0)) : m' = m := by
  unfold run at h
  obtain ⟨keys, -, hprune⟩ := Except.of_bind h
  obtain ⟨hmodule, hremoved⟩ := Prod.mk.inj (Except.ok.inj hprune)
  rw [← hmodule, filesPrune_whole m.files hremoved]

end Removal

/-! ## Walks of passes -/

namespace PassState

/-- A pass that has neither failed nor changed anything, and that has allocated no identities. -/
structure Quiet (ids : IdAllocator) (st : PassState) : Prop where
  failure : st.failure = none
  edits : st.edits = 0
  bodies : st.bodies = 0
  ids : st.ids = ids

variable {ids : IdAllocator}

/-- A pass only works on a node before it has failed. -/
theorem comesTo_edit {α : Type} {step : α → PassState → α × PassState} {node a : α}
    (h : ∀ st, st.failure = none → Quiet ids (step node st).2 →
      Quiet ids st ∧ (step node st).1 = a) : ComesTo (Quiet ids) (edit step node) a := by
  intro st hquiet
  obtain ⟨hfailure, hstep⟩ := of_edit hquiet.failure
  rw [hstep] at hquiet ⊢
  exact h st hfailure hquiet

/-- What a pass hands back at once. -/
theorem comesTo_left {α : Type} {step : α → PassState → α × PassState} {node : α}
    (h : ∀ st, step node st = (node, st)) : ComesTo (Quiet ids) (edit step node) node := by
  refine comesTo_edit fun st _ hquiet => ?_
  rw [h] at hquiet ⊢
  exact ⟨hquiet, rfl⟩

end PassState

/-- A walk that counts no changes leaves the module that its visitor rewrites to. -/
theorem Module.runVisitor_of_zero {m : Module} {v : Visitor PassState} {store : Store}
    {g : Expr → Expr} (hv : ∀ ids, v.Rewrites (PassState.Quiet ids) g)
    (h : (m.runVisitor v store).outcome = .ok 0) :
    (m.runVisitor v store).module = m.rewrite g := by
  have hfailure := Module.failure_of_runVisitor h
  have hzero : (filesWalk v m.files { ids := m.ids, store }).2.edits +
      (filesWalk v m.files { ids := m.ids, store }).2.bodies = 0 := by
    simp only [runVisitor, PassResult.ofWalk, hfailure] at h
    exact Except.ok.inj h
  obtain ⟨hedits, hbodies⟩ := Nat.add_eq_zero_iff.mp hzero
  obtain ⟨hstart, hfiles⟩ := filesWalk_comesTo (hv _) m.files _ ⟨hfailure, hedits, hbodies, rfl⟩
  have hids : m.ids = _ := hstart.ids
  rw [runVisitor, Module.rewrite, ← hfiles]
  show { m with files := _, ids := _ } = { m with files := _ }
  rw [← hids]

namespace CallerCapture

/-- How many arguments the calls of a function have at least behind injection: one for each
parameter if the function is marked. -/
def slots (o : Options) (t : SymbolTable) (callee : DeclId) : Nat :=
  match t.function? callee with
  | none => 0
  | some (s, info) =>
    if (AnnotationUse.find? s.head.annotations o.callerCapture.marker).isSome then
      info.params.length
    else 0

/-- A call with all arguments written out that it omits at its end. -/
def padCall (o : Options) (t : SymbolTable) : Expr → Expr
  | .call s callee receiver typeArgs args =>
    .call s callee receiver typeArgs (padArgs (slots o t callee) args)
  | e => e

/-- Whether a call has all arguments written out. -/
def isPadded (o : Options) (t : SymbolTable) : Expr → Bool
  | .call _ callee _ _ args => decide (slots o t callee ≤ args.length)
  | _ => true

theorem padArgs_eq_iff {n : Nat} {args : List (Option Expr)} :
    padArgs n args = args ↔ n ≤ args.length := by
  rw [padArgs, List.append_right_eq_self, List.replicate_eq_nil_iff]
  omega

theorem padCall_eq_iff {o : Options} {t : SymbolTable} {e : Expr} :
    padCall o t e = e ↔ isPadded o t e = true := by
  cases e with
  | call s callee receiver typeArgs args =>
    rw [padCall, isPadded, decide_eq_true_iff, ← padArgs_eq_iff]
    exact ⟨fun heq => (Expr.call.inj heq).2.2.2.2, congrArg _⟩
  | _ => exact iff_of_true rfl rfl

theorem padCall_tellsCalls (o : Options) (t : SymbolTable) : TellsCalls (padCall o t) where
  other e he := by
    cases e with
    | call => cases he
    | _ => rfl
  call {s callee receiver receiver' typeArgs args args'} hlength heq := by
    obtain ⟨-, -, hreceiver, -, hargs⟩ := Expr.call.inj heq
    refine ⟨hreceiver, ?_⟩
    have hpadded := congrArg List.length hargs
    rw [padArgs, List.length_append] at hpadded
    have hnone : List.replicate (slots o t callee - args'.length) (none : Option Expr) = [] :=
      List.eq_nil_of_length_eq_zero (by omega)
    rw [padArgs, hnone, List.append_nil] at hargs
    exact hargs

variable {env : PassEnv}

theorem slots_of_modesOf {callee : DeclId} {modes? : Option (List String)}
    (h : modesOf env callee = .ok modes?) :
    slots env.options env.symbols callee = (modes?.getD []).length := by
  unfold modesOf at h
  unfold slots
  cases hfunction : env.symbols.function? callee with
  | none =>
    rw [hfunction] at h
    cases h
    rfl
  | some known =>
    obtain ⟨s, info⟩ := known
    rw [hfunction] at h
    dsimp only at h ⊢
    cases hfind : AnnotationUse.find? s.head.annotations env.options.callerCapture.marker with
    | none =>
      rw [hfind] at h
      cases h
      rfl
    | some use =>
      rw [hfind] at h
      dsimp only at h
      split at h
      · cases h
      · split at h
        · cases h
        · rename_i hlength
          cases h
          exact (Decidable.not_not.mp hlength).symm

/-- Where nothing is filled, the arguments stay. -/
theorem fillArgs_of_zero {fresh : Nat → String → Except Error Expr} :
    ∀ (args : List (Option Expr)) (modes : List String) (i : Nat),
      (fillArgs fresh i args modes).2.1 = 0 → (fillArgs fresh i args modes).1 = args
  | [], modes, i, _ => by cases modes <;> rfl
  | arg :: args, [], i, _ => rfl
  | arg :: args, mode :: modes, i, hzero => by
    rw [fillArgs] at hzero ⊢
    split at hzero
    · rename_i hkept
      rw [if_pos hkept]
      exact congrArg (arg :: ·) (fillArgs_of_zero args modes (i + 1) hzero)
    · rename_i hfill
      rw [if_neg hfill]
      cases hfresh : fresh i mode with
      | error e => rfl
      | ok e =>
        rw [hfresh] at hzero
        cases hzero

theorem injector_rewrites (captured : CapturedDefaults) (ids : IdAllocator) :
    (injector env captured).Rewrites (PassState.Quiet ids) (padCall env.options env.symbols) where
  onExpr sc place e := by
    cases e with
    | call s callee receiver typeArgs args =>
      refine PassState.comesTo_edit fun st hfailure hquiet => ?_
      rw [injectCall] at hquiet ⊢
      cases hmodes : modesOf env callee with
      | error err =>
        rw [hmodes] at hquiet
        exact absurd hquiet.failure (Option.some_ne_none err)
      | ok modes? =>
        rw [hmodes] at hquiet
        rw [padCall, slots_of_modesOf hmodes]
        cases modes? with
        | none => exact ⟨hquiet, by rw [Option.getD_none, List.length_nil, padArgs_zero]⟩
        | some modes =>
          obtain ⟨hedits, hfilled⟩ := Nat.add_eq_zero_iff.mp hquiet.edits
          exact ⟨⟨hfailure, hedits, hquiet.bodies, hquiet.ids⟩,
            congrArg (Expr.call s callee receiver typeArgs)
              (fillArgs_of_zero _ _ _ hfilled)⟩
    | _ => exact PassState.comesTo_left fun _ => rfl
  onDecl _ _ := .nothing

end CallerCapture

namespace Dispatch

theorem dispatcher_rewrites (registry : Registry) (env : PassEnv) (ids : IdAllocator) :
    (dispatcher registry env).Rewrites (PassState.Quiet ids) id where
  onExpr sc place e := by
    cases e with
    | call s callee receiver typeArgs args =>
      refine PassState.comesTo_edit fun st hfailure hquiet => ?_
      unfold replaceCall at hquiet ⊢
      dsimp only at hquiet ⊢
      split at hquiet
      · exact ⟨hquiet, rfl⟩
      · split at hquiet
        · -- a call that was replaced is counted
          split at hquiet
          · exact nomatch hquiet.edits
          · exact nomatch hquiet.failure
        · rename_i hrejected
          rw [if_neg hrejected]
          exact ⟨hquiet, rfl⟩
    | _ => exact PassState.comesTo_left fun _ => rfl
  onDecl _ _ := .nothing

end Dispatch

namespace Instrument

variable {env : PassEnv} {st st' : PassState}

/-- A call that is left alone leaves the state alone. -/
theorem eq_of_prepareCall_none {sc : ScopeStack} {site : Site} {callee : DeclId}
    (h : (prepareCall env sc site callee).runOn st = (.ok none, st')) : st' = st := by
  unfold prepareCall at h
  split at h
  · exact (Build.of_pure h).2
  · obtain ⟨types, u, htypes, hrest⟩ := Build.of_bind h
    obtain ⟨-, rfl⟩ := Build.of_ofExcept htypes
    dsimp only at hrest
    split at hrest
    · exact (Build.of_pure hrest).2
    · obtain ⟨-, -, rfl⟩ | ⟨c, -, hsome, -⟩ := Build.of_onlyIf hrest
      · rfl
      · cases hsome

theorem eq_of_prepareBody_none {sc : ScopeStack} {head : DeclHead}
    (h : (prepareBody env sc head).runOn st = (.ok none, st')) : st' = st := by
  obtain ⟨around, u, haround, hrest⟩ := Build.of_bind h
  obtain ⟨-, rfl⟩ := Build.of_ofExcept haround
  obtain ⟨own, u, hown, hhooks⟩ := Build.of_bind hrest
  obtain ⟨-, rfl⟩ := Build.of_ofExcept hown
  obtain ⟨-, -, rfl⟩ | ⟨hooks, -, hsome, -⟩ := Build.of_onlyIf hhooks
  · rfl
  · cases hsome

theorem instrumenter_rewrites (env : PassEnv) (ids : IdAllocator) :
    (instrumenter env).Rewrites (PassState.Quiet ids) id where
  onExpr sc place e := by
    cases e with
    | call site callee receiver typeArgs args =>
      refine PassState.comesTo_edit fun st hfailure hquiet => ?_
      unfold instrumentCall at hquiet ⊢
      dsimp only at hquiet ⊢
      split at hquiet
      · exact nomatch hquiet.failure
      · -- All other ways out count a change or fail, and this state has done neither.
        rename_i hprepare
        rw [eq_of_prepareCall_none hprepare] at hquiet
        exact ⟨hquiet, rfl⟩
      · split at hquiet
        · exact nomatch hquiet.failure
        · exact nomatch hquiet.edits
    | _ => exact PassState.comesTo_left fun _ => rfl
  onDecl sc d := by
    cases d with
    | function head info params body =>
      refine PassState.comesTo_edit fun st hfailure hquiet => ?_
      unfold instrumentBody at hquiet ⊢
      dsimp only at hquiet ⊢
      split at hquiet
      · rename_i hleft
        rw [if_pos hleft]
        exact ⟨hquiet, rfl⟩
      · rename_i hown
        rw [if_neg hown]
        split at hquiet
        · exact nomatch hquiet.failure
        · rename_i hprepare
          rw [eq_of_prepareBody_none hprepare] at hquiet
          exact ⟨hquiet, rfl⟩
        · exact nomatch hquiet.bodies
    | _ => exact PassState.comesTo_left fun _ => rfl

end Instrument

/-! ## Runs -/

/-- A module whose calls of marked functions have all arguments written out that they omit at their
end. -/
def Module.padCalls (m : Module) (o : Options) : Module :=
  m.rewrite (CallerCapture.padCall o (SymbolTable.build m))

namespace PipelineState

variable {setup : PipelineSetup} {s t : PipelineState}

theorem runPass_of_zero {pass : PassName} (h : s.runPass setup pass = (.ok 0, t)) :
    t.module = if pass = .injectCallerArguments then s.module.padCalls setup.options
      else s.module := by
  obtain ⟨env, henv, hpass⟩ := of_runPass h
  obtain ⟨hoptions, hsymbols, -⟩ := PassEnv.build_eq_ok henv
  -- Injection is the one pass that may change something without counting it.
  cases pass with
  | extractCallerDefaults =>
    obtain ⟨hmarked, rfl⟩ := Prod.mk.inj hpass
    exact CallerCapture.extract_of_unmarked (Except.ok.inj hmarked)
  | injectCallerArguments =>
    obtain ⟨houtcome, rfl⟩ := of_ofResult hpass
    rw [if_pos rfl, Module.padCalls, ← hoptions, ← hsymbols]
    exact Module.runVisitor_of_zero (CallerCapture.injector_rewrites s.captured) houtcome
  | intrinsicDispatch =>
    obtain ⟨houtcome, rfl⟩ := of_ofResult hpass
    exact (Module.runVisitor_of_zero (Dispatch.dispatcher_rewrites setup.registry env)
      houtcome).trans s.module.rewrite_id
  | traceRemoval =>
    rw [runPassIn] at hpass
    split at hpass
    · rename_i m removed hrun
      obtain ⟨hremoved, rfl⟩ := Prod.mk.inj hpass
      obtain rfl := Except.ok.inj hremoved
      exact Removal.run_of_zero hrun
    · cases hpass
  | tracingInstrumentation =>
    obtain ⟨houtcome, rfl⟩ := of_ofResult hpass
    exact (Module.runVisitor_of_zero (Instrument.instrumenter_rewrites env)
      houtcome).trans s.module.rewrite_id

/-- The first of the passes of a run that report no changes. -/
theorem of_runPasses_zero {pass : PassName} {passes : List PassName}
    {outcomes : List (PassName × Nat)}
    (h : s.runPasses setup (pass :: passes) = (.ok outcomes, t))
    (hzero : Pipeline.totalChanges outcomes = 0) :
    ∃ u outcomes', s.runPass setup pass = (.ok 0, u) ∧
      u.runPasses setup passes = (.ok outcomes', t) ∧ Pipeline.totalChanges outcomes' = 0 := by
  obtain ⟨n, u, outcomes', hpass, hrest, rfl⟩ := of_runPasses_cons h
  obtain ⟨hfirst, hothers⟩ := Nat.add_eq_zero_iff.mp hzero
  obtain rfl : n = 0 := hfirst
  exact ⟨u, outcomes', hpass, hrest, hothers⟩

theorem runPasses_of_zero : ∀ {passes : List PassName} {s : PipelineState}
    {outcomes : List (PassName × Nat)}, .injectCallerArguments ∉ passes →
      s.runPasses setup passes = (.ok outcomes, t) → Pipeline.totalChanges outcomes = 0 →
        t.module = s.module
  | [], s, outcomes, _, h, _ => by
    cases h
    rfl
  | pass :: passes, s, outcomes, hpasses, h, hzero => by
    rw [List.mem_cons, not_or] at hpasses
    obtain ⟨u, outcomes', hpass, hrest, hothers⟩ := of_runPasses_zero h hzero
    have hmodule := runPass_of_zero hpass
    rw [if_neg (Ne.symm hpasses.1)] at hmodule
    exact (runPasses_of_zero hpasses.2 hrest hothers).trans hmodule

end PipelineState

namespace Pipeline

/-- The passes of a run behind caller capture. -/
theorem passes_eq_capture (o : Options) : ∃ rest, .injectCallerArguments ∉ rest ∧
    passes o = (if o.callerCapture.enabled then
      [PassName.extractCallerDefaults, .injectCallerArguments] else []) ++ rest := by
  refine ⟨[PassName.intrinsicDispatch, .traceRemoval, .tracingInstrumentation].filter
    (PassName.isEnabled o), ?_, ?_⟩
  · simp
  · cases henabled : o.callerCapture.enabled <;>
      simp [passes, PassName.all, PassName.isEnabled, henabled]

theorem module_of_zero {setup : PipelineSetup} {m : Module} {store : Store}
    {outcomes : List (PassName × Nat)} {t : PipelineState}
    (h : run setup m store = (.ok outcomes, t)) (hzero : totalChanges outcomes = 0) :
    t.module = if setup.options.callerCapture.enabled then m.syncIds.padCalls setup.options
      else m.syncIds := by
  have hpasses : PipelineState.runPasses setup (passes setup.options)
      { module := m.syncIds, store } = (.ok outcomes, t) := by
    unfold run runFrom at h
    split at h
    · cases h
    · split at h
      · cases h
      · exact h
  obtain ⟨rest, hrest, heq⟩ := passes_eq_capture setup.options
  rw [heq] at hpasses
  split at hpasses
  · rename_i henabled
    obtain ⟨u, _, hextract, hpasses, hzero⟩ := PipelineState.of_runPasses_zero hpasses hzero
    obtain ⟨v, _, hinject, hpasses, hzero⟩ := PipelineState.of_runPasses_zero hpasses hzero
    have hextracted : u.module = m.syncIds := PipelineState.runPass_of_zero hextract
    have hinjected : v.module = u.module.padCalls setup.options :=
      PipelineState.runPass_of_zero hinject
    rw [if_pos henabled, PipelineState.runPasses_of_zero hrest hpasses hzero, hinjected, hextracted]
  · rename_i hdisabled
    rw [if_neg hdisabled]
    exact PipelineState.runPasses_of_zero hrest hpasses hzero

/-- Every call of a marked function has an argument, given or omitted, for each parameter. -/
def WritesArguments (o : Options) (m : Module) : Prop :=
  ∀ x ∈ m.visits, CallerCapture.isPadded o (SymbolTable.build m) x.expr = true

instance (o : Options) (m : Module) : Decidable (WritesArguments o m) :=
  inferInstanceAs (Decidable (∀ x ∈ m.visits, _))

theorem padCalls_eq_iff {o : Options} {m : Module} : m.padCalls o = m ↔ WritesArguments o m := by
  rw [Module.padCalls, Module.rewrite_eq_iff (CallerCapture.padCall_tellsCalls o _)]
  exact forall₂_congr fun x _ => CallerCapture.padCall_eq_iff

/-- **Runs that report no changes.** Such a run leaves a module with counted identities as it is up
to the omitted arguments that injection writes out, so it leaves it unchanged exactly if caller
capture is off or every call of a marked function has all its arguments written out. -/
theorem zero_report_leaves_module {setup : PipelineSetup} {m : Module} (hsynced : m.syncIds = m)
    {store : Store} {outcomes : List (PassName × Nat)}
    (hrun : (run setup m store).1 = .ok outcomes) (hzero : totalChanges outcomes = 0) :
    (run setup m store).2.module =
        (if setup.options.callerCapture.enabled then m.padCalls setup.options else m) ∧
      ((run setup m store).2.module = m ↔
        (setup.options.callerCapture.enabled = true → WritesArguments setup.options m)) := by
  have hmodule := module_of_zero (Prod.ext hrun rfl : run setup m store = (.ok outcomes, _)) hzero
  rw [hsynced] at hmodule
  refine ⟨hmodule, ?_⟩
  rw [hmodule]
  split
  · rename_i henabled
    rw [padCalls_eq_iff]
    exact ⟨fun h _ => h, fun h => h henabled⟩
  · rename_i hdisabled
    exact iff_of_true rfl fun henabled => absurd henabled hdisabled

/-! ### A call that is padded -/

namespace QuietSample

def span (start : Int32) : Span := ⟨⟨0⟩, start, start + 1⟩

/-- A function that was marked although it captures nothing. -/
def log : Decl :=
  .function
    { id := ⟨1⟩, span := span 5,
      annotations := [CallerCapture.marker "spyglass.internal.CallerCapture" ⟨0⟩ ["none"]] }
    { name := "log", returnTy := .unit }
    [⟨{ id := ⟨0⟩, name := "text", ty := .string, span := span 6 }, some (.ofString (span 7) "")⟩]
    (.block [])

/-- A program that calls the function with some arguments. -/
def calling (args : List (Option Expr)) : Module where
  name := "quiet"
  files := [{
    id := ⟨0⟩
    path := "Main.kt"
    declarations :=
      [.function { id := ⟨0⟩, span := span 1 } { name := "main", returnTy := .unit } []
        (.block [.expr (.call ⟨span 2, .unit⟩ ⟨1⟩ none [] args)]), log] }]
  ids := ⟨2, 1, 0⟩

def setup : PipelineSetup where
  options := {}
  sources := fun _ => []

/-- How many arguments the calls of a module have. -/
def argumentCounts (m : Module) : List Nat :=
  m.visits.filterMap fun x => match x.expr with
    | .call _ _ _ _ args => some args.length
    | _ => none

end QuietSample

open QuietSample

/-- A call with an omitted argument that is written out stays as it is. -/
theorem QuietSample.written_call_stays :
    (run setup (calling [none]) {}).2.module = calling [none] := by
  have hrun : (run setup (calling [none]) {}).1 =
      .ok ((passes setup.options).map fun pass => (pass, 0)) := by decide +kernel
  exact (zero_report_leaves_module rfl hrun (by decide)).2.mpr fun _ => by decide +kernel

/-- A call with an omitted argument that is not written out gets it, which is not reported. -/
theorem QuietSample.padded_call_not_reported :
    (calling []).syncIds = calling [] ∧
      (run setup (calling []) {}).1 = .ok ((passes setup.options).map fun pass => (pass, 0)) ∧
      totalChanges ((passes setup.options).map fun pass => (pass, 0)) = 0 ∧
      (run setup (calling []) {}).2.module ≠ calling [] := by
  refine ⟨rfl, by decide +kernel, by decide, fun heq => ?_⟩
  have hcounts := congrArg argumentCounts heq
  exact absurd hcounts (by decide +kernel)

end Pipeline

end TraceWeave

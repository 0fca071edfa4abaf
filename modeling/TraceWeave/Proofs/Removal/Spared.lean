import TraceWeave.Proofs.Removal.Pruned

/-! # Values that removal spares

A trace call that tells a name comes to `Unit` and does nothing else that can be seen. So code runs
without it as it ran before, unless the call was the last statement of a block whose value is used:
then the block comes to the value of the statement before. `Expr.spared` says that this does not
happen, and code that is spared matches what is left of it.

Values are compared where they are used (`Removal.wanted`), one lemma for each kind of node;
`Removal.SideBySide.runFunction_pruned` is about whole functions.
-/

namespace TraceWeave

open Interpreter Tracing Removal

/-! ## Values that are used -/

/-- Whether a statement comes to `Unit` if it comes to a value. -/
def Stmt.isUnit : Stmt → Bool
  | .var _ _ | .decl _ | .expr (.setVar _ _ _) | .expr (.loop _ _ _) => true
  | .expr _ => false

mutual

/-- Whether an expression that the scheduled calls are taken out of keeps the values that are used,
its own one if it is `used`. -/
def Expr.spared (keys : List CallKey) (owner : Option DeclId) (used : Bool) : Expr → Bool
  | .setVar _ _ value => value.spared keys owner true
  | .call _ _ receiver _ args =>
    optionSpared keys owner false receiver && argsSpared keys owner args
  | .block _ stmts => stmtsSpared keys owner used stmts
  | .returnable _ _ stmts => stmtsSpared keys owner used stmts
  | .ret _ _ value => value.spared keys owner true
  | .when _ branches otherwise =>
    branchesSpared keys owner used branches && optionSpared keys owner used otherwise
  | .loop _ condition body => condition.spared keys owner true && body.spared keys owner false
  | .binary _ _ lhs rhs => lhs.spared keys owner true && rhs.spared keys owner true
  | .not _ operand => operand.spared keys owner true
  | .concat _ parts => exprsSpared keys owner parts
  | .const _ _ | .getVar _ _ | .functionRef _ _ | .propertyRef _ _ | .lambda _ _
  | .descriptor _ _ | .captureFrame _ _ => true

def optionSpared (keys : List CallKey) (owner : Option DeclId) (used : Bool) : Option Expr → Bool
  | none => true
  | some e => e.spared keys owner used

def argsSpared (keys : List CallKey) (owner : Option DeclId) : List (Option Expr) → Bool
  | [] => true
  | none :: args => argsSpared keys owner args
  | some e :: args => e.spared keys owner true && argsSpared keys owner args

def exprsSpared (keys : List CallKey) (owner : Option DeclId) : List Expr → Bool
  | [] => true
  | e :: es => e.spared keys owner true && exprsSpared keys owner es

def branchesSpared (keys : List CallKey) (owner : Option DeclId) (used : Bool) :
    List (Expr × Expr) → Bool
  | [] => true
  | (condition, result) :: branches =>
    condition.spared keys owner true && result.spared keys owner used &&
      branchesSpared keys owner used branches

/-- A statement that becomes the last one of a block whose value is used is the last one already,
or it comes to `Unit` like the calls behind it. -/
def stmtsSpared (keys : List CallKey) (owner : Option DeclId) (used : Bool) : List Stmt → Bool
  | [] => true
  | stmt :: stmts =>
    if isScheduledStmt keys owner stmt then stmtsSpared keys owner used stmts
    else
      stmt.spared keys owner (used && stmts.isEmpty) &&
        (stmts.isEmpty || !used || stmt.isUnit || !stmts.all (isScheduledStmt keys owner)) &&
        stmtsSpared keys owner used stmts

def Stmt.spared (keys : List CallKey) (owner : Option DeclId) (used : Bool) : Stmt → Bool
  | .expr e => e.spared keys owner used
  | .var _ init => optionSpared keys owner true init
  | .decl _ => true

end

def paramsSpared (keys : List CallKey) (owner : Option DeclId) : List Param → Bool
  | [] => true
  | ⟨_, default⟩ :: params => optionSpared keys owner true default && paramsSpared keys owner params

/-- A body that is a scheduled call as a whole comes to `Unit` before and after. -/
def Body.spared (keys : List CallKey) (owner : Option DeclId) (used : Bool) : Body → Bool
  | .absent => true
  | .block stmts => stmtsSpared keys owner used stmts
  | .expression e => isScheduled keys owner e || e.spared keys owner used

/-- The code of a function, whose value is used unless its type is `Unit`. -/
def Decl.spared (keys : List CallKey) : Decl → Bool
  | .function head info params body =>
    paramsSpared keys (some head.id) params &&
      body.spared keys (some head.id) (info.returnTy ≠ .unit)
  | _ => true

/-! ## Runs side by side -/

namespace Removal

/-- Runs with the same values and the same visible host calls. -/
def visibly (names : HookNames) : Comparison Unit where
  terms := { excuses := fun _ => False, stopped := SameVisible names }
  logs _ := SameVisible names
  values _ := Eq
  unwinds _ _ _ := same (SameVisible names)
  eq_of_values h := h
  stopped_of_logs _ _ _ h := h
  stopped_of_unwinds h := h.2

/-- What values have in common: they are the same, if they are used. -/
def wanted (names : HookNames) : Bool → Value → Value → LogRel
  | true => same (SameVisible names)
  | false => fun _ _ => SameVisible names

/-- Flows in the code of a function. -/
def flow (names : HookNames) (own : DeclId) (used : Bool) : Flow → Flow → LogRel :=
  Flow.Rel (wanted names used) ((visibly names).returns own ())

section

variable {names : HookNames} {own : DeclId} {used : Bool} {v w : Value} {l k : List HostCall}

theorem wanted_of_same (h : same (SameVisible names) v w l k) : wanted names used v w l k := by
  cases used with
  | true => exact h
  | false => exact h.2

theorem wanted_iff : wanted names used v w l k ↔ (used = true → v = w) ∧ SameVisible names l k := by
  cases used with
  | true => exact ⟨fun h => ⟨fun _ => h.1, h.2⟩, fun h => ⟨h.1 rfl, h.2⟩⟩
  | false => exact ⟨fun h => ⟨fun hused => absurd hused Bool.false_ne_true, h⟩, fun h => h.2⟩

theorem returns_iff {target : ReturnTarget} :
    (visibly names).returns own () target v w l k ↔ same (SameVisible names) v w l k := by
  cases target <;> exact Iff.rfl

variable {mask : List Bool} {pre : LogRel} {x y : Eval Flow}

/-- Values that are the same, used or not. -/
theorem flow_of_same
    (h : Matches (visibly names).terms mask pre (flow names own true) x y) :
    Matches (visibly names).terms mask pre (flow names own used) x y :=
  h.post_mono (Flow.Rel.mono (fun _ _ _ _ => wanted_of_same) fun _ _ _ _ _ hr => hr)

theorem value_matches (v : Value) :
    Matches (visibly names).terms mask (SameVisible names) (flow names own used)
      (Eval.yield (.value v)) (Eval.yield (.value v)) :=
  Matches.value fun _ _ hl => wanted_of_same ⟨rfl, hl⟩

end

/-- Two activations of a function whose calls match, the first of which can make trace calls. -/
structure SideBySide (names : HookNames) (keys : List CallKey) (a b : Activation) : Prop where
  rounds : b.rounds = a.rounds
  observer : a.observer = {}
  observer' : b.observer = {}
  call : ∀ id args span, CallsMatch (visibly names).terms (SameVisible names)
    (same (SameVisible names)) (a.call id args span) (b.call id args span)
  tells : ∀ key ∈ keys, ∀ name span, ∃ told, visible names [told] = [] ∧
    a.call key.callee [some (.string name)] span =
      Eval.andThen (Eval.tell [told]) fun _ => Eval.yield .unit

namespace SideBySide

variable {names : HookNames} {keys : List CallKey} {a b : Activation} {own : DeclId}
  {owner : Option DeclId} {mask : List Bool}

theorem seen (s : SideBySide names keys a b) (e : Expr) (step : Eval Flow) : a.seen e step = step := by
  rw [Activation.seen, s.observer]

theorem seen' (s : SideBySide names keys a b) (e : Expr) (step : Eval Flow) :
    b.seen e step = step := by
  rw [Activation.seen, s.observer']

/-- What a scheduled call does. -/
theorem eval_scheduled (s : SideBySide names keys a b) {e : Expr} (he : isScheduled keys owner e)
    (htells : tellsName e) : ∃ told, visible names [told] = [] ∧
      e.eval a = Eval.andThen (Eval.tell [told]) fun _ => Eval.yield (.value .unit) := by
  obtain ⟨site, callee, typeArgs, site', name, rfl⟩ := exists_of_tellsName htells
  obtain ⟨told, hvisible, hcall⟩ :=
    s.tells ⟨owner, site.span, callee⟩ (List.contains_iff_mem.mp he) name site.span
  refine ⟨told, hvisible, ?_⟩
  rw [Expr.eval, s.seen, optionEval, argsEval, Expr.eval, s.seen]
  simp only [argsEval, List.reverse_cons, List.reverse_nil, List.nil_append]
  change Eval.andThen (a.call callee [some (.string name)] site.span) _ = _
  rw [hcall, Eval.andThen_assoc]
  rfl

/-- The first run makes a call that the second one does not make. -/
theorem drop_matches {post : Flow → Flow → LogRel} {e : Expr} {next : Value → Eval Flow}
    {y : Eval Flow} (s : SideBySide names keys a b) (he : isScheduled keys owner e)
    (htells : tellsName e)
    (h : Matches (visibly names).terms mask (SameVisible names) post (next .unit) y) :
    Matches (visibly names).terms mask (SameVisible names) post (withValue (e.eval a) next) y := by
  obtain ⟨told, hvisible, heval⟩ := s.eval_scheduled he htells
  rw [heval, andThen_withValue]
  refine Matches.tell_left h fun l k hl => ?_
  rw [SameVisible, List.reverse_singleton, visible_append, hvisible, List.nil_append]
  exact hl

/-- What stands around two steps. -/
theorem around {post : Flow → Flow → LogRel} {x y : Eval Flow} {e e' : Expr}
    (s : SideBySide names keys a b)
    (h : Matches (visibly names).terms mask (SameVisible names) post x y) :
    Matches (visibly names).terms mask (SameVisible names) post (a.seen e x) (b.seen e' y) := by
  rw [s.seen, s.seen']
  exact h

end SideBySide

/-! ## Statements that come to `Unit` -/

/-- Whether a step comes to nothing but `Unit`. -/
def OnlyUnit (step : Eval Flow) : Prop :=
  ∀ m v n, step m = (.done (.value v), n) → v = .unit

theorem onlyUnit_yield : OnlyUnit (Eval.yield (.value .unit)) := by
  intro m v n hv
  injection hv with hflow
  injection hflow with hflow
  injection hflow with hv
  exact hv.symm

theorem OnlyUnit.andThen {α : Type} {next : α → Eval Flow} (h : ∀ a, OnlyUnit (next a))
    (step : Eval α) : OnlyUnit (Eval.andThen step next) := by
  intro m v n hv
  unfold Eval.andThen at hv
  rcases hstep : step m with ⟨u | e | _, n'⟩
  · rw [hstep] at hv
    exact h u n' v n hv
  all_goals
    rw [hstep] at hv
    exact nomatch congrArg Prod.fst hv

theorem OnlyUnit.withValue {next : Value → Eval Flow} (h : ∀ u, OnlyUnit (next u))
    (step : Eval Flow) : OnlyUnit (withValue step next) := by
  refine OnlyUnit.andThen (fun flow => ?_) step
  cases flow with
  | value u => exact h u
  | ret target u => exact fun _ _ _ hv => nomatch congrArg Prod.fst hv

theorem onlyUnit_fail (e : Error) : OnlyUnit (Eval.fail e) :=
  fun _ _ _ hv => nomatch congrArg Prod.fst hv

theorem onlyUnit_evalSet (site : Site) (var : VarId) (v : Value) :
    OnlyUnit (evalSet site var v) := by
  refine OnlyUnit.andThen (fun f => ?_) _
  cases f.assign? var v with
  | some g => exact OnlyUnit.andThen (fun _ => onlyUnit_yield) _
  | none => exact onlyUnit_fail _

theorem onlyUnit_evalLoop (condition body : Eval Flow) :
    ∀ rounds, OnlyUnit (evalLoop condition body rounds)
  | 0 => fun _ _ _ hv => nomatch congrArg Prod.fst hv
  | rounds + 1 => by
    refine OnlyUnit.withValue (fun u => OnlyUnit.andThen (fun holds => ?_) _) _
    cases holds with
    | true => exact OnlyUnit.withValue (fun _ => onlyUnit_evalLoop condition body rounds) _
    | false => exact onlyUnit_yield

theorem onlyUnit_eval {a : Activation} (ha : a.observer = {}) {stmt : Stmt} (h : stmt.isUnit) :
    OnlyUnit (stmt.eval a) := by
  unfold Stmt.isUnit at h
  split at h
  · rw [Stmt.eval]
    exact OnlyUnit.withValue (fun v => OnlyUnit.andThen (fun _ => onlyUnit_yield) _) _
  · rw [Stmt.eval]
    exact onlyUnit_yield
  · rw [Stmt.eval, Expr.eval, Activation.seen, ha]
    exact OnlyUnit.withValue (onlyUnit_evalSet _ _) _
  · rw [Stmt.eval, Expr.eval, Activation.seen, ha]
    exact onlyUnit_evalLoop _ _ _
  · exact absurd h Bool.false_ne_true

/-- Two steps that come to nothing but `Unit`. -/
theorem OnlyUnit.matches_of {t : Terms} {mask : List Bool} {pre : LogRel}
    {values : Value → Value → LogRel} {returns : ReturnTarget → Value → Value → LogRel}
    {x y : Eval Flow} (hx : OnlyUnit x) (hy : OnlyUnit y)
    (h : Matches t mask pre (Flow.Rel values returns) x y) :
    Matches t mask pre
      (Flow.Rel (fun v w l k => (v = .unit ∧ w = .unit) ∧ values v w l k) returns) x y := by
  intro f rest rest' l k hf hlen hl
  obtain ⟨o, g, l', hxrun, hg, ho⟩ := h f rest rest' l k hf hlen hl
  refine ⟨o, g, l', hxrun, hg, ho.imp_right ?_⟩
  rintro ⟨o', k', hyrun, hag⟩
  refine ⟨o', k', hyrun, ?_⟩
  rcases o with (v | ⟨target, v⟩) | e | _ <;> rcases o' with (w | ⟨target', w⟩) | e' | _ <;>
    first
    | exact ⟨⟨hx _ _ _ hxrun, hy _ _ _ hyrun⟩, hag⟩
    | exact hag

theorem isUnit_stmtPrune (keys : List CallKey) (owner : Option DeclId) {stmt : Stmt}
    (h : stmt.isUnit) : (stmtPrune keys owner stmt).1.isUnit := by
  unfold Stmt.isUnit at h
  split at h
  · rfl
  · rfl
  · rfl
  · rfl
  · exact absurd h Bool.false_ne_true

end Removal

/-! ## Code that calls were taken out of -/

section

variable {names : HookNames} {keys : List CallKey} {a b : Activation} {own : DeclId}
  {owner : Option DeclId}

/-- The value that a block goes on with after a statement that stays, and the value that the block
goes on with that calls were taken out of. They are the same where it matters. -/
def Removal.Follows (keys : List CallKey) (owner : Option DeclId) (used : Bool) (stmts : List Stmt)
    (v w : Value) : Prop :=
  used = true → stmts.all (isScheduledStmt keys owner) = true →
    w = if stmts.isEmpty then v else .unit

theorem Removal.follows_unit (keys : List CallKey) (owner : Option DeclId) (used : Bool)
    (stmts : List Stmt) : Follows keys owner used stmts .unit .unit := by
  intro _ _
  split <;> rfl

/-- A statement that stays is followed by the others as before. -/
theorem Removal.SideBySide.kept_matches (s : SideBySide names keys a b) {stmt : Stmt}
    {stmts : List Stmt} {used : Bool} {mask : List Bool}
    (hends : (stmts.isEmpty || !used || stmt.isUnit ||
      !stmts.all (isScheduledStmt keys owner)) = true)
    (h : Matches (visibly names).terms mask (SameVisible names)
      (flow names own (used && stmts.isEmpty)) (stmt.eval a) ((stmtPrune keys owner stmt).1.eval b)) :
    Matches (visibly names).terms mask (SameVisible names)
      (Flow.Rel (fun v w l k => Follows keys owner used stmts v w ∧ SameVisible names l k)
        ((visibly names).returns own ())) (stmt.eval a) ((stmtPrune keys owner stmt).1.eval b) := by
  by_cases hunit : stmt.isUnit
  · refine ((onlyUnit_eval s.observer hunit).matches_of
      (onlyUnit_eval s.observer' (isUnit_stmtPrune keys owner hunit)) h).post_mono
      (Flow.Rel.mono ?_ fun _ _ _ _ _ hr => hr)
    rintro _ _ l k ⟨⟨rfl, rfl⟩, hl⟩
    exact ⟨follows_unit keys owner used stmts, (wanted_iff.mp hl).2⟩
  · refine h.post_mono (Flow.Rel.mono ?_ fun _ _ _ _ _ hr => hr)
    intro v w l k hl
    obtain ⟨hvalue, hlog⟩ := wanted_iff.mp hl
    refine ⟨fun hused hall => ?_, hlog⟩
    obtain hempty : stmts.isEmpty = true := by simpa [hused, hall, hunit] using hends
    rw [if_pos hempty]
    exact (hvalue (by rw [hused, hempty]; rfl)).symm

mutual

-- One case for each kind of node. Whether a value is used goes along: nothing is asked of a value
-- that is not, and only the end of a block passes the question on to a statement.
theorem exprPrune_matches (s : SideBySide names keys a b) : ∀ (e : Expr) (used : Bool),
    e.spared keys owner used → Plain keys e.nodes → ∀ mask,
      Matches (visibly names).terms mask (SameVisible names) (flow names own used) (e.eval a)
        ((exprPrune keys owner e).1.eval b)
  | .const site value, used, _, _, mask => by
    rw [exprPrune, Expr.eval, Expr.eval]
    exact s.around (value_matches _)
  | .getVar site var, used, _, _, mask => by
    rw [exprPrune, Expr.eval, Expr.eval]
    exact s.around (flow_of_same (Matches.evalGet (fun _ _ hl => hl) site var))
  | .setVar site var value, used, h, hp, mask => by
    rw [Expr.spared] at h
    change Matches _ _ _ _ _ ((Expr.setVar site var (exprPrune keys owner value).1).eval b)
    rw [Expr.eval, Expr.eval]
    exact s.around (flow_of_same ((exprPrune_matches s value true h hp.cons mask).withValue
      (Matches.of_same fun v => Matches.evalSet (fun _ _ hl => hl) site var v)))
  | .call site callee receiver typeArgs args, used, h, hp, mask => by
    rw [Expr.spared, Bool.and_eq_true] at h
    change Matches _ _ _ _ _ ((Expr.call site callee (optionPrune keys owner receiver).1 typeArgs
      (argsPrune keys owner args).1).eval b)
    rw [Expr.eval, Expr.eval]
    refine s.around (flow_of_same
      ((optionPrune_matches s receiver false h.1 hp.cons.left .unit mask).withValue fun _ _ =>
        argsPrune_matches s args h.2 hp.cons.right mask _ _ (fun vs => ?_) []))
    exact (s.call callee vs site.span).inCode.andThen (Matches.of_same fun v => value_matches v)
  | .functionRef site id, used, _, _, mask => by
    rw [exprPrune, Expr.eval, Expr.eval]
    exact s.around (Matches.fail _ fun _ _ hl => hl)
  | .propertyRef site id, used, _, _, mask => by
    rw [exprPrune, Expr.eval, Expr.eval]
    exact s.around (Matches.fail _ fun _ _ hl => hl)
  | .block site stmts, used, h, hp, mask => by
    rw [Expr.spared] at h
    change Matches _ _ _ _ _ ((Expr.block site (stmtsPrune keys owner stmts).1).eval b)
    rw [Expr.eval, Expr.eval]
    exact s.around (stmtsPrune_matches s stmts used h hp.cons .unit .unit mask
      (follows_unit keys owner used stmts)).inScope
  | .returnable site id stmts, used, h, hp, mask => by
    rw [Expr.spared] at h
    change Matches _ _ _ _ _ ((Expr.returnable site id (stmtsPrune keys owner stmts).1).eval b)
    rw [Expr.eval, Expr.eval]
    exact s.around (Matches.evalReturnable (fun _ _ _ _ hr => wanted_of_same hr)
      (stmtsPrune_matches s stmts used h hp.cons .unit .unit mask
        (follows_unit keys owner used stmts)).inScope)
  | .ret site target value, used, h, hp, mask => by
    rw [Expr.spared] at h
    change Matches _ _ _ _ _ ((Expr.ret site target (exprPrune keys owner value).1).eval b)
    rw [Expr.eval, Expr.eval, s.observer, s.observer']
    exact s.around ((exprPrune_matches s value true h hp.cons mask).withValue fun v w =>
      Matches.ret fun _ _ hl => returns_iff.mpr hl)
  | .when site branches otherwise, used, h, hp, mask => by
    rw [Expr.spared, Bool.and_eq_true] at h
    change Matches _ _ _ _ _ ((Expr.when site (branchesPrune keys owner branches).1
      (optionPrune keys owner otherwise).1).eval b)
    rw [Expr.eval, Expr.eval]
    exact s.around (branchesPrune_matches s branches used h.1 hp.cons.left mask _ _
      (optionPrune_matches s otherwise used h.2 hp.cons.right .unit mask))
  | .loop site condition body, used, h, hp, mask => by
    rw [Expr.spared, Bool.and_eq_true] at h
    change Matches _ _ _ _ _ ((Expr.loop site (exprPrune keys owner condition).1
      (exprPrune keys owner body).1).eval b)
    rw [Expr.eval, Expr.eval, s.rounds]
    exact s.around (flow_of_same (Matches.evalLoop (fun _ _ hl => hl)
      (exprPrune_matches s condition true h.1 hp.cons.left mask)
      (exprPrune_matches s body false h.2 hp.cons.right mask) a.rounds))
  | .binary site op lhs rhs, used, h, hp, mask => by
    rw [Expr.spared, Bool.and_eq_true] at h
    change Matches _ _ _ _ _ ((Expr.binary site op (exprPrune keys owner lhs).1
      (exprPrune keys owner rhs).1).eval b)
    rw [Expr.eval, Expr.eval]
    exact s.around (flow_of_same (Matches.evalBinary (fun _ _ hl => hl) op
      (exprPrune_matches s lhs true h.1 hp.cons.left mask)
      (exprPrune_matches s rhs true h.2 hp.cons.right mask)))
  | .not site operand, used, h, hp, mask => by
    rw [Expr.spared] at h
    change Matches _ _ _ _ _ ((Expr.not site (exprPrune keys owner operand).1).eval b)
    rw [Expr.eval, Expr.eval]
    exact s.around (Matches.withBool (fun _ _ hl => hl)
      (exprPrune_matches s operand true h hp.cons mask) fun holds => value_matches _)
  | .concat site parts, used, h, hp, mask => by
    rw [Expr.spared] at h
    change Matches _ _ _ _ _ ((Expr.concat site (exprsPrune keys owner parts).1).eval b)
    rw [Expr.eval, Expr.eval]
    exact s.around (flow_of_same (exprsPrune_matches s parts h hp.cons "" mask))
  | .lambda site decl, used, _, _, mask => by
    change Matches _ _ _ _ _ ((Expr.lambda site (declPrune keys owner decl).1).eval b)
    rw [Expr.eval, Expr.eval]
    exact s.around (Matches.fail _ fun _ _ hl => hl)
  | .descriptor site ref, used, _, _, mask => by
    rw [exprPrune, Expr.eval, Expr.eval]
    exact s.around (value_matches _)
  | .captureFrame site capture, used, _, _, mask => by
    rw [exprPrune, Expr.eval, Expr.eval]
    exact s.around (flow_of_same (Matches.evalCapture (fun _ _ hl => hl) site capture))

theorem optionPrune_matches (s : SideBySide names keys a b) : ∀ (e : Option Expr) (used : Bool),
    optionSpared keys owner used e → Plain keys (optionNodes e) → ∀ missing mask,
      Matches (visibly names).terms mask (SameVisible names) (flow names own used)
        (optionEval a missing e) (optionEval b missing (optionPrune keys owner e).1)
  | none, used, _, _, missing, mask => by
    rw [optionPrune, optionEval, optionEval]
    exact value_matches missing
  | some e, used, h, hp, missing, mask => by
    rw [optionSpared] at h
    change Matches _ _ _ _ _ (optionEval b missing (some (exprPrune keys owner e).1))
    rw [optionEval, optionEval]
    exact exprPrune_matches s e used h hp mask

theorem argsPrune_matches (s : SideBySide names keys a b) : ∀ args : List (Option Expr),
    argsSpared keys owner args → Plain keys (argsNodes args) →
      ∀ mask (next next' : List (Option Value) → Eval Flow),
      (∀ vs, Matches (visibly names).terms mask (SameVisible names) (flow names own true) (next vs)
        (next' vs)) → ∀ seen,
      Matches (visibly names).terms mask (SameVisible names) (flow names own true)
        (argsEval a next seen args) (argsEval b next' seen (argsPrune keys owner args).1)
  | [], _, _, mask, next, next', hnext, seen => by
    rw [argsPrune, argsEval, argsEval]
    exact hnext seen.reverse
  | none :: args, h, hp, mask, next, next', hnext, seen => by
    rw [argsSpared] at h
    change Matches _ _ _ _ _ (argsEval b next' seen (none :: (argsPrune keys owner args).1))
    rw [argsEval, argsEval]
    exact argsPrune_matches s args h hp mask next next' hnext (none :: seen)
  | some e :: args, h, hp, mask, next, next', hnext, seen => by
    rw [argsSpared, Bool.and_eq_true] at h
    change Matches _ _ _ _ _
      (argsEval b next' seen (some (exprPrune keys owner e).1 :: (argsPrune keys owner args).1))
    rw [argsEval, argsEval]
    exact (exprPrune_matches s e true h.1 hp.left mask).withValue (Matches.of_same fun v =>
      argsPrune_matches s args h.2 hp.right mask next next' hnext (some v :: seen))

theorem exprsPrune_matches (s : SideBySide names keys a b) : ∀ es : List Expr,
    exprsSpared keys owner es → Plain keys (exprsNodes es) → ∀ text mask,
      Matches (visibly names).terms mask (SameVisible names) (flow names own true)
        (partsEval a text es) (partsEval b text (exprsPrune keys owner es).1)
  | [], _, _, text, mask => by
    rw [exprsPrune, partsEval, partsEval]
    exact value_matches _
  | e :: es, h, hp, text, mask => by
    rw [exprsSpared, Bool.and_eq_true] at h
    change Matches _ _ _ _ _
      (partsEval b text ((exprPrune keys owner e).1 :: (exprsPrune keys owner es).1))
    rw [partsEval, partsEval]
    exact (exprPrune_matches s e true h.1 hp.left mask).withValue (Matches.of_same fun v =>
      exprsPrune_matches s es h.2 hp.right (text ++ v.text) mask)

theorem branchesPrune_matches (s : SideBySide names keys a b) :
    ∀ (branches : List (Expr × Expr)) (used : Bool), branchesSpared keys owner used branches →
      Plain keys (branchesNodes branches) → ∀ mask (last last' : Eval Flow),
      Matches (visibly names).terms mask (SameVisible names) (flow names own used) last last' →
      Matches (visibly names).terms mask (SameVisible names) (flow names own used)
        (branchesEval a last branches) (branchesEval b last' (branchesPrune keys owner branches).1)
  | [], used, _, _, mask, last, last', hlast => by
    rw [branchesPrune, branchesEval, branchesEval]
    exact hlast
  | (condition, result) :: branches, used, h, hp, mask, last, last', hlast => by
    rw [branchesSpared, Bool.and_eq_true, Bool.and_eq_true] at h
    change Matches _ _ _ _ _ (branchesEval b last' (((exprPrune keys owner condition).1,
      (exprPrune keys owner result).1) :: (branchesPrune keys owner branches).1))
    rw [branchesEval, branchesEval]
    refine Matches.withBool (fun _ _ hl => hl)
      (exprPrune_matches s condition true h.1.1 hp.left.left mask) fun holds => ?_
    cases holds with
    | true => exact exprPrune_matches s result used h.1.2 hp.left.right mask
    | false => exact branchesPrune_matches s branches used h.2 hp.right mask last last' hlast

theorem stmtsPrune_matches (s : SideBySide names keys a b) : ∀ (stmts : List Stmt) (used : Bool),
    stmtsSpared keys owner used stmts → Plain keys (stmtsNodes stmts) →
      ∀ v w mask, Follows keys owner used stmts v w →
      Matches (visibly names).terms (true :: mask) (SameVisible names) (flow names own used)
        (stmtsEval a v stmts) (stmtsEval b w (stmtsPrune keys owner stmts).1)
  | [], used, _, _, v, w, mask, hvw => by
    rw [stmtsPrune, stmtsEval, stmtsEval]
    exact Matches.value fun l k hl => wanted_iff.mpr ⟨fun hused => (hvw hused rfl).symm, hl⟩
  | stmt :: stmts, used, h, hp, v, w, mask, hvw => by
    rw [stmtsSpared] at h
    rw [stmtsPrune, stmtsEval]
    by_cases hstmt : isScheduledStmt keys owner stmt
    · rw [if_pos hstmt] at h ⊢
      obtain ⟨e, rfl, he, htells⟩ := Plain.exists_of_isScheduledStmt hp.left hstmt
      rw [Stmt.eval]
      refine s.drop_matches he htells (stmtsPrune_matches s stmts used h hp.right .unit w mask ?_)
      intro hused hall
      have hw : w = .unit := hvw hused (by rw [List.all_cons, hstmt, hall]; rfl)
      rw [hw, ite_self]
    · rw [if_neg hstmt] at h ⊢
      rw [Bool.and_eq_true, Bool.and_eq_true] at h
      change Matches _ _ _ _ _
        (stmtsEval b w ((stmtPrune keys owner stmt).1 :: (stmtsPrune keys owner stmts).1))
      rw [stmtsEval]
      refine (s.kept_matches h.1.2
        (stmtPrune_matches s stmt _ h.1.1 hp.left mask)).withValue fun v w => ?_
      exact Matches.assuming fun hvw => stmtsPrune_matches s stmts used h.2 hp.right v w mask hvw

theorem stmtPrune_matches (s : SideBySide names keys a b) : ∀ (stmt : Stmt) (used : Bool),
    stmt.spared keys owner used → Plain keys stmt.nodes → ∀ mask,
      Matches (visibly names).terms (true :: mask) (SameVisible names) (flow names own used)
        (stmt.eval a) ((stmtPrune keys owner stmt).1.eval b)
  | .expr e, used, h, hp, mask => by
    rw [Stmt.spared] at h
    change Matches _ _ _ _ _ ((Stmt.expr (exprPrune keys owner e).1).eval b)
    rw [Stmt.eval, Stmt.eval]
    exact exprPrune_matches s e used h hp (true :: mask)
  | .var head init, used, h, hp, mask => by
    rw [Stmt.spared] at h
    change Matches _ _ _ _ _ ((Stmt.var head (optionPrune keys owner init).1).eval b)
    rw [Stmt.eval, Stmt.eval]
    exact (optionPrune_matches s init true h hp.cons .null (true :: mask)).withValue
      (Matches.of_same fun v => (Matches.declare head.id v).andThen fun _ _ => value_matches .unit)
  | .decl d, used, _, _, mask => by
    change Matches _ _ _ _ _ ((Stmt.decl (declPrune keys owner d).1).eval b)
    rw [Stmt.eval, Stmt.eval]
    exact value_matches .unit

end

theorem bodyPrune_matches (s : SideBySide names keys a b) (body : Body) (used : Bool)
    (h : body.spared keys owner used) (hp : Plain keys body.nodes) (mask : List Bool) :
    Matches (visibly names).terms mask (SameVisible names) (flow names own used) (body.eval a)
      ((bodyPrune keys owner body).1.eval b) := by
  cases body with
  | absent => exact value_matches .unit
  | block stmts =>
    exact (stmtsPrune_matches s stmts used h hp .unit .unit mask
      (follows_unit keys owner used stmts)).inScope
  | expression e =>
    rw [bodyPrune]
    by_cases he : isScheduled keys owner e
    · rw [if_pos he]
      -- The call comes to the constant that stands for it.
      have hconst : (Body.expression (.unit e.span.toSynthetic)).eval b =
          Eval.yield (.value .unit) := by
        rw [Body.eval, Expr.unit, Expr.ofConst, Expr.eval, s.seen']
        rfl
      rw [hconst, Body.eval, ← withValue_value (e.eval a)]
      exact s.drop_matches he (hp e owner (mem_nodes_self e) he) (value_matches .unit)
    · rw [if_neg he]
      exact exprPrune_matches s e used ((Bool.or_eq_true _ _).mp h |>.resolve_left he) hp mask

theorem span_exprPrune (keys : List CallKey) (owner : Option DeclId) (e : Expr) :
    (exprPrune keys owner e).1.span = e.span := by
  cases e <;> rfl

theorem paramsMatch_pruned (s : SideBySide names keys a b) : ∀ params : List Param,
    paramsSpared keys owner params → Plain keys (paramsNodes params) →
      ParamsMatch (visibly names) own a b params (paramsPrune keys owner params).1
  | [], _, _ => .nil
  | ⟨head, none⟩ :: params, h, hp => by
    rw [paramsSpared, Bool.and_eq_true] at h
    exact .plain (paramsMatch_pruned s params h.2 hp.cons.right)
  | ⟨head, some e⟩ :: params, h, hp => by
    rw [paramsSpared, Bool.and_eq_true] at h
    exact .default (span_exprPrune keys owner e)
      (fun _ mask => exprPrune_matches s e true h.1 hp.cons.left mask)
      (paramsMatch_pruned s params h.2 hp.cons.right)

/-- Bodies whose values match where they are used. -/
theorem Removal.SideBySide.complete_matches (s : SideBySide names keys a b)
    (hown : b.function = a.function) {info : FunctionHead} {body body' : Body}
    (h : Matches (visibly names).terms [true] (SameVisible names)
      (flow names a.function (info.returnTy ≠ .unit)) (body.eval a) (body'.eval b)) :
    Matches (visibly names).terms [true] (SameVisible names) (same (SameVisible names))
      (complete a info body) (complete b info body') := by
  unfold complete
  rw [s.observer, s.observer', hown]
  refine h.andThen_flow (fun v w => ?_) fun target v w => ?_
  · refine Matches.yield fun l k hl => ?_
    obtain ⟨hvalue, hlog⟩ := wanted_iff.mp hl
    refine ⟨?_, hlog⟩
    split
    · rfl
    · rename_i hunit
      exact hvalue (decide_eq_true hunit)
  · exact leaveFunction_ret (fun _ _ _ hl => returns_iff.mp hl) fun _ _ hl => (returns_iff.mp hl).2

/-- A function that calls were taken out of. -/
theorem Removal.SideBySide.runFunction_pruned (s : SideBySide names keys a b)
    (hown : b.function = a.function) {head : DeclHead} {info : FunctionHead} {params : List Param}
    {body : Body} (h : (Decl.function head info params body).spared keys)
    (hp : Plain keys (Decl.function head info params body).nodes) (args : List (Option Value)) :
    Matches (visibly names).terms [true] (SameVisible names) (same (SameVisible names))
      (runFunction a info params body args)
      (runFunction b info (paramsPrune keys (some head.id) params).1
        (bodyPrune keys (some head.id) body).1 args) := by
  rw [Decl.spared, Bool.and_eq_true] at h
  have hparams : ParamsMatch (visibly names) a.function a b params
      (paramsPrune keys (some head.id) params).1 := paramsMatch_pruned s params h.1 hp.cons.left
  exact runFunction_matches (i := ()) hparams
    (fun _ => s.complete_matches hown (bodyPrune_matches s body _ h.2 hp.cons.right [true])) args

/-- The same code on both sides. -/
theorem Removal.SideBySide.watched (s : SideBySide names keys a b)
    (hown : b.function = a.function) :
    Watched (visibly names) (fun _ _ => True) a.function a b where
  left := rfl
  right := hown
  rounds := s.rounds
  call _ site id _ args := s.call id args site.span
  observers := by
    rw [s.observer, s.observer']
    exact {
      expr := fun _ _ _ _ h i mask => h i mask
      returned := fun target _ _ _ h i mask => (h i mask).post_mono
        (Flow.Rel.mono (fun _ _ _ _ hv => returns_iff.mpr hv) fun _ _ _ _ _ hr => hr) }

/-- A function that stays as it is. -/
theorem Removal.SideBySide.runFunction_same (s : SideBySide names keys a b)
    (hown : b.function = a.function) (info : FunctionHead) (params : List Param) (body : Body)
    (args : List (Option Value)) :
    Matches (visibly names).terms [true] (SameVisible names) (same (SameVisible names))
      (runFunction a info params body args) (runFunction b info params body args) := by
  have w := s.watched hown
  refine runFunction_matches (i := ()) (paramsMatch_watched w params fun _ _ => trivial)
    (fun _ => s.complete_matches hown (flow_of_same ?_)) args
  have hbody := Body.eval_watched w body (fun _ _ => trivial) () [true]
  cases body <;> exact hbody

end

end TraceWeave

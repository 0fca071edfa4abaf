import TraceWeave.Proofs.Program.Watching
import TraceWeave.Proofs.Tracing.Inserting
import TraceWeave.Proofs.Tracing.Instrumented

/-! # Calls that a failing run loses

Instrumentation moves a call out of its place before it builds the hook call after it. Where that
fails, a placeholder is left and the call is gone. This is the only way to lose one: a run, whether
it fails or not, keeps all calls of a program exactly if it comes to no such point.

`Moment.LosesCall` is the point, `Instrument.fate_visit` what one visit does to the calls, and
`Instrument.calls_lost_to_after_hook_only` the result for runs.
-/

namespace TraceWeave

/-! ## Calls -/

/-- The call that a node is, apart from what is in its receiver and arguments. -/
def Node.call? : Node → Option Expr
  | .expr (.call s callee receiver typeArgs args) =>
    some (Expr.call s callee receiver typeArgs args).husk
  | _ => none

/-- The calls among nodes, each apart from what is in its receiver and arguments. -/
def callsOf (nodes : List Node) : List Expr := nodes.filterMap Node.call?

theorem Node.call?_husk (n : Node) : n.husk.call? = n.call? := by
  rcases n with d | head | head | e
  · rfl
  · rfl
  · rfl
  · cases e with
    | call s callee receiver typeArgs args =>
      have hargs : (args.map (·.map fun _ => (default : Expr))).map
          (·.map fun _ => (default : Expr)) = args.map (·.map fun _ => default) := by
        rw [List.map_map]
        exact List.map_congr_left fun arg _ => by cases arg <;> rfl
      rw [Node.husk, Expr.husk, call?, call?, Expr.husk, Expr.husk, hargs, Option.map_map]
      rfl
    | _ => rfl

theorem callsOf_husks (nodes : List Node) : callsOf (husks nodes) = callsOf nodes := by
  rw [callsOf, husks, List.filterMap_map]
  exact congrArg (List.filterMap · nodes) (funext Node.call?_husk)

theorem filterMap_callee?_callsOf (nodes : List Node) :
    (callsOf nodes).filterMap Expr.callee? = calleesOf nodes := by
  rw [callsOf, calleesOf, List.filterMap_filterMap]
  refine congrArg (List.filterMap · nodes) (funext fun n => ?_)
  rcases n with d | head | head | e
  · rfl
  · rfl
  · rfl
  · cases e <;> rfl

/-- How many calls among nodes are none of the runtime library. -/
def outsideCalls (env : PassEnv) (nodes : List Node) : Nat :=
  (calleesOf nodes).countP fun id => !env.linkage.isRuntimeCall id

section

variable {env : PassEnv} {as bs cs ds : List Node}

theorem outsideCalls_append (xs ys : List Node) :
    outsideCalls env (xs ++ ys) = outsideCalls env xs + outsideCalls env ys := by
  rw [outsideCalls, calleesOf_append, List.countP_append]
  rfl

theorem outsideCalls_le_of_sublist (h : (callsOf as).Sublist (callsOf bs)) :
    outsideCalls env as ≤ outsideCalls env bs := by
  unfold outsideCalls
  rw [← filterMap_callee?_callsOf, ← filterMap_callee?_callsOf]
  exact (h.filterMap _).countP_le

/-- What instrumentation inserts calls the runtime library only. -/
theorem Inserts.outsideCalls_eq {ids ids' : IdAllocator} (h : Inserts env ids ids' as bs) :
    outsideCalls env bs = outsideCalls env as := by
  obtain ⟨n, added, -, hadded, hperm, -⟩ := h
  have hcallees : (calleesOf bs).Perm (calleesOf as ++ calleesOf added) := by
    rw [← calleesOf_append, ← calleesOf_husks bs, ← calleesOf_husks (as ++ added), husks_append]
    exact hperm.filterMap _
  have hnone : (calleesOf added).countP (fun id => !env.linkage.isRuntimeCall id) = 0 := by
    rw [List.countP_eq_zero]
    intro id hid
    rw [hadded.calls id hid]
    exact Bool.false_ne_true
  unfold outsideCalls
  rw [hcallees.countP_eq, List.countP_append, hnone, Nat.add_zero]

/-! ## What becomes of calls -/

/-- A moment at which the instrumentation loses a call. -/
def Moment.LosesCall (env : PassEnv) (now : Moment PassState) : Prop :=
  now.state.failure = none ∧ Instrument.LosesCall env now.scopes now.expr now.state

/-- What becomes of nodes, told from the visits of them: without a loss all are kept, and with one
there are fewer calls of functions outside of the runtime library. -/
structure Fate (env : PassEnv) (visits : List (Moment PassState)) (before after : List Node) :
    Prop where
  kept : (∀ now ∈ visits, ¬now.LosesCall env) → (husks before).Sublist (husks after)
  le : outsideCalls env after ≤ outsideCalls env before
  lost : (∃ now ∈ visits, now.LosesCall env) → outsideCalls env after < outsideCalls env before

namespace Fate

variable {visits visits' : List (Moment PassState)}

theorem same (nodes : List Node) : Fate env [] nodes nodes :=
  ⟨fun _ => .refl _, Nat.le_refl _, by rintro ⟨_, h, -⟩; cases h⟩

theorem of_inserts {ids ids' : IdAllocator} (h : Inserts env ids ids' as bs)
    (hvisits : ∀ now ∈ visits, ¬now.LosesCall env) : Fate env visits as bs := by
  refine ⟨fun _ => ?_, Nat.le_of_eq h.outsideCalls_eq, ?_⟩
  · obtain ⟨_, _, _, _, _, hsub⟩ := h
    exact hsub
  · rintro ⟨now, hnow, hloses⟩
    exact absurd hloses (hvisits now hnow)

theorem append (h : Fate env visits as bs) (h' : Fate env visits' cs ds) :
    Fate env (visits' ++ visits) (as ++ cs) (bs ++ ds) where
  kept hnone := by
    obtain ⟨hnone', hnone⟩ := List.forall_mem_append.mp hnone
    rw [husks_append, husks_append]
    exact (h.kept hnone).append (h'.kept hnone')
  le := by
    rw [outsideCalls_append, outsideCalls_append]
    exact Nat.add_le_add h.le h'.le
  lost := by
    rintro ⟨now, hnow, hloses⟩
    rw [outsideCalls_append, outsideCalls_append]
    obtain hnow | hnow := List.mem_append.mp hnow
    · exact Nat.add_lt_add_of_le_of_lt h.le (h'.lost ⟨now, hnow, hloses⟩)
    · exact Nat.add_lt_add_of_lt_of_le (h.lost ⟨now, hnow, hloses⟩) h'.le

theorem seq (h : Fate env visits as bs) (h' : Fate env visits' bs cs) :
    Fate env (visits' ++ visits) as cs where
  kept hnone := by
    obtain ⟨hnone', hnone⟩ := List.forall_mem_append.mp hnone
    exact (h.kept hnone).trans (h'.kept hnone')
  le := Nat.le_trans h'.le h.le
  lost := by
    rintro ⟨now, hnow, hloses⟩
    obtain hnow | hnow := List.mem_append.mp hnow
    · exact Nat.lt_of_lt_of_le (h'.lost ⟨now, hnow, hloses⟩) h.le
    · exact Nat.lt_of_le_of_lt h'.le (h.lost ⟨now, hnow, hloses⟩)

theorem around {n n' : Node} (hn : n'.husk = n.husk) (h : Fate env visits as bs) :
    Fate env visits (n :: as) (n' :: bs) := by
  have hcallee : outsideCalls env [n'] = outsideCalls env [n] := by
    unfold outsideCalls
    rw [← calleesOf_husks, ← calleesOf_husks [n], husks, husks, List.map_singleton,
      List.map_singleton, hn]
  have hhead : Fate env [] [n] [n'] := by
    refine ⟨fun _ => ?_, Nat.le_of_eq hcallee, ?_⟩
    · rw [husks, husks, List.map_singleton, List.map_singleton, hn]
    · rintro ⟨_, hnow, -⟩
      cases hnow
  have hnodes := hhead.append h
  rwa [List.append_nil] at hnodes

end Fate

/-- The account of what becomes of nodes, next to notes of all visits. -/
def fates (env : PassEnv) : Account (PassState × List (Moment PassState)) where
  Holds s s' before after := ∃ visits, s'.2 = visits ++ s.2 ∧ Fate env visits before after
  nothing _ := ⟨[], rfl, .same []⟩
  append := by
    rintro s s' s'' as bs cs ds ⟨visits, hs, h⟩ ⟨visits', hs', h'⟩
    refine ⟨visits' ++ visits, ?_, h.append h'⟩
    rw [hs', hs, List.append_assoc]
  param _ _ := ⟨[], rfl, .same _⟩
  var _ _ := ⟨[], rfl, .same _⟩

theorem fates_stepwise : (fates env).Stepwise where
  around hhusk := by
    rintro ⟨visits, hs, h⟩
    exact ⟨visits, hs, h.around hhusk⟩
  seq := by
    rintro s s' s'' as bs cs ⟨visits, hs, h⟩ ⟨visits', hs', h'⟩
    refine ⟨visits' ++ visits, ?_, h.seq h'⟩
    rw [hs', hs, List.append_assoc]

end

namespace Instrument

variable (env : PassEnv)

/-- A call that is prepared for hooks is none of the runtime library. -/
theorem outside_of_prepareCall {sc : ScopeStack} {site : Site} {callee : DeclId} {c : CallSite}
    {st st' : PassState} (h : (prepareCall env sc site callee).runOn st = (.ok (some c), st')) :
    env.linkage.isRuntimeCall callee = false := by
  have hexempt : isExempt env callee = false := by
    by_contra hexempt
    rw [prepareCall, if_pos (eq_true_of_ne_false hexempt)] at h
    cases (Build.of_pure h).1
  exact (Bool.or_eq_false_iff.mp hexempt).1

theorem outsideCalls_pos {sc : ScopeStack} {e : Expr} {st : PassState}
    (h : Instrument.LosesCall env sc e st) : 0 < outsideCalls env e.nodes := by
  obtain ⟨callee, c, st', hcallee, hprepare, -⟩ := h
  have houtside := outside_of_prepareCall env hprepare
  rw [e.nodes_eq_cons, outsideCalls, calleesOf_expr, hcallee, Option.toList_some,
    List.singleton_append, List.countP_cons_of_pos (by rw [houtside]; rfl)]
  exact Nat.succ_pos _

/-- A visit loses the call, or keeps the expression and may put nodes around it. -/
theorem fate_visit (now : Moment PassState) :
    Fate env [now] now.expr.nodes (now.visit (instrumenter env)).1.nodes := by
  change Fate env [now] now.expr.nodes
    (PassState.edit (instrumentCall env now.scopes) now.expr now.state).1.nodes
  by_cases hloses : now.LosesCall env
  · obtain ⟨hfailure, hcall⟩ := id hloses
    have hplaceholder := (instrumentCall_of_loses hcall).1
    have hpos := outsideCalls_pos env hcall
    rw [PassState.edit_of_none hfailure, hplaceholder]
    have hnone : outsideCalls env (Lowering.placeholder now.expr).nodes = 0 := rfl
    refine ⟨fun hkeeps => ?_, ?_, fun _ => ?_⟩
    · exact absurd hloses (hkeeps now (List.mem_singleton_self now))
    · rw [hnone]
      exact Nat.zero_le _
    · rw [hnone]
      exact hpos
  · have hvisits : ∀ now' ∈ [now], ¬now'.LosesCall env := List.forall_mem_singleton.mpr hloses
    cases hfailure : now.state.failure with
    | some e =>
      rw [PassState.edit_of_some hfailure]
      exact .of_inserts (.same now.state.ids _) hvisits
    | none =>
      rw [PassState.edit_of_none hfailure]
      refine .of_inserts (instrumentCall_of_not_loses fun hcall => ?_).1 hvisits
      exact hloses ⟨hfailure, hcall⟩

theorem fate_body (sc : ScopeStack) (d : Decl) (st : PassState) :
    Fate env [] d.nodes ((instrumenter env).onDecl sc d st).1.nodes := by
  change Fate env [] d.nodes (PassState.edit (instrumentBody env sc) d st).1.nodes
  unfold PassState.edit
  split
  · exact .same _
  · exact .of_inserts (instrumentBody_inserts env sc d st) nofun

theorem watched_accounts : (instrumenter env).watched.Accounts (fates env) :=
  fates_stepwise.accounts
    (fun sc place e s => ⟨[⟨sc, place, e, s.1⟩], rfl, fate_visit env ⟨sc, place, e, s.1⟩⟩)
    fun sc d s => ⟨[], rfl, fate_body env sc d s.1⟩

/-- The moments of a run of the instrumentation. -/
def moments (m : Module) (store : Store) : List (Moment PassState) :=
  filesMoments (instrumenter env) m.files { ids := m.ids, store }

theorem fate_run (m : Module) (store : Store) :
    Fate env (moments env m store) m.nodes (run env m store).module.nodes := by
  obtain ⟨visits, hvisits, hfiles⟩ :=
    filesWalk_accounts (watched_accounts env) m.files ({ ids := m.ids, store }, [])
  have hfollows := filesWalk_follows (instrumenter env).watched_follows m.files
    ({ ids := m.ids, store }, [])
  have hmoments : moments env m store = visits := by
    rw [moments, filesMoments, hvisits, List.append_nil]
  have hrun : (run env m store).module.nodes =
      filesNodes (filesWalk (instrumenter env).watched m.files ({ ids := m.ids, store }, [])).1 ++
        filesNodes m.external := by
    rw [Module.nodes_eq, run, Module.runVisitor, hfollows]
    rfl
  rw [hmoments, hrun, m.nodes_eq]
  have hall := hfiles.append (.same (filesNodes m.external))
  rwa [List.nil_append] at hall

/-- **A call is lost to the hook after it only.** Where a visit fails, the expression is as it was
before, unless it is a call whose hook call afterwards cannot be built; then a placeholder is in its
place. So a run, failed or not, still has all calls of the module, in their order, exactly if it
comes to no such call. -/
theorem calls_lost_to_after_hook_only (m : Module) (store : Store) :
    (∀ now : Moment PassState, now.state.failure = none →
      (now.visit (instrumenter env)).2.failure ≠ none →
        (now.LosesCall env →
          (now.visit (instrumenter env)).1 = Lowering.placeholder now.expr) ∧
        (¬now.LosesCall env → (now.visit (instrumenter env)).1 = now.expr)) ∧
      ((callsOf m.nodes).Sublist (callsOf (run env m store).module.nodes) ↔
        ∀ now ∈ moments env m store, ¬now.LosesCall env) := by
  refine ⟨fun now hnone hfailed => ?_, fun hsub now hnow hloses => ?_, fun hkeeps => ?_⟩
  · have hvisit : now.visit (instrumenter env) =
        instrumentCall env now.scopes now.expr now.state := PassState.edit_of_none hnone
    rw [hvisit] at hfailed ⊢
    refine ⟨fun hloses => (instrumentCall_of_loses hloses.2).1, fun hloses => ?_⟩
    refine (instrumentCall_of_not_loses fun hcall => hloses ⟨hnone, hcall⟩).2 ?_
    rw [hnone]
    exact hfailed
  · have hfewer := (fate_run env m store).lost ⟨now, hnow, hloses⟩
    exact Nat.not_lt_of_le (outsideCalls_le_of_sublist hsub) hfewer
  · rw [← callsOf_husks m.nodes, ← callsOf_husks (run env m store).module.nodes]
    exact ((fate_run env m store).kept hkeeps).filterMap _

end Instrument

namespace Sample

/-- `program` with a runtime library that has no hook after calls. -/
def losing : Module where
  name := "losing"
  files := program.files
  external := [{ runtime with declarations :=
    [hook 100 "enterFunction", hook 101 "leaveFunction", hook 102 "beforeCall",
      hook 104 "suspensionPoint"] }]

def losingEnv : PassEnv where
  options := options
  symbols := SymbolTable.build losing
  linkage :=
    { hooks := [(.functionEnter, ⟨100⟩), (.functionLeave, ⟨101⟩), (.beforeCall, ⟨102⟩),
        (.suspensionPoint, ⟨104⟩)] }
  factory := { symbols := SymbolTable.build losing, sources := default, moduleName := "losing" }

/-- The call in `return twice(3)` is gone after the visit of it, and from the module. -/
theorem call_is_lost : PassEnv.build options default losing = .ok losingEnv ∧
    (∃ now ∈ Instrument.moments losingEnv losing {}, now.state.failure = none ∧
      now.expr.callee? = some ⟨1⟩ ∧ (now.visit (Instrument.instrumenter losingEnv)).2.failure ≠ none ∧
      (now.visit (Instrument.instrumenter losingEnv)).1.callee? = none) ∧
    (∃ e, (Instrument.run losingEnv losing {}).outcome = .error e) ∧
    ¬(callsOf losing.nodes).Sublist (callsOf (Instrument.run losingEnv losing {}).module.nodes) := by
  have hvisit : (Instrument.moments losingEnv losing {}).any (fun now =>
      now.state.failure.isNone && now.expr.callee? == some ⟨1⟩ &&
        (now.visit (Instrument.instrumenter losingEnv)).2.failure.isSome &&
        (now.visit (Instrument.instrumenter losingEnv)).1.callee?.isNone) = true := by
    decide +kernel
  have hbefore : calleesOf losing.nodes = [⟨1⟩] := by decide +kernel
  have ⟨hafter, hfails⟩ : calleesOf (Instrument.run losingEnv losing {}).module.nodes = [] ∧
      (Instrument.run losingEnv losing {}).outcome.toOption = none := by
    decide +kernel
  refine ⟨rfl, ?_, ?_, fun hsub => ?_⟩
  · obtain ⟨now, hnow, h⟩ := List.any_eq_true.mp hvisit
    simp only [Bool.and_eq_true, Option.isNone_iff_eq_none, beq_iff_eq, Option.isSome_iff_ne_none]
      at h
    obtain ⟨⟨⟨hnone, hcallee⟩, hfailed⟩, hgone⟩ := h
    exact ⟨now, hnow, hnone, hcallee, hfailed, hgone⟩
  · rcases hrun : (Instrument.run losingEnv losing {}).outcome with e | n
    · exact ⟨e, rfl⟩
    · rw [hrun] at hfails
      cases hfails
  · have hcallees := hsub.filterMap Expr.callee?
    rw [filterMap_callee?_callsOf, filterMap_callee?_callsOf, hbefore, hafter] at hcallees
    cases hcallees

end Sample

end TraceWeave

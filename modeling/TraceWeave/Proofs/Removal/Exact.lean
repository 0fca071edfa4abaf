import TraceWeave.Pipeline
import TraceWeave.Proofs.Removal.Accounted
import TraceWeave.Proofs.Removal.Meaning
import TraceWeave.Proofs.Removal.Searched

/-! # Removal takes out what is not active, or nothing

Removal gives the module without the inactive calls, and counts those that it took out. The other
calls are all there, but for those that stand in one that was taken out. It fails if and only if an
inactive call cannot be taken out, or an annotation around a trace call cannot be read; then nothing
has changed.

`Removal.Exact` says what is left and what was taken out; `Removal.removal_exact_or_nothing` is
about runs of the pass, by `Removal.exact_of_search` if the search succeeds.
-/

namespace TraceWeave

namespace Visit

variable {env : PassEnv} {x y : Visit}

/-! ## What a visit fails with -/

/-- Whether an inactive call is visited where nothing can be taken out. -/
def isMisplaced (env : PassEnv) (x : Visit) : Bool := x.isInactive env && x.fixedPlace?.isSome

/-- Whether a user's trace call is visited in a class or function that has a malformed selecting
annotation. -/
def isUnclear (env : PassEnv) (x : Visit) : Bool :=
  (x.traceType? env).isSome &&
    x.signs.any fun d => (d.selecting env.options).any AnnotationUse.isMalformed

theorem any_isMalformed (o : Options) (around : List DeclSign) :
    (around.any fun d => (d.selecting o).any AnnotationUse.isMalformed) =
      !(typesAround o around).isOk := by
  rw [isOk_typesAround, List.any_eq_not_all_not]
  simp only [List.any_eq_not_all_not, Bool.not_not]

/-- The error of a visit that has one. -/
theorem failure?_cases {e : Error} (h : x.failure? env = some e) :
    (x.isUnclear env = true ∧ e.isConfig = true) ∨
      (x.isMisplaced env = true ∧ ∃ ty container, x.traceType? env = some ty ∧
        x.fixedPlace? = some container ∧
          e = .unsupportedContainer (env.options.tracing.hooks.get ty) container x.expr.span) := by
  unfold failure? at h
  unfold isUnclear isMisplaced isInactive
  rw [any_isMalformed]
  cases hty : x.traceType? env with
  | none =>
    rw [hty] at h
    cases h
  | some ty =>
    rw [hty] at h
    dsimp only at h ⊢
    -- The types around the call cannot be read off, or they can and the type of the call is not
    -- among them.
    cases htypes : typesAround env.options x.signs with
    | error err =>
      rw [htypes] at h
      cases h
      exact .inl ⟨rfl, typesAround_fails _ _ _ htypes⟩
    | ok active =>
      rw [htypes] at h
      dsimp only at h ⊢
      cases hhas : active.has ty with
      | true =>
        rw [hhas] at h
        cases h
      | false =>
        rw [hhas] at h
        obtain ⟨container, hcontainer, rfl⟩ := Option.map_eq_some_iff.mp h
        rw [hcontainer]
        exact .inr ⟨rfl, ty, container, rfl, rfl, rfl⟩

theorem isSome_failure? : (x.failure? env).isSome = (x.isMisplaced env || x.isUnclear env) := by
  unfold failure? isMisplaced isUnclear isInactive
  rw [any_isMalformed]
  cases x.traceType? env with
  | none => rfl
  | some ty =>
    dsimp only
    cases typesAround env.options x.signs with
    | error e => rfl
    | ok active =>
      dsimp only
      cases active.has ty <;> cases x.fixedPlace? <;> rfl

/-! ## Activity and stance -/

theorem of_stance? {s : Stance} (h : x.stance? = some s) :
    x.expr.callee? = some s.1.callee ∧ x.place = s.1.place ∧ x.signs = s.2 := by
  obtain ⟨f, hf, rfl⟩ := Option.map_eq_some_iff.mp h
  unfold callFace? at hf
  cases he : x.expr with
  | call =>
    rw [he] at hf
    cases hf
    exact ⟨rfl, rfl, rfl⟩
  | _ =>
    rw [he] at hf
    cases hf

theorem callee?_of_stance? (h : x.stance? = none) : x.expr.callee? = none := by
  unfold stance? callFace? at h
  cases he : x.expr with
  | call =>
    rw [he] at h
    cases h
  | _ => rfl

theorem isInactive_of_stance? (h : x.stance? = none) : x.isInactive env = false := by
  rw [isInactive, traceType?, callee?_of_stance? h]
  rfl

/-- The stance of a call decides whether it is active. -/
theorem isInactive_congr (h : x.stance? = y.stance?) : x.isInactive env = y.isInactive env := by
  cases hx : x.stance? with
  | none => rw [isInactive_of_stance? hx, isInactive_of_stance? (h ▸ hx)]
  | some s =>
    obtain ⟨hcallee, -, hsigns⟩ := of_stance? hx
    obtain ⟨hcallee', -, hsigns'⟩ := of_stance? (h ▸ hx : y.stance? = some s)
    rw [isInactive, isInactive, traceType?, traceType?, hcallee, hcallee', hsigns, hsigns']

theorem isRemoved_congr (h : x.stance? = y.stance?) : x.isRemoved env = y.isRemoved env := by
  rw [isRemoved, isRemoved, isInactive_congr h]
  cases hx : x.stance? with
  | none => rw [isInactive_of_stance? (h ▸ hx : y.stance? = none), Bool.false_and, Bool.false_and]
  | some s =>
    obtain ⟨-, hplace, hsigns⟩ := of_stance? hx
    obtain ⟨-, hplace', hsigns'⟩ := of_stance? (h ▸ hx : y.stance? = some s)
    rw [fixedPlace?, fixedPlace?, inLambda, inLambda, hplace, hplace', hsigns, hsigns']

theorem selects_isRemoved (env : PassEnv) : Selects (isRemoved env) where
  congr := isRemoved_congr
  isCall {x} h := by
    refine Option.isSome_iff_ne_none.mpr fun hnone => ?_
    rw [isRemoved, isInactive_of_stance? hnone] at h
    cases h
  place {x} h := by
    have hfixed : x.fixedPlace? = none := Option.isNone_iff_eq_none.mp (Bool.and_eq_true_iff.mp h).2
    unfold fixedPlace? at hfixed
    cases hplace : x.place with
    | statement | expressionBody => rfl
    | initializer | defaultValue | operand =>
      rw [hplace] at hfixed
      cases hfixed

end Visit

namespace Removal

variable {env : PassEnv} {m m' : Module}

/-- A module without the inactive calls, and those that were taken out of it. -/
structure Exact (env : PassEnv) (m m' : Module) (removed : List Visit) : Prop where
  changes : filesWithout (Visit.isRemoved env) m.files = (m'.files, removed)
  rest : m' = { m with files := m'.files }
  taken : ∀ x ∈ removed, x ∈ m.visits ∧ x.isInactive env = true ∧ x.fixedPlace? = none
  /-- No inactive call is left. -/
  active : ∀ x ∈ m'.visits, x.isInactive env = false
  /-- Each call is still there or stands in one that was taken out. -/
  calls : (m'.visits.filterMap Visit.stance? ++ removed.flatMap Visit.stances).Perm
    (m.visits.filterMap Visit.stance?)

theorem run_eq_error_iff {e : Error} : run env m = .error e ↔ search env m = .error e := by
  unfold run
  cases search env m with
  | error e' =>
    constructor
    · rintro ⟨⟩
      rfl
    · rintro ⟨⟩
      rfl
  | ok keys => exact ⟨nofun, nofun⟩

/-- A search that succeeds is followed by a removal that is exact. -/
theorem exact_of_search (hids : m.declIds.Nodup) (henv : env.symbols = .build m)
    {keys : List CallKey} (hsearch : search env m = .ok keys) :
    ∃ m' removed, run env m = .ok (m', removed.length) ∧ Exact env m m' removed := by
  let without := filesWithout (Visit.isRemoved env) m.files
  have htells : Tells keys (Visit.isRemoved env) m.visits := fun x hx =>
    isScheduled_eq hids henv hsearch hx
  obtain ⟨hfiles, hcount⟩ := filesPrune_counted m.files htells
  have hleaves : Sheds (Visit.isRemoved env) m.visits
      ({ m with files := without.1 } : Module).visits without.2 :=
    filesWithout_leaves (Visit.selects_isRemoved env) m.files
  refine ⟨{ m with files := without.1 }, without.2, ?_, rfl, rfl, ?_, ?_, hleaves.calls⟩
  · unfold run
    rw [hsearch, ← hcount, ← hfiles]
    rfl
  · intro x hx
    obtain ⟨hremoved, hmem⟩ := hleaves.taken x hx
    obtain ⟨hinactive, hfixed⟩ := Bool.and_eq_true_iff.mp hremoved
    exact ⟨hmem, hinactive, Option.isNone_iff_eq_none.mp hfixed⟩
  · -- a call that is left stood in the module before, where it would have been taken out
    intro x hx
    cases hstance : x.stance? with
    | none => exact Visit.isInactive_of_stance? hstance
    | some s =>
      have hmem : s ∈ m.visits.filterMap Visit.stance? := hleaves.calls.subset
        (List.mem_append_left _ (List.mem_filterMap.mpr ⟨x, hx, hstance⟩))
      obtain ⟨y, hy, hsame⟩ := List.mem_filterMap.mp hmem
      have hstances : x.stance? = y.stance? := hstance.trans hsame.symm
      refine Bool.eq_false_iff.mpr fun hinactive => ?_
      rw [Visit.isInactive_congr hstances] at hinactive
      have hnone := List.findSome?_eq_none_iff.mp ((search_cases hids henv).2 keys hsearch).1 y hy
      have hremoved := isRemoved_of_isInactive hnone hinactive
      rw [← Visit.isRemoved_congr hstances, hleaves.stays x hx] at hremoved
      cases hremoved

/-- **Removal is exact or changes nothing.** It ends with the module that `Exact` describes and the
number of calls that were taken out, unless an inactive call is misplaced or an annotation around a
trace call is malformed. Then it ends with the error of the first such visit, and the state of the
pipeline stays as it was. -/
theorem removal_exact_or_nothing (hids : m.declIds.Nodup) (henv : env.symbols = .build m) :
    (∀ m' n, run env m = .ok (m', n) → ∃ removed, Exact env m m' removed ∧ n = removed.length) ∧
    ((∃ e, run env m = .error e) ↔
      ∃ x ∈ m.visits, x.isMisplaced env = true ∨ x.isUnclear env = true) ∧
    ∀ e, run env m = .error e →
      (∃ x ∈ m.visits, m.visits.find? (fun y => y.isMisplaced env || y.isUnclear env) = some x ∧
        ((x.isUnclear env = true ∧ e.isConfig = true) ∨
          (x.isMisplaced env = true ∧ ∃ ty container, x.traceType? env = some ty ∧
            x.fixedPlace? = some container ∧
              e = .unsupportedContainer (env.options.tracing.hooks.get ty) container
                x.expr.span))) ∧
      ∀ setup (s : PipelineState), s.module = m →
        s.runPassIn setup env .traceRemoval = (.error e, s) := by
  obtain ⟨herror, hok⟩ := search_cases hids henv
  refine ⟨?_, ?_, ?_⟩
  · intro m' n hrun
    cases hsearch : search env m with
    | error e => cases hrun.symm.trans (run_eq_error_iff.mpr hsearch)
    | ok keys =>
      obtain ⟨m'', removed, hrun', hexact⟩ := exact_of_search hids henv hsearch
      cases hrun.symm.trans hrun'
      exact ⟨removed, hexact, rfl⟩
  · have hfails : (∃ e, run env m = .error e) ↔ ∃ x ∈ m.visits, (x.failure? env).isSome = true := by
      rw [← List.findSome?_isSome_iff, Option.isSome_iff_exists]
      exact exists_congr fun e => run_eq_error_iff.trans (herror e)
    simp only [hfails, Visit.isSome_failure?, Bool.or_eq_true]
  · intro e hrun
    refine ⟨?_, ?_⟩
    · -- The search stops at the first visit that fails, so none before it is misplaced or unclear.
      have hfirst := (herror e).mp (run_eq_error_iff.mp hrun)
      obtain ⟨before, x, after, hvisits, hfailure, hbefore⟩ := List.findSome?_eq_some_iff.mp hfirst
      refine ⟨x, ?_, ?_, Visit.failure?_cases hfailure⟩
      · rw [hvisits]
        exact List.mem_append_right _ List.mem_cons_self
      · rw [List.find?_eq_some_iff_append]
        refine ⟨?_, before, after, hvisits, fun y hy => ?_⟩
        · rw [← Visit.isSome_failure?, hfailure]
          rfl
        · rw [← Visit.isSome_failure?, hbefore y hy]
          rfl
    · rintro setup s rfl
      rw [PipelineState.runPassIn, hrun]

/-! ## Small programs -/

namespace Sample

open TraceWeave.Sample (span)

/-- Three events are taken out of two functions, none of them active. -/
theorem three_events_taken :
    (ofFunctions [main, note]).declIds.Nodup ∧
      (envOf [main, note]).symbols = .build (ofFunctions [main, note]) ∧
      ∃ m' removed, Exact (envOf [main, note]) (ofFunctions [main, note]) m' removed ∧
        3 = removed.length := by
  have hids : (ofFunctions [main, note]).declIds.Nodup := by decide +kernel
  have hok : (run (envOf [main, note]) (ofFunctions [main, note])).isOk := by decide +kernel
  have hcount : (run (envOf [main, note]) (ofFunctions [main, note])).toOption.map Prod.snd =
      some 3 := by decide +kernel
  obtain ⟨⟨m', n⟩, hrun⟩ := Except.exists_ok hok
  rw [hrun] at hcount
  obtain rfl : n = 3 := Option.some.inj hcount
  obtain ⟨removed, hexact, hlength⟩ := (removal_exact_or_nothing hids rfl).1 m' 3 hrun
  exact ⟨hids, rfl, m', removed, hexact, hlength⟩

/-- A function that tells an event with a text before which a span starts. -/
def telling : Decl :=
  .function { id := ⟨0⟩, span := span 1 } { name := "main", returnTy := .unit } []
    (.block [.expr (.call ⟨span 2, .unit⟩ ⟨102⟩ none []
      [some (.block ⟨span 3, .string⟩ [spanEnter 4, .expr (.ofString (span 6) "seen")])])])

/-- Whether an active call is visited. -/
def isKept (env : PassEnv) (x : Visit) : Bool := (x.traceType? env).isSome && !x.isInactive env

/-- An active call goes away with the inactive one that it is an argument in. -/
theorem active_call_taken :
    (ofFunctions [telling]).declIds.Nodup ∧
      (envOf [telling]).symbols = .build (ofFunctions [telling]) ∧
      (run (envOf [telling]) (ofFunctions [telling])).isOk ∧
      (ofFunctions [telling]).visits.any (isKept (envOf [telling])) = true ∧
      (left [telling]).visits.any (isKept (envOf [telling])) = false :=
  ⟨by decide +kernel, rfl, by decide +kernel, by decide +kernel, by decide +kernel⟩

end Sample

end Removal

end TraceWeave

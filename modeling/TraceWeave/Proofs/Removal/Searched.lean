import TraceWeave.Proofs.Pipeline.Untouched
import TraceWeave.Proofs.Removal.Activity

/-! # What the search for inactive calls finds

The search comes by the visits of a module one after the other. It ends at the first one where it
cannot tell what is active, or where an inactive call cannot be taken out. If it comes to its end,
the keys it has found are those of the inactive calls, and no other call that could be taken out has one
of these keys.

`Visit.failure?` and `Visit.key?` are what one visit adds, `Removal.search_cases` what the search
comes to, and `Removal.isScheduled_eq` what its keys mean.
-/

namespace TraceWeave

open Removal

namespace Visit

/-- The type of the user's trace call that is visited, if it is one. -/
def traceType? (env : PassEnv) (x : Visit) : Option TraceType :=
  x.expr.callee?.bind (userCall? env)

/-- Whether a trace call is visited whose type is not active there. -/
def isInactive (env : PassEnv) (x : Visit) : Bool :=
  match x.traceType? env with
  | none => false
  | some ty =>
    match typesAround env.options x.signs with
    | .ok active => !active.has ty
    | .error _ => false

/-- The place that nothing can be taken out of, if the visit stands in one: all but lists of
statements and the expression bodies of functions that are no lambdas. -/
def fixedPlace? (x : Visit) : Option String :=
  match x.place with
  | .statement => none
  | .expressionBody => if x.inLambda then some "a lambda expression body" else none
  | place => some place.name

/-- Whether a trace call is visited that is not active and can be taken out. -/
def isRemoved (env : PassEnv) (x : Visit) : Bool := x.isInactive env && x.fixedPlace?.isNone

/-- The error that a visit gives the search: it cannot tell what is active there, or the call is not
active and cannot be taken out. -/
def failure? (env : PassEnv) (x : Visit) : Option Error :=
  match x.traceType? env with
  | none => none
  | some ty =>
    match typesAround env.options x.signs with
    | .error e => some e
    | .ok active =>
      if active.has ty then none
      else x.fixedPlace?.map fun container =>
        .unsupportedContainer (env.options.tracing.hooks.get ty) container x.expr.span

/-- What a call that is visited is known by. -/
def key? (x : Visit) : Option CallKey :=
  x.expr.callee?.map fun callee => ⟨x.scopes.innermostDecl?, x.expr.span, callee⟩

/-- What the search makes of a visit. -/
def search (env : PassEnv) (found : Search) (x : Visit) : Search :=
  match x.failure? env with
  | some e => { found with failure := some e }
  | none =>
    if x.isRemoved env then { found with scheduled := x.key?.toList ++ found.scheduled } else found

variable {m : Module} {env : PassEnv} {x : Visit}

/-- The search sees what the visit shows. -/
theorem schedule_eq (hids : m.declIds.Nodup) (henv : env.symbols = .build m) (hx : x ∈ m.visits)
    (found : Search) : schedule env x.scopes x.place x.expr found = x.search env found := by
  have hactive := x.activeTypes_eq hids henv hx
  have hfixed : fixedContainer? env x.scopes x.place = x.fixedPlace? := by
    unfold fixedPlace?
    cases x.place with
    | expressionBody => simp only [fixedContainer?, x.inLambda_eq hids henv hx]
    | _ => rfl
  cases hcallee : x.expr.callee? with
  | none =>
    have hnone : x.traceType? env = none := by rw [traceType?, hcallee, Option.bind_none]
    have hschedule : schedule env x.scopes x.place x.expr found = found := by
      unfold schedule
      split
      · rename_i hcall
        rw [hcall] at hcallee
        cases hcallee
      · rfl
    rw [hschedule, search, failure?, isRemoved, isInactive, hnone]
    rfl
  | some callee =>
    obtain ⟨s, receiver, typeArgs, args, hcall⟩ :
        ∃ s receiver typeArgs args, x.expr = .call s callee receiver typeArgs args := by
      cases he : x.expr <;> rw [he] at hcallee <;> cases hcallee
      exact ⟨_, _, _, _, rfl⟩
    have hkey : x.key? = some ⟨x.scopes.innermostDecl?, s.span, callee⟩ := by
      rw [key?, hcallee, hcall]
      rfl
    have hspan : x.expr.span = s.span := by
      rw [hcall]
      rfl
    have hty : x.traceType? env = userCall? env callee := by
      rw [traceType?, hcallee, Option.bind_some]
    -- Both sides now read the type of the call, the types around it and its place, in this order.
    rw [search, failure?, isRemoved, isInactive, hty, hkey, hspan, hcall, schedule]
    cases userCall? env callee with
    | none => rfl
    | some ty =>
      dsimp only
      rw [hactive, hfixed]
      cases typesAround env.options x.signs with
      | error err => rfl
      | ok active =>
        dsimp only
        by_cases hhas : active.has ty = true
        · simp only [hhas, if_true, Bool.not_true, Bool.false_and, Bool.false_eq_true, if_false]
        · simp only [hhas, Bool.false_eq_true, if_false, Bool.not_false, Bool.true_and]
          cases x.fixedPlace? <;> rfl

end Visit

namespace Removal

variable {m : Module} {env : PassEnv}

/-- The search goes on until a visit gives an error. -/
theorem foldl_search (visits : List Visit) : ∀ found : Search, found.failure = none →
    let see := fun found x => if found.failure.isSome then found else Visit.search env found x
    (visits.foldl see found).failure = visits.findSome? (Visit.failure? env) ∧
      (visits.findSome? (Visit.failure? env) = none → ∀ key,
        key ∈ (visits.foldl see found).scheduled ↔
          key ∈ found.scheduled ∨ ∃ x ∈ visits, x.isRemoved env = true ∧ x.key? = some key) := by
  induction visits with
  | nil => exact fun found h => ⟨h, fun _ key => by simp⟩
  | cons x visits ih =>
    intro found hfound
    dsimp only at ih ⊢
    rw [List.foldl_cons, List.findSome?_cons, hfound]
    change (visits.foldl _ (x.search env found)).failure = _ ∧ _
    cases hfailure : x.failure? env with
    | some e =>
      -- After an error the search looks at nothing more.
      have hstays : ∀ (ys : List Visit) (st : Search), st.failure.isSome = true →
          ys.foldl (fun found x => if found.failure.isSome then found
            else Visit.search env found x) st = st := by
        intro ys st hst
        induction ys with
        | nil => rfl
        | cons y ys ihs => rw [List.foldl_cons, if_pos hst, ihs]
      rw [Visit.search, hfailure, hstays _ _ rfl]
      exact ⟨rfl, nofun⟩
    | none =>
      have hstep : (x.search env found).failure = none := by
        rw [Visit.search, hfailure]
        dsimp only
        split <;> exact hfound
      obtain ⟨hend, hkeys⟩ := ih (x.search env found) hstep
      refine ⟨hend, fun hnone key => (hkeys hnone key).trans ?_⟩
      have hscheduled : key ∈ (x.search env found).scheduled ↔
          key ∈ found.scheduled ∨ (x.isRemoved env = true ∧ x.key? = some key) := by
        rw [Visit.search, hfailure]
        dsimp only
        cases x.isRemoved env with
        | false => simp
        | true =>
          rw [if_pos rfl, List.mem_append, Option.mem_toList, or_comm]
          simp
      rw [hscheduled, or_assoc]
      refine or_congr_right ?_
      simp only [List.mem_cons, exists_eq_or_imp]

/-- The search fails with the error of the first visit that gives one. Otherwise it has found the
keys of the calls that are to be taken out. -/
theorem search_cases (hids : m.declIds.Nodup) (henv : env.symbols = .build m) :
    (∀ e, search env m = .error e ↔ m.visits.findSome? (Visit.failure? env) = some e) ∧
      ∀ keys, search env m = .ok keys → m.visits.findSome? (Visit.failure? env) = none ∧
        ∀ key, key ∈ keys ↔ ∃ x ∈ m.visits, x.isRemoved env = true ∧ x.key? = some key := by
  -- The searcher changes nothing, so the walk folds its visits over the tour.
  have hwalk : filesWalk (searcher env) m.files {} =
      (m.files, m.visits.foldl (searcher env).onlooker.see {}) :=
    filesWalk_passes (fun _ _ _ => rfl) m.files (fun _ _ _ => rfl) _
  have hsee : ∀ (visits : List Visit), visits ⊆ m.visits → ∀ found,
      visits.foldl (searcher env).onlooker.see found = visits.foldl (fun found x =>
        if found.failure.isSome then found else Visit.search env found x) found := by
    intro visits hvisits
    induction visits with
    | nil => exact fun _ => rfl
    | cons x visits ih =>
      intro found
      obtain ⟨hx, hrest⟩ := List.cons_subset.mp hvisits
      rw [List.foldl_cons, List.foldl_cons, ← ih hrest]
      exact congrArg (visits.foldl _) (by
        rw [← x.schedule_eq hids henv hx found]
        rfl)
  obtain ⟨hfailure, hkeys⟩ := @foldl_search env m.visits {} rfl
  rw [search, hwalk]
  dsimp only
  rw [hsee m.visits (List.Subset.refl _)]
  dsimp only at hfailure hkeys
  rw [hfailure]
  cases hfirst : m.visits.findSome? (Visit.failure? env) with
  | some err =>
    refine ⟨fun e => ⟨fun h => ?_, fun h => ?_⟩, nofun⟩
    · cases h
      rfl
    · cases h
      rfl
  | none =>
    refine ⟨fun e => ⟨nofun, nofun⟩, ?_⟩
    rintro _ ⟨⟩
    refine ⟨rfl, fun key => (hkeys hfirst key).trans ?_⟩
    simp

theorem isScheduled_iff {keys : List CallKey} {x : Visit} :
    isScheduled keys x.scopes.innermostDecl? x.expr = true ↔ ∃ key ∈ keys, x.key? = some key := by
  unfold isScheduled Visit.key?
  split
  · rename_i hcall
    rw [hcall]
    simp [Expr.callee?, Expr.span, Expr.site]
  · rename_i hother
    have hcallee : x.expr.callee? = none := by
      cases he : x.expr with
      | call => exact absurd he (hother _ _ _ _ _)
      | _ => rfl
    rw [hcallee]
    simp

/-- An inactive call that gives no error can be taken out. -/
theorem isRemoved_of_isInactive {x : Visit} (hfailure : x.failure? env = none)
    (h : x.isInactive env = true) : x.isRemoved env = true := by
  rw [Visit.isRemoved, h, Bool.true_and, Option.isNone_iff_eq_none]
  unfold Visit.isInactive at h
  unfold Visit.failure? at hfailure
  split at h
  · cases h
  · rename_i ty hty
    split at h
    · rename_i active hactive
      have hhas : ¬active.has ty = true := by simpa using h
      rw [hty] at hfailure
      dsimp only at hfailure
      rw [hactive] at hfailure
      dsimp only at hfailure
      rw [if_neg hhas, Option.map_eq_none_iff] at hfailure
      exact hfailure
    · cases h

/-- What a search that succeeds has scheduled are exactly the calls that are to be taken out:
another call with the key of one of them stands in the same declaration, so it is just as inactive. -/
theorem isScheduled_eq (hids : m.declIds.Nodup) (henv : env.symbols = .build m)
    {keys : List CallKey} (hsearch : search env m = .ok keys) {x : Visit} (hx : x ∈ m.visits) :
    isScheduled keys x.scopes.innermostDecl? x.expr = x.isRemoved env := by
  obtain ⟨hnone, hkeys⟩ := (search_cases hids henv).2 keys hsearch
  rw [Bool.eq_iff_iff, isScheduled_iff]
  constructor
  · rintro ⟨key, hkey, hxkey⟩
    obtain ⟨y, hy, hremoved, hykey⟩ := (hkeys key).mp hkey
    obtain ⟨callee, hcallee, rfl⟩ := Option.map_eq_some_iff.mp hxkey
    obtain ⟨callee', hcallee', hsame⟩ := Option.map_eq_some_iff.mp hykey
    obtain ⟨howner, -, rfl⟩ := CallKey.mk.inj hsame
    have hty : x.traceType? env = y.traceType? env := by
      rw [Visit.traceType?, Visit.traceType?, hcallee, hcallee']
    -- A key names the innermost declaration, and that settles which types are active.
    have htypes := Visit.typesAround_congr hids henv hx hy howner.symm
    refine isRemoved_of_isInactive (List.findSome?_eq_none_iff.mp hnone x hx) ?_
    rw [Visit.isInactive, hty, htypes]
    exact (Bool.and_eq_true_iff.mp hremoved).1
  · intro hremoved
    have hcallee : ∃ callee, x.expr.callee? = some callee := by
      have hinactive := (Bool.and_eq_true_iff.mp hremoved).1
      unfold Visit.isInactive Visit.traceType? at hinactive
      cases h : x.expr.callee? with
      | none =>
        rw [h] at hinactive
        cases hinactive
      | some callee => exact ⟨callee, rfl⟩
    obtain ⟨callee, hcallee⟩ := hcallee
    have hkey : x.key? = some ⟨x.scopes.innermostDecl?, x.expr.span, callee⟩ := by
      rw [Visit.key?, hcallee, Option.map_some]
    exact ⟨_, (hkeys _).mpr ⟨x, hx, hremoved, hkey⟩, hkey⟩

end Removal

end TraceWeave

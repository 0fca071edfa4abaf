import TraceWeave.Proofs.Runs.SameCode

/-! # Watching a run

A watch notes host calls around the calls and the bodies of a run, it can make the calls of some
functions silent, and it can stop a run at what should never happen.

`Watch` says what is noted, `Watch.aroundExpr` and `Watch.aroundBody` do it, and `Watch.observer`
is the observer that does both. One that notes nothing is no observer at all
(`Watch.observer_default`).
-/

namespace TraceWeave

/-- What is noted around calls and bodies, what is silent, and what stops a run. -/
structure Watch where
  /-- The functions whose calls leave no host calls behind. -/
  silenced : DeclId → Bool := fun _ => false
  /-- The host calls that are noted before a call, in the code of a function, at a site. -/
  before : DeclId → Site → DeclId → List HostCall := fun _ _ _ => []
  /-- The host calls that are noted after a call that comes to a value. -/
  after : DeclId → Site → DeclId → List HostCall := fun _ _ _ => []
  /-- The host calls that are noted when the body of a function starts. -/
  entering : DeclId → List HostCall := fun _ => []
  /-- The host calls that are noted when the body of a function completes. -/
  leaving : DeclId → List HostCall := fun _ => []
  /-- The static types of expressions that never come to a value. -/
  never : Ty → Bool := fun _ => false
  /-- The functions whose body never comes to its end. -/
  endless : DeclId → Bool := fun _ => false
  /-- What the run fails with when that happens. -/
  stop : Error := .generic "unreachable code was reached"

namespace Eval

variable {α : Type}

/-- A step whose host calls are forgotten. -/
def silently (step : Eval α) : Eval α := fun m =>
  match step m with
  | (o, n) => (o, { n with log := m.log })

theorem silently_eq {step : Eval α} {m n : Machine} {o : Outcome α} (h : step m = (o, n)) :
    silently step m = (o, { n with log := m.log }) := by
  rw [silently, h]

end Eval

/-- Steps whose host calls are forgotten go on with those from before. -/
theorem Matches.silently {α β : Type} {t : Terms} {mask : List Bool} {pre : LogRel}
    {post post' : α → β → LogRel} {x : Eval α} {y : Eval β} (h : Matches t mask pre post x y)
    (hstop : ∀ l k, pre l k → t.stopped l k)
    (hpost : ∀ a b l k l' k', pre l k → post a b l' k' → post' a b l k) :
    Matches t mask pre post' (Eval.silently x) (Eval.silently y) := by
  intro f rest rest' l k hf hlen hl
  obtain ⟨o, g, l', hx, hg, ho⟩ := h f rest rest' l k hf hlen hl
  refine ⟨o, g, l, Eval.silently_eq hx, hg, ho.imp_right ?_⟩
  rintro ⟨o', k', hy, hag⟩
  refine ⟨o', k, Eval.silently_eq hy, ?_⟩
  cases o <;> cases o' <;>
    first
    | exact hpost _ _ _ _ _ _ hl hag
    | exact ⟨hag.1, hstop l k hl⟩
    | exact hstop l k hl
    | exact hag

open Interpreter

namespace Watch

/-- Host calls around a call in the code of a function. -/
def aroundCall (w : Watch) (own : DeclId) (site : Site) (callee : DeclId) (step : Eval Flow) :
    Eval Flow :=
  if w.silenced callee then Eval.silently step
  else
    Eval.andThen (Eval.tell (w.before own site callee)) fun _ =>
      withValue step fun v =>
        Eval.andThen (Eval.tell (w.after own site callee)) fun _ => Eval.yield (.value v)

/-- A step that stops the run if it comes to a value of a type that has none. -/
def guardType (w : Watch) (ty : Ty) (step : Eval Flow) : Eval Flow :=
  if w.never ty then withValue step fun _ => Eval.fail w.stop else step

def aroundExpr (w : Watch) (own : DeclId) (e : Expr) (step : Eval Flow) : Eval Flow :=
  w.guardType e.ty (match e.callee? with
    | some callee => w.aroundCall own e.site callee step
    | none => step)

/-- What is noted around an expression depends on its site and on the function that it calls. -/
theorem aroundExpr_congr (w : Watch) (own : DeclId) {e e' : Expr} (hsite : e'.site = e.site)
    (hcallee : e'.callee? = e.callee?) (step : Eval Flow) :
    w.aroundExpr own e' step = w.aroundExpr own e step := by
  unfold aroundExpr Expr.ty
  rw [hsite, hcallee]

/-- What is noted when the body of a function completes: with a value, or with a `return` that leaves
the function. -/
def completing (w : Watch) (own : DeclId) : Flow → Eval Flow
  | .value v =>
    if w.endless own then Eval.fail w.stop
    else Eval.andThen (Eval.tell (w.leaving own)) fun _ => Eval.yield (.value v)
  | .ret target v =>
    if target = .function own then
      Eval.andThen (Eval.tell (w.leaving own)) fun _ => Eval.yield (.ret target v)
    else Eval.yield (.ret target v)

/-- Host calls around the body of a function. -/
def aroundBody (w : Watch) (own : DeclId) (step : Eval Flow) : Eval Flow :=
  Eval.andThen (Eval.tell (w.entering own)) fun _ => Eval.andThen step (w.completing own)

def observer (w : Watch) : Observer := { expr := w.aroundExpr, body := w.aroundBody }

/-- A call that nothing is noted around. -/
theorem aroundCall_quiet {w : Watch} {own : DeclId} {site : Site} {callee : DeclId}
    (hs : w.silenced callee = false) (hbefore : w.before own site callee = [])
    (hafter : w.after own site callee = []) (step : Eval Flow) :
    w.aroundCall own site callee step = step := by
  rw [aroundCall, hs, hbefore, hafter]
  exact withValue_value step

theorem aroundExpr_default (own : DeclId) (e : Expr) (step : Eval Flow) :
    aroundExpr {} own e step = step := by
  unfold aroundExpr
  cases e.callee? with
  | some callee => exact withValue_value step
  | none => rfl

theorem aroundBody_default (own : DeclId) (step : Eval Flow) : aroundBody {} own step = step := by
  funext m
  unfold aroundBody
  rw [show Eval.tell (entering {} own) = Eval.yield () from rfl, Eval.yield_andThen]
  rcases h : step m with ⟨(v | ⟨target, v⟩) | _ | _, n⟩
  · rw [Eval.andThen_done h]
    rfl
  · rw [Eval.andThen_done h]
    by_cases htarget : target = .function own
    · simp only [completing, if_pos htarget]
      rfl
    · simp only [completing, if_neg htarget]
      rfl
  · rw [Eval.andThen_failed h]
  · rw [Eval.andThen_outOfFuel h]

/-- A watch that does nothing. -/
theorem observer_default : observer {} = {} := by
  unfold observer
  congr 1
  · funext own e step
    exact aroundExpr_default own e step
  · funext own step
    exact aroundBody_default own step

end Watch

end TraceWeave

import TraceWeave.Error

/-! # Steps that may fail and keep what they did

A step takes a state and gives a result or an error, in either case together with the state it
leaves behind.

`Build` is the monad of such steps. `Build.tolerate` lets an error pass and keeps the state that
it left. `Part` says how one part of a state is read and put back. Steps are followed one bind at
a time, by `Build.of_bind_error` and `Build.runOn_bind_congr`.
-/

namespace TraceWeave

theorem Except.exists_ok {ε α : Type} {r : Except ε α} (h : r.isOk = true) : ∃ a, r = .ok a := by
  cases r with
  | ok a => exact ⟨a, rfl⟩
  | error e => exact absurd h Bool.false_ne_true

theorem Except.of_bind {ε α β : Type} {x : Except ε α} {f : α → Except ε β} {b : β}
    (h : x >>= f = .ok b) : ∃ a, x = .ok a ∧ f a = .ok b := by
  cases x with
  | error e => cases h
  | ok a => exact ⟨a, rfl, h⟩

theorem Except.of_bind_error {ε α β : Type} {x : Except ε α} {f : α → Except ε β} {e : ε}
    (h : x >>= f = .error e) : x = .error e ∨ ∃ a, x = .ok a ∧ f a = .error e := by
  cases x with
  | error e' =>
    cases h
    exact .inl rfl
  | ok a => exact .inr ⟨a, rfl, h⟩

/-- A step over states `σ` that yields an `α` or an error. -/
abbrev Build (σ α : Type) : Type := ExceptT Error (StateM σ) α

namespace Build

/-- The result of a step and the state it leaves behind. -/
def runOn {σ α : Type} (step : Build σ α) (s : σ) : Except Error α × σ := step s

/-- A step that fails. -/
def fail {σ α : Type} (e : Error) : Build σ α := fun s => (.error e, s)

/-- A step that does not look at the state. -/
def ofExcept {σ α : Type} (r : Except Error α) : Build σ α := fun s => (r, s)

/-- The value that must be there, or an error. -/
def require {σ α : Type} (value : Option α) (e : Error) : Build σ α :=
  match value with
  | some a => fun s => (.ok a, s)
  | none => fail e

/-- A step that is only taken on a condition. -/
def onlyIf {σ α : Type} (condition : Bool) (step : Build σ α) : Build σ (Option α) :=
  if condition then some <$> step else pure none

/-- A step whose failure may be ignored. -/
def tolerate {σ α : Type} (optional : Bool) (step : Build σ α) : Build σ (Option α) := fun s =>
  match step.runOn s with
  | (.ok a, s) => (.ok (some a), s)
  | (.error e, s) => (if optional then .ok none else .error e, s)

@[simp] theorem runOn_fail {σ α : Type} (e : Error) (s : σ) :
    (fail e : Build σ α).runOn s = (.error e, s) := rfl

@[simp] theorem runOn_pure {σ α : Type} (a : α) (s : σ) :
    (pure a : Build σ α).runOn s = (.ok a, s) := rfl

theorem runOn_bind_ok {σ α β : Type} {step : Build σ α} {next : α → Build σ β} {s t : σ} {a : α}
    (h : step.runOn s = (.ok a, t)) : (step >>= next).runOn s = (next a).runOn t := by
  simp only [runOn] at h ⊢
  show (ExceptT.bind step next) s = _
  simp only [ExceptT.bind, ExceptT.mk, bind, StateT.bind, h]
  rfl

theorem runOn_bind_error {σ α β : Type} {step : Build σ α} {next : α → Build σ β} {s t : σ}
    {e : Error} (h : step.runOn s = (.error e, t)) :
    (step >>= next).runOn s = (.error e, t) := by
  simp only [runOn] at h ⊢
  show (ExceptT.bind step next) s = _
  simp only [ExceptT.bind, ExceptT.mk, bind, StateT.bind, h]
  rfl

/-- A step in two parts fails in one of them. -/
theorem of_bind_error {σ α β : Type} {step : Build σ α} {next : α → Build σ β} {s t : σ} {e : Error}
    (h : (step >>= next).runOn s = (.error e, t)) :
    step.runOn s = (.error e, t) ∨
      ∃ a u, step.runOn s = (.ok a, u) ∧ (next a).runOn u = (.error e, t) := by
  rcases hrun : step.runOn s with ⟨e' | a, u⟩
  · rw [runOn_bind_error hrun] at h
    cases h
    exact .inl rfl
  · rw [runOn_bind_ok hrun] at h
    exact .inr ⟨a, u, rfl, h⟩

/-- A failure that is not ignored. -/
theorem of_tolerate_error {σ α : Type} {optional : Bool} {step : Build σ α} {s t : σ} {e : Error}
    (h : (tolerate optional step).runOn s = (.error e, t)) : step.runOn s = (.error e, t) := by
  unfold runOn tolerate at h
  split at h
  · cases h
  · rename_i e' u hrun
    split at h <;> cases h
    exact hrun

theorem runOn_bind_congr {σ α β : Type} {step step' : Build σ α} {next next' : α → Build σ β} {s : σ}
    (h : step'.runOn s = step.runOn s)
    (hnext : ∀ a t, step.runOn s = (.ok a, t) → (next' a).runOn t = (next a).runOn t) :
    (step' >>= next').runOn s = (step >>= next).runOn s := by
  rcases hrun : step.runOn s with ⟨e | a, t⟩ <;> rw [hrun] at h
  · rw [runOn_bind_error hrun, runOn_bind_error h]
  · rw [runOn_bind_ok hrun, runOn_bind_ok h, hnext a t hrun]

end Build

/-- A part of a larger state. -/
structure Part (σ α : Type) where
  get : σ → α
  set : α → σ → σ

end TraceWeave

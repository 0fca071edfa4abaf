import TraceWeave.Proofs.Runs.SameCode

/-! # Checked runs

What a program takes for granted about its values and flows is checked by an observer that stops a
run where it does not hold. A run keeps to a check if the check never stops it.

* `Alarms.Eases.callWithin_eq`: of two observers that stop runs, the one that stops less runs like
  the other, unless the other stops the run where the first one would not.
* `KeepsTo.of_ne_failed`: whether a run keeps to a check is seen with one error to stop with.
* `KeepsTo.both`: a run that keeps to two checks is not stopped by both together.
-/

namespace TraceWeave

open Interpreter

/-- Which values of expressions and which flows of bodies stop a run, and with which errors. -/
structure Alarms where
  value : Ty → Value → Option Error := fun _ _ => none
  body : DeclId → Flow → Option Error := fun _ _ => none

namespace Alarms

/-- Goes on with a flow unless there is an alarm. -/
def pass (alarm : Option Error) (flow : Flow) : Eval Flow :=
  match alarm with
  | none => Eval.yield flow
  | some stop => Eval.fail stop

/-- Stops a run where there is an alarm. -/
def observer (a : Alarms) : Observer where
  expr _ e step := withValue step fun v => pass (a.value e.ty v) (.value v)
  body own step := Eval.andThen step fun flow => pass (a.body own flow) flow

/-- The alarms of both; where both have one, a run stops with the first. -/
def or (a b : Alarms) : Alarms where
  value ty v := (a.value ty v).or (b.value ty v)
  body own flow := (a.body own flow).or (b.body own flow)

theorem or_none (a : Alarms) : a.or {} = a := by
  unfold or
  simp only [Option.or_none]

/-- Without alarms for bodies nothing is done at their ends. -/
theorem observer_body {a : Alarms} {own : DeclId} (h : ∀ flow, a.body own flow = none)
    (step : Eval Flow) : a.observer.body own step = step := by
  funext m
  simp only [observer, h, pass]
  unfold Eval.andThen
  rcases step m with ⟨_ | _ | _, n⟩ <;> rfl

theorem observer_none : observer {} = {} := by
  unfold observer
  congr 1
  · funext own e step
    exact withValue_value step
  · funext own step
    exact observer_body (a := {}) (fun _ => rfl) step

/-- Alarms that differ from others only where those have an excused error. -/
structure Eases (excused : Error → Prop) (a b : Alarms) : Prop where
  value : ∀ ty v, a.value ty v = b.value ty v ∨ ∃ e, a.value ty v = some e ∧ excused e
  body : ∀ own flow, a.body own flow = b.body own flow ∨ ∃ e, a.body own flow = some e ∧ excused e

/-- Runs that are equal unless the first one stops with an excused error. -/
def unstopped (excused : Error → Prop) : Comparison Unit where
  terms := { excuses := fun e => ∃ stop, e = some stop ∧ excused stop, stopped := Eq }
  logs _ := Eq
  values _ := Eq
  unwinds _ _ _ v v' l k := v = v' ∧ l = k
  eq_of_values h := h
  stopped_of_logs _ _ _ h := h
  stopped_of_unwinds h := h.2

theorem returns_unstopped_iff {excused : Error → Prop} {own : DeclId} {target : ReturnTarget}
    {v v' : Value} {l k : List HostCall} :
    (unstopped excused).returns own () target v v' l k ↔ v = v' ∧ l = k := by
  cases target <;> exact Iff.rfl

namespace Eases

variable {excused : Error → Prop} {a b : Alarms}

/-- Alarms for one flow: the same, or the first one is excused. -/
theorem pass_matches {alarm alarm' : Option Error}
    (h : alarm = alarm' ∨ ∃ e, alarm = some e ∧ excused e) {mask : List Bool} {flow : Flow}
    {post : Flow → Flow → LogRel} (hpost : ∀ l, post flow flow l l) :
    Matches (unstopped excused).terms mask Eq post (pass alarm flow) (pass alarm' flow) := by
  obtain rfl | ⟨e, rfl, he⟩ := h
  · cases alarm with
    | none =>
      refine Matches.yield ?_
      rintro l _ rfl
      exact hpost l
    | some e => exact Matches.fail e fun _ _ hl => hl
  · exact Matches.fail_excused ⟨e, rfl, he⟩

theorem observersMatch (h : a.Eases excused b) (p : Interpreter) :
    ObserversMatch (unstopped excused) (fun _ => True) (fun _ _ _ => True) p a.observer
      b.observer where
  log _ _ _ _ _ _ _ _ hl := congrArg _ hl
  calls _ _ _ _ _ := ⟨trivial, trivial⟩
  code _ _ _ _ _ _ :=
    { expr := fun e _ x y hxy i mask => (hxy i mask).withValue
        (Matches.of_same fun v => pass_matches (h.value e.ty v) fun _ => ⟨rfl, rfl⟩)
      returned := fun target e x y hxy i mask => (hxy i mask).post_mono
        (Flow.Rel.mono (fun _ _ _ _ hv => returns_unstopped_iff.mpr hv) fun _ _ _ _ _ hr => hr) }
  body id head info params body hd x y hxy i := by
    unfold observer
    rw [Eval.andThen_assoc, Eval.andThen_assoc]
    -- The flows are the same, and so is what is done with them, unless an alarm stops the run.
    have hflow : ∀ flow, Matches (unstopped excused).terms [true] Eq (same Eq)
        (Eval.andThen (pass (a.body id flow) flow) (leaveFunction id info))
        (Eval.andThen (pass (b.body id flow) flow) (leaveFunction id info)) := by
      intro flow
      have hpass : Matches (unstopped excused).terms [true] Eq
          (fun f f' l k => (f = flow ∧ f' = flow) ∧ l = k) (pass (a.body id flow) flow)
          (pass (b.body id flow) flow) :=
        pass_matches (h.body id flow) fun _ => ⟨⟨rfl, rfl⟩, rfl⟩
      refine hpass.andThen fun f f' => Matches.assuming ?_
      rintro ⟨rfl, rfl⟩
      cases f' with
      | value v => exact Matches.yield fun _ _ hl => ⟨rfl, hl⟩
      | ret target v => exact leaveFunction_ret (fun _ _ _ hl => ⟨rfl, hl⟩) fun _ _ hl => hl
    refine (Comparison.of_flowOfBody (hxy i [true])).andThen_flow (fun v v' => ?_)
      fun target v v' => ?_
    · refine Matches.assuming ?_
      rintro ⟨rfl, -⟩
      exact hflow (.value v)
    · refine Matches.weaken (P := fun l k => v = v' ∧ l = k) (Matches.assuming ?_)
        (fun _ _ hl => returns_unstopped_iff.mp hl) fun _ _ _ _ hl => hl
      rintro rfl
      exact hflow (.ret target v)

/-- With fewer alarms a run is the same, unless it was stopped with an excused error. -/
theorem callWithin_eq (h : a.Eases excused b) (p : Interpreter) (rounds : Nat) (id : DeclId)
    (args : List Value)
    (hne : ∀ e, excused e →
      ((p.observed a.observer).callWithin rounds id args {}).1 ≠ .failed e) :
    (p.observed b.observer).callWithin rounds id args {} =
      (p.observed a.observer).callWithin rounds id args {} := by
  obtain ⟨o, l, hx, hright⟩ := callWithin_observed (h.observersMatch p) id trivial rounds () args
    [] [] [] [] rfl rfl
  rw [show (_ : Outcome Value × Machine) = _ from hx] at hne ⊢
  obtain hexcused | ⟨o', k, hy, hag⟩ := hright
  · cases o with
    | done v => exact hexcused.elim
    | failed e =>
      obtain ⟨stop, heq, hstop⟩ := hexcused
      exact absurd (congrArg Outcome.failed (Option.some.inj heq)) (hne stop hstop)
    | outOfFuel =>
      obtain ⟨stop, heq, -⟩ := hexcused
      exact nomatch heq
  · obtain ⟨rfl, rfl⟩ := hag.outcome_eq fun _ _ hl => hl
    exact hy

end Eases

end Alarms

/-- What is taken for granted about the values of expressions and the flows of bodies. -/
structure Check where
  value : Ty → Value → Bool := fun _ _ => true
  body : DeclId → Flow → Bool := fun _ _ => true

namespace Check

/-- One error wherever something does not hold. -/
def alarms (c : Check) (stop : Error) : Alarms where
  value ty v := if c.value ty v then none else some stop
  body own flow := if c.body own flow then none else some stop

/-- Stops a run with an error where something does not hold. -/
def observer (c : Check) (stop : Error) : Observer := (c.alarms stop).observer

/-- Other alarms for what a check finds, or none. -/
theorem eases_alarms {c : Check} {stop : Error} {b : Alarms}
    (hvalue : ∀ ty v, c.value ty v → b.value ty v = none)
    (hbody : ∀ own flow, c.body own flow → b.body own flow = none) :
    (c.alarms stop).Eases (· = stop) b where
  value ty v := by
    cases h : c.value ty v with
    | true => exact .inl (by simp [alarms, h, hvalue ty v h])
    | false => exact .inr ⟨stop, by simp [alarms, h], rfl⟩
  body own flow := by
    cases h : c.body own flow with
    | true => exact .inl (by simp [alarms, h, hbody own flow h])
    | false => exact .inr ⟨stop, by simp [alarms, h], rfl⟩

/-- Without the first of two checks. -/
theorem eases_or_left (c d : Check) (stop stop' : Error) :
    ((c.alarms stop).or (d.alarms stop')).Eases (· = stop) (d.alarms stop') where
  value ty v := by
    cases h : c.value ty v <;> simp [Alarms.or, alarms, h]
  body own flow := by
    cases h : c.body own flow <;> simp [Alarms.or, alarms, h]

/-- Without the second of two checks. -/
theorem eases_or_right (c d : Check) (stop stop' : Error) :
    ((c.alarms stop).or (d.alarms stop')).Eases (· = stop') (c.alarms stop) where
  value ty v := by
    cases h : c.value ty v <;> cases h' : d.value ty v <;> simp [Alarms.or, alarms, h, h']
  body own flow := by
    cases h : c.body own flow <;> cases h' : d.body own flow <;> simp [Alarms.or, alarms, h, h']

end Check

namespace Interpreter

/-- A run that keeps to a check: whatever error the check stops runs with, it does not stop this
one. -/
def KeepsTo (p : Interpreter) (c : Check) (rounds : Nat) (id : DeclId) (args : List Value) : Prop :=
  ∀ stop, (p.observed (c.observer stop)).callWithin rounds id args {} = p.callWithin rounds id args {}

/-- A run can be told from those that were stopped with one of two errors. -/
theorem exists_ne_failed {α : Type} (o : Outcome α) :
    ∃ stop stop', stop ≠ stop' ∧ o ≠ .failed stop ∧ o ≠ .failed stop' := by
  by_cases h : ∃ text, o = .failed (.generic text)
  · obtain ⟨text, rfl⟩ := h
    exact ⟨.config text, .invalidState text, by simp, by simp, by simp⟩
  · exact ⟨.generic "", .generic " ", by simp, fun heq => h ⟨_, heq⟩, fun heq => h ⟨_, heq⟩⟩

/-- A run keeps to a check that does not stop it with one error. -/
theorem KeepsTo.of_ne_failed {p : Interpreter} {c : Check} (stop : Error) {rounds : Nat}
    {id : DeclId} {args : List Value} (hp : p.observer = {})
    (h : ((p.observed (c.observer stop)).callWithin rounds id args {}).1 ≠ .failed stop) :
    p.KeepsTo c rounds id args := by
  have hne : ∀ e, e = stop →
      ((p.observed (c.observer stop)).callWithin rounds id args {}).1 ≠ .failed e := by
    rintro _ rfl
    exact h
  -- Neither without the check nor with another error is the run a different one.
  have hplain := (Check.eases_alarms (b := {}) (fun _ _ _ => rfl)
    fun _ _ _ => rfl).callWithin_eq p rounds id args hne
  rw [Alarms.observer_none, show p.observed {} = p by rw [← hp]; rfl] at hplain
  intro stop'
  refine (Check.eases_alarms (b := c.alarms stop') (fun ty v hv => ?_)
    fun own flow hflow => ?_).callWithin_eq p rounds id args hne |>.trans hplain.symm
  · exact if_pos hv
  · exact if_pos hflow

/-- A run that keeps to two checks is not stopped by both of them together. The errors are different
ones, so that a stopped run tells which of the checks it did not keep to. -/
theorem KeepsTo.both {p : Interpreter} {c d : Check} {rounds : Nat} {id : DeclId}
    {args : List Value} (hc : p.KeepsTo c rounds id args) (hd : p.KeepsTo d rounds id args)
    {stop stop' : Error} (hstops : stop ≠ stop')
    (hne : (p.callWithin rounds id args {}).1 ≠ .failed stop) :
    (p.observed ((c.alarms stop).or (d.alarms stop')).observer).callWithin rounds id args {} =
      p.callWithin rounds id args {} := by
  have hfirst : ((p.observed ((c.alarms stop).or (d.alarms stop')).observer).callWithin rounds id
      args {}).1 ≠ .failed stop := by
    intro hfailed
    have hrun := (Check.eases_or_right c d stop stop').callWithin_eq p rounds id args
      fun e he hother => hstops (by
        rw [he] at hother
        exact Outcome.failed.inj (hfailed.symm.trans hother))
    exact hne ((congrArg Prod.fst ((hc stop).symm.trans hrun)).trans hfailed)
  have hrun := (Check.eases_or_left c d stop stop').callWithin_eq p rounds id args
    fun e he => he ▸ hfirst
  exact hrun.symm.trans (hd stop')

/-- What matches an observed run matches the run itself, if the observer does not change it. -/
theorem agree_of_matches {p : Interpreter} {o : Observer} {rounds : Nat} {id : DeclId}
    {args : List Value}
    (h : (p.observed o).callWithin rounds id args {} = p.callWithin rounds id args {})
    {t : Terms} {pre : LogRel} {y : Eval Value} {post : Value → Value → LogRel}
    (hmatch : CallsMatch t pre post ((p.observed o).callWithin rounds id args) y)
    (hexcuses : ¬t.Excuses (p.callWithin rounds id args {}).1) (hpre : pre [] []) :
    t.Agree post (p.callWithin rounds id args {}).1 (y {}).1 (p.callWithin rounds id args {}).2.log
      (y {}).2.log := by
  obtain ⟨o, l, hx, ho⟩ := hmatch [] [] [] [] rfl hpre
  rw [show (⟨[], []⟩ : Machine) = {} from rfl, h] at hx
  rw [hx] at hexcuses ⊢
  obtain ⟨o', k, hy, hag⟩ := ho.resolve_left hexcuses
  rw [show (⟨[], []⟩ : Machine) = {} from rfl] at hy
  rw [hy]
  exact hag

end Interpreter

end TraceWeave

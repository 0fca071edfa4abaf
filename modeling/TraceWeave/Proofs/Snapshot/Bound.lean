import Mathlib.Data.List.Forall2
import TraceWeave.Proofs.Snapshot.Upkeep

/-! # Variables stay bound

Code leaves the activations below its own alone, and in its own it leaves as many scopes as it
found, with all variables still bound that were bound in each. A variable that is declared may be
counted on from then on.

`Frame.Binds` says which variables are bound, `Frame.Extends` what code does to a frame, and
`Upkeep.bound` is the upkeep of a run that carries both.
-/

namespace TraceWeave

/-! ## Frames -/

namespace Bindings

/-- Bindings with all variables of others. -/
def Extends (s t : Bindings) : Prop := ∀ var, (s.lookup var).isSome → (t.lookup var).isSome

theorem extends_bind (var : VarId) (value : Value) : ∀ s : Bindings, s.Extends (bind var value s)
  | [] => nofun
  | (v, old) :: rest => by
    intro w hw
    unfold bind
    by_cases hw' : w = v
    · -- the first binding is of the variable, and it stays one, if perhaps to another value
      rw [hw']
      split <;> rw [List.lookup_cons_self] <;> rfl
    · rw [List.lookup_cons, beq_false_of_ne hw'] at hw
      split <;> rw [List.lookup_cons, beq_false_of_ne hw']
      · exact hw
      · exact extends_bind var value rest w hw

end Bindings

namespace Frame

/-- A frame with the same scopes as another one, each of them with all its variables. -/
def Extends (f g : Frame) : Prop := List.Forall₂ Bindings.Extends f g

/-- A frame in which variables are bound. -/
def Binds (f : Frame) (vars : List VarId) : Prop := ∀ v ∈ vars, (f.find? v).isSome

theorem Extends.refl : ∀ f : Frame, f.Extends f
  | [] => .nil
  | _ :: f => .cons (fun _ h => h) (refl f)

theorem Extends.trans : ∀ {f g h : Frame}, f.Extends g → g.Extends h → f.Extends h
  | _, _, _, .nil, .nil => .nil
  | _, _, _, .cons hs hf, .cons ht hg => .cons (fun v hv => ht v (hs v hv)) (trans hf hg)

theorem Extends.ne_nil {f g : Frame} (h : f.Extends g) (hf : f ≠ []) : g ≠ [] := by
  cases h with
  | nil => exact hf
  | cons => exact List.cons_ne_nil _ _

theorem isSome_find?_cons (s : Bindings) (f : Frame) (var : VarId) :
    (find? (s :: f) var).isSome = ((s.lookup var).isSome || (f.find? var).isSome) := by
  rw [find?, List.findSome?_cons]
  cases s.lookup var <;> rfl

theorem Extends.isSome_find? {f g : Frame} (h : f.Extends g) {var : VarId}
    (hf : (f.find? var).isSome) : (g.find? var).isSome := by
  induction h with
  | nil => exact hf
  | cons hs _ ih =>
    rw [isSome_find?_cons, Bool.or_eq_true] at hf ⊢
    exact hf.imp (hs var) ih

theorem Extends.binds {f g : Frame} (h : f.Extends g) {vars : List VarId} (hf : f.Binds vars) :
    g.Binds vars := fun v hv => h.isSome_find? (hf v hv)

theorem extends_declare (var : VarId) (value : Value) :
    ∀ f : Frame, f.Extends (f.declare var value)
  | [] => .nil
  | s :: f => .cons (Bindings.extends_bind var value s) (Extends.refl f)

theorem extends_of_assign? {var : VarId} {value : Value} :
    ∀ {f g : Frame}, f.assign? var value = some g → f.Extends g
  | [], _, h => nomatch h
  | s :: f, g, h => by
    rw [assign?] at h
    split at h
    · rw [← Option.some.inj h]
      exact .cons (Bindings.extends_bind var value s) (Extends.refl f)
    · obtain ⟨f', hf, rfl⟩ := Option.map_eq_some_iff.mp h
      exact .cons (fun _ hv => hv) (extends_of_assign? hf)

/-- A variable that is declared is bound, and so are those that were bound before. -/
theorem Binds.declare {f : Frame} {vars : List VarId} (h : f.Binds vars) (hf : f ≠ [])
    (var : VarId) (value : Value) : (f.declare var value).Binds (vars ++ [var]) := by
  intro v hv
  obtain hv | hv := List.mem_append.mp hv
  · exact (extends_declare var value f).binds h v hv
  · obtain ⟨s, rest, rfl⟩ := List.exists_cons_of_ne_nil hf
    rw [List.mem_singleton.mp hv, find?_declare]
    rfl

theorem Binds.inScope {f : Frame} {vars : List VarId} (h : f.Binds vars) :
    Binds ([] :: f) vars := h

end Frame

/-- The variables that can be seen are bound. -/
def Upkeep.bound : Upkeep where
  Knows vars f := f.Binds vars
  Leaves _ f g := f.Extends g
  refl := Frame.Extends.refl
  trans := Frame.Extends.trans
  stmts h := h
  ne_nil := Frame.Extends.ne_nil
  known h hf := h.binds hf
  assign := Frame.extends_of_assign?
  declare var value hf h := h.declare hf var value
  declared {var value f g} _ h := (Frame.extends_declare var value f).trans h
  scope := Frame.Binds.inScope
  leaveScope {s f g} _ h := by
    cases h with
    | cons _ hfg => exact hfg

theorem Upkeep.bound_start : Upkeep.bound.Knows [] Frame.start := fun _ hv => nomatch hv

end TraceWeave

import TraceWeave.Proofs.Snapshot.Bound

/-! # Exactly the variables that are bound

Code that has been evaluated leaves behind no variable that was not bound before, apart from what
statements declare in their own scope. So the variables that are bound in the middle of code are
known exactly, and not only some of them.

`Frame.BindsExactly` is the property, and `Upkeep.exact` the upkeep of a run that carries it.
-/

namespace TraceWeave

namespace Bindings

/-- Scopes with the same variables. -/
def SameVars (s t : Bindings) : Prop := ∀ var, (s.lookup var).isSome = (t.lookup var).isSome

theorem SameVars.refl (s : Bindings) : s.SameVars s := fun _ => rfl

theorem SameVars.trans {s t u : Bindings} (h : s.SameVars t) (h' : t.SameVars u) : s.SameVars u :=
  fun var => (h var).trans (h' var)

/-- Binding a variable does not matter to the others. -/
theorem lookup_bind_of_ne {var w : VarId} (h : w ≠ var) (value : Value) :
    ∀ s : Bindings, List.lookup w (bind var value s) = s.lookup w
  | [] => by rw [bind, List.lookup_cons, beq_false_of_ne h]
  | (v, old) :: rest => by
    unfold bind
    split
    · rename_i hv
      rw [List.lookup_cons, List.lookup_cons, hv, beq_false_of_ne h]
    · rw [List.lookup_cons, List.lookup_cons, lookup_bind_of_ne h value rest]

/-- Overwriting a variable. -/
theorem sameVars_bind {s : Bindings} {var : VarId} (h : (s.lookup var).isSome) (value : Value) :
    s.SameVars (bind var value s) := by
  intro w
  by_cases hw : w = var
  · rw [hw, h, lookup_bind_self]
    rfl
  · rw [lookup_bind_of_ne hw]

end Bindings

namespace Frame

/-- Frames with the same scopes, each with the same variables. -/
def SameVars (f g : Frame) : Prop := List.Forall₂ Bindings.SameVars f g

/-- A frame in which some variables are bound and no others. -/
def BindsExactly (f : Frame) (vars : List VarId) : Prop := ∀ v, (f.find? v).isSome ↔ v ∈ vars

theorem SameVars.refl : ∀ f : Frame, f.SameVars f
  | [] => .nil
  | s :: f => .cons (.refl s) (refl f)

theorem SameVars.trans : ∀ {f g h : Frame}, f.SameVars g → g.SameVars h → f.SameVars h
  | _, _, _, .nil, .nil => .nil
  | _, _, _, .cons hs hf, .cons ht hg => .cons (hs.trans ht) (trans hf hg)

theorem SameVars.tail {f g : Frame} (h : f.SameVars g) : SameVars f.tail g.tail := by
  cases h with
  | nil => exact .nil
  | cons _ hf => exact hf

theorem SameVars.ne_nil {f g : Frame} (h : f.SameVars g) (hf : f ≠ []) : g ≠ [] := by
  cases h with
  | nil => exact hf
  | cons => exact List.cons_ne_nil _ _

theorem SameVars.isSome_find? {f g : Frame} (h : f.SameVars g) (var : VarId) :
    (f.find? var).isSome = (g.find? var).isSome := by
  induction h with
  | nil => rfl
  | cons hs _ ih => rw [isSome_find?_cons, isSome_find?_cons, hs var, ih]

theorem BindsExactly.sameVars {f g : Frame} {vars : List VarId} (h : f.BindsExactly vars)
    (hg : f.SameVars g) : g.BindsExactly vars := by
  intro v
  rw [← hg.isSome_find? v]
  exact h v

theorem sameVars_of_assign? {var : VarId} {value : Value} :
    ∀ {f g : Frame}, f.assign? var value = some g → f.SameVars g
  | [], _, h => nomatch h
  | s :: f, g, h => by
    rw [assign?] at h
    split at h
    · rename_i hbound
      rw [← Option.some.inj h]
      exact .cons (Bindings.sameVars_bind hbound value) (SameVars.refl f)
    · obtain ⟨f', hf, rfl⟩ := Option.map_eq_some_iff.mp h
      exact .cons (.refl s) (sameVars_of_assign? hf)

/-- A variable that is declared is bound, and apart from it the same ones as before. -/
theorem BindsExactly.declare {f : Frame} {vars : List VarId} (h : f.BindsExactly vars)
    (hf : f ≠ []) (var : VarId) (value : Value) :
    (f.declare var value).BindsExactly (vars ++ [var]) := by
  obtain ⟨s, rest, rfl⟩ := List.exists_cons_of_ne_nil hf
  intro v
  rw [List.mem_append, List.mem_singleton]
  by_cases hv : v = var
  · rw [hv, find?_declare]
    exact ⟨fun _ => .inr rfl, fun _ => rfl⟩
  · rw [Frame.declare, isSome_find?_cons, Bindings.lookup_bind_of_ne hv, ← isSome_find?_cons, h v]
    exact ⟨.inl, fun h => h.resolve_right hv⟩

end Frame

/-- Some of the variables that can be seen are not bound yet: in the place of those that are listed
first, others are bound. -/
def Upkeep.exact (listed bound : List VarId) : Upkeep where
  Knows vars f := ∃ locals, vars = listed ++ locals ∧ f.BindsExactly (bound ++ locals)
  Leaves
    | .expr, f, g => f.SameVars g
    | .stmts, f, g => Frame.SameVars f.tail g.tail ∧ (f ≠ [] → g ≠ [])
  refl := Frame.SameVars.refl
  trans {r f g h} hfg hgh := by
    cases r with
    | expr => exact Frame.SameVars.trans hfg hgh
    | stmts => exact ⟨(Frame.SameVars.tail hfg).trans hgh.1, hgh.2 ∘ Frame.SameVars.ne_nil hfg⟩
  stmts h := ⟨Frame.SameVars.tail h, Frame.SameVars.ne_nil h⟩
  ne_nil h := h.2
  known hfg := by
    rintro ⟨locals, hvars, hf⟩
    exact ⟨locals, hvars, hf.sameVars hfg⟩
  assign := Frame.sameVars_of_assign?
  declare var value hf := by
    rintro ⟨locals, rfl, h⟩
    refine ⟨locals ++ [var], List.append_assoc _ _ _, ?_⟩
    rw [← List.append_assoc]
    exact h.declare hf var value
  declared {var value f g} hf h := by
    obtain ⟨s, rest, rfl⟩ := List.exists_cons_of_ne_nil hf
    exact ⟨h.1, fun _ => h.2 (List.cons_ne_nil _ _)⟩
  scope h := h
  leaveScope _ h := h.1

/-- All variables that can be seen are bound, and no others. -/
theorem Upkeep.exact_start : (Upkeep.exact [] []).Knows [] Frame.start :=
  ⟨[], rfl, fun _ => ⟨nofun, nofun⟩⟩

end TraceWeave

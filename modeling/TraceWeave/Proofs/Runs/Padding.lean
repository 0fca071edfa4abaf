import TraceWeave.Eval.Machine

/-! # Padded activations

Code that was put into blocks of its own runs with more scopes than before. A mask says where the
scopes of an activation stand among empty ones. Reading and writing variables never notices.

`Frame.pad` puts the scopes in, `Frame.find?_pad` is about reading and `Frame.assign?_pad` about
writing.
-/

namespace TraceWeave

namespace Bindings

/-- A variable that was bound reads as what it was bound to. -/
theorem lookup_bind_self (var : VarId) (value : Value) :
    ∀ s : Bindings, List.lookup var (bind var value s) = some value
  | [] => by simp [bind]
  | (v, old) :: rest => by
    unfold bind
    by_cases h : v = var
    · rw [if_pos h, h, List.lookup_cons_self]
    · rw [if_neg h, List.lookup_cons, beq_false_of_ne (Ne.symm h)]
      exact lookup_bind_self var value rest

end Bindings

namespace Frame

/-- The scopes of a frame where the mask says `true`, and empty ones where it says `false`. Behind
the end of the mask the frame goes on as it is. -/
def pad : List Bool → Frame → Frame
  | [], f => f
  | false :: mask, f => [] :: pad mask f
  | true :: mask, s :: f => s :: pad mask f
  | true :: _, [] => []

@[simp] theorem pad_nil (f : Frame) : pad [] f = f := by cases f <;> rfl

@[simp] theorem pad_false (mask : List Bool) (f : Frame) : pad (false :: mask) f = [] :: pad mask f :=
  by cases f <;> rfl

@[simp] theorem pad_true (mask : List Bool) (s : Bindings) (f : Frame) :
    pad (true :: mask) (s :: f) = s :: pad mask f := rfl

theorem pad_one : ∀ f : Frame, pad [true] f = f
  | [] => rfl
  | s :: f => by rw [pad_true, pad_nil]

theorem pad_ne_nil : ∀ (mask : List Bool) {f : Frame}, f ≠ [] → pad mask f ≠ []
  | [], _, h => by rwa [pad_nil]
  | false :: _, _, _ => by rw [pad_false]; exact List.cons_ne_nil _ _
  | true :: _, _ :: _, _ => by rw [pad_true]; exact List.cons_ne_nil _ _
  | true :: _, [], h => absurd rfl h

/-- A padded frame has the same innermost bindings. -/
theorem find?_pad (var : VarId) : ∀ (mask : List Bool) (f : Frame), (pad mask f).find? var = f.find? var
  | [], f => by rw [pad_nil]
  | false :: mask, f => by
    rw [pad_false, ← find?_pad var mask f]
    rfl
  | true :: mask, s :: f => by
    rw [pad_true, find?, find?, List.findSome?_cons, List.findSome?_cons]
    have ih := find?_pad var mask f
    rw [find?, find?] at ih
    rw [ih]
  | true :: _, [] => rfl

/-- Overwriting in a padded frame is padding the overwritten frame. -/
theorem assign?_pad (var : VarId) (value : Value) : ∀ (mask : List Bool) (f : Frame),
    (pad mask f).assign? var value = (f.assign? var value).map (pad mask)
  | [], f => by
    rw [pad_nil, show pad [] = id from funext pad_nil, Option.map_id]
    rfl
  | false :: mask, f => by
    rw [pad_false, assign?, assign?_pad var value mask f]
    simp only [List.lookup_nil, Option.isSome_none, Bool.false_eq_true, if_false, Option.map_map]
    rfl
  | true :: mask, s :: f => by
    rw [pad_true, assign?, assign?]
    by_cases h : (s.lookup var).isSome
    · rw [if_pos h, if_pos h, Option.map_some, pad_true]
    · rw [if_neg h, if_neg h, assign?_pad var value mask f, Option.map_map, Option.map_map]
      rfl
  | true :: _, [] => rfl

/-- Overwriting keeps the number of scopes. -/
theorem length_of_assign? {var : VarId} {value : Value} :
    ∀ {f g : Frame}, f.assign? var value = some g → g.length = f.length
  | [], _, h => nomatch h
  | s :: f, g, h => by
    rw [assign?] at h
    split at h
    · rw [← Option.some.inj h, List.length_cons, List.length_cons]
    · obtain ⟨f', hf, rfl⟩ := Option.map_eq_some_iff.mp h
      rw [List.length_cons, List.length_cons, length_of_assign? hf]

@[simp] theorem length_declare (var : VarId) (value : Value) (f : Frame) :
    (f.declare var value).length = f.length := by
  cases f <;> simp [declare]

/-- Leaving a scope that was entered. -/
theorem popScope_cons {s : Bindings} {f : Frame} (h : f ≠ []) : popScope (s :: f) = f := by
  obtain ⟨t, rest, rfl⟩ := List.exists_cons_of_ne_nil h
  rfl

/-- A variable that was declared reads as its value. -/
theorem find?_declare (var : VarId) (value : Value) (s : Bindings) (f : Frame) :
    (declare var value (s :: f)).find? var = some value := by
  rw [declare, find?, List.findSome?_cons, Bindings.lookup_bind_self]

end Frame

end TraceWeave

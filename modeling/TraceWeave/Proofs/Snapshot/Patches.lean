import Mathlib.Data.List.Nodup
import TraceWeave.Eval.Value

/-! # Differences as patches

A difference says how to get from a snapshot to a later one: carried out on the earlier snapshot, it
gives every variable of the later one its value there. Variables that are gone are not mentioned and
keep their old values. A variable that comes back after it was gone would be added a second time; for
all others one difference can be carried out after the other.

* `changed_mem_diff`, `defined_mem_diff`: what a difference lists.
* `get?_patch_diff_of_none`, `get?_patch_diff_of_some`: what it does to a variable of any snapshot,
  also if the later snapshot lists the variable several times.
* `diff_patches`: differences are patches, and which variables two of them bring to their last value.
-/

namespace TraceWeave

variable {V : Type}

namespace FrameChange

/-- The variable that a change is about. -/
def var : FrameChange V → Handle .localInfo
  | .defined var _ => var
  | .changed var _ _ => var

/-- The value that the variable has from then on. -/
def after : FrameChange V → V
  | .defined _ value => value
  | .changed _ _ after => after

end FrameChange

namespace FrameSnapshot

/-- The variables of a snapshot, in its order. -/
def vars (s : FrameSnapshot V) : List (Handle .localInfo) := s.values.map Prod.fst

/-- Whether no variable has two values. Of two a lookup sees the first one, while a difference to the
snapshot may list a change to each. -/
def Distinct (s : FrameSnapshot V) : Prop := s.vars.Nodup

/-- The values that a snapshot lists for a variable, in its order. -/
def listed (s : FrameSnapshot V) (x : Handle .localInfo) : List V :=
  (s.values.filter fun entry => entry.1 = x).map Prod.snd

/-- Gives a variable another value where it stands. -/
def overwrite (x : Handle .localInfo) (v : V) (entries : List (Handle .localInfo × V)) :
    List (Handle .localInfo × V) :=
  entries.map fun entry => if entry.1 = x then (x, v) else entry

/-- Carries out a change: a variable is added, or its value is overwritten. -/
def apply (s : FrameSnapshot V) : FrameChange V → FrameSnapshot V
  | .defined var value => { s with values := s.values ++ [(var, value)] }
  | .changed var _ after => { s with values := overwrite var after s.values }

/-- Carries out changes one after the other. -/
def patch (s : FrameSnapshot V) (changes : List (FrameChange V)) : FrameSnapshot V :=
  changes.foldl apply s

/-- Whether a change can be carried out: new variables are added, known ones overwritten. -/
def Fits (s : FrameSnapshot V) : FrameChange V → Prop
  | .defined var _ => s.get? var = none
  | .changed var _ _ => (s.get? var).isSome

/-! ## Values by variable -/

section

variable {s : FrameSnapshot V} {x : Handle .localInfo} {v : V}

theorem get?_eq_none_iff : s.get? x = none ↔ x ∉ s.vars := by
  rw [get?, List.lookup_eq_none_iff, vars, List.mem_map]
  constructor
  · rintro h ⟨entry, hentry, rfl⟩
    exact bne_iff_ne.mp (h entry hentry) rfl
  · exact fun h entry hentry => bne_iff_ne.mpr fun heq => h ⟨entry, hentry, heq.symm⟩

theorem mem_of_get? (h : s.get? x = some v) : (x, v) ∈ s.values := by
  obtain ⟨before, behind, hsplit, -⟩ := List.lookup_eq_some_iff.mp h
  rw [hsplit]
  simp

/-- With distinct variables a variable has the value that it is listed with. -/
theorem get?_of_mem (hs : s.Distinct) (h : (x, v) ∈ s.values) : s.get? x = some v := by
  obtain ⟨w, hw⟩ : ∃ w, s.get? x = some w := by
    rw [← Option.isSome_iff_exists, Option.isSome_iff_ne_none, Ne, get?_eq_none_iff, not_not]
    exact List.mem_map_of_mem (f := Prod.fst) h
  have hentry : (x, w) = (x, v) := List.inj_on_of_nodup_map hs (mem_of_get? hw) h rfl
  rw [hw, (Prod.mk.inj hentry).2]

theorem mem_listed : v ∈ s.listed x ↔ (x, v) ∈ s.values := by
  simp only [listed, List.mem_map, List.mem_filter, decide_eq_true_eq]
  constructor
  · rintro ⟨entry, ⟨hentry, rfl⟩, rfl⟩
    exact hentry
  · exact fun h => ⟨(x, v), ⟨h, rfl⟩, rfl⟩

/-- With distinct variables at most one value is listed for each. -/
theorem Distinct.eq_of_mem_listed (hs : s.Distinct) (h : s.get? x = some v) {w : V}
    (hw : w ∈ s.listed x) : w = v :=
  Option.some.inj ((get?_of_mem hs (mem_listed.mp hw)).symm.trans h)

end

/-! ## Changes carried out -/

theorem lookup_overwrite (x y : Handle .localInfo) (v : V) :
    ∀ entries : List (Handle .localInfo × V), (overwrite x v entries).lookup y =
      if y = x then (entries.lookup y).map fun _ => v else entries.lookup y
  | [] => by simp [overwrite]
  | (z, w) :: entries => by
    have ih := lookup_overwrite x y v entries
    unfold overwrite at *
    rw [List.map_cons, List.lookup_cons]
    by_cases hz : z = x
    · rw [if_pos hz, List.lookup_cons, ih, hz]
      by_cases hy : y = x
      · simp [hy]
      · rw [beq_false_of_ne hy, if_neg hy]
    · rw [if_neg hz, List.lookup_cons, ih]
      by_cases hy : y = z
      · simp [hy, hz]
      · rw [beq_false_of_ne hy]

section

variable {s : FrameSnapshot V} {change : FrameChange V} {x : Handle .localInfo}

theorem get?_apply_of_ne (h : x ≠ change.var) : (s.apply change).get? x = s.get? x := by
  cases change with
  | defined y v =>
    have hne : (x == y) = false := beq_false_of_ne h
    simp [apply, get?, List.lookup_append, List.lookup_cons, hne]
  | changed y u v => exact (lookup_overwrite y x v s.values).trans (if_neg h)

theorem get?_apply_self (h : s.Fits change) :
    (s.apply change).get? change.var = some change.after := by
  cases change with
  | defined y v =>
    have hnone : s.values.lookup y = none := h
    simp [apply, get?, FrameChange.var, FrameChange.after, List.lookup_append, hnone]
  | changed y u v =>
    obtain ⟨w, hw⟩ := Option.isSome_iff_exists.mp h
    have hlookup : s.values.lookup y = some w := hw
    exact (lookup_overwrite y y v s.values).trans (by rw [if_pos rfl, hlookup]; rfl)

theorem vars_apply_defined (x : Handle .localInfo) (v : V) :
    (s.apply (.defined x v)).vars = s.vars ++ [x] := by
  simp [apply, vars]

theorem vars_apply_changed (x : Handle .localInfo) (u v : V) :
    (s.apply (.changed x u v)).vars = s.vars := by
  unfold apply vars overwrite
  rw [List.map_map]
  refine List.map_congr_left fun entry _ => ?_
  rw [Function.comp_apply]
  split_ifs with h
  · exact h.symm
  · rfl

theorem Distinct.apply (hs : s.Distinct) (h : s.Fits change) : (s.apply change).Distinct := by
  cases change with
  | defined x v =>
    rw [Distinct, vars_apply_defined]
    refine List.nodup_append.mpr ⟨hs, List.nodup_singleton x, ?_⟩
    rintro y hy z hz rfl
    rw [List.mem_singleton.mp hz] at hy
    exact get?_eq_none_iff.mp h hy
  | changed x u v =>
    rw [Distinct, vars_apply_changed]
    exact hs

theorem Fits.apply {other : FrameChange V} (h : s.Fits change) (hne : change.var ≠ other.var) :
    (s.apply other).Fits change := by
  cases change with
  | defined x v => exact (get?_apply_of_ne hne).trans h
  | changed x u v => exact (congrArg Option.isSome (get?_apply_of_ne hne)).trans h

end

section

variable {changes : List (FrameChange V)} {x : Handle .localInfo}

/-- What no change is about keeps its value. -/
theorem get?_patch_of_notMem (s : FrameSnapshot V) (h : x ∉ changes.map FrameChange.var) :
    (s.patch changes).get? x = s.get? x := by
  induction changes generalizing s with
  | nil => rfl
  | cons change changes ih =>
    rw [List.map_cons, List.mem_cons, not_or] at h
    exact (ih (s.apply change) h.2).trans (get?_apply_of_ne h.1)

theorem Distinct.patch {s : FrameSnapshot V} (hs : s.Distinct)
    (hn : (changes.map FrameChange.var).Nodup) (h : ∀ change ∈ changes, s.Fits change) :
    (s.patch changes).Distinct := by
  induction changes generalizing s with
  | nil => exact hs
  | cons first changes ih =>
    rw [List.map_cons, List.nodup_cons] at hn
    refine ih (hs.apply (h first (.head _))) hn.2 fun change hmem => ?_
    refine (h change (.tail _ hmem)).apply fun heq => hn.1 ?_
    exact heq ▸ List.mem_map_of_mem (f := FrameChange.var) hmem

end

/-! ## What a difference lists -/

section

variable [BEq V] {a b : FrameSnapshot V} {x : Handle .localInfo} {u v : V}

/-- The change of a variable that has the value `after` later. -/
def change? (a : FrameSnapshot V) (x : Handle .localInfo) (after : V) : Option (FrameChange V) :=
  match a.get? x with
  | none => some (.defined x after)
  | some before => if before == after then none else some (.changed x before after)

theorem diff_eq (a b : FrameSnapshot V) :
    a.diff b = b.values.filterMap fun entry => a.change? entry.1 entry.2 := rfl

theorem change?_of_none (h : a.get? x = none) (after : V) :
    a.change? x after = some (.defined x after) := by
  rw [change?, h]

theorem change?_of_some (h : a.get? x = some u) (after : V) :
    a.change? x after = if u == after then none else some (.changed x u after) := by
  rw [change?, h]

theorem change?_eq_defined {after : V} : a.change? x after = some (.defined x v) ↔
    a.get? x = none ∧ after = v := by
  cases hx : a.get? x with
  | none =>
    rw [change?_of_none hx, Option.some.injEq, FrameChange.defined.injEq]
    simp only [true_and]
  | some u =>
    rw [change?_of_some hx]
    split_ifs <;> simp

theorem change?_eq_changed {after : V} : a.change? x after = some (.changed x u v) ↔
    a.get? x = some u ∧ after = v ∧ (u == v) = false := by
  cases hx : a.get? x with
  | none => simp [change?_of_none hx]
  | some w =>
    rw [change?_of_some hx]
    constructor
    · intro h
      split_ifs at h with heq
      obtain ⟨-, rfl, rfl⟩ := FrameChange.changed.inj (Option.some.inj h)
      exact ⟨rfl, rfl, Bool.eq_false_iff.mpr heq⟩
    · rintro ⟨hw, rfl, hne⟩
      obtain rfl := Option.some.inj hw
      rw [hne, if_neg Bool.false_ne_true]

theorem var_of_change? {after : V} {change : FrameChange V} (h : a.change? x after = some change) :
    change.var = x := by
  cases hx : a.get? x with
  | none =>
    rw [change?_of_none hx] at h
    rw [← Option.some.inj h, FrameChange.var]
  | some u =>
    rw [change?_of_some hx] at h
    split_ifs at h
    rw [← Option.some.inj h, FrameChange.var]

theorem mem_diff (hb : b.Distinct) {change : FrameChange V} : change ∈ a.diff b ↔
    ∃ v, b.get? change.var = some v ∧ a.change? change.var v = some change := by
  rw [diff_eq, List.mem_filterMap]
  constructor
  · rintro ⟨⟨x, v⟩, hentry, hchange⟩
    obtain rfl := var_of_change? hchange
    exact ⟨v, get?_of_mem hb hentry, hchange⟩
  · rintro ⟨v, hv, hchange⟩
    exact ⟨(change.var, v), mem_of_get? hv, hchange⟩

/-- A variable is listed as new if it is only in the later snapshot. -/
theorem defined_mem_diff (hb : b.Distinct) :
    .defined x v ∈ a.diff b ↔ a.get? x = none ∧ b.get? x = some v := by
  rw [mem_diff hb]
  simp only [change?_eq_defined, FrameChange.var]
  constructor
  · rintro ⟨w, hw, hnone, rfl⟩
    exact ⟨hnone, hw⟩
  · rintro ⟨hnone, hv⟩
    exact ⟨v, hv, hnone, rfl⟩

/-- A variable is listed as changed, with both of its values, if these differ. -/
theorem changed_mem_diff (hb : b.Distinct) : .changed x u v ∈ a.diff b ↔
    a.get? x = some u ∧ b.get? x = some v ∧ (u == v) = false := by
  rw [mem_diff hb]
  simp only [change?_eq_changed, FrameChange.var]
  constructor
  · rintro ⟨w, hw, hu, rfl, hne⟩
    exact ⟨hu, hw, hne⟩
  · rintro ⟨hu, hv, hne⟩
    exact ⟨v, hv, hu, rfl, hne⟩

/-- The changes of a difference can be carried out where it starts. -/
theorem fits_of_mem_diff (hb : b.Distinct) {change : FrameChange V} (h : change ∈ a.diff b) :
    a.Fits change := by
  cases change with
  | defined x v => exact ((defined_mem_diff hb).mp h).1
  | changed x u v => exact Option.isSome_of_eq_some ((changed_mem_diff hb).mp h).1

/-- A difference goes through the variables of the later snapshot in order. -/
theorem vars_diff_sublist (a b : FrameSnapshot V) :
    ((a.diff b).map FrameChange.var).Sublist b.vars := by
  rw [diff_eq, vars]
  induction b.values with
  | nil => exact .slnil
  | cons entry rest ih =>
    rw [List.filterMap_cons, List.map_cons]
    cases hchange : a.change? entry.1 entry.2 with
    | none => exact ih.cons _
    | some change =>
      rw [← var_of_change? hchange]
      exact ih.cons_cons _

theorem nodup_vars_diff (hb : b.Distinct) (a : FrameSnapshot V) :
    ((a.diff b).map FrameChange.var).Nodup := (vars_diff_sublist a b).nodup hb

/-- Nothing is listed if every variable of the later snapshot has its value in the earlier one. -/
theorem diff_eq_nil_iff (hb : b.Distinct) : a.diff b = [] ↔
    ∀ x v, b.get? x = some v → ∃ u, a.get? x = some u ∧ u == v := by
  rw [List.eq_nil_iff_forall_not_mem]
  constructor
  · intro hnil x v hv
    cases hu : a.get? x with
    | none => exact absurd ((defined_mem_diff hb).mpr ⟨hu, hv⟩) (hnil _)
    | some u =>
      refine ⟨u, rfl, ?_⟩
      by_contra hne
      exact hnil _ ((changed_mem_diff hb).mpr ⟨hu, hv, Bool.eq_false_iff.mpr hne⟩)
  · intro hsame change hchange
    cases change with
    | defined x v =>
      obtain ⟨hnone, hv⟩ := (defined_mem_diff hb).mp hchange
      obtain ⟨u, hu, -⟩ := hsame x v hv
      rw [hnone] at hu
      cases hu
    | changed x u v =>
      obtain ⟨hu, hv, hne⟩ := (changed_mem_diff hb).mp hchange
      obtain ⟨w, hw, heq⟩ := hsame x v hv
      rw [hu] at hw
      rw [← Option.some.inj hw, hne] at heq
      cases heq

end

/-! ## Carrying out a difference -/

/-- Whether two values are one, or at least equal. -/
def Same [BEq V] (u v : V) : Prop := u = v ∨ u == v

theorem same_iff [BEq V] [LawfulBEq V] {u v : V} : Same u v ↔ u = v := by
  rw [Same, beq_iff_eq, or_self]

theorem Same.trans [BEq V] [PartialEquivBEq V] {u v w : V} (huv : Same u v) (hvw : Same v w) :
    Same u w := by
  rcases huv with rfl | huv
  · exact hvw
  · rcases hvw with rfl | hvw
    · exact .inr huv
    · exact .inr (PartialEquivBEq.trans huv hvw)

section

variable [BEq V] {a b c s : FrameSnapshot V} {x : Handle .localInfo} {u v w : V}

/-- The value of a variable after it was given values one after the other, where those are passed
over that are equal to the value `w` it had before. -/
def revised (w u : V) (values : List V) : V := (values.filter fun v => !(w == v)).getLastD u

theorem revised_cons (w u v : V) (values : List V) :
    revised w u (v :: values) = revised w (if w == v then u else v) values := by
  unfold revised
  by_cases h : w == v
  · rw [List.filter_cons_of_neg (by simp [h]), if_pos h]
  · rw [List.filter_cons_of_pos (by simp [h]), if_neg h, List.getLastD_cons]

theorem revised_mem_or (w u : V) (values : List V) :
    revised w u values ∈ values ∨ revised w u values = u ∧ ∀ v ∈ values, w == v := by
  induction values generalizing u with
  | nil => exact .inr ⟨rfl, fun v hv => nomatch hv⟩
  | cons v values ih =>
    rw [revised_cons]
    by_cases h : w == v
    · rw [if_pos h]
      refine (ih u).imp (List.mem_cons_of_mem v) fun ⟨hu, hrest⟩ => ⟨hu, ?_⟩
      exact List.forall_mem_cons.mpr ⟨h, hrest⟩
    · rw [if_neg h]
      refine .inl ((ih v).elim (List.mem_cons_of_mem v) fun ⟨hv, _⟩ => ?_)
      rw [hv]
      exact List.mem_cons_self

/-- What is left of two equal values is equal. -/
theorem Same.revised {u₁ u₂ : V} (h : Same u₁ u₂) (w : V) (values : List V) :
    Same (revised w u₁ values) (revised w u₂ values) := by
  unfold FrameSnapshot.revised
  cases values.filter fun v => !(w == v) with
  | nil => exact h
  | cons v rest => exact .inl (by rw [List.getLastD_cons, List.getLastD_cons])

theorem patch_diff_cons (s b : FrameSnapshot V) (location : Handle .location)
    (y : Handle .localInfo) (v : V) (rest : List (Handle .localInfo × V)) :
    s.patch (b.diff ⟨location, (y, v) :: rest⟩) =
      ((b.change? y v).elim s s.apply).patch (b.diff ⟨location, rest⟩) := by
  simp only [diff_eq, List.filterMap_cons]
  cases b.change? y v <;> rfl

/-- A variable that neither the snapshot nor the start of the difference has takes the first of its
later values: all are added, and a lookup sees the first. -/
theorem get?_patch_diff_of_none (hb : b.get? x = none) (c : FrameSnapshot V)
    (s : FrameSnapshot V) : (s.patch (b.diff c)).get? x = (s.get? x).or (c.get? x) := by
  obtain ⟨location, values⟩ := c
  -- The start of the difference stays; the snapshot takes one value of the list after the other.
  induction values generalizing s with
  | nil => exact Option.or_none.symm
  | cons entry rest ih =>
    obtain ⟨y, v⟩ := entry
    rw [patch_diff_cons, ih]
    by_cases hy : x = y
    · subst hy
      rw [change?_of_none hb, Option.elim_some]
      have hc : FrameSnapshot.get? ⟨location, (x, v) :: rest⟩ x = some v := by simp [get?]
      rw [hc]
      cases hs : s.get? x with
      | none =>
        have hadded : (s.apply (.defined x v)).get? x = some v := get?_apply_self hs
        rw [hadded, Option.some_or, Option.none_or]
      | some u =>
        have hkept : s.values.lookup x = some u := hs
        have hadded : (s.apply (.defined x v)).get? x = some u := by
          simp [apply, get?, List.lookup_append, hkept]
        rw [hadded, Option.some_or, Option.some_or]
    · have hc : FrameSnapshot.get? ⟨location, (y, v) :: rest⟩ x =
          FrameSnapshot.get? ⟨location, rest⟩ x := by
        simp [get?, List.lookup_cons, beq_false_of_ne hy]
      rw [hc]
      congr 1
      cases hchange : b.change? y v with
      | none => rfl
      | some change => exact get?_apply_of_ne (var_of_change? hchange ▸ hy)

/-- A variable that the start of the difference has takes, one after the other, those of its later
values that differ from the value at the start. -/
theorem get?_patch_diff_of_some (hb : b.get? x = some w) (c : FrameSnapshot V)
    (hs : s.get? x = some u) :
    (s.patch (b.diff c)).get? x = some (revised w u (c.listed x)) := by
  obtain ⟨location, values⟩ := c
  induction values generalizing s u with
  | nil => exact hs
  | cons entry rest ih =>
    obtain ⟨y, v⟩ := entry
    rw [patch_diff_cons]
    by_cases hy : x = y
    · subst hy
      have hlisted : listed ⟨location, (x, v) :: rest⟩ x = v :: listed ⟨location, rest⟩ x := by
        simp [listed]
      rw [hlisted, revised_cons, change?_of_some hb]
      split_ifs with h
      · exact ih hs
      · have hfits : s.Fits (.changed x w v) := Option.isSome_of_eq_some hs
        exact ih (get?_apply_self hfits)
    · have hlisted : listed ⟨location, (y, v) :: rest⟩ x = listed ⟨location, rest⟩ x := by
        simp [listed, Ne.symm hy]
      rw [hlisted]
      cases hchange : b.change? y v with
      | none => exact ih hs
      | some change => exact ih ((get?_apply_of_ne (var_of_change? hchange ▸ hy)).trans hs)

/-- Carried out where it starts, a difference gives variables their later values. -/
theorem exists_get?_patch_diff (hb : b.Distinct) (hx : b.get? x = some v) :
    ∃ u, (a.patch (a.diff b)).get? x = some u ∧ Same u v := by
  cases hu : a.get? x with
  | none => exact ⟨v, by rw [get?_patch_diff_of_none hu, hu, hx, Option.none_or], .inl rfl⟩
  | some u =>
    refine ⟨_, get?_patch_diff_of_some hu b hu, ?_⟩
    rcases revised_mem_or u u (b.listed x) with hmem | ⟨hu', hall⟩
    · exact .inl (hb.eq_of_mem_listed hx hmem)
    · rw [hu']
      exact .inr (hall v (mem_listed.mpr (mem_of_get? hx)))

theorem get?_patch_diff_of_absent (hx : b.get? x = none) :
    (a.patch (a.diff b)).get? x = a.get? x :=
  get?_patch_of_notMem a fun h => get?_eq_none_iff.mp hx ((vars_diff_sublist a b).subset h)

/-- The next difference can be carried out on the result of the one before: a variable that was not
there at all takes the value that a lookup sees. -/
theorem get?_patch_patch_of_none (ha : a.get? x = none) (hb : b.get? x = none)
    (c : FrameSnapshot V) : ((a.patch (a.diff b)).patch (b.diff c)).get? x = c.get? x := by
  rw [get?_patch_diff_of_none hb, get?_patch_diff_of_absent hb, ha, Option.none_or]

/-- A variable that was there between takes its last value of those listed for it that differ. -/
theorem exists_get?_patch_patch (hb : b.Distinct) (hw : b.get? x = some w)
    (c : FrameSnapshot V) :
    ∃ u, ((a.patch (a.diff b)).patch (b.diff c)).get? x = some u ∧
      Same u (revised w w (c.listed x)) := by
  obtain ⟨u, hu, hsame⟩ := exists_get?_patch_diff (a := a) hb hw
  exact ⟨_, get?_patch_diff_of_some hw c hu, hsame.revised w _⟩

/-- If the listed values are equal, it does not matter which of them is taken. -/
theorem same_revised [PartialEquivBEq V] (hv : v ∈ c.listed x)
    (hone : ∀ v' ∈ c.listed x, Same v' v) : Same (revised w w (c.listed x)) v := by
  rcases revised_mem_or w w (c.listed x) with hmem | ⟨hw, hall⟩
  · exact hone _ hmem
  · rw [hw]
    exact .inr (hall v hv)

/-- **Differences are patches.** A difference is empty exactly if the earlier snapshot has all values
of the later one. It lists, in the order of the later snapshot and each once, the variables that are
new and those whose values differ, with both values. Carried out on the earlier snapshot, it gives
the values of the later one and leaves all other variables alone.

Any third snapshot is reached by two differences, up to variables that the second snapshot lacks and
the first one has: a variable that both lack has the value that a lookup in the third one sees. A
variable of the second one has the last of the values listed for it that differs from its value
there, which is the value that a lookup sees if all of them are equal, as they are where variables
are distinct. -/
theorem diff_patches [PartialEquivBEq V] (ha : a.Distinct) (hb : b.Distinct) :
    (a.diff b = [] ↔ ∀ x v, b.get? x = some v → ∃ u, a.get? x = some u ∧ u == v) ∧
    ((a.patch (a.diff b)).Distinct ∧
      (∀ x v, b.get? x = some v → ∃ u, (a.patch (a.diff b)).get? x = some u ∧ Same u v) ∧
      ∀ x, b.get? x = none → (a.patch (a.diff b)).get? x = a.get? x) ∧
    ((∀ x u v, .changed x u v ∈ a.diff b ↔
        a.get? x = some u ∧ b.get? x = some v ∧ (u == v) = false) ∧
      ∀ x v, .defined x v ∈ a.diff b ↔ a.get? x = none ∧ b.get? x = some v) ∧
    (((a.diff b).map FrameChange.var).Sublist b.vars ∧
      ((a.diff b).map FrameChange.var).Nodup) ∧
    ∀ (c : FrameSnapshot V) (x : Handle .localInfo) (v : V), c.get? x = some v →
      (a.get? x = none → b.get? x = none →
        ((a.patch (a.diff b)).patch (b.diff c)).get? x = some v) ∧
      ∀ w, b.get? x = some w →
        ∃ u, ((a.patch (a.diff b)).patch (b.diff c)).get? x = some u ∧
          Same u (revised w w (c.listed x)) ∧
          (c.Distinct ∨ (∀ v' ∈ c.listed x, Same v' v) → Same u v) := by
  refine ⟨diff_eq_nil_iff hb,
    ⟨ha.patch (nodup_vars_diff hb a) fun _ => fits_of_mem_diff hb,
      fun _ _ => exists_get?_patch_diff hb, fun _ => get?_patch_diff_of_absent⟩,
    ⟨fun _ _ _ => changed_mem_diff hb, fun _ _ => defined_mem_diff hb⟩,
    ⟨vars_diff_sublist a b, nodup_vars_diff hb a⟩, fun c x v hv => ⟨fun hax hbx => ?_, fun w hw => ?_⟩⟩
  · rw [get?_patch_patch_of_none hax hbx, hv]
  · obtain ⟨u, hu, hsame⟩ := exists_get?_patch_patch (a := a) hb hw c
    refine ⟨u, hu, hsame, fun hone => hsame.trans (same_revised (mem_listed.mpr (mem_of_get? hv)) ?_)⟩
    rcases hone with hc | hone
    · exact fun v' hv' => .inl (hc.eq_of_mem_listed hv hv')
    · exact hone

end

/-! ### A variable listed twice -/

namespace ListedTwice

/-- The snapshot that both the first and the second one are. -/
def before : FrameSnapshot Value := ⟨⟨0⟩, [(⟨0⟩, .int 0)]⟩

/-- A snapshot that lists its variable with two values. -/
def twice : FrameSnapshot Value := ⟨⟨0⟩, [(⟨0⟩, .int 1), (⟨0⟩, .int 2)]⟩

end ListedTwice

open ListedTwice in
/-- Two changes are listed and the second one stays, while a lookup in the snapshot itself sees the
first value. -/
theorem ListedTwice.last_value_stays : before.Distinct ∧ (before.get? ⟨0⟩).isSome ∧
    twice.get? ⟨0⟩ = some (.int 1) ∧
    ((before.patch (before.diff before)).patch (before.diff twice)).get? ⟨0⟩ = some (.int 2) := by
  refine ⟨?_, by decide, by decide, by decide⟩
  unfold Distinct
  decide

/-! ### Three points of a run -/

namespace ThreePoints

def first : FrameSnapshot Value :=
  ⟨⟨0⟩, [(⟨0⟩, .int 1), (⟨1⟩, .string "kept"), (⟨2⟩, .bool true)]⟩

/-- Later one variable has another value, one is new, and one is gone. -/
def second : FrameSnapshot Value :=
  ⟨⟨1⟩, [(⟨3⟩, .null), (⟨1⟩, .string "kept"), (⟨0⟩, .long 1)]⟩

/-- Still later the new one has another value, and the one that was gone is back with another one. -/
def third : FrameSnapshot Value :=
  ⟨⟨2⟩, [(⟨2⟩, .bool false), (⟨3⟩, .unit), (⟨0⟩, .long 1)]⟩

/-- What two differences make of the first snapshot. -/
def reached : FrameSnapshot Value := (first.patch (first.diff second)).patch (second.diff third)

end ThreePoints

open ThreePoints in
/-- The variable that was new before its value changed has its last value, and so does the one that
changed before; the one that came back has not. -/
theorem ThreePoints.reached_values : first.Distinct ∧ second.Distinct ∧ third.Distinct ∧
    (first.diff second).map FrameChange.var = [⟨3⟩, ⟨0⟩] ∧
    reached.get? ⟨3⟩ = some .unit ∧ reached.get? ⟨0⟩ = some (.long 1) ∧
    reached.get? ⟨2⟩ = some (.bool true) ∧ third.get? ⟨2⟩ = some (.bool false) := by
  have hfirst : first.Distinct := by unfold Distinct; decide
  have hsecond : second.Distinct := by unfold Distinct; decide
  have hthird : third.Distinct := by unfold Distinct; decide
  obtain ⟨-, -, -, -, hcompose⟩ := diff_patches hfirst hsecond
  have hvalue : ∀ x v, third.get? x = some v → (second.get? x).isSome → reached.get? x = some v := by
    intro x v hx hstays
    obtain ⟨w, hw⟩ := Option.isSome_iff_exists.mp hstays
    obtain ⟨u, hu, -, hsame⟩ := (hcompose third x v hx).2 w hw
    exact hu.trans (congrArg some (same_iff.mp (hsame (.inl hthird))))
  exact ⟨hfirst, hsecond, hthird, by decide, hvalue _ _ (by decide) (by decide),
    hvalue _ _ (by decide) (by decide), by decide, by decide⟩

end FrameSnapshot

end TraceWeave

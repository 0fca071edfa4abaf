import Mathlib.Algebra.GroupWithZero.Nat
import TraceWeave.Proofs.Factory.Obtained

/-! # Annotations of a descriptor

The uses of annotations on a declaration are read one after the other: the arguments of a use go
into a map by name, and the use goes into the group of its type. What a map by name and the groups
show from outside is said for one step, and from it for all uses of a declaration: each of them is
there once, in its order, under the handle of its class, with arguments of the same shape.

`Factory.Keeps` says what is kept of one use. `AnnotationMap.get_foldl_push` and
`AnnotationMap.types_foldl_push` are the groups after all uses, and
`Factory.annotations_keep_uses` puts both together.
-/

namespace TraceWeave

/-! ## Maps by name -/

namespace NameMap

variable {α : Type}

theorem get?_insert (name : String) (value : α) (key : String) : ∀ m : NameMap α,
    (m.insert name value).get? key = if key = name then some value else m.get? key
  | [] => by
    unfold insert get?
    by_cases hkey : key = name
    · rw [if_pos hkey, hkey, List.lookup_cons_self]
    · rw [if_neg hkey, List.lookup_cons, beq_false_of_ne hkey]
  | (n, v) :: rest => by
    have ih := get?_insert name value key rest
    unfold get? at ih ⊢
    unfold insert
    by_cases hlt : name < n
    · rw [if_pos hlt]
      by_cases hkey : key = name
      · rw [if_pos hkey, hkey, List.lookup_cons_self]
      · rw [if_neg hkey, List.lookup_cons, beq_false_of_ne hkey]
    · rw [if_neg hlt]
      by_cases hname : name = n
      · subst hname
        rw [if_pos rfl, List.lookup_cons, List.lookup_cons]
        by_cases hkey : key = name
        · rw [if_pos hkey, hkey, beq_self_eq_true]
        · rw [if_neg hkey, beq_false_of_ne hkey]
      · rw [if_neg hname, List.lookup_cons, List.lookup_cons, ih]
        by_cases hn : key = n
        · simp only [hn, beq_self_eq_true, if_neg (Ne.symm hname)]
        · rw [beq_false_of_ne hn]

/-- A new name is put between those that are there. -/
theorem names_insert (value : α) {name : String} : ∀ {m : NameMap α}, name ∉ m.map Prod.fst →
    ((m.insert name value).map Prod.fst).Perm (name :: m.map Prod.fst)
  | [], _ => .refl _
  | (n, v) :: rest, hnew => by
    rw [List.map_cons, List.mem_cons, not_or] at hnew
    unfold insert
    by_cases hlt : name < n
    · rw [if_pos hlt]
      exact .refl _
    · rw [if_neg hlt, if_neg hnew.1]
      exact ((names_insert value hnew.2).cons n).trans (.swap name n _)

end NameMap

/-! ## Groups by type -/

namespace AnnotationMap

variable {m : AnnotationMap} {usage : AnnotationUsage} {ty : Handle .typeInfo}

/-- The types that have a group, in the order of the groups. -/
def types (m : AnnotationMap) : List (Handle .typeInfo) := m.entries.map Prod.fst

/-- The number of uses in all groups. -/
def count (m : AnnotationMap) : Nat := (m.entries.map fun entry => entry.2.length).sum

theorem get_push : (m.push usage).get ty =
    m.get ty ++ [usage].filter fun usage => usage.annotationType = ty := by
  obtain ⟨entries⟩ := m
  unfold push get
  dsimp only
  induction entries with
  | nil =>
    unfold pushTo
    by_cases hty : usage.annotationType = ty
    · simp [hty]
    · simp [hty, List.lookup_cons, beq_false_of_ne (Ne.symm hty)]
  | cons entry rest ih =>
    obtain ⟨t, usages⟩ := entry
    unfold pushTo
    by_cases hgroup : t = usage.annotationType
    · rw [if_pos hgroup, List.lookup_cons, List.lookup_cons]
      by_cases hty : ty = t
      · simp [hty, hgroup]
      · simp [beq_false_of_ne hty, ← hgroup, Ne.symm hty]
    · rw [if_neg hgroup, List.lookup_cons, List.lookup_cons]
      by_cases hty : ty = t
      · simp [hty, Ne.symm hgroup]
      · simpa [beq_false_of_ne hty] using ih

theorem types_push : (m.push usage).types =
    if usage.annotationType ∈ m.types then m.types else m.types ++ [usage.annotationType] := by
  obtain ⟨entries⟩ := m
  unfold push types
  dsimp only
  induction entries with
  | nil => rfl
  | cons entry rest ih =>
    obtain ⟨t, usages⟩ := entry
    unfold pushTo
    by_cases hgroup : t = usage.annotationType
    · simp [hgroup]
    · rw [if_neg hgroup, List.map_cons, ih, List.map_cons]
      by_cases hmem : usage.annotationType ∈ rest.map Prod.fst
      · rw [if_pos hmem, if_pos (List.mem_cons_of_mem _ hmem)]
      · rw [if_neg hmem, if_neg (by simp [Ne.symm hgroup, hmem]), List.cons_append]

theorem count_push : (m.push usage).count = m.count + 1 := by
  obtain ⟨entries⟩ := m
  unfold push count
  dsimp only
  induction entries with
  | nil => rfl
  | cons entry rest ih =>
    obtain ⟨t, usages⟩ := entry
    unfold pushTo
    by_cases hgroup : t = usage.annotationType
    · simp [hgroup]
      omega
    · rw [if_neg hgroup, List.map_cons, List.map_cons, List.sum_cons, List.sum_cons, ih]
      omega

/-! ### Uses one after the other -/

theorem get_foldl_push (usages : List AnnotationUsage) (m : AnnotationMap) :
    (usages.foldl push m).get ty =
      m.get ty ++ usages.filter fun usage => usage.annotationType = ty := by
  induction usages generalizing m with
  | nil => simp
  | cons usage usages ih =>
    rw [List.foldl_cons, ih, get_push, List.append_assoc, ← List.filter_append,
      List.singleton_append]

theorem count_foldl_push (usages : List AnnotationUsage) (m : AnnotationMap) :
    (usages.foldl push m).count = m.count + usages.length := by
  induction usages generalizing m with
  | nil => rfl
  | cons usage usages ih =>
    rw [List.foldl_cons, ih, count_push, List.length_cons]
    omega

theorem nodup_types_foldl_push (usages : List AnnotationUsage) {m : AnnotationMap}
    (hm : m.types.Nodup) : (usages.foldl push m).types.Nodup := by
  induction usages generalizing m with
  | nil => exact hm
  | cons usage usages ih =>
    apply ih
    rw [types_push]
    by_cases hmem : usage.annotationType ∈ m.types
    · rwa [if_pos hmem]
    · rw [if_neg hmem]
      exact List.nodup_append_comm.mp (List.nodup_cons.mpr ⟨hmem, hm⟩)

/-- An element at the end of a list does not come first if the list has it already. -/
theorem eraseDups_concat {α : Type} [DecidableEq α] (xs : List α) (x : α) :
    (xs ++ [x]).eraseDups = if x ∈ xs then xs.eraseDups else xs.eraseDups ++ [x] := by
  rw [List.eraseDups_append]
  by_cases hmem : x ∈ xs
  · rw [if_pos hmem, List.removeAll, List.filter_cons_of_neg (by simpa using hmem), List.filter_nil,
      List.eraseDups_nil, List.append_nil]
  · rw [if_neg hmem, List.removeAll, List.filter_cons_of_pos (by simpa using hmem), List.filter_nil,
      List.eraseDups_cons, List.filter_nil, List.eraseDups_nil]

/-- The groups come in the order in which their types first occur. -/
theorem types_foldl_push (usages : List AnnotationUsage) :
    (usages.foldl push {}).types = (usages.map (·.annotationType)).eraseDups := by
  induction usages using List.reverseRecOn with
  | nil => rfl
  | append_singleton usages usage ih =>
    rw [List.foldl_append, List.foldl_cons, List.foldl_nil, types_push, ih, List.map_append,
      List.map_singleton, eraseDups_concat]
    simp only [List.mem_eraseDups]

/-- A group is what its type is looked up to. -/
theorem get_of_mem (hm : m.types.Nodup) {entry : Handle .typeInfo × List AnnotationUsage}
    (h : entry ∈ m.entries) : m.get entry.1 = entry.2 := by
  obtain ⟨before, behind, hsplit⟩ := List.append_of_mem h
  have hother : ∀ e ∈ before, (entry.1 != e.1) = true := by
    intro e he
    rw [types, hsplit, List.map_append, List.map_cons, List.nodup_append] at hm
    have hne : e.1 ≠ entry.1 := hm.2.2 e.1 (List.mem_map_of_mem he) entry.1 List.mem_cons_self
    exact bne_iff_ne.mpr hne.symm
  have hlookup : m.entries.lookup entry.1 = some entry.2 :=
    List.lookup_eq_some_iff.mpr ⟨before, behind, hsplit, hother⟩
  rw [get, hlookup, Option.getD_some]

end AnnotationMap

/-! ## Shapes of arguments -/

namespace AnnotationArg

mutual

/-- How deep arrays are nested; a scalar has depth zero. -/
def depth : AnnotationArg → Nat
  | .array items => depths items + 1
  | _ => 0

def depths : List AnnotationArg → Nat
  | [] => 0
  | item :: items => max (depth item) (depths items)

end

mutual

/-- An argument with the constants that stand for nothing made the same one. -/
def withoutUnit : AnnotationArg → AnnotationArg
  | .const .unit => .const .null
  | .array items => .array (itemsWithoutUnit items)
  | arg => arg

def itemsWithoutUnit : List AnnotationArg → List AnnotationArg
  | [] => []
  | item :: items => withoutUnit item :: itemsWithoutUnit items

end

end AnnotationArg

namespace Factory

section

variable {f : Factory} {u : Store}

mutual

/-- A value is nested as deep as its argument. -/
theorem depth_of_valueIs : ∀ (arg : AnnotationArg) {value : AnnotationValue},
    ValueIs u arg value → value.depth = arg.depth
  | .const c, _, h => by
    cases h
    cases c <;> rfl
  | .type _, _, h => by
    cases h
    rfl
  | .array items, _, h => by
    obtain _ | _ | hitems := h
    rw [AnnotationValue.depth, AnnotationArg.depth, depths_of_valuesAre items hitems]

theorem depths_of_valuesAre : ∀ (items : List AnnotationArg) {values : List AnnotationValue},
    ValuesAre u items values → AnnotationValue.depths values = AnnotationArg.depths items
  | [], _, h => by
    cases h
    rfl
  | item :: items, _, h => by
    obtain _ | ⟨hitem, hitems⟩ := h
    rw [AnnotationValue.depths, AnnotationArg.depths, depth_of_valueIs item hitem,
      depths_of_valuesAre items hitems]

end

mutual

-- A value tells its argument but for the constants that stand for nothing; lists are compared item
-- by item.
/-- Arguments have the same value if they differ in constants that stand for nothing only. -/
theorem valueIs_eq_iff (hu : u.Sound) : ∀ (arg arg' : AnnotationArg)
    {value value' : AnnotationValue}, ValueIs u arg value → ValueIs u arg' value' →
      (value = value' ↔ arg.withoutUnit = arg'.withoutUnit)
  | .const c, .const c', _, _, h, h' => by
    cases h
    cases h'
    cases c <;> cases c' <;> simp [constValue, AnnotationArg.withoutUnit]
  | .type ty, .type ty', _, _, h, h' => by
    obtain _ | hty := h
    obtain _ | hty' := h'
    simpa [AnnotationArg.withoutUnit] using hu.handle_eq_iff hty hty'
  | .array items, .array items', _, _, h, h' => by
    obtain _ | _ | hitems := h
    obtain _ | _ | hitems' := h'
    simpa [AnnotationArg.withoutUnit] using valuesAre_eq_iff hu items items' hitems hitems'
  | .const c, .type _, _, _, h, h' | .const c, .array _, _, _, h, h' => by
    cases h
    cases h'
    cases c <;> simp [constValue, AnnotationArg.withoutUnit]
  | .type _, .const c, _, _, h, h' | .array _, .const c, _, _, h, h' => by
    cases h
    cases h'
    cases c <;> simp [constValue, AnnotationArg.withoutUnit]
  | .type _, .array _, _, _, h, h' | .array _, .type _, _, _, h, h' => by
    cases h
    cases h'
    simp [AnnotationArg.withoutUnit]

theorem valuesAre_eq_iff (hu : u.Sound) : ∀ (items items' : List AnnotationArg)
    {values values' : List AnnotationValue}, ValuesAre u items values → ValuesAre u items' values' →
      (values = values' ↔
        AnnotationArg.itemsWithoutUnit items = AnnotationArg.itemsWithoutUnit items')
  | [], [], _, _, h, h' => by
    cases h
    cases h'
    exact iff_of_true rfl rfl
  | item :: items, item' :: items', _, _, h, h' => by
    obtain _ | ⟨hitem, hitems⟩ := h
    obtain _ | ⟨hitem', hitems'⟩ := h'
    rw [AnnotationArg.itemsWithoutUnit, AnnotationArg.itemsWithoutUnit, List.cons.injEq,
      List.cons.injEq, valueIs_eq_iff hu item item' hitem hitem',
      valuesAre_eq_iff hu items items' hitems hitems']
  | [], _ :: _, _, _, h, h' | _ :: _, [], _, _, h, h' => by
    cases h
    cases h'
    simp [AnnotationArg.itemsWithoutUnit]

end

/-! ## Arguments of a use -/

/-- What a map holds under a name after arguments of different names are put into it. -/
theorem ArgumentsAre.get? : ∀ {as : List AnnotationArgument} {found all : NameMap AnnotationValue},
    ArgumentsAre u as found all → (as.map (·.name)).Nodup → ∀ name,
      (∀ a, as.find? (·.name == name) = some a →
        ∃ value, all.get? name = some value ∧ ValueIs u a.value value) ∧
      (as.find? (·.name == name) = none → all.get? name = found.get? name)
  | [], _, _, h, _, name => by
    cases h
    exact ⟨fun a ha => (nomatch ha), fun _ => rfl⟩
  | a :: as, found, all, h, hnames, name => by
    obtain _ | ⟨hvalue, hrest⟩ := h
    rw [List.map_cons, List.nodup_cons] at hnames
    obtain ⟨hsome, hnone⟩ := hrest.get? hnames.2 name
    rw [List.find?_cons]
    by_cases hname : a.name = name
    · subst hname
      have hlater : as.find? (·.name == a.name) = none := by
        rw [List.find?_eq_none]
        intro b hb hbname
        exact hnames.1 (eq_of_beq hbname ▸ List.mem_map_of_mem hb)
      rw [NameMap.get?_insert, if_pos rfl] at hnone
      simp only [beq_self_eq_true, Option.some.injEq, reduceCtorEq, false_implies, and_true]
      rintro _ rfl
      exact ⟨_, hnone hlater, hvalue⟩
    · rw [beq_false_of_ne hname]
      refine ⟨hsome, fun hnot => ?_⟩
      rw [hnone hnot, NameMap.get?_insert, if_neg (Ne.symm hname)]

theorem ArgumentsAre.names : ∀ {as : List AnnotationArgument} {found all : NameMap AnnotationValue},
    ArgumentsAre u as found all → (as.map (·.name) ++ found.map Prod.fst).Nodup →
      (all.map Prod.fst).Perm (as.map (·.name) ++ found.map Prod.fst)
  | [], _, _, h, _ => by
    cases h
    exact .refl _
  | a :: as, found, all, h, hnames => by
    obtain _ | @⟨_, _, value, _, _, hvalue, hrest⟩ := h
    rw [List.map_cons, List.cons_append] at hnames ⊢
    have hnew : a.name ∉ found.map Prod.fst := fun hmem =>
      (List.nodup_cons.mp hnames).1 (List.mem_append_right _ hmem)
    have hinsert := ((NameMap.names_insert value hnew).append_left (as.map (·.name))).trans
      List.perm_middle
    exact (hrest.names (hinsert.nodup_iff.mpr hnames)).trans hinsert

variable (f) (u) in
/-- What a descriptor keeps of the use of an annotation: its type, its place, and under each name
the value of the argument with this name, as deep as the argument. -/
structure Keeps (use : AnnotationUse) (usage : AnnotationUsage) : Prop where
  annotationType : u.Finds .typeInfo use.ty usage.annotationType
  location : f.LocationAt u use.span usage.location
  arguments : ∀ name, Option.Rel (fun arg value => ValueIs u arg value ∧ value.depth = arg.depth)
    (use.argument? name) (usage.arguments.get? name)
  names : (usage.arguments.map Prod.fst).Perm (use.arguments.map (·.name))

theorem UsageIs.keeps {use : AnnotationUse} {usage : AnnotationUsage} (h : f.UsageIs u use usage)
    (hnames : (use.arguments.map (·.name)).Nodup) : f.Keeps u use usage where
  annotationType := h.annotationType
  location := h.location
  arguments name := by
    obtain ⟨hsome, hnone⟩ := h.arguments.get? hnames name
    unfold AnnotationUse.argument?
    cases hfind : use.arguments.find? (·.name == name) with
    | none =>
      rw [hnone hfind]
      exact .none
    | some a =>
      obtain ⟨value, hget, hvalue⟩ := hsome a hfind
      rw [hget]
      exact .some ⟨hvalue, depth_of_valueIs _ hvalue⟩
  names := by
    have hperm := h.arguments.names (by simpa using hnames)
    rwa [List.map_nil, List.append_nil] at hperm

/-! ## The uses of a declaration -/

/-- A map of annotations is made of the uses one after the other. -/
theorem AnnotationsAre.exists_usages : ∀ {uses : List AnnotationUse} {m all : AnnotationMap},
    f.AnnotationsAre u uses m all →
      ∃ usages, List.Forall₂ (f.UsageIs u) uses usages ∧ all = usages.foldl AnnotationMap.push m
  | [], _, _, h => by
    cases h
    exact ⟨[], .nil, rfl⟩
  | use :: uses, _, _, h => by
    obtain _ | ⟨husage, hrest⟩ := h
    obtain ⟨usages, husages, rfl⟩ := hrest.exists_usages
    exact ⟨_ :: usages, .cons husage husages, rfl⟩

/-- A handle is the one of a class exactly for the uses of the class. -/
theorem Keeps.ofClass_iff (hu : u.Sound) {use : AnnotationUse} {usage : AnnotationUsage}
    (h : f.Keeps u use usage) {className : String} {ty : Handle .typeInfo}
    (hty : u.Finds .typeInfo (Ty.ofClass className) ty) :
    use.className = className ↔ usage.annotationType = ty := by
  rw [hu.handle_eq_iff h.annotationType hty, AnnotationUse.ty, Ty.ofClass, Ty.ofClass]
  simp

end

/-- Two lists that are related element by element, equal ones to equal ones, have the same first
occurrences. -/
theorem forall₂_eraseDups {α β : Type} [DecidableEq α] [DecidableEq β] {R : α → β → Prop}
    (hR : ∀ {a a' b b'}, R a b → R a' b' → (a = a' ↔ b = b')) {xs : List α} {ys : List β}
    (h : List.Forall₂ R xs ys) : List.Forall₂ R xs.eraseDups ys.eraseDups := by
  induction hlen : xs.length using Nat.strong_induction_on generalizing xs ys with
  | _ n ih =>
    cases h with
    | nil => exact .nil
    | @cons x y xs ys hxy h =>
      rw [List.eraseDups_cons, List.eraseDups_cons]
      refine .cons hxy (ih _ ?_ (List.rel_filter ?_ h) rfl)
      · rw [← hlen]
        exact Nat.lt_succ_of_le (List.length_filter_le _ _)
      · intro a b hab
        simpa using not_congr (hR hab hxy)

open Build in
/-- **Annotations are kept.** If the arguments of each use have different names, then the
annotations of a declaration, where they are built, hold every use once: the handle of a class leads
to the uses of the class in their order, with each argument under its name; the groups come in the
order in which the classes are first used; and no group holds anything else. Values are as deep as
their arguments and tell them apart, but for the two constants that stand for nothing. -/
theorem annotations_keep_uses {f : Factory} {uses : List AnnotationUse} {s t : Store}
    {m : AnnotationMap} (hsound : s.Sound) (hsourced : s.Sourced f.sources)
    (hnames : ∀ use ∈ uses, (use.arguments.map (·.name)).Nodup)
    (hrun : (f.annotations uses).runOn s = (.ok m, t)) :
    (∀ className h, t.Finds .typeInfo (Ty.ofClass className) h →
      List.Forall₂ (f.Keeps t) (AnnotationUse.ofClass uses className) (m.get h)) ∧
    List.Forall₂ (fun className h => t.Finds .typeInfo (Ty.ofClass className) h)
      (uses.map (·.className)).eraseDups m.types ∧
    m.types.Nodup ∧ (∀ entry ∈ m.entries, m.get entry.1 = entry.2) ∧ m.count = uses.length ∧
    ∀ arg arg' value value', ValueIs t arg value → ValueIs t arg' value' →
      (value = value' ↔ arg.withoutUnit = arg'.withoutUnit) := by
  obtain ⟨⟨hsound', -, -⟩, hok⟩ :=
    @obtains_annotations f (fun _ => True) uses s _ t hrun hsound hsourced
  obtain ⟨usages, husages, rfl⟩ := ((hok m rfl).2 t (.refl t)).exists_usages
  have hkeeps : List.Forall₂ (f.Keeps t) uses usages :=
    ((List.forall₂_and_left _ _).mpr ⟨hnames, husages⟩).imp fun _ _ h => h.2.keeps h.1
  have htypes : (usages.foldl AnnotationMap.push {}).types.Nodup :=
    AnnotationMap.nodup_types_foldl_push usages List.nodup_nil
  refine ⟨fun className h hfinds => ?_, ?_, htypes, fun entry hentry => ?_, ?_, ?_⟩
  · have hgroup : (usages.foldl AnnotationMap.push {}).get h =
        usages.filter fun usage => usage.annotationType = h :=
      AnnotationMap.get_foldl_push usages {}
    rw [hgroup, AnnotationUse.ofClass]
    refine List.rel_filter (fun use usage hkept => ?_) hkeeps
    simpa using hkept.ofClass_iff hsound' hfinds
  · rw [AnnotationMap.types_foldl_push]
    apply forall₂_eraseDups
    · intro className className' h h' hfinds hfinds'
      rw [hsound'.handle_eq_iff hfinds hfinds', Ty.ofClass, Ty.ofClass]
      simp
    · rw [List.forall₂_map_left_iff, List.forall₂_map_right_iff]
      exact hkeeps.imp fun _ _ hkept => hkept.annotationType
  · exact AnnotationMap.get_of_mem htypes hentry
  · rw [AnnotationMap.count_foldl_push, hkeeps.length_eq]
    exact Nat.zero_add _
  · intro arg arg' value value' hvalue hvalue'
    exact valueIs_eq_iff hsound' arg arg' hvalue hvalue'

/-! ### A declaration with three annotations -/

namespace Routed

/-- Two uses of one class, with another class between them that the first use names as well. -/
def uses : List AnnotationUse :=
  [{ className := "demo.Route", span := ⟨⟨0⟩, 0, 6⟩, arguments :=
      [⟨"paths", .array [.array [.ofString "/", .const .unit], .type (Ty.ofClass "demo.Cached")]⟩,
        ⟨"limit", .const (.int 3)⟩] },
    { className := "demo.Cached", span := .undefined ⟨0⟩ },
    { className := "demo.Route", span := ⟨⟨0⟩, 8, 14⟩, arguments := [⟨"paths", .array []⟩] }]

def factory : Factory where
  symbols := SymbolTable.build
    { name := "demo", files := [{ id := ⟨0⟩, path := "Main.kt", declarations := [] }] }
  sources := .ofTexts [("Main.kt", "@Route\n @Route")]
  moduleName := "demo"

/-- What building the annotations in an empty store leads to. -/
def built : Except Error AnnotationMap × Store := (factory.annotations uses).runOn {}

end Routed

open Routed in
/-- Both uses of the first class are kept, behind the other class in the order of handles but before
it in the order of groups. -/
theorem Routed.both_uses_kept : ∃ m, built.1 = .ok m ∧ m.types = [⟨1⟩, ⟨0⟩] ∧ m.count = 3 ∧
    List.Forall₂ (factory.Keeps built.2) (AnnotationUse.ofClass uses "demo.Route") (m.get ⟨1⟩) ∧
    ((m.get ⟨1⟩).map fun usage => (usage.arguments.get? "paths").map (·.depth)) =
      [some 2, some 1] := by
  have hok : built.1.isOk := by decide +kernel
  obtain ⟨m, hm⟩ := Except.exists_ok hok
  have hfinds : built.2.Finds .typeInfo (Ty.ofClass "demo.Route") ⟨1⟩ := by
    unfold Store.Finds
    decide +kernel
  have hnames : ∀ use ∈ uses, (use.arguments.map (·.name)).Nodup := by decide +kernel
  have hbuilt : built = (.ok m, built.2) := by rw [← hm]
  have hrun : (factory.annotations uses).runOn {} = (.ok m, built.2) := hbuilt
  obtain ⟨hget, -, -, -, hcount, -⟩ :=
    annotations_keep_uses Store.sound_empty (Store.sourced_empty _) hnames hrun
  have hshown : (built.1.toOption.map fun m => (m.types, (m.get ⟨1⟩).map fun usage =>
      (usage.arguments.get? "paths").map (·.depth))) = some ([⟨1⟩, ⟨0⟩], [some 2, some 1]) := by
    decide +kernel
  rw [hm] at hshown
  obtain ⟨htypes, hdepths⟩ := Prod.mk.inj (Option.some.inj hshown)
  exact ⟨m, hm, htypes, hcount, hget "demo.Route" ⟨1⟩ hfinds, hdepths⟩

end Factory

end TraceWeave

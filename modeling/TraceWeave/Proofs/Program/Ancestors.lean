import Mathlib.Order.WellFounded
import TraceWeave.Proofs.Program.Chains

/-! # Ancestors in any module

Nothing keeps a module from using one identity for many declarations, at any depth and in any file.
Only the last symbol of an identity counts, and so the parent of a declaration may come from another
place than what the declaration holds. Still the symbol that counts for a parent is added after the
one that counts for its child, so that all walks along the parents end.

`SymbolTable.parent_later` is the reason: the `SymbolTable.age` of symbols gets smaller along a
walk. `SymbolTable.parents_lead_outward` has what follows for walks, for ancestors and for the
enclosing class.
-/

namespace TraceWeave

namespace SymbolTable

/-- The symbol of `id` says that `parent` is its parent. -/
def ParentOf (t : SymbolTable) (parent id : DeclId) : Prop :=
  ∃ s, t.get? id = some s ∧ s.parent = some parent

/-- What a walk along the parents comes by, from a declaration or from nowhere, if it ends at a
declaration that has no parent. -/
inductive Walk (t : SymbolTable) : Option DeclId → List Symbol → Prop
  | outermost : Walk t none []
  | outward {id : DeclId} {s : Symbol} {rest : List Symbol} (found : t.get? id = some s)
      (walk : Walk t s.parent rest) : Walk t (some id) (s :: rest)

/-- What a walk along the parents finds if it stops at the first class. -/
inductive FirstClass (t : SymbolTable) : Option DeclId → Option DeclId → Prop
  | outermost : FirstClass t none none
  | here {id : DeclId} {s : Symbol} (found : t.get? id = some s) (isClass : s.class?.isSome) :
      FirstClass t (some id) (some s.id)
  | outward {id : DeclId} {s : Symbol} {result : Option DeclId} (found : t.get? id = some s)
      (noClass : s.class? = none) (search : FirstClass t s.parent result) :
      FirstClass t (some id) result

namespace Walk

variable {t : SymbolTable} {next : Option DeclId} {symbols : List Symbol}

/-- A walk that ends is the chain of parents. -/
theorem chain_eq (h : Walk t next symbols) {n : Nat} (hn : symbols.length ≤ n) :
    t.chain n next = symbols := by
  induction h generalizing n with
  | outermost => exact t.chain_none n
  | outward found _ ih =>
    obtain ⟨k, rfl⟩ : ∃ k, n = k + 1 := Nat.exists_eq_add_one.mpr (Nat.zero_lt_of_lt hn)
    simp only [chain, found, ih (Nat.le_of_succ_le_succ hn)]

theorem firstClass (h : Walk t next symbols) :
    FirstClass t next ((symbols.find? (·.class?.isSome)).map Symbol.id) := by
  induction h with
  | outermost => exact .outermost
  | @outward id s rest found _ ih =>
    rw [List.find?_cons]
    cases hclass : s.class? with
    | none => exact .outward found hclass ih
    | some info => exact .here found (by rw [hclass, Option.isSome_some])

end Walk

/-! ## Which symbol is added later -/

/-- How many symbols were added behind the one that counts for `id`. -/
def age (t : SymbolTable) (id : DeclId) : Nat := t.newest.findIdx (·.id == id)

section

variable {m : Module} {id parent : DeclId}

/-- A parent has a symbol, and the one that counts is added behind the one of the child. -/
theorem parent_later (h : (build m).ParentOf parent id) :
    ((build m).get? parent).isSome ∧ (build m).age parent < (build m).age id := by
  obtain ⟨s, hs, hparent⟩ := h
  obtain ⟨hid, later, earlier, hsplit, hlater⟩ := List.find?_eq_some_iff_append.mp hs
  have hsymbols : m.symbols = earlier.reverse ++ s :: later.reverse := by
    rw [← List.reverse_reverse m.symbols, ← newest_build, hsplit]
    simp
  -- Behind the symbol that counts there is one for its parent, which need not be the last of them.
  have hclimbs := m.symbols_climb
  rw [hsymbols] at hclimbs
  obtain ⟨p, hp, rfl⟩ : ∃ p ∈ later, p.id = parent := by
    rcases hclimbs.of_append.1 with hnone | ⟨p, hp, hsome⟩
    · rw [hnone] at hparent
      cases hparent
    · exact ⟨p, List.mem_reverse.mp hp, Option.some.inj (hsome.symm.trans hparent)⟩
  have hage : (build m).age id = later.length := by
    have hnone : later.findIdx (·.id == id) = later.length :=
      List.findIdx_eq_length.mpr fun x hx => by simpa using hlater x hx
    rw [age, hsplit, List.findIdx_append, hnone, if_neg (Nat.lt_irrefl _), List.findIdx_cons, hid]
    exact Nat.zero_add _
  have hfound : later.findIdx (·.id == p.id) < later.length :=
    List.findIdx_lt_length_of_exists ⟨p, hp, beq_self_eq_true _⟩
  constructor
  · rw [get?, List.find?_isSome, hsplit]
    exact ⟨p, List.mem_append_left _ hp, beq_self_eq_true _⟩
  · rw [hage, age, hsplit, List.findIdx_append, if_pos hfound]
    exact hfound

theorem wellFounded_parentOf (m : Module) : WellFounded (build m).ParentOf :=
  Subrelation.wf (fun h => (parent_later h).2) (measure (build m).age).wf

theorem exists_walk (m : Module) : ∀ id : DeclId, ((build m).get? id).isSome →
    ∃ symbols, Walk (build m) (some id) symbols := by
  intro id
  induction id using (wellFounded_parentOf m).induction with
  | _ id ih =>
    intro hid
    obtain ⟨s, hs⟩ := Option.isSome_iff_exists.mp hid
    cases hparent : s.parent with
    | none => exact ⟨[s], .outward hs (hparent ▸ .outermost)⟩
    | some parent =>
      have hof : (build m).ParentOf parent id := ⟨s, hs, hparent⟩
      obtain ⟨symbols, hwalk⟩ := ih parent hof (parent_later hof).1
      exact ⟨s :: symbols, .outward hs (hparent ▸ hwalk)⟩

/-- The ancestors of a declaration are what a walk from its parent comes by. -/
theorem walk_ancestors (m : Module) (id : DeclId) :
    Walk (build m) (((build m).get? id).bind Symbol.parent) ((build m).ancestors id) := by
  obtain ⟨symbols, hwalk⟩ :
      ∃ symbols, Walk (build m) (((build m).get? id).bind Symbol.parent) symbols := by
    cases hs : (build m).get? id with
    | none => exact ⟨[], .outermost⟩
    | some s =>
      rw [Option.bind_some]
      cases hparent : s.parent with
      | none => exact ⟨[], .outermost⟩
      | some parent => exact exists_walk m parent (parent_later ⟨s, hs, hparent⟩).1
  have hlong := chain_build m (((build m).get? id).bind Symbol.parent)
    (Nat.le_max_left (build m).newest.length symbols.length)
  rw [hwalk.chain_eq (Nat.le_max_right _ _)] at hlong
  rwa [ancestors, ← hlong]

/-- On a walk the symbols get younger. -/
theorem Walk.ages {next : Option DeclId} {symbols : List Symbol} {k : Nat}
    (h : Walk (build m) next symbols) (hnext : ∀ id, next = some id → (build m).age id < k) :
    (∀ s ∈ symbols, (build m).age s.id < k) ∧
      symbols.Pairwise fun s s' => (build m).age s'.id < (build m).age s.id := by
  induction h generalizing k with
  | outermost => exact ⟨List.forall_mem_nil _, .nil⟩
  | @outward id s rest found _ ih =>
    obtain ⟨-, rfl⟩ := mem_of_get? found
    have hrest := @ih ((build m).age s.id) fun parent hparent =>
      (parent_later ⟨s, found, hparent⟩).2
    have hs : (build m).age s.id < k := hnext _ rfl
    refine ⟨fun s' hs' => ?_, .cons hrest.1 hrest.2⟩
    rcases List.mem_cons.mp hs' with rfl | hs'
    · exact hs
    · exact (hrest.1 s' hs').trans hs

/-- A declaration is not among its ancestors, and none of these occurs twice. -/
theorem nodup_ancestors (m : Module) (id : DeclId) :
    (id :: ((build m).ancestors id).map Symbol.id).Nodup := by
  obtain ⟨hbelow, hpairwise⟩ := (walk_ancestors m id).ages (k := (build m).age id)
    fun parent hparent => by
      obtain ⟨s, hs, hparent⟩ := Option.bind_eq_some_iff.mp hparent
      exact (parent_later ⟨s, hs, hparent⟩).2
  refine List.nodup_cons.mpr ⟨fun hid => ?_, List.pairwise_map.mpr ?_⟩
  · obtain ⟨s, hs, rfl⟩ := List.mem_map.mp hid
    exact Nat.lt_irrefl _ (hbelow s hs)
  · exact hpairwise.imp fun hage heq => Nat.ne_of_gt hage (congrArg _ heq)

end

/-- **Parents lead outward in any module.** However identities repeat, no declaration is its own
ancestor, and every chain of parents ends. The ancestors of a declaration are all that a walk along
the parents comes by until there is no further parent, each of them once; and the search for the
class around a declaration ends on the same walk. -/
theorem parents_lead_outward (m : Module) :
    WellFounded (build m).ParentOf ∧
    (∀ id, ¬Relation.TransGen (build m).ParentOf id id) ∧
    ∀ id, Walk (build m) (((build m).get? id).bind Symbol.parent) ((build m).ancestors id) ∧
      (id :: ((build m).ancestors id).map Symbol.id).Nodup ∧
      FirstClass (build m) (((build m).get? id).bind Symbol.parent)
        ((build m).enclosingClass? id) :=
  ⟨wellFounded_parentOf m,
    fun id h => (wellFounded_parentOf m).transGen.irrefl.irrefl id h,
    fun id => ⟨walk_ancestors m id, nodup_ancestors m id, (walk_ancestors m id).firstClass⟩⟩

/-! ### Two identities that hold each other -/

namespace Entangled

def head (id : UInt32) : DeclHead := { id := ⟨id⟩, span := .undefined ⟨0⟩ }

def classOf (id : UInt32) (members : List Decl) : Decl :=
  .classDecl (head id) { name := "C" } members

/-- A class around a function around a class of the same identity, and the function's identity
around that of the class in another file. -/
def program : Module where
  name := "entangled"
  files := [{ id := ⟨0⟩, path := "Main.kt", declarations := [classOf 1
    [.function (head 2) { name := "f", returnTy := .unit } [] (.block [.decl (classOf 1 [])])]] }]
  external := [{ id := ⟨1⟩, path := "Lib.kt", declarations :=
    [classOf 2 [.field (head 1) { name := "x", ty := .int } none]] }]

/-- What was added last counts: a field in a class, and the class in nothing. -/
example : ((build program).ancestors ⟨1⟩).map Symbol.id = [⟨2⟩] ∧
    (build program).enclosingClass? ⟨1⟩ = some ⟨2⟩ ∧
    ((build program).ancestors ⟨2⟩).map Symbol.id = [] := by
  decide +kernel

end Entangled

end SymbolTable

end TraceWeave

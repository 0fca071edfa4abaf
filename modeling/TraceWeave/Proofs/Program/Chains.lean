import TraceWeave.Proofs.Program.Enclosing

/-! # Chains of parents

A symbol is added after those of what is nested in it. So parents only lead on to later symbols, and
a chain of them ends, also if several declarations share an identity and the chain goes from one of
them to the parent of another.

`Climbs` says it of a list of symbols and `Module.symbols_climb` of those of a module;
`SymbolTable.chain_build` bounds the chains.
-/

namespace TraceWeave

/-- A parent comes after what stands in it, up to the scope of the outermost. -/
def Climbs (parent : Option DeclId) : List Symbol → Prop
  | [] => True
  | s :: rest => (s.parent = parent ∨ ∃ p ∈ rest, s.parent = some p.id) ∧ Climbs parent rest

namespace Climbs

variable {parent : Option DeclId} {xs ys : List Symbol}

theorem append (hx : Climbs parent xs) (hy : Climbs parent ys) : Climbs parent (xs ++ ys) := by
  induction xs with
  | nil => exact hy
  | cons x xs ih =>
    refine ⟨hx.1.imp_right ?_, ih hx.2⟩
    exact fun ⟨p, hp, hparent⟩ => ⟨p, List.mem_append_left _ hp, hparent⟩

theorem of_append (h : Climbs parent (xs ++ ys)) : Climbs parent ys := by
  induction xs with
  | nil => exact h
  | cons x xs ih => exact ih h.2

/-- Out of a declaration, which is the parent of what stands directly in it. -/
theorem out {s : Symbol} (hx : Climbs (some s.id) xs) (hs : s.parent = parent)
    (hy : Climbs parent ys) : Climbs parent (xs ++ s :: ys) := by
  induction xs with
  | nil => exact ⟨.inl hs, hy⟩
  | cons x xs ih =>
    refine ⟨.inr ?_, ih hx.2⟩
    rcases hx.1 with hparent | ⟨p, hp, hparent⟩
    · exact ⟨s, by simp, hparent⟩
    · exact ⟨p, List.mem_append_left _ hp, hparent⟩

end Climbs

theorem PieceLayout.climbs {sc : SymbolScope} {xs : List Symbol} {vs : List VarHead}
    {ns : List Node} (h : PieceLayout sc xs vs ns) : Climbs sc.parent xs := by
  induction h with
  | nil => trivial
  | expr _ _ ih | var _ _ ih | param _ _ ih => exact ih
  | @decl sc _ _ _ _ _ d _ _ hinside hrest =>
    rw [sc.parent_entering d] at hinside
    exact .out (s := sc.declared d) hinside rfl hrest

theorem Module.symbols_climb (m : Module) : Climbs none m.symbols := by
  have hsections : ∀ secs : Sections, (∀ x ∈ secs, x.1.parent = none) →
      Climbs none secs.symbols := by
    intro secs hparent
    induction secs with
    | nil => trivial
    | cons x secs ih =>
      have hx := (decls_layout x.1 x.2).climbs
      rw [hparent x (.head _)] at hx
      exact hx.append (ih fun y hy => hparent y (.tail _ hy))
  rw [← m.symbols_sections]
  exact hsections _ m.parent_of_mem_sections

namespace SymbolTable

variable {m : Module} {id : DeclId}

/-- The symbol of an identity is the last one, whichever others there are. -/
theorem exists_get?_of_suffix {symbols : List Symbol} (hsuffix : symbols <:+ m.symbols)
    (hid : id ∈ symbols.map Symbol.id) :
    ∃ s rest, (build m).get? id = some s ∧ s :: rest <:+ symbols := by
  obtain ⟨pre, hpre⟩ := hsuffix
  obtain ⟨s, hfind⟩ : ∃ s, symbols.reverse.find? (·.id == id) = some s := by
    rw [← Option.isSome_iff_exists, List.find?_isSome]
    obtain ⟨s, hs, hid⟩ := List.mem_map.mp hid
    exact ⟨s, List.mem_reverse.mpr hs, beq_iff_eq.mpr hid⟩
  obtain ⟨-, later, earlier, hsplit, -⟩ := List.find?_eq_some_iff_append.mp hfind
  refine ⟨s, later.reverse, ?_, earlier.reverse, ?_⟩
  · rw [get?, newest_build, ← hpre, List.reverse_append, List.find?_append, hfind]
    rfl
  · rw [List.reverse_eq_iff.mp hsplit]
    simp

theorem chain_none (t : SymbolTable) (n : Nat) : t.chain n none = [] := by
  cases n <;> rfl

/-- A chain from a symbol is not longer than the symbols from there on. -/
theorem chain_of_suffix : ∀ (k : Nat) {symbols : List Symbol} {id : DeclId} {n : Nat},
    symbols <:+ m.symbols → id ∈ symbols.map Symbol.id → symbols.length ≤ k → k ≤ n →
      (build m).chain n (some id) = (build m).chain k (some id)
  | 0, _, _, _, _, hid, hk, _ => by
    rw [List.length_eq_zero_iff.mp (Nat.le_zero.mp hk)] at hid
    cases hid
  | k + 1, symbols, id, n + 1, hsuffix, hid, hk, hn => by
    obtain ⟨s, rest, hget, hrest⟩ := exists_get?_of_suffix hsuffix hid
    have hlength := hrest.length_le
    rw [List.length_cons] at hlength
    obtain ⟨pre, hpre⟩ := hrest.trans hsuffix
    have hclimbs := m.symbols_climb
    rw [← hpre] at hclimbs
    simp only [chain, hget, List.cons.injEq, true_and]
    rcases hclimbs.of_append.1 with hparent | ⟨p, hp, hparent⟩
    · rw [hparent, chain_none, chain_none]
    · rw [hparent]
      exact chain_of_suffix k (((List.suffix_cons s rest).trans hrest).trans hsuffix)
        (List.mem_map_of_mem hp) (by omega) (by omega)

/-- A chain of parents is not longer than the symbols. -/
theorem chain_build (m : Module) (start : Option DeclId) {n : Nat}
    (hn : (build m).newest.length ≤ n) :
    (build m).chain n start = (build m).chain (build m).newest.length start := by
  cases start with
  | none => rw [chain_none, chain_none]
  | some id =>
    cases hget : (build m).get? id with
    | none =>
      have hnone : ∀ k, (build m).chain k (some id) = [] := fun k => by
        cases k with
        | zero => rfl
        | succ k => simp only [chain, hget]
      rw [hnone, hnone]
    | some s =>
      obtain ⟨hs, rfl⟩ := mem_of_get? hget
      have hlength : m.symbols.length = (build m).newest.length := by
        rw [newest_build, List.length_reverse]
      exact chain_of_suffix _ (List.suffix_refl _) (List.mem_map_of_mem hs)
        (Nat.le_of_eq hlength) hn

end SymbolTable

end TraceWeave

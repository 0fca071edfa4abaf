import TraceWeave.Proofs.Pipeline.Landmarks

/-! # The intrinsics of a module

A function is an intrinsic by an annotation. The linkage of a module looks at one symbol for each
identity: it is there if the annotations of all of them can be read, and it knows as intrinsics
those that are annotated.

`Linkage.Reads` is kept symbol by symbol, from which `Linkage.isIntrinsic_of_build` and
`Linkage.build_of_readable` follow. `Linkage.Targeted` adds that every kind has a declaration that
stands for it (`Linkage.exists_function_of_intrinsicDecl`).
-/

namespace TraceWeave

/-! ## One symbol for each identity -/

namespace SymbolTable

theorem mem_insertById {s u : Symbol} : ∀ {sorted : List Symbol}, u ∈ insertById s sorted →
    u = s ∨ u ∈ sorted
  | [], h => .inl (List.mem_singleton.mp h)
  | t :: ts, h => by
    unfold insertById at h
    split at h
    · exact List.mem_cons.mp h
    · split at h
      · exact .inr h
      · obtain rfl | h := List.mem_cons.mp h
        · exact .inr List.mem_cons_self
        · exact (mem_insertById h).imp_right (List.mem_cons_of_mem _)

theorem exists_insertById {s : Symbol} {id : DeclId} {sorted : List Symbol}
    (h : s.id = id ∨ ∃ u ∈ sorted, u.id = id) : ∃ u ∈ insertById s sorted, u.id = id := by
  induction sorted with
  | nil =>
    obtain h | ⟨_, hu, _⟩ := h
    · exact ⟨s, List.mem_cons_self, h⟩
    · cases hu
  | cons t ts ih =>
    unfold insertById
    split
    · obtain h | ⟨u, hu, hid⟩ := h
      · exact ⟨s, List.mem_cons_self, h⟩
      · exact ⟨u, List.mem_cons_of_mem _ hu, hid⟩
    · split
      · rename_i heq
        exact h.elim (fun h => ⟨t, List.mem_cons_self, heq ▸ h⟩) fun h => h
      · have hrest : (s.id = id ∨ ∃ u ∈ ts, u.id = id) → ∃ u ∈ t :: insertById s ts, u.id = id :=
          fun h => (ih h).imp fun _ hu => ⟨List.mem_cons_of_mem _ hu.1, hu.2⟩
        obtain h | ⟨u, hu, hid⟩ := h
        · exact hrest (.inl h)
        · obtain rfl | hu := List.mem_cons.mp hu
          · exact ⟨u, List.mem_cons_self, hid⟩
          · exact hrest (.inr ⟨u, hu, hid⟩)

theorem mem_of_mem_entries {t : SymbolTable} {u : Symbol} (h : u ∈ t.entries) : u ∈ t.newest := by
  have hfold : ∀ (symbols sorted : List Symbol),
      u ∈ symbols.foldl (fun sorted s => insertById s sorted) sorted → u ∈ symbols ∨ u ∈ sorted := by
    intro symbols
    induction symbols with
    | nil => exact fun _ hu => .inr hu
    | cons s symbols ih =>
      intro sorted hu
      obtain hu | hu := ih _ hu
      · exact .inl (List.mem_cons_of_mem _ hu)
      · obtain rfl | hu := mem_insertById hu
        · exact .inl List.mem_cons_self
        · exact .inr hu
  exact (hfold t.newest [] h).resolve_right List.not_mem_nil

theorem exists_entry {t : SymbolTable} {s : Symbol} (h : s ∈ t.newest) :
    ∃ u ∈ t.entries, u.id = s.id := by
  have hfold : ∀ (symbols sorted : List Symbol),
      (s ∈ symbols ∨ ∃ u ∈ sorted, u.id = s.id) →
        ∃ u ∈ symbols.foldl (fun sorted s => insertById s sorted) sorted, u.id = s.id := by
    intro symbols
    induction symbols with
    | nil => exact fun _ hs => hs.resolve_left List.not_mem_nil
    | cons u symbols ih =>
      intro sorted hs
      refine ih _ ?_
      obtain hs | hs := hs
      · obtain rfl | hs := List.mem_cons.mp hs
        · exact .inr (exists_insertById (.inl rfl))
        · exact .inl hs
      · exact .inr (exists_insertById (.inr hs))
  exact hfold t.newest [] (.inl h)

end SymbolTable

/-! ## Annotations -/

/-- A function that is annotated. -/
def Face.IsAnnotated (f : Face) : Prop := f.isFunction = true ∧ f.uses ≠ []

namespace Linkage

variable {markedBy : String}

/-- A declaration has a kind if it is annotated. -/
theorem isSome_of_markedKind {s : Symbol} {kind? : Option IntrinsicKind}
    (h : markedKind markedBy s = .ok kind?) :
    kind?.isSome = true ↔ AnnotationUse.ofClass s.head.annotations markedBy ≠ [] := by
  have huses : (AnnotationUse.find? s.head.annotations markedBy).isSome = true ↔
      AnnotationUse.ofClass s.head.annotations markedBy ≠ [] := by
    rw [AnnotationUse.find?, AnnotationUse.ofClass, List.find?_isSome, ne_eq, List.filter_eq_nil_iff]
    simp
  rw [← huses]
  unfold markedKind at h
  split at h
  · rename_i hnone
    cases h
    rw [hnone]
    exact Iff.rfl
  · rename_i use hsome
    rw [hsome]
    split at h
    · split at h
      · rename_i name _
        obtain ⟨kind, -, rfl⟩ : ∃ kind, IntrinsicKind.parse name = .ok kind ∧ some kind = kind? := by
          cases hparse : IntrinsicKind.parse name with
          | error e =>
            rw [hparse] at h
            cases h
          | ok kind =>
            rw [hparse] at h
            exact ⟨kind, rfl, Except.ok.inj h⟩
        exact Iff.rfl
      · cases h
    · split at h
      · cases h
        exact Iff.rfl
      · cases h

/-- What a look at functions leads to: every one of them can be read, and those that are annotated
are known afterwards, next to those that were known before. A declaration that calls of a kind target
is known. -/
structure Reads (markedBy : String) (symbols : List Symbol) (l l' : Linkage) : Prop where
  readable : ∀ s ∈ symbols, s.function?.isSome = true → ∃ kind?, markedKind markedBy s = .ok kind?
  known : ∀ id, id ∈ l'.intrinsicKinds.map Prod.fst ↔ id ∈ l.intrinsicKinds.map Prod.fst ∨
    ∃ s ∈ symbols, s.id = id ∧ (s.face markedBy).IsAnnotated
  targets : (∀ x ∈ l.intrinsicDecls, x.2 ∈ l.intrinsicKinds.map Prod.fst) →
    ∀ x ∈ l'.intrinsicDecls, x.2 ∈ l'.intrinsicKinds.map Prod.fst

theorem mem_addDecl {decls : List (IntrinsicKind × DeclId)} {kind : IntrinsicKind} {s : Symbol}
    {x : IntrinsicKind × DeclId} (h : x ∈ addDecl decls kind s) : x.2 = s.id ∨ x ∈ decls := by
  unfold addDecl at h
  split at h
  · obtain rfl | h := List.mem_cons.mp h
    · exact .inl rfl
    · exact .inr (List.mem_of_mem_filter h)
  · exact .inr h

theorem Reads.nil {l : Linkage} : Reads markedBy [] l l where
  readable _ hs := absurd hs List.not_mem_nil
  known id := by simp
  targets h := h

/-- A symbol that is not annotated, or that is no function, changes nothing. -/
theorem Reads.skip {s : Symbol} {symbols : List Symbol} {l l' : Linkage}
    (h : Reads markedBy symbols l l') (hs : ¬(s.face markedBy).IsAnnotated)
    (hreadable : s.function?.isSome = true → ∃ kind?, markedKind markedBy s = .ok kind?) :
    Reads markedBy (s :: symbols) l l' where
  readable := List.forall_mem_cons.mpr ⟨hreadable, h.readable⟩
  known id := by
    rw [h.known id]
    refine or_congr_right ⟨fun ⟨u, hu, hid⟩ => ⟨u, List.mem_cons_of_mem _ hu, hid⟩, ?_⟩
    rintro ⟨u, hu, hid, hannotated⟩
    obtain rfl | hu := List.mem_cons.mp hu
    · exact absurd hannotated hs
    · exact ⟨u, hu, hid, hannotated⟩
  targets := h.targets

theorem Reads.add {s : Symbol} {symbols : List Symbol} {l l' : Linkage} {kind : IntrinsicKind}
    (h : Reads markedBy symbols { l with
      intrinsicKinds := l.intrinsicKinds ++ [(s.id, kind)]
      intrinsicDecls := addDecl l.intrinsicDecls kind s } l')
    (hs : (s.face markedBy).IsAnnotated) (hkind : markedKind markedBy s = .ok (some kind)) :
    Reads markedBy (s :: symbols) l l' where
  readable := List.forall_mem_cons.mpr ⟨fun _ => ⟨_, hkind⟩, h.readable⟩
  known id := by
    rw [h.known id, List.map_append, List.mem_append, or_assoc]
    refine or_congr_right ⟨?_, ?_⟩
    · rintro (hid | ⟨u, hu, hid⟩)
      · exact ⟨s, List.mem_cons_self, (List.mem_singleton.mp hid).symm, hs⟩
      · exact ⟨u, List.mem_cons_of_mem _ hu, hid⟩
    · rintro ⟨u, hu, rfl, hannotated⟩
      obtain rfl | hu := List.mem_cons.mp hu
      · exact .inl List.mem_cons_self
      · exact .inr ⟨u, hu, rfl, hannotated⟩
  targets hl := h.targets fun x hx => by
    rw [List.map_append, List.mem_append]
    obtain hx | hx := mem_addDecl hx
    · exact .inr (hx ▸ List.mem_cons_self)
    · exact .inl (hl x hx)

theorem addIntrinsics_reads {symbols : List Symbol} {l l' : Linkage}
    (h : addIntrinsics markedBy symbols l = .ok l') : Reads markedBy symbols l l' := by
  induction symbols generalizing l with
  | nil =>
    cases h
    exact .nil
  | cons s symbols ih =>
    unfold addIntrinsics at h
    split at h
    · rename_i hother
      have hplain : s.function?.isSome = false := by
        rwa [Option.isSome_eq_false_iff]
      exact (ih h).skip (fun hs => Bool.false_ne_true (hplain.symm.trans hs.1))
        fun hs => absurd (hplain.symm.trans hs) Bool.false_ne_true
    · rename_i hfunction
      split at h
      · cases h
      · rename_i hkind
        exact (ih h).skip
          (fun hs => Bool.false_ne_true ((isSome_of_markedKind hkind).mpr hs.2))
          fun _ => ⟨_, hkind⟩
      · rename_i kind hkind
        have hsome : s.function?.isSome = true := by
          rwa [← Bool.not_eq_false, Option.isSome_eq_false_iff]
        exact (ih h).add ⟨hsome, (isSome_of_markedKind hkind).mp rfl⟩ hkind

theorem addIntrinsics_of_readable {symbols : List Symbol} (l : Linkage)
    (h : ∀ s ∈ symbols, s.function?.isSome = true → ∃ kind?, markedKind markedBy s = .ok kind?) :
    ∃ l', addIntrinsics markedBy symbols l = .ok l' := by
  induction symbols generalizing l with
  | nil => exact ⟨l, rfl⟩
  | cons s symbols ih =>
    obtain ⟨hs, hrest⟩ := List.forall_mem_cons.mp h
    unfold addIntrinsics
    split
    · exact ih l hrest
    · rename_i hfunction
      obtain ⟨kind?, hkind⟩ := hs (by rwa [← Bool.not_eq_false, Option.isSome_eq_false_iff])
      rw [hkind]
      cases kind? with
      | none => exact ih l hrest
      | some kind => exact ih _ hrest

/-! ## Linkage -/

/-- Whether a declaration is known as an intrinsic. -/
def isIntrinsic (l : Linkage) (id : DeclId) : Bool := (l.intrinsicKind? id).isSome

theorem isIntrinsic_iff {l : Linkage} {id : DeclId} :
    l.isIntrinsic id = true ↔ id ∈ l.intrinsicKinds.map Prod.fst := by
  unfold isIntrinsic intrinsicKind?
  rw [← Bool.not_eq_false, Option.isSome_eq_false_iff, Option.isNone_iff_eq_none,
    List.lookup_eq_none_iff, List.mem_map]
  simp only [not_forall]
  grind

variable {t : SymbolTable} {o : Options} {l : Linkage}

theorem reads_of_build (h : build t o = .ok l) :
    ∃ l', Reads o.intrinsics.markedBy t.entries {} l' ∧ l'.intrinsicKinds = l.intrinsicKinds ∧
      l'.intrinsicDecls = l.intrinsicDecls := by
  unfold build at h
  cases hl : addIntrinsics o.intrinsics.markedBy t.entries {} with
  | error e =>
    rw [hl] at h
    cases h
  | ok l' =>
    rw [hl] at h
    cases h
    exact ⟨l', addIntrinsics_reads hl, rfl, rfl⟩

theorem isIntrinsic_of_build (h : build t o = .ok l) {id : DeclId} :
    l.isIntrinsic id = true ↔
      ∃ s ∈ t.entries, s.id = id ∧ (s.face o.intrinsics.markedBy).IsAnnotated := by
  obtain ⟨l', hreads, hkinds, -⟩ := reads_of_build h
  rw [isIntrinsic_iff, ← hkinds, hreads.known id]
  simp

theorem isIntrinsic_of_intrinsicDecl (h : build t o = .ok l) {kind : IntrinsicKind} {id : DeclId}
    (hid : l.intrinsicDecl kind = .ok id) : l.isIntrinsic id = true := by
  obtain ⟨l', hreads, hkinds, hdecls⟩ := reads_of_build h
  unfold intrinsicDecl at hid
  split at hid
  · rename_i id' hlookup
    cases hid
    obtain ⟨_, _, hsplit, -⟩ := List.lookup_eq_some_iff.mp hlookup
    rw [isIntrinsic_iff, ← hkinds]
    refine hreads.targets nofun (kind, id) ?_
    rw [hdecls, hsplit]
    simp
  · cases hid

theorem build_of_readable (h : ∀ s ∈ t.entries, s.function?.isSome = true →
    ∃ kind?, markedKind o.intrinsics.markedBy s = .ok kind?) : ∃ l, build t o = .ok l := by
  obtain ⟨l, hl⟩ := addIntrinsics_of_readable {} h
  exact ⟨_, by rw [build, hl]; rfl⟩

/-! ## Targets -/

/-- Every kind of an intrinsic has a target. -/
def Targeted (l : Linkage) : Prop := ∀ x ∈ l.intrinsicKinds, ∃ y ∈ l.intrinsicDecls, y.1 = x.2

theorem exists_mem_addDecl {decls : List (IntrinsicKind × DeclId)} {kind kind' : IntrinsicKind}
    {s : Symbol} (h : kind' = kind ∨ ∃ y ∈ decls, y.1 = kind') :
    ∃ y ∈ addDecl decls kind s, y.1 = kind' := by
  unfold addDecl
  split
  · by_cases hkind : kind' = kind
    · exact ⟨_, List.mem_cons_self, hkind.symm⟩
    · obtain ⟨y, hy, rfl⟩ := h.resolve_left hkind
      exact ⟨y, List.mem_cons_of_mem _ (List.mem_filter.mpr ⟨hy, by simpa using hkind⟩), rfl⟩
  · rename_i hkept
    obtain rfl | h := h
    · rw [Bool.or_eq_true, not_or, Bool.not_eq_true', Bool.not_eq_false, List.any_eq_true] at hkept
      obtain ⟨-, y, hy, hkind⟩ := hkept
      exact ⟨y, hy, by simpa using hkind⟩
    · exact h

/-- A look at one more function gives its kind a target. -/
theorem Targeted.add (h : l.Targeted) (kind : IntrinsicKind) (s : Symbol) :
    Targeted { l with
      intrinsicKinds := l.intrinsicKinds ++ [(s.id, kind)]
      intrinsicDecls := addDecl l.intrinsicDecls kind s } := by
  intro x hx
  obtain hx | hx := List.mem_append.mp hx
  · exact exists_mem_addDecl (.inr (h x hx))
  · cases List.mem_singleton.mp hx
    exact exists_mem_addDecl (.inl rfl)

theorem Targeted.addIntrinsics {symbols : List Symbol} (h : l.Targeted)
    (hl : Linkage.addIntrinsics markedBy symbols l = .ok l') : l'.Targeted := by
  induction symbols generalizing l with
  | nil =>
    cases hl
    exact h
  | cons s symbols ih =>
    unfold Linkage.addIntrinsics at hl
    split at hl
    · exact ih h hl
    · split at hl
      · cases hl
      · exact ih h hl
      · exact ih (h.add _ s) hl

theorem targeted_of_build (h : build t o = .ok l) : l.Targeted := by
  unfold build at h
  obtain ⟨l', hl', h⟩ := Except.of_bind h
  have hempty : Targeted {} := fun _ hx => absurd hx List.not_mem_nil
  have htargeted := hempty.addIntrinsics hl'
  cases h
  exact htargeted

/-- Calls of a kind that some intrinsic has can be synthesized. -/
theorem exists_intrinsicDecl (h : build t o = .ok l) {id : DeclId} {kind : IntrinsicKind}
    (hkind : l.intrinsicKind? id = some kind) : ∃ target, l.intrinsicDecl kind = .ok target := by
  obtain ⟨l₁, l₂, hsplit, -⟩ := List.lookup_eq_some_iff.mp hkind
  obtain ⟨y, hy, hyk⟩ := targeted_of_build h (id, kind) (by rw [hsplit]; simp)
  unfold intrinsicDecl
  cases hlookup : l.intrinsicDecls.lookup kind with
  | some target => exact ⟨target, rfl⟩
  | none =>
    have hne := List.lookup_eq_none_iff.mp hlookup y hy
    exact absurd hyk.symm (by simpa using hne)

/-- What such calls target is a function. -/
theorem exists_function_of_intrinsicDecl {m : Module} (hids : m.declIds.Nodup)
    (h : build (SymbolTable.build m) o = .ok l) {kind : IntrinsicKind} {target : DeclId}
    (htarget : l.intrinsicDecl kind = .ok target) :
    ∃ s f, (SymbolTable.build m).function? target = some (s, f) := by
  obtain ⟨s, hs, rfl, hfunction, -⟩ :=
    (isIntrinsic_of_build h).mp (isIntrinsic_of_intrinsicDecl h htarget)
  have hmem := SymbolTable.mem_of_mem_entries hs
  rw [SymbolTable.newest_build, List.mem_reverse] at hmem
  obtain ⟨f, hf⟩ := Option.isSome_iff_exists.mp hfunction
  exact ⟨s, f, SymbolTable.function?_of_get? (SymbolTable.get?_of_mem hids hmem) hf⟩

end Linkage

end TraceWeave

import TraceWeave.Proofs.Pipeline.Landmarks
import TraceWeave.Proofs.Program.Visits

/-! # Counted identities

Before a run the allocator is moved past all identities of the module. The passes before
instrumentation allocate nothing and bring in no identity that was not there, so after them there is
nothing left to count.

`identsOf` are the identities that nodes introduce. `Module.within_syncIds` says that all are
counted, `PipelineState.Shows` is what passes keep, and `PipelineState.syncIds_runPasses` is the
result.
-/

namespace TraceWeave

/-! ## Identities as labels -/

/-- What a node can introduce. -/
inductive Ident where
  | decl (id : DeclId)
  | var (id : VarId)
  | block (id : BlockId)
  deriving DecidableEq

/-- The identities that nodes introduce as their labels. -/
def Labels.idents : Labels Ident where
  label n := match n.shell with
    | .decl head _ => [.decl head.id]
    | .var id => [.var id]
    | .block id => [.block id]
    | _ => []
  shallow h := by rw [h]
  code h := by rw [h]

theorem Labels.idents_tacit : idents.Tacit := by
  rintro (_ | _ | _ | _) site <;> rfl

/-- The identities that nodes introduce. -/
def identsOf (nodes : List Node) : List Ident := nodes.flatMap Labels.idents.label

@[simp] theorem identsOf_append (xs ys : List Node) :
    identsOf (xs ++ ys) = identsOf xs ++ identsOf ys := List.flatMap_append

theorem identsOf_cons (n : Node) (nodes : List Node) :
    identsOf (n :: nodes) = Labels.idents.label n ++ identsOf nodes := List.flatMap_cons

theorem label_decl (d : Decl) : Labels.idents.label (.decl d) = [.decl d.id] := by
  cases d <;> rfl

/-- Among them are those of the declarations. -/
theorem declIds_sublist_identsOf (nodes : List Node) :
    ((declsOf nodes).map fun d => Ident.decl d.id).Sublist (identsOf nodes) := by
  induction nodes with
  | nil => exact .refl _
  | cons n nodes ih =>
    rw [identsOf_cons]
    cases n with
    | decl d =>
      rw [declsOf_decl, List.map_cons, label_decl]
      exact ih.cons_cons _
    | _ => exact ih.trans (List.sublist_append_right _ _)

theorem CallerCapture.idents_ignoreMarkers (env : PassEnv) : IgnoresMarkers .idents env :=
  fun _ _ _ _ _ _ _ => rfl

namespace IdAllocator

/-- Moves past an identity that is in use. -/
def move (ids : IdAllocator) : Ident → IdAllocator
  | .decl id => ids.observeDecl id
  | .var id => ids.observeVar id
  | .block id => ids.observeBlock id

theorem observe_eq (ids : IdAllocator) (n : Node) :
    ids.observe n = (Labels.idents.label n).foldl move ids := by
  rcases n with d | _ | _ | e
  · cases d <;> rfl
  · rfl
  · rfl
  · cases e <;> rfl

theorem foldl_observe (ids : IdAllocator) (nodes : List Node) :
    nodes.foldl observe ids = (nodes.flatMap Labels.idents.label).foldl move ids := by
  rw [List.foldl_flatMap]
  exact congrArg (List.foldl · ids nodes) (funext₂ observe_eq)

/-! ## What is counted -/

/-- An allocator that has moved past an identity. -/
def Counts (ids : IdAllocator) : Ident → Prop
  | .decl id => id.val + 1 ≤ ids.nextDecl
  | .var id => id.val + 1 ≤ ids.nextVar
  | .block id => id.val + 1 ≤ ids.nextBlock

private theorem max_of_le {a b : UInt32} (h : b ≤ a) : max a b = a := by
  change (if a ≤ b then b else a) = a
  split
  · exact UInt32.le_antisymm h ‹_›
  · rfl

private theorem le_max (a b : UInt32) : a ≤ max a b ∧ b ≤ max a b := by
  change a ≤ (if a ≤ b then b else a) ∧ b ≤ (if a ≤ b then b else a)
  split
  · exact ⟨‹_›, UInt32.le_refl b⟩
  · exact ⟨UInt32.le_refl a, (UInt32.le_total a b).resolve_left ‹_›⟩

theorem move_of_counts {ids : IdAllocator} {i : Ident} (h : ids.Counts i) : ids.move i = ids := by
  cases i with
  | decl | var | block =>
    simp only [move, observeDecl, observeVar, observeBlock]
    rw [max_of_le h]

theorem counts_move (ids : IdAllocator) (i : Ident) : (ids.move i).Counts i := by
  cases i with
  | decl | var | block => exact (le_max _ _).2

theorem Counts.move {ids : IdAllocator} {i : Ident} (h : ids.Counts i) (j : Ident) :
    (ids.move j).Counts i := by
  cases i <;> cases j <;> first | exact h | exact UInt32.le_trans h (le_max _ _).1

theorem counts_foldl {i : Ident} : ∀ (idents : List Ident) (ids : IdAllocator),
    ids.Counts i ∨ i ∈ idents → (idents.foldl IdAllocator.move ids).Counts i
  | [], _, h => h.resolve_right List.not_mem_nil
  | j :: idents, ids, h => by
    refine counts_foldl idents (ids.move j) ?_
    obtain h | h := h
    · exact .inl (h.move j)
    · obtain rfl | h := List.mem_cons.mp h
      · exact .inl (ids.counts_move i)
      · exact .inr h

theorem foldl_move_of_counts {ids : IdAllocator} : ∀ {idents : List Ident},
    (∀ i ∈ idents, ids.Counts i) → idents.foldl IdAllocator.move ids = ids
  | [], _ => rfl
  | i :: idents, h => by
    obtain ⟨hi, hrest⟩ := List.forall_mem_cons.mp h
    rw [List.foldl_cons, move_of_counts hi, foldl_move_of_counts hrest]

end IdAllocator

namespace Module

/-- With its identities counted, a module shows none but counted ones. -/
theorem within_syncIds (m : Module) : Labels.idents.Within m.syncIds.ids.Counts m.syncIds.nodes := by
  intro i hi
  change (m.nodes.foldl IdAllocator.observe m.ids).Counts i
  rw [IdAllocator.foldl_observe]
  exact IdAllocator.counts_foldl _ _ (.inr hi)

theorem syncIds_of_within {m : Module} (h : Labels.idents.Within m.ids.Counts m.nodes) :
    m.syncIds = m := by
  rw [syncIds, IdAllocator.foldl_observe, IdAllocator.foldl_move_of_counts h]

end Module

/-! ## Passes -/

section

variable {ρ : Type} {L : Labels ρ} {known : ρ → Prop} {env : PassEnv} {ids : IdAllocator}

theorem CallerCapture.injector_keepsIds (captured : CapturedDefaults) :
    (injector env captured).Maintains L known (fun st => st.ids = ids) where
  onDecl _ _ _ _ _ h := h
  onExpr _ _ e st _ h := by
    change (PassState.edit (injectCall env captured) e st).2.ids = ids
    unfold PassState.edit injectCall
    split
    · exact h
    · split
      · split <;> exact h
      · exact h

theorem Dispatch.dispatcher_keepsIds {registry : Registry} :
    (dispatcher registry env).Maintains L known (fun st => st.ids = ids) where
  onDecl _ _ _ _ _ h := h
  onExpr sc _ e st _ h := by
    change (PassState.edit (replaceCall registry env sc) e st).2.ids = ids
    unfold PassState.edit replaceCall
    split
    · exact h
    · split
      · split
        · exact h
        · split
          · simp only [PassState.onStore, Build.runOn]
            split <;> rename_i hstep <;> rw [← (Prod.mk.inj hstep).2] <;> exact h
          · exact h
      · exact h

end

/-- A state whose module and captured defaults show known labels only, and whose allocator is at a
given point. -/
structure PipelineState.Shows {ρ : Type} (L : Labels ρ) (known : ρ → Prop) (ids : IdAllocator)
    (s : PipelineState) : Prop where
  nodes : L.Within known s.module.nodes
  captured : CallerCapture.CapturedIn L known s.captured
  ids : s.module.ids = ids

namespace PipelineState.Shows

variable {ρ : Type} {L : Labels ρ} {known : ρ → Prop} {ids : IdAllocator} {setup : PipelineSetup}
  {s : PipelineState}

theorem initial {m : Module} {store : Store} (h : L.Within known m.nodes) :
    Shows L known m.ids { module := m, store } :=
  ⟨h, fun _ hentry => absurd hentry List.not_mem_nil, rfl⟩

theorem ofResult (hs : s.Shows L known ids) {v : Visitor PassState}
    (hv : v.Keeps (.fixed L PassState known))
    (hids : v.Maintains L known fun st => st.ids = s.module.ids) :
    (s.ofResult (s.module.runVisitor v s.store)).2.Shows L known ids := by
  have hnodes := hs.nodes
  rw [Module.nodes_eq, Labels.Within.append_iff] at hnodes
  refine ⟨?_, hs.captured, Eq.trans ?_ hs.ids⟩
  · rw [Module.nodes_eq, Labels.Within.append_iff]
    exact ⟨(filesWalk_keeps hv s.module.files _ trivial hnodes.1).2.2, hnodes.2⟩
  · exact filesWalk_maintains hids s.module.files hnodes.1 _ rfl

/-- The passes before instrumentation bring in nothing that was not shown. -/
theorem runPassIn (hs : s.Shows L known ids) (hL : L.Tacit) {env : PassEnv}
    (hmark : CallerCapture.IgnoresMarkers L env) {pass : PassName}
    (hpass : pass ≠ .tracingInstrumentation) :
    (s.runPassIn setup env pass).2.Shows L known ids := by
  cases pass with
  | extractCallerDefaults =>
    obtain ⟨hnodes, hcaptured⟩ := CallerCapture.within_extract hmark hs.captured hs.nodes
    exact ⟨hnodes, hcaptured, hs.ids⟩
  | injectCallerArguments =>
    exact hs.ofResult (CallerCapture.injector_keepsLabels hs.captured)
      (CallerCapture.injector_keepsIds _)
  | intrinsicDispatch =>
    exact hs.ofResult (Dispatch.dispatcher_keepsLabels hL) Dispatch.dispatcher_keepsIds
  | traceRemoval =>
    rw [PipelineState.runPassIn]
    split
    · rename_i m removed hrun
      refine ⟨Removal.within_run hrun hs.nodes, hs.captured, Eq.trans ?_ hs.ids⟩
      unfold Removal.run at hrun
      obtain ⟨keys, -, hrun⟩ := Except.of_bind hrun
      cases hrun
      rfl
    · exact hs
  | tracingInstrumentation => exact absurd rfl hpass

theorem runPass (hs : s.Shows L known ids) (hL : L.Tacit)
    (hmark : ∀ env : PassEnv, env.options = setup.options → CallerCapture.IgnoresMarkers L env)
    {pass : PassName} {outcome : Except Error Nat} {t : PipelineState}
    (hrun : s.runPass setup pass = (outcome, t)) (hpass : pass ≠ .tracingInstrumentation) :
    t.Shows L known ids := by
  unfold PipelineState.runPass at hrun
  split at hrun
  · cases hrun
    exact hs
  · rename_i env henv
    rw [← show (s.runPassIn setup env pass).2 = t from congrArg Prod.snd hrun]
    exact hs.runPassIn hL (hmark env (PassEnv.build_eq_ok henv).1) hpass

end PipelineState.Shows

/-- What every pass of a list keeps, the list keeps. -/
theorem PipelineState.runPasses_keeps {setup : PipelineSetup} {P : PipelineState → Prop} :
    ∀ {passes : List PassName}, (∀ pass ∈ passes, ∀ s, P s → P (s.runPass setup pass).2) →
      ∀ {s : PipelineState}, P s → P (s.runPasses setup passes).2
  | [], _, _, hs => hs
  | pass :: passes, hstep, s, hs => by
    obtain ⟨hfirst, hrest⟩ := List.forall_mem_cons.mp hstep
    have hnext := hfirst s hs
    rw [runPasses]
    split
    · rename_i e t hpass
      rwa [hpass] at hnext
    · rename_i changed t hpass
      rw [hpass] at hnext
      have hlast := runPasses_keeps hrest hnext
      split <;> rename_i hrun <;> rwa [hrun] at hlast

/-- Passes before instrumentation leave an allocator that has counted all identities. -/
theorem PipelineState.syncIds_runPasses {setup : PipelineSetup} {passes : List PassName}
    (hpasses : .tracingInstrumentation ∉ passes) (m : Module) (store : Store) :
    (runPasses setup passes { module := m.syncIds, store }).2.module.syncIds =
      (runPasses setup passes { module := m.syncIds, store }).2.module := by
  have hshows : (runPasses setup passes { module := m.syncIds, store }).2.Shows .idents
      m.syncIds.ids.Counts m.syncIds.ids := by
    refine runPasses_keeps (fun pass hpass s hs => ?_) (.initial m.within_syncIds)
    have hbefore : pass ≠ .tracingInstrumentation := by
      rintro rfl
      exact hpasses hpass
    exact hs.runPass Labels.idents_tacit (fun env _ => CallerCapture.idents_ignoreMarkers env)
      rfl hbefore
  refine Module.syncIds_of_within ?_
  rw [hshows.ids]
  exact hshows.nodes

end TraceWeave

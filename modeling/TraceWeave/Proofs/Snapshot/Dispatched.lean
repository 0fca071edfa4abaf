import TraceWeave.Pass.Handlers
import TraceWeave.Proofs.Descriptor.Growth
import TraceWeave.Proofs.Snapshot.Carried
import TraceWeave.Proofs.Tracing.Steps

/-! # Snapshot calls that are replaced

Dispatch puts a frame capture in the place of every call that takes a snapshot, unless the call is
an operand of another intrinsic call, which it goes away with. In the body of a function the capture
lists the variables that the code can count on where the call stands.

`Module.snapshotCalls` lists the calls and `Replaces` says what takes their place;
`Dispatch.captures_of_run` is about a run of the pass.
-/

namespace TraceWeave

/-- Looks for the calls that dispatch replaces, and notes those that take a snapshot. -/
def Lookout.snapshotCalls (env : PassEnv) : Lookout Site where
  call s callee :=
    match env.linkage.intrinsicKind? callee with
    | some kind =>
      if env.options.accepts kind then some (if kind = .frameSnapshot then [s] else []) else none
    | none => none

/-- The calls in the own files of a module that are replaced by a frame capture. -/
def Module.snapshotCalls (m : Module) (env : PassEnv) : List (Option Standing × Site) :=
  filesSpots (.snapshotCalls env) m.files

/-- A frame capture in the place of a call. In a body it lists the variables that code can count on
there. -/
def Replaces (call : Option Standing × Site) (capture : Option Standing × Site × FrameCapture) :
    Prop :=
  capture.1 = call.1 ∧ capture.2.1 = call.2 ∧ ∀ s, call.1 = some s → capture.2.2.vars = s.vars

/-! ## One call -/

/-- Steps that are taken for the items of a list, each with a result that tells its item. -/
theorem Build.map_of_mapM {σ α β γ : Type} {step : α → Build σ β} {key : α → γ} {key' : β → γ}
    (hstep : ∀ a s b t, (step a).runOn s = (.ok b, t) → key' b = key a) :
    ∀ {as : List α} {bs : List β} {s t : σ},
      Build.runOn (as.mapM step) s = (.ok bs, t) → bs.map key' = as.map key
  | [], bs, s, t, h => by
    rw [List.mapM_nil] at h
    obtain ⟨rfl, -⟩ := of_pure h
    rfl
  | a :: as, bs, s, t, h => by
    rw [List.mapM_cons] at h
    obtain ⟨b, u, hb, h⟩ := of_bind h
    obtain ⟨rest, w, hrest, h⟩ := of_bind h
    obtain ⟨rfl, -⟩ := of_pure h
    rw [List.map_cons, List.map_cons, hstep a s b u hb, map_of_mapM hstep hrest]

/-- A capture has an entry for each variable, in order. -/
theorem Factory.map_var_of_frameCapture {f : Factory} {executable : Executable}
    {locals : List VisibleLocal} {span : Span} {capture : FrameCapture} {s t : Store}
    (h : (f.frameCapture executable locals span).runOn s = (.ok capture, t)) :
    capture.vars = locals.map VisibleLocal.var := by
  obtain ⟨⟨owner, ownerName⟩, u, -, h⟩ := Build.of_bind h
  obtain ⟨entries, w, hentries, h⟩ := Build.of_bind h
  obtain ⟨location, x, -, h⟩ := Build.of_bind h
  obtain ⟨rfl, -⟩ := Build.of_pure h
  refine Build.map_of_mapM (fun v s entry t hentry => ?_) hentries
  obtain ⟨info, y, -, hentry⟩ := Build.of_bind hentry
  obtain ⟨rfl, -⟩ := Build.of_pure hentry
  rfl

namespace Dispatch

variable {env : PassEnv} {sc : ScopeStack} {call : IntrinsicCall} {s t : Store}
  {resolved : Resolved}

/-- A call that is resolved has the shape of its kind, and the handler of the kind made it. -/
theorem of_resolve {registry : Registry}
    (h : (resolve registry env sc call).runOn s = (.ok resolved, t)) :
    ∃ handler, registry call.kind = some handler ∧
      (handler call sc env).runOn s = (.ok resolved, t) ∧
        resolved.shape? = some call.kind.shape := by
  obtain ⟨handler, u, hfound, hrest⟩ := Build.of_bind h
  obtain ⟨hhandler, rfl⟩ := Build.of_require hfound
  obtain ⟨resolved', w, hresolved, hchecked⟩ := Build.of_bind hrest
  by_cases hshape : resolved'.hasShape call.kind.shape
  · rw [if_pos hshape] at hchecked
    obtain ⟨rfl, rfl⟩ := Build.of_pure hchecked
    exact ⟨handler, hhandler, hresolved, beq_iff_eq.mp hshape⟩
  · rw [if_neg hshape] at hchecked
    cases hchecked

theorem snapshot_of_resolve (hkind : call.kind = .frameSnapshot)
    (h : (resolve Handlers.defaults env sc call).runOn s = (.ok resolved, t)) :
    ∃ capture, resolved = .snapshot capture ∧
      capture.vars = sc.visibleLocals.map VisibleLocal.var := by
  obtain ⟨_, ⟨⟩, hhandler, -⟩ := of_resolve h
  rw [hkind] at hhandler
  obtain ⟨executable, u, -, hhandler⟩ := Build.of_bind hhandler
  obtain ⟨capture, w, hcapture, hhandler⟩ := Build.of_bind hhandler
  obtain ⟨rfl, -⟩ := Build.of_pure hhandler
  exact ⟨capture, rfl, Factory.map_var_of_frameCapture hcapture⟩

/-- No other kind resolves to a snapshot. -/
theorem spots_of_resolve (hkind : call.kind ≠ .frameSnapshot) (site : Site)
    (here : Option Standing)
    (h : (resolve Handlers.defaults env sc call).runOn s = (.ok resolved, t)) :
    (resolved.toExpr site).spots .captures here = [] := by
  obtain ⟨-, -, -, hshape⟩ := of_resolve h
  cases resolved with
  | snapshot capture =>
    have hsnapshot : call.kind.shape = .snapshot := (Option.some.inj hshape).symm
    generalize call.kind = kind at hkind hsnapshot
    cases kind <;> first | exact absurd rfl hkind | cases hsnapshot
  | descriptor | int | string => rfl

/-! ## The walk -/

theorem onExpr_of_callee? {e : Expr} {st : PassState} (he : e.callee? = none) (place : Place) :
    (dispatcher Handlers.defaults env).onExpr sc place e st = (e, st) := by
  simp only [dispatcher, PassState.edit]
  split
  · rfl
  · cases e with
    | call => exact absurd he (Option.some_ne_none _)
    | _ => rfl

theorem dispatcher_handsBack {registry : Registry} :
    (dispatcher registry env).HandsBack fun st => st.failure = none where
  onDecl _ _ _ h := h
  onExpr _ _ _ _ h := (PassState.of_edit h).1

theorem dispatcher_carries :
    (dispatcher Handlers.defaults env).Carries (fun st => st.failure = none) (fun _ _ => False)
      (.snapshotCalls env) .captures Replaces where
  handsBack := dispatcher_handsBack
  onExpr _ place _ _ he := onExpr_of_callee? he place
  onDecl _ _ _ _ := rfl
  onCapture _ _ _ h := h.elim
  onCall {sc here place site callee receiver receiver' typeArgs args args' st} hsc h hbelow := by
    have hst := dispatcher_handsBack.onExpr _ _ _ _ h
    simp only [dispatcher, PassState.edit_of_none hst] at h ⊢
    simp only [replaceCall, Expr.spots, Lookout.orBelow, Lookout.snapshotCalls] at h ⊢
    cases hkind : env.linkage.intrinsicKind? callee with
    | none => exact hbelow
    | some kind =>
      simp only [hkind] at h ⊢
      by_cases haccepts : env.options.accepts kind
      · simp only [if_pos haccepts] at h ⊢
        generalize hcall : IntrinsicCall.mk kind site callee receiver' typeArgs args' = call at h ⊢
        rcases hrun : (PassState.onStore (resolve Handlers.defaults env sc call)).runOn st with
          ⟨err | resolved, st'⟩
        · rw [hrun] at h
          cases h
        · obtain ⟨hresolve, -⟩ := PassState.of_onStore hrun
          have hcallKind : call.kind = kind := by rw [← hcall]
          by_cases hsnapshot : kind = .frameSnapshot
          · obtain ⟨capture, rfl, hvars⟩ :=
              snapshot_of_resolve (hcallKind.trans hsnapshot) hresolve
            rw [if_pos hsnapshot]
            refine .cons ⟨rfl, rfl, ?_⟩ .nil
            rintro s rfl
            exact hvars.trans hsc.visibleLocals
          · dsimp only
            rw [if_neg hsnapshot, spots_of_resolve (hcallKind ▸ hsnapshot) site here hresolve]
            exact .nil
      · simp only [if_neg haccepts]
        exact hbelow

/-- Every snapshot call is replaced by a capture with the variables of its place, and there are no
other captures. -/
theorem captures_of_run {m : Module} {store : Store} {n : Nat}
    (hm : ∀ s c, .expr (.captureFrame s c) ∉ m.nodes)
    (h : (run Handlers.defaults env m store).outcome = .ok n) :
    List.Forall₂ Replaces (m.snapshotCalls env)
      (run Handlers.defaults env m store).module.captures := by
  have hknown : CapturesKnown (fun _ _ => False) m.nodes := hm
  rw [Module.nodes, Module.allFiles, List.flatMap_append] at hknown
  -- the external files stay as they are, and there are no captures in them
  have hexternal : filesSpots .captures m.external = [] :=
    hknown.right.eq_nil (files_locates m.external)
  rw [Module.captures_eq, show (run Handlers.defaults env m store).module.external = m.external
    from rfl, hexternal, List.append_nil]
  exact filesWalk_carries dispatcher_carries m.files hknown.left _ (Module.failure_of_runVisitor h)

end Dispatch

end TraceWeave

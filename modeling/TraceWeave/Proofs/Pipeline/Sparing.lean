import TraceWeave.Proofs.Pipeline.Failures
import TraceWeave.Proofs.Pipeline.Landmarks
import TraceWeave.Proofs.Program.Visits
import TraceWeave.Proofs.Tracing.Steps

/-! # Passes that miss no hook

No pass before instrumentation asks for a hook. Instrumentation asks for the hooks of the types that
are active where it stands, and where they are all provided it does not fail for want of one.

`PassState.SparesHooks` is the invariant of a walk. It is kept by the visitors of all passes,
among them `Instrument.instrumenter_maintains` where hooks are `Instrument.Provided`.
-/

namespace TraceWeave

/-! ## Instrumentation -/

namespace Instrument

open Build

variable {env : PassEnv} {ty : TraceType}

/-- Every hook that instrumentation may ask for at points where these types are active. -/
def Provided (env : PassEnv) (types : TraceSet) : Prop :=
  ∀ ty, Pipeline.instrumented.has ty = true → types.has ty = true →
    ∃ id, env.linkage.hook? ty = some id

theorem linked_hook (h : ∃ id, env.linkage.hook? ty = some id) : (hook env ty).Linked := by
  obtain ⟨id, hid⟩ := h
  exact .require_some hid

theorem linked_siteHook (h : ∃ id, env.linkage.hook? ty = some id) (f : Handle .functionInfo)
    (span : Span) : (siteHook env ty f span).Linked :=
  (linked_hook h).bind fun _ =>
    ((env.factory.linked_location span).onStore.bind fun _ => .pure _).bind fun _ => .pure _

theorem linked_bodyHook (h : ∃ id, env.linkage.hook? ty = some id) (f : Handle .functionInfo)
    (span : Span) : (bodyHook env ty f span).Linked :=
  (linked_hook h).bind fun _ => .pure _

theorem linked_prepareCall {sc : ScopeStack}
    (h : ∀ types, activeTypes env sc = .ok types → Provided env types) (site : Site)
    (callee : DeclId) : (prepareCall env sc site callee).Linked := by
  unfold prepareCall
  split
  · exact .pure none
  · refine .ofExcept_bind (linked_activeTypes env sc) fun types htypes => ?_
    have hprovided := h types htypes
    dsimp only
    split
    · exact .pure none
    · refine .onlyIf fun _ => (env.factory.linked_functionInfo callee).onStore.bind fun info => ?_
      refine (Linked.onlyIf fun hbefore => linked_siteHook (hprovided _ rfl hbefore) _ _).bind
        fun _ => ?_
      refine (Linked.onlyIf fun hsuspension => ?_).bind fun _ => .pure _
      refine (env.factory.linked_executableInfo _).onStore.bind fun _ => linked_siteHook ?_ _ _
      exact hprovided _ rfl (Bool.and_eq_true_iff.mp hsuspension).1

/-- A hook runs after a call only where its type is active. -/
theorem after_of_prepareCall {sc : ScopeStack} {site : Site} {callee : DeclId} {c : CallSite}
    {st st' : PassState} (h : (prepareCall env sc site callee).runOn st = (.ok (some c), st'))
    (hafter : c.after = true) :
    ∃ types, activeTypes env sc = .ok types ∧ types.has .afterCall = true := by
  unfold prepareCall at h
  split at h
  · cases h
  · obtain ⟨types, u, htypes, hrest⟩ := of_bind h
    refine ⟨types, (of_ofExcept htypes).1, ?_⟩
    dsimp only at hrest
    split at hrest
    · cases hrest
    · obtain ⟨-, ⟨⟩, -⟩ | ⟨c', -, ⟨⟩, hactive⟩ := Build.of_onlyIf hrest
      rw [(of_prepareActive hactive).2.1] at hafter
      exact (Bool.and_eq_true_iff.mp hafter).1

theorem linked_wrapCall {c : CallSite}
    (h : c.after = true → ∃ id, env.linkage.hook? .afterCall = some id) (e : Expr) :
    (wrapCall env c e).Linked := by
  unfold wrapCall
  split
  · rename_i hafter
    refine (linked_siteHook (h hafter) _ _).bind fun _ => ?_
    split
    · exact .pure _
    · rintro st e' st' ⟨⟩
  · exact .pure _

theorem linked_prepareBody {sc : ScopeStack} {head : DeclHead}
    (h : ∀ types, activeTypes env sc = .ok types → Provided env types)
    (hown : ∀ types, declaredTypes env.options head.annotations = .ok types → Provided env types) :
    (prepareBody env sc head).Linked := by
  refine .ofExcept_bind (linked_activeTypes env sc) fun around haround => ?_
  refine .ofExcept_bind (linked_declaredTypes _ _) fun own hown' => ?_
  have hprovided : Provided env (around.union own) := by
    intro ty hinstrumented hty
    rw [TraceSet.has_union, Bool.or_eq_true] at hty
    exact hty.elim (h around haround ty hinstrumented) (hown own hown' ty hinstrumented)
  refine .onlyIf fun _ => (env.factory.linked_functionInfo head.id).onStore.bind fun info => ?_
  refine (Linked.onlyIf fun henter => linked_bodyHook (hprovided _ rfl henter) _ _).bind fun _ => ?_
  exact (Linked.onlyIf fun hleave => linked_bodyHook (hprovided _ rfl hleave) _ _).bind fun _ =>
    .pure _

end Instrument

/-! ## Passes -/

/-- An error that names no hook as missing. -/
def Error.SparesHooks (names : HookNames) (e : Error) : Prop :=
  ∀ ty, e ≠ .linkage (names.get ty)

theorem Error.SparesHooks.of_isLinkage {names : HookNames} {e : Error} (h : e.isLinkage = false) :
    e.SparesHooks names := by
  rintro ty rfl
  cases h

/-- A state of a pass that has not failed for want of a hook. -/
def PassState.SparesHooks (names : HookNames) (st : PassState) : Prop :=
  ∀ e, st.failure = some e → e.SparesHooks names

section

variable {names : HookNames} {known : Face → Prop} {selectedBy : String} {env : PassEnv}

theorem PassState.SparesHooks.fail {st : PassState} {e : Error} (he : e.SparesHooks names) :
    (st.fail e).SparesHooks names := by
  rintro _ ⟨⟩
  exact he

theorem PassState.SparesHooks.of_failure {st st' : PassState} (h : st.SparesHooks names)
    (hst : st'.failure = st.failure) : st'.SparesHooks names := by
  intro e he
  exact h e (hst ▸ he)

theorem PassState.spares_edit {α : Type} {step : α → PassState → α × PassState} {node : α}
    {st : PassState} (h : st.SparesHooks names)
    (hstep : st.failure = none → (step node st).2.SparesHooks names) :
    (edit step node st).2.SparesHooks names := by
  unfold edit
  split
  · exact h
  · rename_i hnone
    exact hstep (by simpa using hnone)

theorem CallerCapture.spares_fillArgs {fresh : Nat → String → Except Error Expr}
    (hfresh : ∀ index mode e, fresh index mode = .error e → e.SparesHooks names) :
    ∀ (args : List (Option Expr)) (index : Nat) (modes : List String),
      ∀ e, (fillArgs fresh index args modes).2.2 = some e → e.SparesHooks names
  | [], _, _, e, he => by
    unfold fillArgs at he
    cases he
  | _ :: _, _, [], e, he => by
    unfold fillArgs at he
    cases he
  | arg :: args, index, mode :: modes, e, he => by
    rw [fillArgs] at he
    split at he
    · exact spares_fillArgs hfresh args _ modes e he
    · split at he
      · rename_i e' he'
        cases he
        exact hfresh _ _ _ he'
      · exact spares_fillArgs hfresh args _ modes e he

theorem CallerCapture.spares_freshCall
    (hnames : ∀ (ty : TraceType) (kind : IntrinsicKind), names.get ty ≠ kind.spec.symbol)
    {captured : CapturedDefaults} {callee : DeclId} {index : Nat} {span : Span} {mode : String}
    {e : Error} (h : freshCall env captured callee index span mode = .error e) :
    e.SparesHooks names := by
  unfold freshCall at h
  obtain hkind | ⟨kind, -, h⟩ := Except.of_bind_error h
  · exact .of_isLinkage (IntrinsicKind.linked_parse mode e hkind)
  · obtain hdecl | ⟨id, -, h⟩ := Except.of_bind_error h
    · unfold Linkage.intrinsicDecl at hdecl
      split at hdecl
      · cases hdecl
      · cases hdecl
        intro ty heq
        exact hnames ty kind (Error.linkage.inj heq).symm
    · split at h
      · cases h
        exact .of_isLinkage rfl
      · split at h <;> cases h

theorem CallerCapture.linked_modesOf (callee : DeclId) : Except.Linked (modesOf env callee) := by
  unfold modesOf
  split
  · exact .ok _
  · split
    · exact .ok _
    · split
      · exact .error rfl
      · split
        · exact .error rfl
        · exact .ok _

theorem CallerCapture.injector_maintains
    (hnames : ∀ (ty : TraceType) (kind : IntrinsicKind), names.get ty ≠ kind.spec.symbol)
    (captured : CapturedDefaults) :
    (injector env captured).Maintains (.faces selectedBy) known (PassState.SparesHooks names) where
  onDecl _ _ _ _ _ h := h
  onExpr sc _ e st _ h := by
    refine PassState.spares_edit h fun _ => ?_
    unfold injectCall
    split
    · rename_i site callee receiver typeArgs args
      split
      · rename_i err herr
        exact .fail (.of_isLinkage (linked_modesOf callee err herr))
      · exact h
      · exact spares_fillArgs (fun _ _ _ => spares_freshCall hnames) _ 0 _
    · exact h

theorem Dispatch.dispatcher_maintains : (dispatcher Handlers.defaults env).Maintains
    (.faces selectedBy) known (PassState.SparesHooks names) where
  onDecl _ _ _ _ _ h := h
  onExpr sc _ e st _ h := by
    refine PassState.spares_edit h fun hnone => ?_
    unfold replaceCall
    split
    · rename_i site callee receiver typeArgs args
      split
      · exact h
      · rename_i kind hkind
        split
        · dsimp only
          split
          · rename_i resolved st' hrun
            exact h.of_failure (PassState.of_onStore hrun).2
          · rename_i err st' hrun
            exact .fail (.of_isLinkage ((linked_resolve env sc _).onStore _ _ _ hrun))
        · exact h
    · exact h

/-- Where the hooks of all types are provided that are active or selected, instrumentation does not
miss one. -/
theorem Instrument.instrumenter_maintains
    (hactive : ∀ sc : ScopeStack, sc.Inside (.faces selectedBy) known →
      ∀ types, activeTypes env sc = .ok types → Provided env types)
    (hown : ∀ d : Decl, known (d.face selectedBy) →
      ∀ types, declaredTypes env.options d.head.annotations = .ok types → Provided env types) :
    (instrumenter env).Maintains (.faces selectedBy) known (PassState.SparesHooks names) where
  onExpr sc _ e st hsc h := by
    refine PassState.spares_edit h fun _ => ?_
    unfold instrumentCall
    split
    · rename_i site callee receiver typeArgs args
      -- Hooks are asked for twice: when the call is prepared, and when it is wrapped, which asks
      -- for the hook after it if that one is active.
      have hprepare := linked_prepareCall (hactive sc hsc) site callee
      split
      · rename_i err st' hrun
        exact .fail (.of_isLinkage (hprepare _ _ _ hrun))
      · rename_i st' hrun
        exact h.of_failure (of_prepareCall hrun).1.failure
      · rename_i c st' hrun
        have hafter : c.after = true → ∃ id, env.linkage.hook? .afterCall = some id := by
          intro hafter
          obtain ⟨types, htypes, hty⟩ := after_of_prepareCall hrun hafter
          exact hactive sc hsc types htypes .afterCall rfl hty
        split
        · rename_i err st'' hwrap
          exact .fail (.of_isLinkage (linked_wrapCall hafter _ _ _ _ hwrap))
        · rename_i wrapped st'' hwrap
          have hwrapped : st'.Follows st'' :=
            (@of_wrapCall _ _ _ default (Tracing.callPlan env default sc site callee) _ _ _ hwrap).1
          exact h.of_failure (hwrapped.failure.trans (of_prepareCall hrun).1.failure)
    · exact h
  onDecl sc d st hsc hd h := by
    refine PassState.spares_edit h fun _ => ?_
    unfold instrumentBody
    split
    · rename_i head info params body
      split
      · exact h
      · rename_i hbody
        have hprepare : (prepareBody env sc head).Linked :=
          linked_prepareBody (hactive sc hsc)
            (hown (.function head info params body) (hd _ (by simp)))
        have htraceable : Tracing.isTraceable head body := by
          simpa [Tracing.isTraceable] using hbody
        split
        · rename_i err st' hrun
          exact .fail (.of_isLinkage (hprepare _ _ _ hrun))
        · rename_i st' hrun
          exact h.of_failure (of_prepareBody htraceable hrun).1.failure
        · rename_i hooks st' hrun
          exact h.of_failure (of_prepareBody htraceable hrun).1.failure
    · exact h

theorem Removal.searcher_maintains : (searcher env).Maintains (.faces selectedBy) known
    fun found => ∀ e, found.failure = some e → e.SparesHooks names where
  onDecl _ _ _ _ _ h := h
  onExpr sc place e found _ h := by
    unfold searcher
    dsimp only
    split
    · exact h
    · unfold schedule
      split
      · split
        · exact h
        · split
          · rename_i err herr
            rintro _ ⟨⟩
            exact .of_isLinkage (linked_activeTypes env sc err herr)
          · split
            · exact h
            · split
              · rintro _ ⟨⟩
                exact .of_isLinkage rfl
              · exact h
      · exact h

/-- A walk whose visits do not fail for want of a hook. -/
theorem Module.spares_runVisitor {m : Module} {v : Visitor PassState} {store : Store} {e : Error}
    (hv : v.Maintains (.faces selectedBy) known (PassState.SparesHooks names))
    (hm : (Labels.faces selectedBy).Within known (filesNodes m.files))
    (h : (m.runVisitor v store).outcome = .error e) : e.SparesHooks names := by
  have hwalked := filesWalk_maintains hv m.files hm { ids := m.ids, store } nofun
  unfold runVisitor PassResult.ofWalk at h
  dsimp only at h
  split at h
  · rename_i e' he'
    cases h
    exact hwalked e he'
  · cases h

theorem Removal.spares_search {m : Module} {e : Error}
    (hm : (Labels.faces selectedBy).Within known (filesNodes m.files))
    (h : search env m = .error e) : e.SparesHooks names := by
  have hsearcher : (searcher env).Maintains (.faces selectedBy) known
      fun found => ∀ e, found.failure = some e → e.SparesHooks names := searcher_maintains
  have hwalked := filesWalk_maintains hsearcher m.files hm {} nofun
  unfold search at h
  dsimp only at h
  split at h
  · rename_i e' he'
    cases h
    exact hwalked e he'
  · cases h

end

end TraceWeave

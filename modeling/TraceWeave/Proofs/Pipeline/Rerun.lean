import TraceWeave.Proofs.Capture.Extracted
import TraceWeave.Proofs.Pipeline.Inherited
import TraceWeave.Proofs.Pipeline.Settled

/-! # Running again

A run without instrumentation that succeeds leaves a settled module, as long as the names of the
user's hooks mean after removal what they meant before it. Then a second run has nothing to do.

* `Module.Ready`, `Module.LeftOf`: what a module is before dispatch and after it.
* `Pipeline.exists_settled`: a run without instrumentation leaves a settled module.
* `Pipeline.rerun_changes_nothing`: a second run leaves it as it is.
-/

namespace TraceWeave

/-! ## What removal leaves -/

namespace Removal

variable {env : PassEnv}

/-- A trace call that is active or scheduled. -/
def Handled (env : PassEnv) (keys : List CallKey) (f : CallFace) : Prop :=
  ∀ ty, userCall? env f.callee = some ty → ∃ active, activeTypes env f.scopes = .ok active ∧
    (active.has ty = true ∨ isRemovable f.place = true ∧ keyOf f ∈ keys)

theorem Handled.mono {keys keys' : List CallKey} {f : CallFace} (h : Handled env keys f)
    (hkeys : keys ⊆ keys') : Handled env keys' f := by
  intro ty hty
  obtain ⟨active, hactive, hcases⟩ := h ty hty
  exact ⟨active, hactive, hcases.imp_right fun hscheduled => ⟨hscheduled.1, hkeys hscheduled.2⟩⟩

theorem isRemovable_of_fixedContainer? {sc : ScopeStack} {place : Place}
    (h : fixedContainer? env sc place = none) : isRemovable place = true := by
  cases place with
  | statement | expressionBody => rfl
  | initializer | defaultValue | operand => cases h

theorem schedule_handled {sc : ScopeStack} {place : Place} {e : Expr} {found : Search}
    (h : (schedule env sc place e found).failure = none) :
    found.scheduled ⊆ (schedule env sc place e found).scheduled ∧
      ∀ f, e.callFace? sc place = some f →
        Handled env (schedule env sc place e found).scheduled f := by
  cases e with
  | call s callee receiver typeArgs args =>
    rw [schedule] at h ⊢
    split at h
    · rename_i hnone
      refine ⟨List.Subset.refl _, ?_⟩
      rintro _ ⟨⟩ ty hty
      cases hnone.symm.trans hty
    · rename_i ty hty
      -- A trace call that gives no failure is active, or it stands where it can be taken out and is
      -- scheduled.
      cases hactive : activeTypes env sc with
      | error err =>
        rw [hactive] at h
        cases h
      | ok active =>
        rw [hactive] at h
        dsimp only at h ⊢
        cases hhas : active.has ty with
        | true =>
          refine ⟨List.Subset.refl _, ?_⟩
          rintro _ ⟨⟩ ty' hty'
          cases hty.symm.trans hty'
          exact ⟨active, hactive, .inl hhas⟩
        | false =>
          rw [hhas] at h
          cases hcontainer : fixedContainer? env sc place with
          | some container =>
            rw [hcontainer] at h
            cases h
          | none =>
            refine ⟨List.subset_cons_self _ _, ?_⟩
            rintro _ ⟨⟩ ty' hty'
            exact ⟨active, hactive,
              .inr ⟨isRemovable_of_fixedContainer? hcontainer, List.mem_cons_self⟩⟩
  | _ => exact ⟨List.Subset.refl _, fun _ hf => by cases hf⟩

/-- A search that has not failed has handled all calls it came by. -/
theorem searcher_handled : ∀ {visits : List Visit} {found : Search},
    (visits.foldl (searcher env).onlooker.see found).failure = none → found.failure = none ∧
      found.scheduled ⊆ (visits.foldl (searcher env).onlooker.see found).scheduled ∧
      ∀ x ∈ visits, ∀ f, x.callFace? = some f →
        Handled env (visits.foldl (searcher env).onlooker.see found).scheduled f
  | [], found, h => ⟨h, List.Subset.refl _, nofun⟩
  | x :: visits, found, h => by
    rw [List.foldl_cons] at h ⊢
    obtain ⟨hstep, hsub, hrest⟩ := searcher_handled h
    have hsee : (searcher env).onlooker.see found x =
        if found.failure.isSome then found else schedule env x.scopes x.place x.expr found := rfl
    cases hfailure : found.failure with
    | some err =>
      rw [hsee, hfailure] at hstep
      cases hfailure.symm.trans hstep
    | none =>
      rw [hfailure] at hsee
      change _ = schedule env x.scopes x.place x.expr found at hsee
      rw [hsee] at hstep hsub hrest ⊢
      obtain ⟨hfirst, hhandled⟩ := schedule_handled hstep
      refine ⟨rfl, fun key hkey => hsub (hfirst hkey), List.forall_mem_cons.mpr ⟨?_, hrest⟩⟩
      exact fun f hf => (hhandled f hf).mono hsub

theorem search_handled {m : Module} {keys : List CallKey} (h : search env m = .ok keys)
    {f : CallFace} (hf : .call f ∈ m.marks) : Handled env keys f := by
  have hwalk : filesWalk (searcher env) m.files {} =
      (m.files, m.visits.foldl (searcher env).onlooker.see {}) :=
    filesWalk_passes (fun _ _ _ => rfl) m.files (fun _ _ _ => rfl) _
  rw [search, hwalk] at h
  dsimp only at h
  split at h
  · cases h
  · rename_i hnone
    cases h
    obtain ⟨x, hx, hface⟩ := Module.mem_marks_call.mp hf
    exact (searcher_handled hnone).2.2 x hx f hface

end Removal

/-! ## What is left of a module -/

/-- The module whose calls are filled, which has distinct identities, and its environment. -/
structure Ground (setup : PipelineSetup) where
  module : Module
  env : PassEnv
  distinct : module.declIds.Nodup
  built : PassEnv.build setup.options setup.sources module = .ok env

/-- What is left of a ground when intrinsic calls are replaced: its declarations come from the
ground, and its calls call no intrinsics of the ground and give all arguments they capture there. -/
structure Module.LeftOf {setup : PipelineSetup} (g : Ground setup) (m : Module) : Prop where
  inherits : m.Inherits g.module
  dispatched : ∀ f, .call f ∈ m.marks → g.env.linkage.isIntrinsic f.callee = false
  filled : setup.options.callerCapture.enabled = true →
    ∀ f, .call f ∈ m.marks → CallerCapture.Filled g.env f

/-- A module that is ready for dispatch: the declarations of a ground are there and look the same,
and what stands outside of the intrinsic calls comes from the ground and is filled. -/
structure Module.Ready {setup : PipelineSetup} (g : Ground setup) (m : Module) : Prop where
  external : m.external = g.module.external
  decls : CallerCapture.KeepsDecls g.module.marks m.marks
  faces : ∀ s ∈ m.symbols, ∀ u ∈ g.module.symbols, s.id = u.id →
    s.face setup.options.intrinsics.markedBy = u.face setup.options.intrinsics.markedBy
  outside : ∀ cut : Cut, (∀ id, g.env.linkage.isIntrinsic id = true → cut id = true) →
    ∀ k ∈ m.marks cut, (∀ p, k = .decl p → k ∈ g.module.marks) ∧
      ∀ f, k = .call f → setup.options.callerCapture.enabled = true →
        CallerCapture.Filled g.env f

variable {setup : PipelineSetup} {g : Ground setup} {m : Module} {env : PassEnv}

namespace Module.Ready

/-- The intrinsics of the ground are still known. -/
theorem isIntrinsic (h : m.Ready g)
    (henv : PassEnv.build setup.options setup.sources m = .ok env) {id : DeclId}
    (hid : g.env.linkage.isIntrinsic id = true) : env.linkage.isIntrinsic id = true := by
  obtain ⟨u, hu, rfl, hannotated⟩ :=
    (Linkage.isIntrinsic_of_build (PassEnv.build_eq_ok g.built).2.2).mp hid
  have hu := SymbolTable.mem_symbols_of_entries hu
  obtain ⟨s, hs, hprofile⟩ : ∃ s ∈ m.symbols, s.profile = u.profile := by
    obtain hu | hu := List.mem_append.mp hu
    · obtain ⟨s, hs, hprofile⟩ :=
        mem_marks_decl.mp (h.decls _ (mem_marks_decl.mpr ⟨u, hu, rfl⟩))
      exact ⟨s, List.mem_append_left _ hs, hprofile⟩
    · rw [← h.external] at hu
      exact ⟨u, List.mem_append_right _ hu, rfl⟩
  have hsid := Symbol.id_of_profile hprofile
  have hsface := Symbol.face_of_profile hprofile setup.options.intrinsics.markedBy
  rw [← hsid]
  refine Linkage.isIntrinsic_of_symbol (PassEnv.build_eq_ok henv).2.2 hs (fun s' hs' hid' => ?_) ?_
  · exact (h.faces s' hs' u hu (hid'.trans hsid)).trans hsface.symm
  · rwa [hsface]

theorem dispatch (h : m.Ready g) (haccepts : ∀ kind, setup.options.accepts kind = true)
    (henv : PassEnv.build setup.options setup.sources m = .ok env) {store : Store} {n : Nat}
    (hrun : (Dispatch.run setup.registry env m store).outcome = .ok n) :
    (Dispatch.run setup.registry env m store).module.LeftOf g := by
  have hoptions := (PassEnv.build_eq_ok henv).1
  have hmarks := Dispatch.run_marks (by rwa [hoptions]) hrun
  have houtside := h.outside env.linkage.isIntrinsic fun _ => h.isIntrinsic henv
  refine ⟨(Inherits.refl g.distinct).mono h.external fun p hp => ?_, fun f hf => ?_,
    fun henabled f hf => ?_⟩
  · exact (houtside _ (hmarks hp)).1 p rfl
  · rw [← Bool.not_eq_true]
    intro hintrinsic
    exact Bool.false_ne_true
      (((marks_left (hmarks hf)).2 f rfl).symm.trans (h.isIntrinsic henv hintrinsic))
  · exact (houtside _ (hmarks hf)).2 f rfl henabled

end Module.Ready

namespace Module.LeftOf

theorem mono {m' : Module} (h : m.LeftOf g) (hexternal : m'.external = m.external)
    (hmarks : m'.marks ⊆ m.marks) : m'.LeftOf g where
  inherits := h.inherits.mono hexternal fun _ hp => hmarks hp
  dispatched f hf := h.dispatched f (hmarks hf)
  filled henabled f hf := h.filled henabled f (hmarks hf)

theorem exists_env (h : m.LeftOf g) :
    ∃ env, PassEnv.build setup.options setup.sources m = .ok env := by
  obtain ⟨l, hl⟩ := h.inherits.exists_linkage (PassEnv.build_eq_ok g.built).2.2
  exact ⟨_, by rw [PassEnv.build, hl]; rfl⟩

/-- What is left is settled once its identities are counted and its trace calls are active. -/
theorem settled (h : m.LeftOf g) (henv : PassEnv.build setup.options setup.sources m = .ok env)
    (hcounted : m.syncIds = m)
    (hkept : setup.options.tracing.remove = true → ∀ f, .call f ∈ m.marks → ∀ ty,
      Removal.userCall? env f.callee = some ty →
        ∃ active, activeTypes env f.scopes = .ok active ∧ active.has ty = true) :
    m.Settled setup env where
  counted := hcounted
  built := henv
  dispatched f hf := by
    obtain ⟨-, -, hl⟩ := PassEnv.build_eq_ok g.built
    obtain ⟨-, -, hl'⟩ := PassEnv.build_eq_ok henv
    rw [← Option.isNone_iff_eq_none, ← Option.isSome_eq_false_iff, ← Bool.not_eq_true]
    intro hkind
    exact Bool.false_ne_true ((h.dispatched f hf).symm.trans (h.inherits.isIntrinsic hl hl' hkind))
  filled henabled f hf := by
    obtain ⟨hoptions, hsymbols, -⟩ := PassEnv.build_eq_ok g.built
    obtain ⟨hoptions', hsymbols', -⟩ := PassEnv.build_eq_ok henv
    exact h.inherits.filled (hoptions'.trans hoptions.symm) hsymbols hsymbols'
      (h.filled henabled f hf)
  kept := hkept

end Module.LeftOf

/-- Where the names of the user's hooks mean a function afterwards, they meant it before. -/
def Removal.KeepsHooks (o : Options) (before after : Module) : Prop :=
  ∀ ty, ty.isUserCall = true → ∀ id,
    (SymbolTable.build after).lookupFunction? (o.tracing.hooks.get ty) = some id →
      (SymbolTable.build before).lookupFunction? (o.tracing.hooks.get ty) = some id

/-- What is left when calls are taken out calls hooks for active types only, if the names of the
hooks mean what they meant. -/
theorem Removal.kept_of_search {m' : Module} {env' : PassEnv} {keys : List CallKey}
    (h : m.LeftOf g) (h' : m'.LeftOf g)
    (henv : PassEnv.build setup.options setup.sources m = .ok env)
    (henv' : PassEnv.build setup.options setup.sources m' = .ok env')
    (hsearch : search env m = .ok keys) (hthins : Thins keys m.marks m'.marks)
    (hhooks : KeepsHooks setup.options m m') {f : CallFace} (hf : .call f ∈ m'.marks) {ty : TraceType}
    (hty : userCall? env' f.callee = some ty) :
    ∃ active, activeTypes env' f.scopes = .ok active ∧ active.has ty = true := by
  obtain ⟨hoptions, hsymbols, hl⟩ := PassEnv.build_eq_ok henv
  obtain ⟨hoptions', hsymbols', hl'⟩ := PassEnv.build_eq_ok henv'
  obtain ⟨hkind, huser⟩ := Option.filter_eq_some_iff.mp hty
  have hfound' : (SymbolTable.build m').lookupFunction? (setup.options.tracing.hooks.get ty) =
      some f.callee := by
    rw [Linkage.hookKind?_eq hl'] at hkind
    simpa using List.find?_some hkind
  have hsame : userCall? env f.callee = some ty := by
    rw [userCall?, h.inherits.hookKind?_eq h'.inherits hl hl' (hhooks ty huser _ hfound') hfound']
    exact hty
  obtain ⟨hbefore, hspared⟩ := hthins _ hf
  obtain ⟨active, hactive, hcases⟩ := search_handled hsearch hbefore ty hsame
  refine ⟨active, ?_, hcases.resolve_right fun hscheduled => ?_⟩
  · rw [← hactive]
    exact h'.inherits.activeTypes_eq h.inherits (hoptions.trans hoptions'.symm) hsymbols' hsymbols
      hf hbefore
  · exact hspared f rfl hscheduled.1 hscheduled.2

/-! ## Up to dispatch -/

/-- The face of a declaration of a module. -/
def Module.HasFace (m : Module) (selectedBy : String) (face : Face) : Prop :=
  ∃ d ∈ m.decls, d.face selectedBy = face

namespace Module

variable {m₀ m' : Module} {selectedBy : String}

/-- Modules that show the faces of one module with distinct identities agree on them. -/
theorem face_eq (hm₀ : m₀.declIds.Nodup)
    (h : (Labels.faces selectedBy).Within (m₀.HasFace selectedBy) m.nodes)
    (h' : (Labels.faces selectedBy).Within (m₀.HasFace selectedBy) m'.nodes) {s u : Symbol}
    (hs : s ∈ m.symbols) (hu : u ∈ m'.symbols) (hid : s.id = u.id) :
    s.face selectedBy = u.face selectedBy := by
  obtain ⟨d, hd, hface⟩ := exists_decl_of_symbol hs selectedBy
  obtain ⟨d', hd', hface'⟩ := exists_decl_of_symbol hu selectedBy
  obtain ⟨d₀, hd₀, hface₀⟩ := Labels.faces_within.mp h d hd
  obtain ⟨d₀', hd₀', hface₀'⟩ := Labels.faces_within.mp h' d' hd'
  have hshown : d₀.face selectedBy = s.face selectedBy := hface₀.trans hface
  have hshown' : d₀'.face selectedBy = u.face selectedBy := hface₀'.trans hface'
  have hsame : d₀.id = d₀'.id :=
    (congrArg Face.id hshown).trans (hid.trans (congrArg Face.id hshown').symm)
  obtain rfl := decl_unique hm₀ hd₀ hd₀' hsame
  exact hshown.symm.trans hshown'

/-- Where nothing is captured a ground is ready as it is. -/
theorem ready_refl (hdisabled : setup.options.callerCapture.enabled = false) :
    g.module.Ready g where
  external := rfl
  decls _ hp := hp
  faces _ hs _ hu hid := Symbol.face_of_profile
    ((Inherits.refl g.distinct).profile_eq (.refl g.distinct) hs hu hid) _
  outside _ _ k hk := by
    refine ⟨fun _ _ => (marks_left hk).1, fun _ _ henabled => ?_⟩
    exact absurd (hdisabled.symm.trans henabled) Bool.false_ne_true

/-- A ground is ready when its calls are filled. -/
theorem ready_inject {captured : CapturedDefaults} {store : Store} {n : Nat}
    (hrun : (CallerCapture.inject g.env captured g.module store).outcome = .ok n)
    (hfaces : ∀ s ∈ (CallerCapture.inject g.env captured g.module store).module.symbols,
      ∀ u ∈ g.module.symbols, s.id = u.id →
        s.face setup.options.intrinsics.markedBy = u.face setup.options.intrinsics.markedBy) :
    (CallerCapture.inject g.env captured g.module store).module.Ready g where
  external := rfl
  decls := CallerCapture.inject_keepsDecls hrun
  faces := hfaces
  outside cut hcut k hk := by
    have hintrinsic : ∀ kind id, g.env.linkage.intrinsicDecl kind = .ok id → cut id = true :=
      fun _ id hid => hcut id
        (Linkage.isIntrinsic_of_intrinsicDecl (PassEnv.build_eq_ok g.built).2.2 hid)
    obtain ⟨hdecl, hcall⟩ := CallerCapture.inject_fillsCalls hintrinsic hrun k hk
    exact ⟨hdecl, fun f hf _ => hcall f hf⟩

end Module

/-! ## Passes that succeed -/

namespace PipelineState

variable {s t : PipelineState} {pass : PassName} {passes rest : List PassName}

theorem of_runPass {n : Nat} (h : s.runPass setup pass = (.ok n, t)) :
    ∃ env, PassEnv.build setup.options setup.sources s.module = .ok env ∧
      s.runPassIn setup env pass = (.ok n, t) := by
  unfold runPass at h
  split at h
  · cases h
  · rename_i env henv
    exact ⟨env, henv, h⟩

theorem of_ofResult {r : PassResult} {n : Nat} (h : s.ofResult r = (.ok n, t)) :
    r.outcome = .ok n ∧ t = { s with module := r.module, store := r.store } := by
  obtain ⟨houtcome, hstate⟩ := Prod.mk.inj h
  exact ⟨houtcome, hstate.symm⟩

theorem of_runPasses_append {outcomes : List (PassName × Nat)}
    (h : s.runPasses setup (passes ++ rest) = (.ok outcomes, t)) :
    ∃ u outcomes' outcomes'', s.runPasses setup passes = (.ok outcomes', u) ∧
      u.runPasses setup rest = (.ok outcomes'', t) := by
  induction passes generalizing s outcomes with
  | nil => exact ⟨s, [], outcomes, rfl, h⟩
  | cons pass passes ih =>
    obtain ⟨n, u, outcomes', hpass, hrest, -⟩ := of_runPasses_cons h
    obtain ⟨v, before, after, hbefore, hafter⟩ := ih hrest
    refine ⟨v, (pass, n) :: before, after, ?_, hafter⟩
    rw [runPasses, hpass]
    dsimp only
    rw [hbefore]

end PipelineState

namespace Pipeline

/-- The passes of a run apart from removal. -/
def beforeRemoval (o : Options) : List PassName := (passes o).filter (· ≠ .traceRemoval)

/-- Where a run would get if it took no calls out. -/
def withoutRemoval (setup : PipelineSetup) (m : Module) (store : Store) : PipelineState :=
  (PipelineState.runPasses setup (beforeRemoval setup.options) { module := m.syncIds, store }).2

theorem passes_eq_beforeRemoval {o : Options} (hinstrument : o.tracing.instrument = false) :
    passes o = beforeRemoval o ++ if o.tracing.remove then [PassName.traceRemoval] else [] := by
  cases hcapture : o.callerCapture.enabled <;> cases hintrinsics : o.intrinsics.enabled <;>
    cases hremove : o.tracing.remove <;>
    simp [beforeRemoval, passes, PassName.all, PassName.isEnabled, *]

theorem beforeRemoval_eq {o : Options} (hinstrument : o.tracing.instrument = false)
    (haccepts : ∀ kind, o.accepts kind = true) :
    beforeRemoval o = if o.callerCapture.enabled then
      [.extractCallerDefaults, .injectCallerArguments, .intrinsicDispatch]
    else [.intrinsicDispatch] := by
  have hintrinsics : o.intrinsics.enabled = true := (Bool.and_eq_true_iff.mp (haccepts default)).1
  cases hcapture : o.callerCapture.enabled <;> cases hremove : o.tracing.remove <;>
    simp [beforeRemoval, passes, PassName.all, PassName.isEnabled, *]

theorem leftOf_dispatch (haccepts : ∀ kind, setup.options.accepts kind = true)
    {s t : PipelineState} (hs : s.module.Ready g) {outcomes : List (PassName × Nat)}
    (hrun : s.runPasses setup [.intrinsicDispatch] = (.ok outcomes, t)) : t.module.LeftOf g := by
  obtain ⟨n, u, _, hdispatch, hlast, -⟩ := PipelineState.of_runPasses_cons hrun
  cases hlast
  obtain ⟨env, henv, hdispatch⟩ := PipelineState.of_runPass hdispatch
  obtain ⟨houtcome, rfl⟩ := PipelineState.of_ofResult hdispatch
  exact hs.dispatch haccepts henv houtcome

/-- Without instrumentation and with all intrinsics accepted, a run gets to what is left of a
ground: of the module itself or, where defaults are captured, of the module without them. -/
theorem exists_leftOf (hm : m.declIds.Nodup) (hinstrument : setup.options.tracing.instrument = false)
    (haccepts : ∀ kind, setup.options.accepts kind = true)
    (hmarker : setup.options.callerCapture.marker ≠ setup.options.intrinsics.markedBy)
    {store : Store} {outcomes : List (PassName × Nat)} {t : PipelineState}
    (hrun : PipelineState.runPasses setup (beforeRemoval setup.options) { module := m, store } =
      (.ok outcomes, t)) : ∃ g : Ground setup, t.module.LeftOf g := by
  rw [beforeRemoval_eq hinstrument haccepts] at hrun
  split at hrun
  · obtain ⟨n₁, s₁, _, hextract, hrun, -⟩ := PipelineState.of_runPasses_cons hrun
    obtain ⟨n₂, s₂, _, hinject, hrun, -⟩ := PipelineState.of_runPasses_cons hrun
    -- neither extraction nor injection brings in a declaration that looks new
    have hmark : ∀ env : PassEnv, env.options = setup.options →
        CallerCapture.IgnoresMarkers (.faces setup.options.intrinsics.markedBy) env := by
      intro env henv
      refine CallerCapture.faces_ignoreMarkers ?_
      rwa [henv]
    have hshows : PipelineState.Shows (.faces setup.options.intrinsics.markedBy)
        (m.HasFace setup.options.intrinsics.markedBy) m.ids { module := m, store } :=
      .initial (Labels.faces_within.mpr fun d hd => ⟨d, hd, rfl⟩)
    have hshows₁ := hshows.runPass (Labels.faces_tacit _) hmark hextract nofun
    have hshows₂ := hshows₁.runPass (Labels.faces_tacit _) hmark hinject nofun
    obtain ⟨env₀, -, hextract⟩ := PipelineState.of_runPass hextract
    cases hextract
    obtain ⟨env₁, henv₁, hinject⟩ := PipelineState.of_runPass hinject
    obtain ⟨houtcome, rfl⟩ := PipelineState.of_ofResult hinject
    let g : Ground setup :=
      { module := (CallerCapture.extract env₀ m []).1
        env := env₁
        distinct := CallerCapture.nodup_extract hm []
        built := henv₁ }
    refine ⟨g, leftOf_dispatch haccepts (Module.ready_inject (g := g) houtcome ?_) hrun⟩
    exact fun s hs u hu => Module.face_eq hm hshows₂.nodes hshows₁.nodes hs hu
  · rename_i hdisabled
    obtain ⟨n, u, _, hdispatch, -⟩ := PipelineState.of_runPasses_cons hrun
    obtain ⟨env, henv, -⟩ := PipelineState.of_runPass hdispatch
    let g : Ground setup := { module := m, env, distinct := hm, built := henv }
    exact ⟨g, leftOf_dispatch haccepts (Module.ready_refl (g := g) (by simpa using hdisabled)) hrun⟩

/-- A run without instrumentation that succeeds leaves a settled module. -/
theorem exists_settled (hm : m.declIds.Nodup)
    (hinstrument : setup.options.tracing.instrument = false)
    (haccepts : ∀ kind, setup.options.accepts kind = true)
    (hmarker : setup.options.callerCapture.marker ≠ setup.options.intrinsics.markedBy)
    {store : Store} {outcomes : List (PassName × Nat)}
    (hrun : (run setup m store).1 = .ok outcomes)
    (hhooks : Removal.KeepsHooks setup.options (withoutRemoval setup m store).module
      (run setup m store).2.module) :
    ∃ env, (run setup m store).2.module.Settled setup env := by
  have hpasses : PipelineState.runPasses setup (passes setup.options)
      { module := m.syncIds, store } = run setup m store := by
    unfold run runFrom at hrun ⊢
    split at hrun
    · cases hrun
    · split at hrun
      · cases hrun
      · rfl
  have hcounted : (run setup m store).2.module.syncIds = (run setup m store).2.module := by
    rw [← hpasses]
    refine PipelineState.syncIds_runPasses (fun hmem => ?_) m store
    exact Bool.false_ne_true (hinstrument.symm.trans (List.mem_filter.mp hmem).2)
  obtain ⟨t, ht⟩ : ∃ t, run setup m store = (.ok outcomes, t) := ⟨_, Prod.ext hrun rfl⟩
  rw [ht] at hpasses hcounted hhooks ⊢
  -- What the passes before removal leave has all that is asked for but active trace calls. These
  -- come from the search, if removal runs.
  rw [passes_eq_beforeRemoval hinstrument] at hpasses
  obtain ⟨s, _, _, hbefore, hlast⟩ := PipelineState.of_runPasses_append hpasses
  rw [withoutRemoval, hbefore] at hhooks
  obtain ⟨g, hg⟩ := exists_leftOf (m := m.syncIds) hm hinstrument haccepts hmarker hbefore
  split at hlast
  · obtain ⟨n, u, _, hremove, hend, -⟩ := PipelineState.of_runPasses_cons hlast
    cases hend
    obtain ⟨env, henv, hremove⟩ := PipelineState.of_runPass hremove
    rw [PipelineState.runPassIn] at hremove
    split at hremove
    · rename_i m' removed hpruned
      cases hremove
      unfold Removal.run at hpruned
      obtain ⟨keys, hsearch, hpruned⟩ := Except.of_bind hpruned
      cases hpruned
      have hthins := Removal.filesPrune_marks keys s.module.files
      have hleft : Module.LeftOf g
          { s.module with files := (Removal.filesPrune keys s.module.files).1 } :=
        hg.mono rfl fun k hk => (hthins k hk).1
      obtain ⟨env', henv'⟩ := hleft.exists_env
      refine ⟨env', hleft.settled henv' hcounted fun _ f hf ty hty => ?_⟩
      exact Removal.kept_of_search hg hleft henv henv' hsearch hthins hhooks hf hty
    · cases hremove
  · rename_i hkeeps
    cases hlast
    obtain ⟨env, henv⟩ := hg.exists_env
    exact ⟨env, hg.settled henv hcounted fun hremove => absurd hremove hkeeps⟩

/-- **A second run changes nothing.** Without instrumentation, with all intrinsics accepted and with
the marker and the intrinsic annotation apart, a run that succeeds leaves a module that a second run,
with any descriptors, gives back after no changes. The names of the user's hooks must not mean other
functions after removal than before it. -/
theorem rerun_changes_nothing (hm : m.declIds.Nodup)
    (hinstrument : setup.options.tracing.instrument = false)
    (haccepts : ∀ kind, setup.options.accepts kind = true)
    (hmarker : setup.options.callerCapture.marker ≠ setup.options.intrinsics.markedBy)
    {store : Store} {outcomes : List (PassName × Nat)}
    (hrun : (run setup m store).1 = .ok outcomes)
    (hhooks : Removal.KeepsHooks setup.options (withoutRemoval setup m store).module
      (run setup m store).2.module) (store' : Store) :
    ∃ outcomes', run setup (run setup m store).2.module store' =
        (.ok outcomes', { module := (run setup m store).2.module, store := store' }) ∧
      totalChanges outcomes' = 0 := by
  obtain ⟨env, hsettled⟩ := exists_settled hm hinstrument haccepts hmarker hrun hhooks
  exact ⟨_, run_of_settled hsettled hinstrument store', totalChanges_zero _⟩

/-! ### A hook that removal uncovers -/

namespace RerunSample

def span (start : Int32) : Span := ⟨⟨0⟩, start, start + 1⟩

def locationTy : Ty := .ofClass "spyglass.Location"

/-- The runtime library: two hooks of the user's trace calls. -/
def tracer : SourceFile where
  id := ⟨1⟩
  path := "Tracer.kt"
  package := "spyglass.trace.Tracer"
  declarations :=
    [.function { id := ⟨100⟩, span := .undefined ⟨1⟩, origin := .library }
      { name := "spanEnter", returnTy := .unit } [] .absent,
     .function { id := ⟨101⟩, span := .undefined ⟨1⟩, origin := .library }
      { name := "event", returnTy := .unit } [] .absent]

/-- The runtime library: an intrinsic. -/
def library : SourceFile where
  id := ⟨2⟩
  path := "Spyglass.kt"
  package := "spyglass"
  declarations :=
    [.function
      { id := ⟨102⟩, span := .undefined ⟨2⟩, origin := .library,
        annotations := [{ className := "spyglass.Intrinsic", span := .undefined ⟨2⟩ }] }
      { name := "here", returnTy := locationTy } [] .absent]

/-- A trace call as a statement. -/
def traceCall (start : Int32) (callee : DeclId) (arg : Expr) : Stmt :=
  .expr (.call ⟨span start, .unit⟩ callee none [] [some arg])

/-- A function that captures where it is called. -/
def log : Decl :=
  .function { id := ⟨1⟩, span := span 5 } { name := "log", returnTy := .unit }
    [⟨{ id := ⟨0⟩, name := "place", ty := locationTy, span := span 6 },
      some (.call ⟨span 7, locationTy⟩ ⟨102⟩ none [] [])⟩] (.block [])

/-- A function in whose body an expression stands in a trace call before other statements. -/
def outer (arg : Expr) (rest : List Stmt) : Decl :=
  .function { id := ⟨0⟩, span := span 1 } { name := "Tracer", returnTy := .unit } []
    (.block (traceCall 2 ⟨100⟩ arg :: rest))

def moduleOf (declarations : List Decl) : Module where
  name := "twice"
  files := [{ id := ⟨0⟩, path := "Main.kt", package := "spyglass.trace", declarations }]
  external := [tracer, library]

/-- A call with a captured argument behind a trace call. -/
def capturing : Module :=
  moduleOf [outer (.ofString (span 3) "start") [.expr (.call ⟨span 4, .unit⟩ ⟨1⟩ none [] [])], log]

/-- A function inside a trace call that has the name of the hook that is called behind it. -/
def covering : Module :=
  moduleOf [outer (.block ⟨span 3, .unit⟩ [.decl (.function { id := ⟨1⟩, span := span 4 }
    { name := "event", returnTy := .unit } [] (.block []))])
      [traceCall 5 ⟨101⟩ (.ofString (span 6) "seen")]]

def plain : PipelineSetup where
  options := { tracing := { instrument := false } }
  sources := fun _ => []

theorem accepts (kind : IntrinsicKind) : plain.options.accepts kind = true := by
  cases kind <;> rfl

theorem keepsHooks : Removal.KeepsHooks plain.options (withoutRemoval plain capturing {}).module
    (run plain capturing {}).2.module := by
  intro ty _ id hid
  have hsame : ∀ ty ∈ TraceType.all,
      (SymbolTable.build (withoutRemoval plain capturing {}).module).lookupFunction?
          (plain.options.tracing.hooks.get ty) =
        (SymbolTable.build (run plain capturing {}).2.module).lookupFunction?
          (plain.options.tracing.hooks.get ty) := by
    decide +kernel
  exact (hsame ty ty.mem_all).trans hid

end RerunSample

open RerunSample

/-- Every pass changes something in the first run, and nothing in the second. -/
theorem RerunSample.settles_at_once :
    (run plain capturing {}).1 = .ok [(.extractCallerDefaults, 1), (.injectCallerArguments, 1),
      (.intrinsicDispatch, 1), (.traceRemoval, 1)] ∧
    ∃ outcomes', run plain (run plain capturing {}).2.module (run plain capturing {}).2.store =
        (.ok outcomes', { module := (run plain capturing {}).2.module,
                          store := (run plain capturing {}).2.store }) ∧
      totalChanges outcomes' = 0 := by
  have hfirst : (run plain capturing {}).1 = .ok [(.extractCallerDefaults, 1),
      (.injectCallerArguments, 1), (.intrinsicDispatch, 1), (.traceRemoval, 1)] := by decide +kernel
  exact ⟨hfirst, rerun_changes_nothing (by decide) rfl accepts (by decide) hfirst keepsHooks _⟩

/-- The first run takes the function inside the trace call out. Then its name means the hook, and
the second run takes out the call of it. -/
theorem RerunSample.second_run_removes :
    covering.declIds.Nodup ∧ plain.options.tracing.instrument = false ∧
      (∀ kind, plain.options.accepts kind = true) ∧ plain.registry = Handlers.defaults ∧
      [plain.options.intrinsics.markedBy, plain.options.callerCapture.marker,
        plain.options.tracing.selectedBy].Nodup ∧
      (run plain covering {}).1 = .ok [(.extractCallerDefaults, 0), (.injectCallerArguments, 0),
        (.intrinsicDispatch, 0), (.traceRemoval, 1)] ∧
      (run plain (run plain covering {}).2.module (run plain covering {}).2.store).1 =
        .ok [(.extractCallerDefaults, 0), (.injectCallerArguments, 0), (.intrinsicDispatch, 0),
          (.traceRemoval, 1)] :=
  ⟨by decide, rfl, accepts, rfl, by decide, by decide +kernel⟩

end Pipeline

end TraceWeave

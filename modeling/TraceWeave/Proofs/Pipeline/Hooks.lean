import TraceWeave.Proofs.Pipeline.Sparing

/-! # Missing hooks

Before a run changes anything it looks for the hooks of all trace types that it finds requested.
If it looks at every declaration that can request a type, and no pass takes a hook away, then
instrumentation finds every hook that it asks for, so a missing hook is found while the module is
still as it was.

`Module.InSight` says that the run looks at every such declaration, `PipelineState.Descends` that
passes have left what they cannot take away. `Pipeline.missing_hooks_found_first` puts them
together by `PipelineState.Descends.spares_instrument`.
-/

namespace TraceWeave

/-! ## Requested types -/

theorem addTraced_eq : ∀ (uses : List AnnotationUse) (set : TraceSet),
    addTraced uses set = (addTraced uses .empty).map set.union
  | [], set => by
    have hempty : set.union .empty = set := by
      cases set
      simp [TraceSet.union, TraceSet.empty]
    exact congrArg Except.ok hempty.symm
  | use :: uses, set => by
    rw [addTraced, addTraced]
    cases tracedTypes use with
    | error e => rfl
    | ok types =>
      dsimp only
      rw [addTraced_eq uses (set.union types), addTraced_eq uses (TraceSet.empty.union types)]
      cases addTraced uses .empty with
      | error e => rfl
      | ok rest => simp [Except.map, TraceSet.union, TraceSet.empty, Bool.or_assoc]

theorem of_addTraced {uses : List AnnotationUse} {set sum : TraceSet}
    (h : addTraced uses set = .ok sum) :
    ∃ types, addTraced uses .empty = .ok types ∧ sum = set.union types := by
  rw [addTraced_eq] at h
  cases htypes : addTraced uses .empty with
  | error e =>
    rw [htypes] at h
    cases h
  | ok types =>
    rw [htypes] at h
    cases h
    exact ⟨types, rfl, rfl⟩

/-- What the declarations that a run looks at select is requested. -/
theorem Pipeline.has_of_addRequested {o : Options} {ty : TraceType} :
    ∀ {ds : List Decl} {set requested : TraceSet}, addRequested o ds set = .ok requested →
      (set.has ty = true → requested.has ty = true) ∧
      ∀ d ∈ ds, ∀ types, declaredTypes o d.head.annotations = .ok types → types.has ty = true →
        requested.has ty = true
  | [], set, requested, h => by
    cases h
    exact ⟨id, nofun⟩
  | d :: ds, set, requested, h => by
    unfold addRequested at h
    split at h
    · rename_i set' hset'
      obtain ⟨types, htypes, rfl⟩ := of_addTraced hset'
      obtain ⟨hset, hds⟩ := has_of_addRequested h
      refine ⟨fun hty => hset (by simp [hty]), fun d' hd' types' htypes' hty => ?_⟩
      obtain rfl | hd' := List.mem_cons.mp hd'
      · cases htypes.symm.trans htypes'
        exact hset (by simp [hty])
      · exact hds d' hd' types' htypes' hty
    · cases h

/-- A type that is active is so by default or because a declaration selects it. -/
theorem of_addDeclared {o : Options} {t : SymbolTable} {ty : TraceType} :
    ∀ {ids : List DeclId} {set types : TraceSet}, addDeclared o t ids set = .ok types →
      types.has ty = true → set.has ty = true ∨ ∃ id ∈ ids, ∃ s own, t.get? id = some s ∧
        declaredTypes o s.head.annotations = .ok own ∧ own.has ty = true
  | [], set, types, h, hty => by
    cases h
    exact .inl hty
  | id :: ids, set, types, h, hty => by
    unfold addDeclared at h
    split at h
    · obtain hset | ⟨id', hid', hrest⟩ := of_addDeclared h hty
      · exact .inl hset
      · exact .inr ⟨id', List.mem_cons_of_mem _ hid', hrest⟩
    · rename_i s hs
      split at h
      · rename_i own hown
        obtain hset | ⟨id', hid', hrest⟩ := of_addDeclared h hty
        · rw [TraceSet.has_union, Bool.or_eq_true] at hset
          exact hset.imp_right fun hset => ⟨id, List.mem_cons_self, s, own, hs, hown, hset⟩
        · exact .inr ⟨id', List.mem_cons_of_mem _ hid', hrest⟩
      · cases h

theorem declaredTypes_of_none {o : Options} {annotations : List AnnotationUse}
    (h : AnnotationUse.ofClass annotations o.tracing.selectedBy = []) :
    declaredTypes o annotations = .ok .empty := by
  unfold declaredTypes
  rw [h]
  rfl

/-! ## Modules after some passes -/

/-- A module in which what tracing needs can be seen without a look into code. -/
structure Module.InSight (m : Module) (o : Options) : Prop where
  distinct : m.declIds.Nodup
  /-- Only declarations of the files, their members and accessors select trace types. -/
  selecting : ∀ d ∈ declsOf (filesNodes m.files),
    AnnotationUse.ofClass d.head.annotations o.tracing.selectedBy ≠ [] →
      d ∈ Pipeline.traceables (m.files.flatMap SourceFile.declarations)
  /-- Hooks are found among the landmarks only. -/
  hooks : ∀ ty id, (SymbolTable.build m).lookupFunction? (o.tracing.hooks.get ty) = some id →
    ⟨id, o.tracing.hooks.get ty, true⟩ ∈ m.landmarks

/-- Options under which caller capture stays out of the way of tracing. -/
def Options.KeepsApart (o : Options) : Prop :=
  o.callerCapture.enabled = true → o.callerCapture.marker ≠ o.tracing.selectedBy ∧
    ∀ (ty : TraceType) (kind : IntrinsicKind), o.tracing.hooks.get ty ≠ kind.spec.symbol

/-- The face of an own declaration of a module. -/
def Module.OwnFace (m : Module) (o : Options) (face : Face) : Prop :=
  ∃ d ∈ declsOf (filesNodes m.files), d.face o.tracing.selectedBy = face

/-- A state of a run that has left of a module what passes cannot take away. -/
structure PipelineState.Descends (o : Options) (m : Module) (s : PipelineState) : Prop where
  external : s.module.external = m.external
  landmarks : filesLandmarks s.module.files = filesLandmarks m.files
  faces : (Labels.faces o.tracing.selectedBy).Within (m.OwnFace o) (filesNodes s.module.files)
  captured : CallerCapture.CapturedIn (.faces o.tracing.selectedBy) (m.OwnFace o) s.captured

namespace PipelineState.Descends

variable {o : Options} {m : Module} {s : PipelineState}

/-- A symbol shows the face that its declaration had before. -/
theorem exists_face (hs : s.Descends o m) {t : Symbol} (ht : t ∈ s.module.symbols) :
    ∃ d ∈ m.decls, d.face o.tracing.selectedBy = t.face o.tracing.selectedBy := by
  obtain ⟨d, hd, hface⟩ := Module.exists_decl_of_symbol ht o.tracing.selectedBy
  obtain hown | hexternal := Module.mem_decls.mp hd
  · obtain ⟨d', hd', hface'⟩ := Labels.faces_within.mp hs.faces d hown
    exact ⟨d', Module.mem_decls.mpr (.inl hd'), hface'.trans hface⟩
  · rw [hs.external] at hexternal
    exact ⟨d, Module.mem_decls.mpr (.inr hexternal), hface⟩

theorem landmarks_eq (hs : s.Descends o m) : s.module.landmarks = m.landmarks := by
  rw [Module.landmarks, Module.landmarks, hs.external, hs.landmarks]

/-- A function that is a landmark is still found by its name. -/
theorem exists_lookupFunction? (hs : s.Descends o m) (hm : m.declIds.Nodup) {id : DeclId}
    {name : String} (hl : ⟨id, name, true⟩ ∈ m.landmarks) :
    ∃ id', (SymbolTable.build s.module).lookupFunction? name = some id' := by
  obtain ⟨t, ht, hlandmark⟩ := Module.exists_symbol_of_landmark (hs.landmarks_eq ▸ hl)
  obtain ⟨rfl, rfl, hfunction⟩ := Landmark.mk.inj hlandmark
  -- another symbol may have the same identity, but then its declaration was the same before
  obtain ⟨u, hu⟩ := SymbolTable.exists_get?_of_mem ht
  obtain ⟨humem, huid⟩ := SymbolTable.mem_of_get? hu
  obtain ⟨d, hd, hdface⟩ := hs.exists_face ht
  obtain ⟨d', hd', hdface'⟩ := hs.exists_face humem
  have hid : d.id = d'.id :=
    (congrArg Face.id hdface).trans (huid.symm.trans (congrArg Face.id hdface').symm)
  obtain rfl := Module.decl_unique hm hd hd' hid
  have hufunction : u.function?.isSome = true :=
    (congrArg Face.isFunction (hdface'.symm.trans hdface)).trans hfunction
  rw [← Option.isSome_iff_exists, SymbolTable.lookupFunction?, List.find?_isSome]
  refine ⟨t.id, SymbolTable.mem_lookup ht, ?_⟩
  simp only [SymbolTable.function?, hu, Option.bind_eq_bind, Option.bind_some]
  obtain ⟨info, hinfo⟩ := Option.isSome_iff_exists.mp hufunction
  rw [hinfo]
  rfl

end PipelineState.Descends

/-! ## Linkage -/

namespace Linkage

theorem exists_hook?_of_lookupFunction? {t : SymbolTable} {o : Options} {l : Linkage}
    (h : Linkage.build t o = .ok l) {ty : TraceType} {id : DeclId}
    (hid : t.lookupFunction? (o.tracing.hooks.get ty) = some id) :
    ∃ id', l.hook? ty = some id' := by
  have hmem : (ty, id) ∈ l.hooks := by
    rw [hooks_of_build h]
    exact List.mem_filterMap.mpr ⟨ty, TraceType.mem_all ty, by rw [hid]; rfl⟩
  rw [← Option.isSome_iff_exists, hook?]
  cases hlookup : l.hooks.lookup ty with
  | some id' => rfl
  | none => exact absurd (List.lookup_eq_none_iff.mp hlookup _ hmem) (by simp)

theorem exists_hook?_of_requireHooks {l : Linkage} {names : HookNames} :
    ∀ {tys : List TraceType}, l.requireHooks names tys = .ok () → ∀ ty ∈ tys,
      ∃ id, l.hook? ty = some id
  | [], _, _, hty => nomatch hty
  | ty :: tys, h, ty', hty' => by
    unfold requireHooks at h
    split at h
    · rename_i id hid
      obtain rfl | hty' := List.mem_cons.mp hty'
      · exact ⟨id, hid⟩
      · exact exists_hook?_of_requireHooks h ty' hty'
    · cases h

end Linkage

namespace PipelineState.Descends

variable {setup : PipelineSetup} {m : Module} {s : PipelineState}

theorem ofResult {o : Options} (hs : s.Descends o m) {v : Visitor PassState}
    (hv : v.Keeps (.fixed (.faces o.tracing.selectedBy) PassState (m.OwnFace o)))
    (hleaves : v.LeavesDecls) :
    (s.ofResult (s.module.runVisitor v s.store)).2.Descends o m where
  external := hs.external
  landmarks := (filesWalk_landmarks hleaves s.module.files _).trans hs.landmarks
  faces := (filesWalk_keeps hv s.module.files _ trivial hs.faces).2.2
  captured := hs.captured

/-- A pass before instrumentation leaves what passes cannot take away, and if it fails, then not for
want of a hook. -/
theorem runPassIn (hregistry : setup.registry = Handlers.defaults)
    (hapart : setup.options.KeepsApart) {env : PassEnv} (henv : env.options = setup.options)
    (hs : s.Descends setup.options m) {pass : PassName} (henabled : pass.isEnabled setup.options)
    (hpass : pass ≠ .tracingInstrumentation) :
    (s.runPassIn setup env pass).2.Descends setup.options m ∧
      ∀ e, (s.runPassIn setup env pass).1 = .error e →
        e.SparesHooks setup.options.tracing.hooks := by
  cases pass with
  | extractCallerDefaults =>
    obtain ⟨hmarker, -⟩ := hapart henabled
    have hmark : CallerCapture.IgnoresMarkers (.faces setup.options.tracing.selectedBy) env :=
      CallerCapture.faces_ignoreMarkers (by rwa [henv])
    obtain ⟨hcaptured, -, hfaces⟩ := CallerCapture.filesExtract_keeps hmark s.module.files
      { captured := s.captured } hs.captured hs.faces
    refine ⟨⟨hs.external, ?_, hfaces, hcaptured⟩, nofun⟩
    exact (CallerCapture.filesExtract_landmarks env s.module.files _).trans hs.landmarks
  | injectCallerArguments =>
    obtain ⟨-, hnames⟩ := hapart henabled
    refine ⟨hs.ofResult (CallerCapture.injector_keepsLabels hs.captured) fun _ _ _ => rfl, ?_⟩
    exact fun e => Module.spares_runVisitor
      (CallerCapture.injector_maintains hnames s.captured) hs.faces
  | intrinsicDispatch =>
    rw [PipelineState.runPassIn, hregistry]
    refine ⟨hs.ofResult (Dispatch.dispatcher_keepsLabels (Labels.faces_tacit _)) fun _ _ _ => rfl, ?_⟩
    exact fun e => Module.spares_runVisitor Dispatch.dispatcher_maintains hs.faces
  | traceRemoval =>
    unfold PipelineState.runPassIn Removal.run
    -- A search that fails leaves the module as it is; otherwise only calls are taken away.
    cases hsearch : Removal.search env s.module with
    | error e =>
      refine ⟨hs, fun e' he' => ?_⟩
      cases he'
      exact Removal.spares_search hs.faces hsearch
    | ok keys =>
      refine ⟨⟨hs.external, ?_, ?_, hs.captured⟩, nofun⟩
      · exact (Removal.filesPrune_landmarks keys s.module.files).trans hs.landmarks
      · exact (Removal.filesPrune_keeps _ _ keys s.module.files trivial hs.faces).2.2
  | tracingInstrumentation => exact absurd rfl hpass

end PipelineState.Descends

namespace Module.InSight

variable {o : Options} {m : Module} {requested : TraceSet}

/-- What own declarations select is requested. -/
theorem has_requested (hm : m.InSight o) (hrequested : Pipeline.requestedTypes o m = .ok requested)
    {d : Decl} (hd : d ∈ declsOf (filesNodes m.files)) {annotations : List AnnotationUse}
    (huses : AnnotationUse.ofClass d.head.annotations o.tracing.selectedBy =
      AnnotationUse.ofClass annotations o.tracing.selectedBy)
    {types : TraceSet} (htypes : declaredTypes o annotations = .ok types) {ty : TraceType}
    (hty : types.has ty = true) : requested.has ty = true := by
  have hown : declaredTypes o d.head.annotations = .ok types := by
    unfold declaredTypes at htypes ⊢
    rw [huses]
    exact htypes
  by_cases hnone : AnnotationUse.ofClass d.head.annotations o.tracing.selectedBy = []
  · rw [declaredTypes_of_none hnone] at hown
    cases hown
    cases hty
  · exact (Pipeline.has_of_addRequested hrequested).2 d (hm.selecting d hd hnone) types hown hty

/-- The hooks of requested types are there as long as passes leave what they cannot take away. -/
theorem provided (hm : m.InSight o) {l : Linkage}
    (hlinkage : Linkage.build (SymbolTable.build m) o = .ok l)
    (hcheck : l.requireHooks o.tracing.hooks (requested.inter Pipeline.instrumented).types = .ok ())
    {s : PipelineState} (hs : s.Descends o m) {env : PassEnv}
    (henv : Linkage.build (SymbolTable.build s.module) o = .ok env.linkage) :
    Instrument.Provided env requested := by
  intro ty hinstrumented hty
  have hmem : ty ∈ (requested.inter Pipeline.instrumented).types := by
    rw [TraceSet.mem_types, TraceSet.has_inter, hty, hinstrumented]
    rfl
  obtain ⟨id, hid⟩ := Linkage.exists_hook?_of_requireHooks hcheck ty hmem
  have hlandmark := hm.hooks ty id (Linkage.lookupFunction?_of_hook? hlinkage hid)
  obtain ⟨id', hid'⟩ := hs.exists_lookupFunction? hm.distinct hlandmark
  exact Linkage.exists_hook?_of_lookupFunction? henv hid'

end Module.InSight

/-- Instrumentation of what passes have left of a module finds the hooks that were there before. -/
theorem PipelineState.Descends.spares_instrument {setup : PipelineSetup} {m : Module}
    {s : PipelineState} {requested : TraceSet} (hm : m.InSight setup.options)
    (hs : s.Descends setup.options m)
    (hrequested : Pipeline.requestedTypes setup.options m = .ok requested) {env : PassEnv}
    (henv : PassEnv.build setup.options setup.sources s.module = .ok env)
    (hprovided : Instrument.Provided env requested) {e : Error}
    (he : (s.runPassIn setup env .tracingInstrumentation).1 = .error e) :
    e.SparesHooks setup.options.tracing.hooks := by
  obtain ⟨hoptions, hsymbols, -⟩ := PassEnv.build_eq_ok henv
  refine Module.spares_runVisitor (Instrument.instrumenter_maintains ?_ ?_) hs.faces he
  · intro sc hsc types htypes ty hinstrumented hty
    refine hprovided ty hinstrumented ?_
    unfold activeTypes at htypes
    rw [hoptions, hsymbols] at htypes
    obtain hdefault | ⟨id, hid, t, own, ht, hown, hty⟩ := of_addDeclared htypes hty
    · exact (Pipeline.has_of_addRequested hrequested).1 hdefault
    · -- the symbol of a declaration around the point has the face of that declaration
      obtain ⟨d, rfl, hd⟩ := hsc id hid
      obtain ⟨d₀, hd₀, hface₀⟩ := hd (d.face setup.options.tracing.selectedBy) (by simp)
      obtain ⟨htmem, htid⟩ := SymbolTable.mem_of_get? ht
      obtain ⟨d₁, hd₁, hface₁⟩ := hs.exists_face htmem
      have hid : d₁.id = d₀.id :=
        (congrArg Face.id hface₁).trans (htid.trans (congrArg Face.id hface₀).symm)
      obtain rfl := Module.decl_unique hm.distinct hd₁ (Module.mem_decls.mpr (.inl hd₀)) hid
      exact hm.has_requested hrequested hd₀ (congrArg Face.uses hface₁) hown hty
  · intro d hd types htypes ty hinstrumented hty
    obtain ⟨d₀, hd₀, hface₀⟩ := hd
    rw [hoptions] at htypes
    exact hprovided ty hinstrumented
      (hm.has_requested hrequested hd₀ (congrArg Face.uses hface₀) htypes hty)

/-! ## Runs -/

namespace Pipeline

variable {setup : PipelineSetup} {m : Module} {store : Store} {s : PipelineState}

/-- The passes of a run: instrumentation comes last, if at all. -/
theorem passes_eq (o : Options) : ∃ front, (∀ pass ∈ front, pass.isEnabled o = true ∧
    pass ≠ .tracingInstrumentation) ∧
      passes o =
        front ++ if o.tracing.instrument then [PassName.tracingInstrumentation] else [] := by
  refine ⟨[PassName.extractCallerDefaults, .injectCallerArguments, .intrinsicDispatch,
    .traceRemoval].filter (PassName.isEnabled o), fun pass hpass => ?_, ?_⟩
  · obtain ⟨hmem, henabled⟩ := List.mem_filter.mp hpass
    refine ⟨henabled, ?_⟩
    rintro rfl
    simp at hmem
  · rw [passes, show PassName.all = [PassName.extractCallerDefaults, .injectCallerArguments,
      .intrinsicDispatch, .traceRemoval] ++ [PassName.tracingInstrumentation] from rfl,
      List.filter_append]
    congr 1
    cases hinstrument : o.tracing.instrument <;> simp [PassName.isEnabled, hinstrument]

/-- Passes one after the other, up to instrumentation. -/
theorem spares_runPasses (hregistry : setup.registry = Handlers.defaults)
    (hapart : setup.options.KeepsApart) (last : List PassName) {e : Error}
    (hlast : ∀ {s t}, s.Descends setup.options m →
      PipelineState.runPasses setup last s = (.error e, t) →
        e.SparesHooks setup.options.tracing.hooks) :
    ∀ (front : List PassName), (∀ pass ∈ front, pass.isEnabled setup.options = true ∧
      pass ≠ .tracingInstrumentation) → ∀ {s t}, s.Descends setup.options m →
        PipelineState.runPasses setup (front ++ last) s = (.error e, t) →
          e.SparesHooks setup.options.tracing.hooks
  | [], _, s, t, hs, hrun => hlast hs hrun
  | pass :: front, hfront, s, t, hs, hrun => by
    obtain ⟨henabled, hpass⟩ := hfront pass List.mem_cons_self
    have hstep : (s.runPass setup pass).2.Descends setup.options m ∧
        ∀ e, (s.runPass setup pass).1 = .error e → e.SparesHooks setup.options.tracing.hooks := by
      unfold PipelineState.runPass
      split
      · rename_i e' henv
        refine ⟨hs, fun e'' he'' => ?_⟩
        cases he''
        exact .of_isLinkage (PassEnv.linked_build _ _ _ _ henv)
      · rename_i env henv
        exact hs.runPassIn hregistry hapart (PassEnv.build_eq_ok henv).1 henabled hpass
    rw [List.cons_append] at hrun
    obtain hfailed | ⟨n, u, hok, hrest⟩ := PipelineState.of_runPasses_cons_error hrun
    · rw [hfailed] at hstep
      exact hstep.2 e rfl
    · rw [hok] at hstep
      -- The passes behind this one start from a module that still descends from the input.
      exact spares_runPasses hregistry hapart last hlast front
        (fun pass hmem => hfront pass (List.mem_cons_of_mem _ hmem)) hstep.1 hrest

/-- Instrumentation at the end of a run that has checked the hooks. -/
theorem spares_last (hm : m.InSight setup.options) {env : PassEnv}
    (henv : PassEnv.build setup.options setup.sources m.syncIds = .ok env)
    (hcheck : checkLinkage setup.options m env.linkage = .ok ()) {t : PipelineState} {e : Error}
    (hs : s.Descends setup.options m)
    (hrun : s.runPasses setup (if setup.options.tracing.instrument then [.tracingInstrumentation]
      else []) = (.error e, t)) : e.SparesHooks setup.options.tracing.hooks := by
  unfold checkLinkage at hcheck
  split at hcheck
  · rename_i hinstrument
    rw [if_pos hinstrument] at hrun
    split at hcheck
    · cases hcheck
    · rename_i requested hrequested
      have hfailed : (s.runPass setup .tracingInstrumentation).1 = .error e := by
        obtain hpass | ⟨_, _, -, hrest⟩ := PipelineState.of_runPasses_cons_error hrun
        · rw [hpass]
        · cases hrest
      unfold PipelineState.runPass at hfailed
      split at hfailed
      · rename_i e' henv'
        cases hfailed
        exact .of_isLinkage (PassEnv.linked_build _ _ _ _ henv')
      · rename_i env' henv'
        -- The hooks that the check has found for the input are still found in the module that the
        -- last pass gets.
        have hprovided := hm.provided (PassEnv.build_eq_ok henv).2.2 hcheck hs
          (PassEnv.build_eq_ok henv').2.2
        exact hs.spares_instrument hm hrequested henv' hprovided hfailed
  · rename_i hinstrument
    rw [if_neg hinstrument] at hrun
    cases hrun

/-- **Missing hooks are found before anything changes.** Where what tracing needs is in sight, a run
that fails for want of a hook leaves the module as it was, with its identities counted, and has not
built a descriptor. -/
theorem missing_hooks_found_first (hregistry : setup.registry = Handlers.defaults)
    (hapart : setup.options.KeepsApart) (hm : m.InSight setup.options) {ty : TraceType}
    (hrun : run setup m store = (.error (.linkage (setup.options.tracing.hooks.get ty)), s)) :
    s = { module := m.syncIds, store } := by
  unfold run runFrom at hrun
  split at hrun
  · cases hrun
    rfl
  · rename_i env henv
    split at hrun
    · cases hrun
      rfl
    · rename_i hcheck
      have hstart : PipelineState.Descends setup.options m { module := m.syncIds, store } := by
        refine ⟨rfl, rfl, Labels.faces_within.mpr fun d hd => ⟨d, hd, rfl⟩, ?_⟩
        rintro _ ⟨⟩
      obtain ⟨front, hfront, hpasses⟩ := passes_eq setup.options
      rw [hpasses] at hrun
      refine absurd rfl (spares_runPasses hregistry hapart _ ?_ front hfront hstart hrun ty)
      exact fun hs hlast => spares_last hm henv hcheck hs hlast

/-! ### A function that asks for a hook that is missing -/

namespace HookSample

def span (start : Int32) : Span := ⟨⟨0⟩, start, start + 1⟩

def locationTy : Ty := .ofClass "spyglass.Location"

/-- The runtime library, with one intrinsic and no hook. -/
def library : SourceFile where
  id := ⟨1⟩
  path := "Spyglass.kt"
  package := "spyglass"
  declarations :=
    [.function
      { id := ⟨100⟩, span := .undefined ⟨1⟩, origin := .library,
        annotations := [{ className := "spyglass.Intrinsic", span := .undefined ⟨1⟩ }] }
      { name := "here", returnTy := locationTy } [] .absent]

/-- The annotation that asks for a hook on entering. -/
def traced : AnnotationUse where
  className := "spyglass.trace.Traced"
  span := span 3
  arguments := [⟨"types", .ofStrings ["function-enter"]⟩]

def inner (annotations : List AnnotationUse) : Decl :=
  .function { id := ⟨1⟩, span := span 3, annotations } { name := "inner", returnTy := .unit } []
    (.block [])

/-- A function that asks where it is, and another one inside it. -/
def outer (annotations innerAnnotations : List AnnotationUse) : Decl :=
  .function { id := ⟨0⟩, span := span 1, annotations } { name := "main", returnTy := .unit } []
    (.block [.expr (.call ⟨span 2, locationTy⟩ ⟨100⟩ none [] []), .decl (inner innerAnnotations)])

def moduleOf (annotations innerAnnotations : List AnnotationUse) : Module where
  name := "late"
  files := [{ id := ⟨0⟩, path := "Main.kt", declarations := [outer annotations innerAnnotations] }]
  external := [library]

def defaults : PipelineSetup where
  options := {}
  sources := fun _ => []

def missingHook : Error := .linkage (defaults.options.tracing.hooks.get .functionEnter)

theorem keepsApart : defaults.options.KeepsApart := by
  refine fun _ => ⟨by decide, fun ty kind => ?_⟩
  cases ty <;> cases kind <;> decide

theorem inSight : (moduleOf [traced] []).InSight defaults.options where
  distinct := by decide
  selecting := by
    intro d hd huses
    have hdecls : d = outer [traced] [] ∨ d = inner [] := by
      simpa [moduleOf, filesNodes, declsNodes, Decl.nodes, outer, inner, Body.nodes, stmtsNodes,
        Stmt.nodes, Expr.nodes, paramsNodes, optionNodes, argsNodes] using hd
    obtain rfl | rfl := hdecls
    · exact List.mem_cons_self
    · exact absurd rfl huses
  hooks := by
    intro ty id hid
    have hnone : (SymbolTable.build (moduleOf [traced] [])).lookupFunction?
        (defaults.options.tracing.hooks.get ty) = none := by
      cases ty <;> decide +kernel
    exact nomatch hnone.symm.trans hid

end HookSample

/-- The outer function asks for the hook, and the module stays as it was. -/
theorem HookSample.module_untouched :
    (run defaults (moduleOf [traced] []) {}).1 = .error missingHook ∧
      (run defaults (moduleOf [traced] []) {}).2 =
        { module := (moduleOf [traced] []).syncIds, store := {} } := by
  have hfails : (run defaults (moduleOf [traced] []) {}).1 = .error missingHook := by decide +kernel
  have hrun : run defaults (moduleOf [traced] []) {} =
      (.error (.linkage (defaults.options.tracing.hooks.get .functionEnter)),
        (run defaults (moduleOf [traced] []) {}).2) := Prod.ext hfails rfl
  exact ⟨hfails, missing_hooks_found_first rfl keepsApart inSight hrun⟩

/-- The inner function asks for the hook, and the call in the outer one is resolved before the hook
is found missing. -/
theorem HookSample.module_touched :
    (run defaults (moduleOf [] [traced]) {}).1 = .error missingHook ∧
      (run defaults (moduleOf [] [traced]) {}).2.module.files ≠ (moduleOf [] [traced]).files := by
  have ⟨hfails, hnew⟩ : (run defaults (moduleOf [] [traced]) {}).1 = .error missingHook ∧
      refsOf (filesNodes (run defaults (moduleOf [] [traced]) {}).2.module.files) ≠ [] := by
    decide +kernel
  have hold : refsOf (filesNodes (moduleOf [] [traced]).files) = [] := by decide +kernel
  refine ⟨hfails, fun hfiles => ?_⟩
  exact hnew ((congrArg (fun fs => refsOf (filesNodes fs)) hfiles).trans hold)

end Pipeline

end TraceWeave

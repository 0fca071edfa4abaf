import Mathlib.Data.List.Forall2
import TraceWeave.Pipeline

/-! # What a run leaves of the declarations

The declarations of the files, their members and accessors stay in their places, whatever the
passes do to the code in them and wherever a pass fails. They keep all that they say about
themselves, with one exception: extraction may put one marker behind the annotations of a function
and take defaults out of its parameters.

1. `Decl.Stays` says what stays of a declaration, by recursion on members and accessors.
2. Each pass leaves declarations staying: the walks through their visitors, extraction and removal
   by their own recursions.
3. At most one pass of a run puts markers on functions, so a function gets at most one.
-/

namespace TraceWeave

/-! ## Declarations that stay -/

/-- Annotations that may have got one more behind them. -/
def AnnotationsStay (extra : AnnotationUse → Prop) (before after : List AnnotationUse) : Prop :=
  after = before ∨ ∃ use, extra use ∧ after = before ++ [use]

structure DeclHead.Stays (extra : AnnotationUse → Prop) (head head' : DeclHead) : Prop where
  id : head'.id = head.id
  span : head'.span = head.span
  origin : head'.origin = head.origin
  annotations : AnnotationsStay extra head.annotations head'.annotations

/-- A parameter that stays may lose its default, and gets none. -/
structure Param.Stays (p p' : Param) : Prop where
  head : p'.head = p.head
  default : p'.default.isSome = true → p.default.isSome = true

mutual

/-- A declaration and what became of it. Only functions may have got another annotation. -/
def Decl.Stays (extra : AnnotationUse → Prop) : Decl → Decl → Prop
  | .classDecl head info members => fun d' =>
    ∃ members', d' = .classDecl head info members' ∧ declsStay extra members members'
  | .function head info params body => fun d' =>
    ∃ head' params' body', d' = .function head' info params' body' ∧ head.Stays extra head' ∧
      List.Forall₂ Param.Stays params params' ∧ body'.isPresent = body.isPresent
  | .property head info backing getter setter => fun d' =>
    ∃ backing' getter' setter', d' = .property head info backing' getter' setter' ∧
      accessorStays extra backing backing' ∧ accessorStays extra getter getter' ∧
      accessorStays extra setter setter'
  | .field head info init => fun d' =>
    ∃ init', d' = .field head info init' ∧ init'.isSome = init.isSome
  | .initializer head _ => fun d' => ∃ body', d' = .initializer head body'

def accessorStays (extra : AnnotationUse → Prop) : Option Decl → Option Decl → Prop
  | none => fun d' => d' = none
  | some d => fun d' => ∃ e, d' = some e ∧ d.Stays extra e

def declsStay (extra : AnnotationUse → Prop) : List Decl → List Decl → Prop
  | [] => fun ds' => ds' = []
  | d :: ds => fun ds' => ∃ d' rest, ds' = d' :: rest ∧ d.Stays extra d' ∧ declsStay extra ds rest

end

/-- A file whose declarations stay. -/
structure SourceFile.Stays (extra : AnnotationUse → Prop) (f f' : SourceFile) : Prop where
  id : f'.id = f.id
  path : f'.path = f.path
  package : f'.package = f.package
  declarations : declsStay extra f.declarations f'.declarations

/-- A module of which nothing but code has changed, and perhaps annotations of functions. -/
structure Module.Stays (extra : AnnotationUse → Prop) (m m' : Module) : Prop where
  name : m'.name = m.name
  external : m'.external = m.external
  files : List.Forall₂ (SourceFile.Stays extra) m.files m'.files

/-- No further annotation at all. -/
def noExtra (_ : AnnotationUse) : Prop := False

variable {extra : AnnotationUse → Prop}

theorem forall₂_comp {α β γ : Type} {R : α → β → Prop} {S : β → γ → Prop} {T : α → γ → Prop}
    (hcomp : ∀ a b c, R a b → S b c → T a c) : ∀ {as : List α} {bs : List β} {cs : List γ},
      List.Forall₂ R as bs → List.Forall₂ S bs cs → List.Forall₂ T as cs
  | _, _, _, .nil, .nil => .nil
  | _, _, _, .cons h hs, .cons h' hs' => .cons (hcomp _ _ _ h h') (forall₂_comp hcomp hs hs')

theorem AnnotationsStay.refl (uses : List AnnotationUse) : AnnotationsStay extra uses uses := .inl rfl

theorem AnnotationsStay.eq {before after : List AnnotationUse}
    (h : AnnotationsStay noExtra before after) : after = before :=
  h.resolve_right fun ⟨_, hextra, _⟩ => hextra

theorem DeclHead.Stays.refl (head : DeclHead) : head.Stays extra head :=
  ⟨rfl, rfl, rfl, .refl _⟩

theorem DeclHead.Stays.eq {head head' : DeclHead} (h : head.Stays noExtra head') : head' = head := by
  obtain ⟨hid, hspan, horigin, huses⟩ := h
  cases head
  cases head'
  cases hid
  cases hspan
  cases horigin
  cases huses.eq
  rfl

theorem Param.Stays.refl (p : Param) : p.Stays p := ⟨rfl, id⟩

theorem Param.Stays.trans {p p' p'' : Param} (h : p.Stays p') (h' : p'.Stays p'') : p.Stays p'' :=
  ⟨h'.head.trans h.head, fun hsome => h.default (h'.default hsome)⟩

mutual

theorem Decl.Stays.refl : ∀ d : Decl, d.Stays extra d
  | .classDecl _ _ members => ⟨members, rfl, declsStay_refl members⟩
  | .function head _ params body =>
    ⟨head, params, body, rfl, .refl head, List.forall₂_same.mpr fun p _ => .refl p, rfl⟩
  | .property _ _ backing getter setter =>
    ⟨backing, getter, setter, rfl, accessorStays_refl backing, accessorStays_refl getter,
      accessorStays_refl setter⟩
  | .field _ _ init => ⟨init, rfl, rfl⟩
  | .initializer _ body => ⟨body, rfl⟩

theorem accessorStays_refl : ∀ d : Option Decl, accessorStays extra d d
  | none => rfl
  | some d => ⟨d, rfl, .refl d⟩

theorem declsStay_refl : ∀ ds : List Decl, declsStay extra ds ds
  | [] => rfl
  | d :: ds => ⟨d, ds, rfl, .refl d, declsStay_refl ds⟩

end

mutual

/-- A step that adds no annotation can come after one that does. -/
theorem Decl.Stays.trans : ∀ {d d' d'' : Decl}, d.Stays extra d' → d'.Stays noExtra d'' →
    d.Stays extra d''
  | .classDecl _ _ _, _, _, h, h' => by
    obtain ⟨members', rfl, hmembers⟩ := h
    obtain ⟨members'', rfl, hmembers'⟩ := h'
    exact ⟨members'', rfl, declsStay_trans hmembers hmembers'⟩
  | .function _ _ _ _, _, _, h, h' => by
    obtain ⟨head', params', body', rfl, hhead, hparams, hbody⟩ := h
    obtain ⟨head'', params'', body'', rfl, hhead', hparams', hbody'⟩ := h'
    obtain rfl := hhead'.eq
    exact ⟨_, params'', body'', rfl, hhead,
      forall₂_comp (T := Param.Stays) (fun _ _ _ h h' => h.trans h') hparams hparams',
      hbody'.trans hbody⟩
  | .property _ _ _ _ _, _, _, h, h' => by
    obtain ⟨_, _, _, rfl, hbacking, hgetter, hsetter⟩ := h
    obtain ⟨backing'', getter'', setter'', rfl, hbacking', hgetter', hsetter'⟩ := h'
    exact ⟨backing'', getter'', setter'', rfl, accessorStays_trans hbacking hbacking',
      accessorStays_trans hgetter hgetter', accessorStays_trans hsetter hsetter'⟩
  | .field _ _ _, _, _, h, h' => by
    obtain ⟨init', rfl, hinit⟩ := h
    obtain ⟨init'', rfl, hinit'⟩ := h'
    exact ⟨init'', rfl, hinit'.trans hinit⟩
  | .initializer _ _, _, _, h, h' => by
    obtain ⟨_, rfl⟩ := h
    obtain ⟨body'', rfl⟩ := h'
    exact ⟨body'', rfl⟩
termination_by structural d => d

theorem accessorStays_trans : ∀ {d d' d'' : Option Decl}, accessorStays extra d d' →
    accessorStays noExtra d' d'' → accessorStays extra d d''
  | none, _, _, h, h' => by
    obtain rfl := h
    exact h'
  | some _, _, _, h, h' => by
    obtain ⟨e, rfl, he⟩ := h
    obtain ⟨e', rfl, he'⟩ := h'
    exact ⟨e', rfl, he.trans he'⟩
termination_by structural d => d

theorem declsStay_trans : ∀ {ds ds' ds'' : List Decl}, declsStay extra ds ds' →
    declsStay noExtra ds' ds'' → declsStay extra ds ds''
  | [], _, _, h, h' => by
    obtain rfl := h
    exact h'
  | _ :: _, _, _, h, h' => by
    obtain ⟨_, _, rfl, hd, hds⟩ := h
    obtain ⟨d'', rest'', rfl, hd', hds'⟩ := h'
    exact ⟨d'', rest'', rfl, hd.trans hd', declsStay_trans hds hds'⟩
termination_by structural ds => ds

end

theorem SourceFile.Stays.refl (f : SourceFile) : f.Stays extra f := ⟨rfl, rfl, rfl, declsStay_refl _⟩

theorem SourceFile.Stays.trans {f f' f'' : SourceFile} (h : f.Stays extra f')
    (h' : f'.Stays noExtra f'') : f.Stays extra f'' :=
  ⟨h'.id.trans h.id, h'.path.trans h.path, h'.package.trans h.package,
    declsStay_trans h.declarations h'.declarations⟩

theorem Module.Stays.refl (m : Module) : m.Stays extra m :=
  ⟨rfl, rfl, List.forall₂_same.mpr fun f _ => .refl f⟩

theorem Module.Stays.trans {m m' m'' : Module} (h : m.Stays extra m') (h' : m'.Stays noExtra m'') :
    m.Stays extra m'' where
  name := h'.name.trans h.name
  external := h'.external.trans h.external
  files := forall₂_comp (T := SourceFile.Stays extra) (fun _ _ _ h h' => h.trans h') h.files h'.files

/-! ## Walks -/

section

variable {σ : Type} {v : Visitor σ}

/-- A visitor that leaves declarations staying. -/
def Visitor.LeavesStaying (v : Visitor σ) : Prop :=
  ∀ (sc : ScopeStack) (d : Decl) (st : σ), d.Stays noExtra (v.onDecl sc d st).1

theorem optionWalk_isSome (sc : ScopeStack) (place : Place) (e : Option Expr) (st : σ) :
    (optionWalk v sc place e st).1.isSome = e.isSome := by
  cases e <;> rfl

theorem paramsWalk_stays (sc : ScopeStack) : ∀ (params : List Param) (st : σ),
    List.Forall₂ Param.Stays params (paramsWalk v sc params st).1
  | [], _ => .nil
  | ⟨_, default⟩ :: params, st => by
    rw [paramsWalk]
    refine .cons ⟨rfl, fun hsome => ?_⟩ (paramsWalk_stays sc params _)
    rwa [optionWalk_isSome] at hsome

theorem Body.isPresent_walk (sc : ScopeStack) (body : Body) (st : σ) :
    (body.walk v sc st).1.isPresent = body.isPresent := by
  cases body <;> rfl

mutual

theorem Decl.walk_stays (hv : v.LeavesStaying) : ∀ (d : Decl) (sc : ScopeStack) (st : σ),
    d.Stays noExtra (d.walk v sc st).1
  | .classDecl head info members, sc, st => by
    rw [Decl.walk]
    refine Decl.Stays.trans ?_ (hv _ _ _)
    exact ⟨_, rfl, declsWalk_stays hv members _ st⟩
  | .function head info params body, sc, st => by
    rw [Decl.walk]
    refine Decl.Stays.trans ?_ (hv _ _ _)
    exact ⟨_, _, _, rfl, .refl head, paramsWalk_stays _ params st, body.isPresent_walk _ _⟩
  | .property head info backing getter setter, sc, st => by
    rw [Decl.walk]
    refine Decl.Stays.trans ?_ (hv _ _ _)
    exact ⟨_, _, _, rfl, accessorWalk_stays hv backing sc st, accessorWalk_stays hv getter sc _,
      accessorWalk_stays hv setter sc _⟩
  | .field head info init, sc, st => by
    rw [Decl.walk]
    refine Decl.Stays.trans ?_ (hv _ _ _)
    exact ⟨_, rfl, optionWalk_isSome _ .initializer init st⟩
  | .initializer head _, sc, st => by
    rw [Decl.walk]
    refine Decl.Stays.trans ?_ (hv _ _ _)
    exact ⟨_, rfl⟩

theorem accessorWalk_stays (hv : v.LeavesStaying) : ∀ (d : Option Decl) (sc : ScopeStack) (st : σ),
    accessorStays noExtra d (accessorWalk v sc d st).1
  | none, _, _ => rfl
  | some d, sc, st => ⟨_, rfl, d.walk_stays hv sc st⟩

theorem declsWalk_stays (hv : v.LeavesStaying) : ∀ (ds : List Decl) (sc : ScopeStack) (st : σ),
    declsStay noExtra ds (declsWalk v sc ds st).1
  | [], _, _ => rfl
  | d :: ds, sc, st => ⟨_, _, rfl, d.walk_stays hv sc st, declsWalk_stays hv ds sc _⟩

end

theorem filesWalk_stays (hv : v.LeavesStaying) : ∀ (fs : List SourceFile) (st : σ),
    List.Forall₂ (SourceFile.Stays noExtra) fs (filesWalk v fs st).1
  | [], _ => .nil
  | f :: fs, st =>
    .cons ⟨rfl, rfl, rfl, declsWalk_stays hv f.declarations {} st⟩ (filesWalk_stays hv fs _)

end

/-- A pass that runs a visitor leaves the module as its walk left it, also when it fails. -/
theorem Module.runVisitor_stays {v : Visitor PassState} (hv : v.LeavesStaying) (m : Module)
    (store : Store) : m.Stays noExtra (m.runVisitor v store).module :=
  ⟨rfl, rfl, filesWalk_stays hv m.files _⟩

theorem CallerCapture.injector_leavesStaying (env : PassEnv) (captured : CapturedDefaults) :
    (injector env captured).LeavesStaying := fun _ d _ => .refl d

theorem Dispatch.dispatcher_leavesStaying (registry : Registry) (env : PassEnv) :
    (dispatcher registry env).LeavesStaying := fun _ d _ => .refl d

namespace Instrument

theorem isPresent_wrapBody (id : DeclId) (returnTy : Ty) (hooks : BodyHooks) (ids : IdAllocator)
    (body : Body) : (wrapBody id returnTy hooks ids body).1.isPresent = body.isPresent := by
  cases body <;> rfl

/-- A body that gets its hooks is still there, and so is one whose hooks cannot be told. -/
theorem instrumentBody_stays (env : PassEnv) (sc : ScopeStack) (d : Decl) (st : PassState) :
    d.Stays noExtra (instrumentBody env sc d st).1 := by
  unfold instrumentBody
  split
  · rename_i head info params body
    split
    · exact .refl _
    · split
      · exact .refl _
      · exact .refl _
      · exact ⟨head, params, _, rfl, .refl head, List.forall₂_same.mpr fun p _ => .refl p,
          isPresent_wrapBody ..⟩
  · exact .refl _

theorem instrumenter_leavesStaying (env : PassEnv) : (instrumenter env).LeavesStaying := by
  intro sc d st
  change d.Stays noExtra (PassState.edit (instrumentBody env sc) d st).1
  unfold PassState.edit
  split
  · exact .refl d
  · exact instrumentBody_stays env sc d st

end Instrument

/-! ## Extraction and removal -/

namespace CallerCapture

/-- A marker that lists modes, wherever it stands. -/
def IsMarker (o : Options) (use : AnnotationUse) : Prop :=
  ∃ file modes, use = marker o.callerCapture.marker file modes

variable (env : PassEnv)

theorem optionExtract_isSome (e : Option Expr) (x : Extraction) :
    (optionExtract env e x).1.isSome = e.isSome := by
  cases e <;> rfl

theorem paramsExtract_stays (capturing : Bool) (params : List Param) (x : Extraction) :
    List.Forall₂ Param.Stays params (paramsExtract env capturing params x).1 := by
  induction params generalizing x with
  | nil => exact .nil
  | cons p params ih =>
    obtain ⟨_, default⟩ := p
    rw [paramsExtract]
    split
    · exact .cons ⟨rfl, fun hsome => absurd hsome Bool.false_ne_true⟩ (ih x)
    · refine .cons ⟨rfl, fun hsome => ?_⟩ (ih _)
      rwa [optionExtract_isSome] at hsome

theorem isPresent_bodyExtract (body : Body) (x : Extraction) :
    (bodyExtract env body x).1.isPresent = body.isPresent := by
  cases body <;> rfl

theorem markedHead_stays (head : DeclHead) (params : List Param) :
    head.Stays (IsMarker env.options) (markedHead env head params) :=
  ⟨rfl, rfl, rfl, .inr ⟨_, ⟨_, _, rfl⟩, rfl⟩⟩

mutual

theorem declExtract_stays : ∀ (d : Decl) (x : Extraction),
    d.Stays (IsMarker env.options) (declExtract env d x).1
  | .classDecl _ _ members, x => ⟨_, rfl, declsExtract_stays members x⟩
  | .function head info params body, x => by
    rw [declExtract]
    split
    · exact ⟨_, _, _, rfl, markedHead_stays env head params, paramsExtract_stays env true params _,
        isPresent_bodyExtract env body _⟩
    · exact ⟨_, _, _, rfl, .refl head, paramsExtract_stays env false params x,
        isPresent_bodyExtract env body _⟩
  | .property _ _ backing getter setter, x =>
    ⟨_, _, _, rfl, accessorExtract_stays backing x, accessorExtract_stays getter _,
      accessorExtract_stays setter _⟩
  | .field _ _ init, x => ⟨_, rfl, optionExtract_isSome env init x⟩
  | .initializer _ _, x => ⟨_, rfl⟩

theorem accessorExtract_stays : ∀ (d : Option Decl) (x : Extraction),
    accessorStays (IsMarker env.options) d (accessorExtract env d x).1
  | none, _ => rfl
  | some d, x => ⟨_, rfl, declExtract_stays d x⟩

theorem declsExtract_stays : ∀ (ds : List Decl) (x : Extraction),
    declsStay (IsMarker env.options) ds (declsExtract env ds x).1
  | [], _ => rfl
  | d :: ds, x => ⟨_, _, rfl, declExtract_stays d x, declsExtract_stays ds _⟩

end

theorem filesExtract_stays : ∀ (fs : List SourceFile) (x : Extraction),
    List.Forall₂ (SourceFile.Stays (IsMarker env.options)) fs (filesExtract env fs x).1
  | [], _ => .nil
  | f :: fs, x =>
    .cons ⟨rfl, rfl, rfl, declsExtract_stays env f.declarations x⟩ (filesExtract_stays fs _)

theorem extract_stays (m : Module) (captured : CapturedDefaults) :
    m.Stays (IsMarker env.options) (extract env m captured).1 :=
  ⟨rfl, rfl, filesExtract_stays env m.files _⟩

end CallerCapture

namespace Removal

variable (keys : List CallKey)

theorem optionPrune_isSome (owner : Option DeclId) (e : Option Expr) :
    (optionPrune keys owner e).1.isSome = e.isSome := by
  cases e <;> rfl

theorem paramsPrune_stays (owner : Option DeclId) (params : List Param) :
    List.Forall₂ Param.Stays params (paramsPrune keys owner params).1 := by
  induction params with
  | nil => exact .nil
  | cons p params ih =>
    obtain ⟨_, default⟩ := p
    rw [paramsPrune]
    refine .cons ⟨rfl, fun hsome => ?_⟩ ih
    rwa [optionPrune_isSome] at hsome

/-- A body that is taken out as a whole leaves a constant behind. -/
theorem bodyPrune_isPresent (owner : Option DeclId) (body : Body) :
    (bodyPrune keys owner body).1.isPresent = body.isPresent := by
  cases body with
  | expression e =>
    rw [bodyPrune]
    split <;> rfl
  | _ => rfl

mutual

theorem declPrune_stays (owner : Option DeclId) : ∀ d : Decl,
    d.Stays noExtra (declPrune keys owner d).1
  | .classDecl head _ members => ⟨_, rfl, declsPrune_stays (some head.id) members⟩
  | .function head _ params body =>
    ⟨_, _, _, rfl, .refl head, paramsPrune_stays keys (some head.id) params,
      bodyPrune_isPresent keys (some head.id) body⟩
  | .property _ _ backing getter setter =>
    ⟨_, _, _, rfl, accessorPrune_stays owner backing, accessorPrune_stays owner getter,
      accessorPrune_stays owner setter⟩
  | .field head _ init => ⟨_, rfl, optionPrune_isSome keys (some head.id) init⟩
  | .initializer _ _ => ⟨_, rfl⟩

theorem accessorPrune_stays (owner : Option DeclId) : ∀ d : Option Decl,
    accessorStays noExtra d (accessorPrune keys owner d).1
  | none => rfl
  | some d => ⟨_, rfl, declPrune_stays owner d⟩

theorem declsPrune_stays (owner : Option DeclId) : ∀ ds : List Decl,
    declsStay noExtra ds (declsPrune keys owner ds).1
  | [] => rfl
  | d :: ds => ⟨_, _, rfl, declPrune_stays owner d, declsPrune_stays owner ds⟩

end

theorem filesPrune_stays : ∀ fs : List SourceFile,
    List.Forall₂ (SourceFile.Stays noExtra) fs (filesPrune keys fs).1
  | [] => .nil
  | f :: fs => .cons ⟨rfl, rfl, rfl, declsPrune_stays keys none f.declarations⟩ (filesPrune_stays fs)

theorem run_stays {env : PassEnv} {m m' : Module} {removed : Nat}
    (h : run env m = .ok (m', removed)) : m.Stays noExtra m' := by
  obtain ⟨keys, -, hrun⟩ := Except.of_bind h
  cases hrun
  exact ⟨rfl, rfl, filesPrune_stays keys m.files⟩

end Removal

/-! ## Runs -/

namespace PipelineState

variable {setup : PipelineSetup} {s : PipelineState}

/-- No pass but extraction puts anything on declarations. -/
theorem runPassIn_stays (env : PassEnv) {pass : PassName} (hpass : pass ≠ .extractCallerDefaults) :
    s.module.Stays noExtra (s.runPassIn setup env pass).2.module := by
  cases pass with
  | extractCallerDefaults => exact absurd rfl hpass
  | injectCallerArguments =>
    exact Module.runVisitor_stays (CallerCapture.injector_leavesStaying env s.captured) s.module _
  | intrinsicDispatch =>
    exact Module.runVisitor_stays (Dispatch.dispatcher_leavesStaying setup.registry env) s.module _
  | traceRemoval =>
    rw [runPassIn]
    split
    · rename_i m removed hrun
      exact Removal.run_stays hrun
    · exact .refl _
  | tracingInstrumentation =>
    exact Module.runVisitor_stays (Instrument.instrumenter_leavesStaying env) s.module _

theorem runPass_stays {pass : PassName} (hpass : pass ≠ .extractCallerDefaults) :
    s.module.Stays noExtra (s.runPass setup pass).2.module := by
  unfold runPass
  split
  · exact .refl _
  · exact runPassIn_stays _ hpass

theorem runPass_extract_stays : s.module.Stays (CallerCapture.IsMarker setup.options)
    (s.runPass setup .extractCallerDefaults).2.module := by
  unfold runPass
  split
  · exact .refl _
  · rename_i env henv
    have hstays := CallerCapture.extract_stays env s.module s.captured
    rw [(PassEnv.build_eq_ok henv).1] at hstays
    exact hstays

/-- A list of passes leaves of a module what its first pass and the rest of the list leave. -/
theorem runPasses_cons_module (setup : PipelineSetup) (s : PipelineState) (pass : PassName)
    (passes : List PassName) :
    (runPasses setup (pass :: passes) s).2.module = (s.runPass setup pass).2.module ∨
      (runPasses setup (pass :: passes) s).2.module =
        (runPasses setup passes (s.runPass setup pass).2).2.module := by
  rw [runPasses]
  split
  · rename_i e t hpass
    rw [hpass]
    exact .inl rfl
  · rename_i changed t hpass
    rw [hpass]
    split <;> rename_i hrun <;> rw [hrun] <;> exact .inr rfl

theorem runPasses_stays : ∀ {passes : List PassName}, .extractCallerDefaults ∉ passes →
    ∀ s : PipelineState, s.module.Stays noExtra (runPasses setup passes s).2.module
  | [], _, s => .refl _
  | pass :: passes, hpasses, s => by
    obtain ⟨hpass, hrest⟩ := not_or.mp (mt List.mem_cons.mpr hpasses)
    have hfirst : s.module.Stays noExtra (s.runPass setup pass).2.module :=
      runPass_stays (Ne.symm hpass)
    obtain heq | heq := runPasses_cons_module setup s pass passes <;> rw [heq]
    · exact hfirst
    · exact hfirst.trans (runPasses_stays hrest _)

end PipelineState

namespace Pipeline

/-- Extraction comes first, if at all. -/
theorem passes_extract_first (o : Options) : ∃ rest, .extractCallerDefaults ∉ rest ∧
    (passes o = rest ∨ passes o = .extractCallerDefaults :: rest) := by
  refine ⟨[.injectCallerArguments, .intrinsicDispatch, .traceRemoval,
    .tracingInstrumentation].filter (PassName.isEnabled o), ?_, ?_⟩
  · intro hmem
    simp at hmem
  · rw [passes, PassName.all, List.filter_cons]
    split
    · exact .inr rfl
    · exact .inl rfl

theorem runFrom_stays (setup : PipelineSetup) (s : PipelineState) :
    s.module.Stays (CallerCapture.IsMarker setup.options) (runFrom setup s).2.module := by
  unfold runFrom
  split
  · exact .refl _
  · split
    · exact .refl _
    · obtain ⟨rest, hrest, hpasses | hpasses⟩ := passes_extract_first setup.options <;> rw [hpasses]
      · exact (Module.Stays.refl _).trans (PipelineState.runPasses_stays hrest s)
      · have hfirst : s.module.Stays (CallerCapture.IsMarker setup.options) _ :=
          PipelineState.runPass_extract_stays
        obtain heq | heq :=
          PipelineState.runPasses_cons_module setup s .extractCallerDefaults rest <;> rw [heq]
        · exact hfirst
        · exact hfirst.trans (PipelineState.runPasses_stays hrest _)

/-- A run changes code and nothing else: whether it succeeds or fails, the module keeps its name and
its external files, and its own files keep their declarations, members and accessors in their
places. A function may have lost defaults of its parameters and got one marker. -/
theorem run_changes_code_only (setup : PipelineSetup) (m : Module) (store : Store) :
    m.Stays (CallerCapture.IsMarker setup.options) (run setup m store).2.module := by
  obtain ⟨hname, hexternal, hfiles⟩ :=
    runFrom_stays setup { module := m.syncIds, store }
  exact ⟨hname, hexternal, hfiles⟩

end Pipeline

end TraceWeave

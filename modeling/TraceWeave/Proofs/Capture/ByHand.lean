import TraceWeave.Proofs.Capture.Filling

/-! # Caller capture next to arguments that are written by hand

A parameter captures an intrinsic kind if its default is an intrinsic call or if a marker of its
function says so. Instead of omitting the argument, a call can give it by hand: as a call of the
intrinsic at its own span, with the arguments of the default. A run treats both programs alike.
Both fail with the same error, or both end in the same program with the same descriptors.

This needs the intrinsic and the called function to be there when arguments are filled. Extraction
takes along what is declared inside the defaults that it takes out. It also needs the intrinsic to
capture nothing itself: what injection fills in is not looked at again, a call in the program is.

* `CallerCapture.Captures`, `CallerCapture.HandWritten`: what a parameter captures, and what a
  call can give by hand for it.
* `Pipeline.capture_equals_writing_by_hand`: the two runs are alike (`Pipeline.Alike`), by
  `Pipeline.injects_alike` behind extraction.
-/

namespace TraceWeave

namespace CallerCapture

/-! ## Captured arguments -/

/-- A parameter of a function captures an intrinsic kind: by its default, which is an intrinsic call
with these arguments, or by a marker, which knows of no arguments. -/
inductive Captures (env : PassEnv) (m : Module) (callee : DeclId) (index : Nat) :
    IntrinsicKind → StrippedCall → Prop
  | default {head : DeclHead} {info : FunctionHead} {params : List Param} {body : Body} {p : Param}
      {s : Site} {intrinsic : DeclId} {receiver : Option Expr} {typeArgs : List Ty}
      {args : List (Option Expr)} {kind : IntrinsicKind}
      (own : .function head info params body ∈ declsOf (filesNodes m.files))
      (id : head.id = callee)
      (unmarked : AnnotationUse.find? head.annotations env.options.callerCapture.marker = none)
      (param : params[index]? = some p)
      (call : p.default = some (.call s intrinsic receiver typeArgs args))
      (kind_eq : env.linkage.intrinsicKind? intrinsic = some kind) :
      Captures env m callee index kind ⟨typeArgs, args⟩
  | marker {head : DeclHead} {info : FunctionHead} {params : List Param} {body : Body}
      {modes : List String} {mode : String} {kind : IntrinsicKind}
      (function : .function head info params body ∈ m.decls)
      (id : head.id = callee)
      (listed : listedModes? env.options.callerCapture.marker head = some modes)
      (mode_eq : modes[index]? = some mode)
      (kind_eq : IntrinsicKind.parse mode = .ok kind) :
      Captures env m callee index kind ⟨[], []⟩

/-- What a call at a span can give by hand for a parameter that captures a kind. -/
inductive HandWritten (env : PassEnv) (m : Module) (callee : DeclId) (index : Nat) (span : Span) :
    Expr → Prop
  | call {kind : IntrinsicKind} {call : StrippedCall} {head : DeclHead} {info : FunctionHead}
      {params : List Param} {body : Body}
      (captures : Captures env m callee index kind call)
      (leaves : (call.args.all fun a => a.all Expr.isLeaf) = true)
      (intrinsic : env.linkage.intrinsicDecl kind = .ok head.id)
      (function : .function head info params body ∈ m.decls) :
      HandWritten env m callee index span
        (.call ⟨span, info.returnTy⟩ head.id none call.typeArgs call.args)

/-- Captured arguments may be written by hand, but not into a default that is taken out. -/
def byHand (env : PassEnv) (m : Module) : Writing where
  argument := HandWritten env m
  capturing := isCapturing env
  linkage := env.linkage

/-- What an argument that is written by hand relies on after extraction. -/
structure Lasting (setup : PipelineSetup) (env : PassEnv) (m : Module) (callee intrinsic : DeclId) :
    Prop where
  /-- The called function is not declared inside a default that is taken out. -/
  callee : callee ∈ (extract env m []).1.declIds
  /-- Nor is the intrinsic. -/
  target : intrinsic ∈ (extract env m []).1.declIds
  /-- The intrinsic stays the one of its kind. -/
  linked : ∀ env₁, PassEnv.build setup.options setup.sources (extract env m []).1 = .ok env₁ →
    ∀ kind, env.linkage.intrinsicDecl kind = .ok intrinsic →
      env₁.linkage.intrinsicDecl kind = .ok intrinsic
  /-- The intrinsic has no captured arguments itself. -/
  unmarked : ∀ d ∈ (extract env m []).1.decls, d.id = intrinsic →
    AnnotationUse.find? d.head.annotations env.options.callerCapture.marker = none

end CallerCapture

open CallerCapture

/-- The same arguments, but of some functions and in the form of some calls only. -/
def Writing.only (w : Writing) (p : DeclId → DeclId → Prop) : Writing :=
  { w with argument := fun callee i span e =>
      w.argument callee i span e ∧ ∀ target, e.callee? = some target → p callee target }

namespace CallerCapture

variable {setup : PipelineSetup} {env env₁ : PassEnv} {m m' : Module} {callee : DeclId}
  {index : Nat} {kind : IntrinsicKind} {call : StrippedCall}

/-! ## Modes after extraction -/

theorem LeftOf.function {d' : Decl} {head : DeclHead} {info : FunctionHead} {params : List Param}
    {body : Body} (h : LeftOf env d' (.function head info params body)) :
    ∃ params' body', d' = .function
      (if isCapturing env head params then markedHead env head params else head) info params'
        body' := by
  obtain ⟨x, rfl⟩ := h
  rw [declExtract_function]
  exact ⟨_, _, rfl⟩

/-- A function that is still there has kept its head, but for a marker. -/
theorem stays_function (hids : m.declIds.Nodup) {head : DeclHead} {info : FunctionHead}
    {params : List Param} {body : Body} (hd : .function head info params body ∈ m.decls)
    (hstays : head.id ∈ (extract env m []).1.declIds) :
    ∃ head' params' body', .function head' info params' body' ∈ (extract env m []).1.decls ∧
      head'.id = head.id := by
  rw [decls_eq_append] at hd
  obtain hown | hexternal := List.mem_append.mp hd
  · obtain ⟨⟨d', hd', hleft⟩, -⟩ := stays_own hids hown hstays
    obtain ⟨params', body', rfl⟩ := hleft.function
    exact ⟨_, params', body', hd', hleft.id_eq⟩
  · exact ⟨head, params, body, (stays_external hids hexternal).1, rfl⟩

/-- After extraction a marker lists the kind, and the arguments of the default are on record. -/
theorem Captures.listed (hids : m.declIds.Nodup) (h : Captures env m callee index kind call)
    (hstays : callee ∈ (extract env m []).1.declIds) :
    ∃ head info params body modes mode,
      .function head info params body ∈ (extract env m []).1.decls ∧ head.id = callee ∧
        listedModes? env.options.callerCapture.marker head = some modes ∧
        modes[index]? = some mode ∧ IntrinsicKind.parse mode = .ok kind ∧
        ((extract env m []).2.captured.lookup (callee, index)).getD ⟨[], []⟩ = call := by
  -- A default that is taken out is listed in the new marker and put on record; a marker that was
  -- there is kept, and then nothing is taken out.
  cases h with
  | @default head info params body p s intrinsic receiver typeArgs args _ hown hid hunmarked hparam
      hcall hkind =>
    subst hid
    have hstripped : strippedDefault? env.linkage p.default = some (kind, ⟨typeArgs, args⟩) := by
      rw [hcall, strippedDefault?, hkind]
      rfl
    have hcapturing : isCapturing env head params = true := by
      rw [isCapturing, hunmarked, Option.isNone_none, Bool.true_and, List.any_eq_true]
      exact ⟨p, List.mem_of_getElem? hparam, by rw [hstripped]; rfl⟩
    obtain ⟨⟨d', hd', hleft⟩, hrecord⟩ := stays_own hids hown hstays
    obtain ⟨params', body', rfl⟩ := hleft.function
    rw [if_pos hcapturing] at hd' hleft
    refine ⟨_, info, params', body', _, kind.name, hd', hleft.id_eq, listedModes?_markedHead hcapturing,
      ?_, ?_, ?_⟩
    · rw [List.getElem?_map, hparam, Option.map_some, mode, hstripped]
    · exact kind.parse_name
    · rw [show head.id = (Decl.function head info params body).id from rfl, hrecord, taken?,
        if_pos hcapturing, hparam, Option.bind_some, hstripped]
      rfl
  | @marker head info params body modes mode _ hd hid hlisted hmode hkind =>
    subst hid
    have hplain : isCapturing env head params = false := by
      obtain ⟨use, huse, -⟩ := Option.bind_eq_some_iff.mp hlisted
      rw [isCapturing, huse]
      rfl
    rw [decls_eq_append] at hd
    obtain hown | hexternal := List.mem_append.mp hd
    · obtain ⟨⟨d', hd', hleft⟩, hrecord⟩ := stays_own hids hown hstays
      obtain ⟨params', body', rfl⟩ := hleft.function
      rw [hplain] at hd'
      refine ⟨head, info, params', body', modes, mode, hd', rfl, hlisted, hmode, hkind, ?_⟩
      rw [show head.id = (Decl.function head info params body).id from rfl, hrecord, taken?, hplain]
      rfl
    · obtain ⟨hd', hrecord⟩ : _ ∈ (extract env m []).1.decls ∧ _ := stays_external hids hexternal
      refine ⟨head, info, params, body, modes, mode, hd', rfl, hlisted, hmode, hkind, ?_⟩
      rw [show head.id = (Decl.function head info params body).id from rfl, hrecord]
      rfl

/-! ## What injection fills in -/

theorem ne_noCapture {mode : String} (h : IntrinsicKind.parse mode = .ok kind) :
    mode ≠ noCapture := by
  rintro rfl
  exact nomatch h

theorem freshCall_eq {captured : CapturedDefaults} {mode : String} {intrinsic : DeclId} {s : Symbol}
    {f : FunctionSymbol} (hkind : IntrinsicKind.parse mode = .ok kind)
    (hdecl : env.linkage.intrinsicDecl kind = .ok intrinsic)
    (hfunction : env.symbols.function? intrinsic = some (s, f)) (span : Span) :
    freshCall env captured callee index span mode =
      .ok (.call ⟨span, f.head.returnTy⟩ intrinsic none
        ((captured.lookup (callee, index)).getD ⟨[], []⟩).typeArgs
        ((captured.lookup (callee, index)).getD ⟨[], []⟩).args) := by
  unfold freshCall
  simp only [hkind, hdecl, hfunction, bind, Except.bind]
  cases captured.lookup (callee, index) <;> rfl

variable (setup env m) in
/-- What may be written by hand and lasts. -/
abbrev lastingByHand : Writing := (byHand env m).only (Lasting setup env m)

theorem lastingByHand_bare : (lastingByHand setup env m).Bare := by
  rintro callee i span e ⟨⟨-, hleaves, -, -⟩, -⟩
  exact hleaves

theorem lastingByHand_fits : (lastingByHand setup env m).Fits env := ⟨lastingByHand_bare, rfl, rfl⟩

/-- What is written by hand is what injection fills in. -/
theorem lastingByHand_fills (hids : m.declIds.Nodup)
    (hbuild : PassEnv.build setup.options setup.sources m = .ok env)
    (hbuild₁ : PassEnv.build setup.options setup.sources (extract env m []).1 = .ok env₁) :
    (lastingByHand setup env m).settled.Fills env₁ (extract env m []).2.captured := by
  have hids₁ : (extract env m []).1.declIds.Nodup := nodup_extract hids []
  obtain ⟨hoptions, -⟩ := PassEnv.build_eq_ok hbuild
  obtain ⟨hoptions₁, hsymbols, -⟩ := PassEnv.build_eq_ok hbuild₁
  have hmarker : env₁.options.callerCapture.marker = env.options.callerCapture.marker := by
    rw [hoptions, hoptions₁]
  refine ⟨lastingByHand_bare, ?_, ?_⟩
  · rintro callee index span _ ⟨@⟨kind, call, head, info, params, body, -, -, -, hd⟩, hlasts⟩ _ ⟨⟩
    have hlasts := hlasts head.id rfl
    obtain ⟨head', params', body', hd', hid⟩ := stays_function hids hd hlasts.target
    rw [← hid]
    refine modesOf_plain hids₁ hsymbols hd' ?_
    rw [hmarker]
    exact hlasts.unmarked _ hd' hid
  · rintro callee index span _
      ⟨@⟨kind, call, head, info, params, body, hcaptures, -, hintrinsic, hd⟩, hlasts⟩ modes? hmodes
    have hlasts := hlasts head.id rfl
    obtain ⟨head', params', body', hd', hid⟩ := stays_function hids hd hlasts.target
    obtain ⟨s, f, hfunction, -, hinfo⟩ := SymbolTable.function?_of_mem hids₁ hd'
    obtain ⟨calleeHead, calleeInfo, _, _, modes, mode, hcallee, hcalleeId, hlisted, hmode, hkind,
      hrecord⟩ := hcaptures.listed hids hlasts.callee
    rw [← hmarker] at hlisted
    refine ⟨modes, mode, ?_, hmode, ne_noCapture hkind, ?_⟩
    · have hknown := modesOf_marked hids₁ hsymbols hcallee hlisted
      rw [hcalleeId, hmodes] at hknown
      obtain hok | ⟨e, herror⟩ := hknown
      · exact Except.ok.inj hok
      · exact nomatch herror
    · rw [hid, ← hsymbols] at hfunction
      rw [freshCall_eq hkind (hlasts.linked env₁ hbuild₁ kind hintrinsic) hfunction, hinfo, hrecord]

end CallerCapture

/-! ## Runs -/

namespace Pipeline

variable {setup : PipelineSetup} {env : PassEnv} {m m' : Module} {w : Writing}

/-- Two runs that fail with the same error, or that succeed with the same program and the same
descriptors. -/
def Alike (r r' : Except Error (List (PassName × Nat)) × PipelineState) : Prop :=
  (∃ e, r.1 = .error e ∧ r'.1 = .error e) ∨
    (∃ outcomes outcomes', r.1 = .ok outcomes ∧ r'.1 = .ok outcomes') ∧
      r'.2.module = r.2.module ∧ r'.2.store = r.2.store

theorem Alike.refl (r : Except Error (List (PassName × Nat)) × PipelineState) : Alike r r := by
  rcases r with ⟨e | outcomes, s⟩
  · exact .inl ⟨e, rfl, rfl⟩
  · exact .inr ⟨⟨outcomes, outcomes, rfl, rfl⟩, rfl, rfl⟩

theorem Alike.isOk_eq {r r' : Except Error (List (PassName × Nat)) × PipelineState}
    (h : Alike r r') : r'.1.isOk = r.1.isOk := by
  obtain ⟨e, he, he'⟩ | ⟨⟨o, o', ho, ho'⟩, -, -⟩ := h
  · rw [he, he']
  · rw [ho, ho']
    rfl

theorem Alike.store_eq {r r' : Except Error (List (PassName × Nat)) × PipelineState}
    (h : Alike r r') (hok : r.1.isOk = true) : r'.2.store = r.2.store := by
  obtain ⟨e, he, -⟩ | ⟨-, -, hstore⟩ := h
  · rw [he] at hok
    exact nomatch hok
  · exact hstore

/-- A pass that fails on both, or the passes after it run alike. -/
theorem Alike.cons {pass : PassName} {passes : List PassName} {s s' : PipelineState}
    (h : (∃ e, (s.runPass setup pass).1 = .error e ∧ (s'.runPass setup pass).1 = .error e) ∨
      (∃ n n', (s.runPass setup pass).1 = .ok n ∧ (s'.runPass setup pass).1 = .ok n') ∧
        Alike (PipelineState.runPasses setup passes (s.runPass setup pass).2)
          (PipelineState.runPasses setup passes (s'.runPass setup pass).2)) :
    Alike (PipelineState.runPasses setup (pass :: passes) s)
      (PipelineState.runPasses setup (pass :: passes) s') := by
  unfold PipelineState.runPasses
  generalize s.runPass setup pass = r at h ⊢
  generalize s'.runPass setup pass = r' at h ⊢
  obtain ⟨outcome, t⟩ := r
  obtain ⟨outcome', t'⟩ := r'
  obtain ⟨e, rfl, rfl⟩ | ⟨⟨n, n', rfl, rfl⟩, hrest⟩ := h
  · exact .inl ⟨e, rfl, rfl⟩
  · dsimp only at hrest ⊢
    generalize PipelineState.runPasses setup passes t = r at hrest ⊢
    generalize PipelineState.runPasses setup passes t' = r' at hrest ⊢
    obtain ⟨outcome, u⟩ := r
    obtain ⟨outcome', u'⟩ := r'
    obtain ⟨e, rfl, rfl⟩ | ⟨⟨o, o', rfl, rfl⟩, hmodule, hstore⟩ := hrest
    · exact .inl ⟨e, rfl, rfl⟩
    · exact .inr ⟨⟨_, _, rfl, rfl⟩, hmodule, hstore⟩

theorem env_written (h : m.Written w m') (hw : w.Bare) (o : Options) (sources : Source.Provider) :
    PassEnv.build o sources m' = PassEnv.build o sources m := by
  have hsymbols := h.build_eq hw
  obtain ⟨files', -, rfl⟩ := h
  unfold PassEnv.build
  rw [hsymbols]

/-- Injection into what extraction has left of both modules, and the passes after it. -/
theorem injects_alike (hw : w.Bare) (h : m.Written w m') {captured : CapturedDefaults}
    (hfills : ∀ env, PassEnv.build setup.options setup.sources m = .ok env → w.Fills env captured)
    (store : Store) (passes : List PassName) :
    Alike
      (PipelineState.runPasses setup (.injectCallerArguments :: passes) ⟨m, store, captured⟩)
      (PipelineState.runPasses setup (.injectCallerArguments :: passes) ⟨m', store, captured⟩) := by
  refine .cons ?_
  unfold PipelineState.runPass
  dsimp only
  rw [env_written h hw]
  cases hbuild : PassEnv.build setup.options setup.sources m with
  | error e => exact .inl ⟨e, rfl, rfl⟩
  | ok env =>
    obtain ⟨hstore, hfails | ⟨n, n', hn, hn', hmodule⟩⟩ := h.inject (hfills env hbuild) store
    · exact .inl hfails
    · refine .inr ⟨⟨n, n', hn, hn'⟩, ?_⟩
      have hsame : ((⟨m', store, captured⟩ : PipelineState).runPassIn setup env
          .injectCallerArguments).2 = ((⟨m, store, captured⟩ : PipelineState).runPassIn setup env
            .injectCallerArguments).2 := by
        simp only [PipelineState.runPassIn, PipelineState.ofResult, hstore, hmodule]
      dsimp only
      rw [hsame]
      exact .refl _

/-- A run on a module, and one on the module with arguments written out that injection would fill
in. -/
theorem runs_alike (henabled : setup.options.callerCapture.enabled = true) (hw : w.Fits env)
    (hbuild : PassEnv.build setup.options setup.sources m = .ok env)
    (hfills : ∀ env₁, PassEnv.build setup.options setup.sources (extract env m []).1 = .ok env₁ →
      w.settled.Fills env₁ (extract env m []).2.captured)
    (h : m.Written w m') (store : Store) : Alike (run setup m store) (run setup m' store) := by
  have hsynced := h.syncIds hw.bare
  have hbuild : PassEnv.build setup.options setup.sources m.syncIds = .ok env := hbuild
  have hpasses : passes setup.options = .extractCallerDefaults :: .injectCallerArguments ::
      [.intrinsicDispatch, .traceRemoval, .tracingInstrumentation].filter
        (PassName.isEnabled setup.options) := by
    have hon : PassName.isEnabled setup.options .extractCallerDefaults = true ∧
        PassName.isEnabled setup.options .injectCallerArguments = true := ⟨henabled, henabled⟩
    rw [passes, PassName.all, List.filter_cons_of_pos hon.1, List.filter_cons_of_pos hon.2]
  unfold run runFrom
  dsimp only
  rw [env_written hsynced hw.bare, hbuild]
  dsimp only
  rw [checkLinkage_written hsynced]
  cases checkLinkage setup.options m.syncIds env.linkage with
  | error e => exact .inl ⟨e, rfl, rfl⟩
  | ok _ =>
    obtain ⟨hrecords, hleft⟩ := hsynced.extract hw []
    -- Both modules have the same environment and the same records behind extraction.
    have hrun : PipelineState.runPass setup ⟨m.syncIds, store, []⟩ .extractCallerDefaults =
        (.ok (extract env m.syncIds []).2.marked,
          ⟨(extract env m.syncIds []).1, store, (extract env m.syncIds []).2.captured⟩) := by
      rw [PipelineState.runPass, hbuild]
      rfl
    have hrun' : PipelineState.runPass setup ⟨m'.syncIds, store, []⟩ .extractCallerDefaults =
        (.ok (extract env m.syncIds []).2.marked,
          ⟨(extract env m'.syncIds []).1, store, (extract env m.syncIds []).2.captured⟩) := by
      rw [PipelineState.runPass, env_written hsynced hw.bare, hbuild, ← hrecords]
      rfl
    rw [hpasses]
    refine .cons (.inr ?_)
    rw [hrun, hrun']
    exact ⟨⟨_, _, rfl, rfl⟩, injects_alike (w := w.settled) hw.bare hleft hfills store _⟩

/-- Caller capture comes to the same as writing the arguments by hand: runs on a module and on the
module with captured arguments written out fail with the same error, or they end with the same
module and the same descriptors. -/
theorem capture_equals_writing_by_hand (henabled : setup.options.callerCapture.enabled = true)
    (hids : m.declIds.Nodup) (hbuild : PassEnv.build setup.options setup.sources m = .ok env)
    (h : m.Written ((byHand env m).only (Lasting setup env m)) m') (store : Store) :
    Alike (run setup m store) (run setup m' store) :=
  runs_alike henabled lastingByHand_fits hbuild
    (fun _ hbuild₁ => lastingByHand_fills hids hbuild hbuild₁) h store

end Pipeline

/-! ## A function that asks for its caller -/

namespace CallerCapture.Sample

def span (start : Int32) : Span := ⟨⟨0⟩, start, start + 1⟩

def nowhere : Span := .undefined ⟨1⟩

def functionTy : Ty := .ofClass "spyglass.FunctionInfo"

def classTy : Ty := .ofClass "spyglass.ClassInfo"

/-- The intrinsic for the current function, which may have further annotations. -/
def currentFunction (annotations : List AnnotationUse) : Decl :=
  .function
    { id := ⟨100⟩, span := nowhere, origin := .library,
      annotations := { className := "spyglass.Intrinsic", span := nowhere } :: annotations }
    { name := "currentFunction", returnTy := functionTy }
    [⟨{ id := ⟨1⟩, name := "of", ty := classTy, span := nowhere }, none⟩] .absent

def currentClass : Decl :=
  .function
    { id := ⟨101⟩, span := nowhere, origin := .library,
      annotations := [{ className := "spyglass.Intrinsic", span := nowhere }] }
    { name := "currentClass", returnTy := classTy } [] .absent

/-- A function that asks for its caller by default. -/
def log (args : List (Option Expr)) : Decl :=
  .function { id := ⟨1⟩, span := span 10 } { name := "log", returnTy := .unit }
    [⟨{ id := ⟨0⟩, name := "caller", ty := functionTy, span := span 11 },
      some (.call ⟨span 12, functionTy⟩ ⟨100⟩ none [] args)⟩]
    (.block [])

/-- A function with `log` inside a default that is taken out. -/
def host : Decl :=
  .function { id := ⟨2⟩, span := span 20 } { name := "host", returnTy := .unit }
    [⟨{ id := ⟨2⟩, name := "caller", ty := functionTy, span := span 21 },
      some (.call ⟨span 22, functionTy⟩ ⟨100⟩ none []
        [some (.block ⟨span 23, classTy⟩ [.decl (log [])])])⟩]
    (.block [])

/-- A module whose main function calls `log`. -/
def program (annotations : List AnnotationUse) (own : List Decl) (args : List (Option Expr)) :
    Module where
  name := "sample"
  files :=
    [{ id := ⟨0⟩, path := "Main.kt",
       declarations :=
        .function { id := ⟨0⟩, span := span 1 } { name := "main", returnTy := .unit } []
          (.block [.expr (.call ⟨span 2, .unit⟩ ⟨1⟩ none [] args)]) :: own }]
  external :=
    [{ id := ⟨1⟩, path := "Spyglass.kt", package := "spyglass",
       declarations := [currentFunction annotations, currentClass] }]

/-- What the call of `log` omits. -/
def caller : Expr := .call ⟨span 2, functionTy⟩ ⟨100⟩ none [] []

def defaults : PipelineSetup where
  options := {}
  sources := fun _ => []

def ended (m : Module) : Except Error (List (PassName × Nat)) × PipelineState :=
  Pipeline.run defaults m {}

/-- The environment of a module with the two intrinsics. -/
def envOf (m : Module) : PassEnv where
  options := {}
  symbols := SymbolTable.build m
  linkage :=
    { intrinsicKinds := [(⟨100⟩, .currentFunction), (⟨101⟩, .currentClass)]
      intrinsicDecls := [(.currentClass, ⟨101⟩), (.currentFunction, ⟨100⟩)] }
  factory := { symbols := SymbolTable.build m, sources := fun _ => [], moduleName := "sample" }

variable {annotations : List AnnotationUse} {own own' : List Decl} {args args' : List (Option Expr)}
  {w : Writing}

theorem program_written (hown : declsWritten w own own')
    (hargs : argsWritten w ⟨1⟩ (span 2) args 0 args') :
    (program annotations own args).Written w (program annotations own' args') := by
  have hmain : stmtsWritten w [.expr (.call ⟨span 2, .unit⟩ ⟨1⟩ none [] args)]
      [.expr (.call ⟨span 2, .unit⟩ ⟨1⟩ none [] args')] :=
    ⟨_, _, ⟨_, ⟨none, args', rfl, hargs, rfl⟩, rfl⟩, rfl, rfl⟩
  exact ⟨_, .cons ⟨_, ⟨_, own', ⟨[], _, rfl, ⟨_, hmain, rfl⟩, rfl⟩, hown, rfl⟩, rfl⟩ .nil, rfl⟩

theorem log_written (hargs : argsWritten w ⟨100⟩ (span 12) args 0 args')
    (hsame : args' = args ∨ ∀ head params, w.capturing head params = false) :
    (log args).Written w (log args') := by
  refine ⟨_, _, ⟨_, [], ⟨_, ⟨none, args', rfl, hargs, rfl⟩, rfl⟩, fun hcapturing => ?_, rfl, rfl⟩,
    ⟨[], rfl, rfl⟩, rfl⟩
  obtain rfl | hnone := hsame
  · rfl
  · exact absurd (hcapturing.symm.trans (hnone _ _)) (by decide)

theorem log_same : (log []).Written w (log []) := log_written trivial (.inl rfl)

theorem host_same : host.Written w host := by
  have hblock : Expr.Written w (.block ⟨span 23, classTy⟩ [.decl (log [])])
      (.block ⟨span 23, classTy⟩ [.decl (log [])]) :=
    ⟨_, ⟨_, [], ⟨_, log_same, rfl⟩, rfl, rfl⟩, rfl⟩
  exact ⟨_, _, ⟨_, [], ⟨_, ⟨none, _, rfl, ⟨_, [], hblock, trivial, rfl⟩, rfl⟩, rfl⟩, fun _ => rfl, rfl,
    rfl⟩, ⟨[], rfl, rfl⟩, rfl⟩

/-- The argument of `log` is written by hand in the main function. -/
theorem caller_handWritten
    (hlog : log [] ∈ declsOf (filesNodes (program annotations own []).files)) :
    HandWritten (envOf (program annotations own [])) (program annotations own []) ⟨1⟩ 0 (span 2)
      caller := by
  have hcaptures : Captures (envOf (program annotations own [])) (program annotations own []) ⟨1⟩ 0
      .currentFunction ⟨[], []⟩ := .default hlog rfl rfl rfl rfl rfl
  have hintrinsic : currentFunction annotations ∈ (program annotations own []).decls := by
    rw [decls_eq_append]
    exact List.mem_append_right _ (.head _)
  exact .call hcaptures rfl rfl hintrinsic

theorem caller_written (h : w.argument ⟨1⟩ 0 (span 2) caller) :
    argsWritten w ⟨1⟩ (span 2) [] 0 [some caller] :=
  ⟨fun _ => rfl, fun _ heq => Option.some.inj heq ▸ h, trivial⟩

theorem log_lasts :
    Lasting defaults (envOf (program [] [log []] [])) (program [] [log []] []) ⟨1⟩ ⟨100⟩ where
  callee := by decide +kernel
  target := by decide +kernel
  linked := by
    have hbuild : PassEnv.build defaults.options defaults.sources
        (extract (envOf (program [] [log []] [])) (program [] [log []] []) []).1 =
          .ok (envOf (extract (envOf (program [] [log []] [])) (program [] [log []] []) []).1) := rfl
    intro env₁ hbuild₁ kind hkind
    cases hbuild.symm.trans hbuild₁
    exact hkind
  unmarked := by decide +kernel

/-- `log` is told its caller in either way. -/
theorem log_told_by_hand :
    (ended (program [] [log []] [])).1.isOk = true ∧
      Pipeline.Alike (ended (program [] [log []] [])) (ended (program [] [log []] [some caller])) := by
  have hcaller : (lastingByHand defaults (envOf (program [] [log []] []))
      (program [] [log []] [])).argument ⟨1⟩ 0 (span 2) caller := by
    refine ⟨caller_handWritten (.tail _ (.head _)), fun target htarget => ?_⟩
    cases htarget
    exact log_lasts
  have hwritten : (program [] [log []] []).Written (lastingByHand defaults
      (envOf (program [] [log []] [])) (program [] [log []] []))
        (program [] [log []] [some caller]) :=
    program_written ⟨_, [], log_same, rfl, rfl⟩ (caller_written hcaller)
  exact ⟨by decide +kernel, Pipeline.capture_equals_writing_by_hand rfl (by decide +kernel) rfl
    hwritten {}⟩

/-- A marker for an intrinsic that captures an argument itself. -/
def asking : AnnotationUse := marker "spyglass.internal.CallerCapture" ⟨1⟩ ["current-class"]

/-- What the default of `log` omits then. -/
def owner : Expr := .call ⟨span 12, classTy⟩ ⟨101⟩ none [] []

theorem owner_handWritten :
    HandWritten (envOf (program [asking] own [])) (program [asking] own []) ⟨100⟩ 0 (span 12)
      owner := by
  have hasking : currentFunction [asking] ∈ (program [asking] own []).decls := by
    rw [decls_eq_append]
    exact List.mem_append_right _ (.head _)
  have hcaptures : Captures (envOf (program [asking] own [])) (program [asking] own []) ⟨100⟩ 0
      .currentClass ⟨[], []⟩ := .marker hasking rfl rfl rfl rfl
  have hintrinsic : currentClass ∈ (program [asking] own []).decls := by
    rw [decls_eq_append]
    exact List.mem_append_right _ (.tail _ (.head _))
  exact .call hcaptures rfl rfl hintrinsic

/-- Arguments are written by hand in a module with distinct identities, and a run does not treat both
modules alike. -/
def Differs (m m' : Module) : Prop :=
  m.declIds.Nodup ∧ PassEnv.build defaults.options defaults.sources m = .ok (envOf m) ∧
    m.Written (byHand (envOf m) m).settled m' ∧ ¬Pipeline.Alike (ended m) (ended m')

theorem differs_of_isOk {m m' : Module} (hok : (ended m).1.isOk = true)
    (herror : (ended m').1.isOk = false) : ¬Pipeline.Alike (ended m) (ended m') := fun halike => by
  rw [halike.isOk_eq, hok] at herror
  exact nomatch herror

/-- Three ways in which writing an argument by hand makes a difference: the intrinsic captures an
argument itself, the call that omits the argument is a default that is taken out, or the called
function is declared inside such a default. -/
theorem writing_by_hand_differs :
    Differs (program [asking] [log []] []) (program [asking] [log []] [some caller]) ∧
      Differs (program [asking] [log []] []) (program [asking] [log [some owner]] []) ∧
      Differs (program [] [host] []) (program [] [host] [some caller]) := by
  refine ⟨⟨by decide +kernel, rfl, ?_, ?_⟩, ⟨by decide +kernel, rfl, ?_, ?_⟩,
    ⟨by decide +kernel, rfl, ?_, ?_⟩⟩
  · exact program_written ⟨_, [], log_same, rfl, rfl⟩
      (caller_written (caller_handWritten (.tail _ (.head _))))
  · exact differs_of_isOk (by decide +kernel) (by decide +kernel)
  · refine program_written ⟨_, [], log_written ?_ (.inr fun _ _ => rfl), rfl, rfl⟩ trivial
    exact ⟨fun _ => rfl, fun _ heq => Option.some.inj heq ▸ owner_handWritten, trivial⟩
  · exact differs_of_isOk (by decide +kernel) (by decide +kernel)
  · exact program_written ⟨_, [], host_same, rfl, rfl⟩
      (caller_written (caller_handWritten (.tail _ (.tail _ (.head _)))))
  · intro halike
    have ⟨hok, hnone⟩ : (ended (program [] [host] [])).1.isOk ∧
        (ended (program [] [host] [])).2.store.functions.values.length = 0 := by
      decide +kernel
    have hstore := halike.store_eq hok
    have hone : (ended (program [] [host] [some caller])).2.store.functions.values.length = 1 := by
      decide +kernel
    rw [hstore, hnone] at hone
    exact nomatch hone

end CallerCapture.Sample

end TraceWeave

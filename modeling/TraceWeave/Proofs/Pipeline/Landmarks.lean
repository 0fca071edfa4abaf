import TraceWeave.Proofs.Pipeline.References
import TraceWeave.Proofs.Program.Index

/-! # What passes cannot take away

The declarations of the files, their members and accessors are landmarks: they stand in no code, so
no pass that moves or drops code can take them away or give them other names. What stands in code
may go, but a declaration that is there after such a pass has the face of one that was there before.

`Module.landmarks` lists them and `filesWalk_landmarks`, `CallerCapture.filesExtract_landmarks`
and `Removal.filesPrune_landmarks` say that they stay. A `Face` is what is kept of any
declaration; faces are labels (`Labels.faces`), which passes do not invent.
-/

namespace TraceWeave

/-! ## Landmarks -/

/-- What the index says about a declaration apart from what is in it. -/
structure Landmark where
  id : DeclId
  fqName : String
  isFunction : Bool
  deriving DecidableEq, Repr

def Symbol.landmark (s : Symbol) : Landmark := ⟨s.id, s.fqName, s.function?.isSome⟩

/-- The landmark of a declaration below a qualified name. -/
def Decl.landmark (scope : String) (d : Decl) : Landmark :=
  ⟨d.id, qualify scope d.symbolName, d.functionHead?.isSome⟩

mutual

/-- The landmarks of a declaration below a qualified name: its own, and those of its members and
accessors. -/
def Decl.landmarks (scope : String) : Decl → List Landmark
  | .classDecl head info members =>
    let d := Decl.classDecl head info members
    declsLandmarks (qualify scope d.symbolName) members ++ [d.landmark scope]
  | .property head info backing getter setter =>
    accessorLandmarks scope backing ++ accessorLandmarks scope getter ++
      accessorLandmarks scope setter ++
      [(Decl.property head info backing getter setter).landmark scope]
  | .function head info params body => [(Decl.function head info params body).landmark scope]
  | .field head info init => [(Decl.field head info init).landmark scope]
  | .initializer head body => [(Decl.initializer head body).landmark scope]

def accessorLandmarks (scope : String) : Option Decl → List Landmark
  | none => []
  | some d => d.landmarks scope

def declsLandmarks (scope : String) : List Decl → List Landmark
  | [] => []
  | d :: ds => d.landmarks scope ++ declsLandmarks scope ds

end

/-- The landmarks of files. -/
def filesLandmarks (fs : List SourceFile) : List Landmark :=
  fs.flatMap fun f => declsLandmarks f.package f.declarations

/-- The landmarks of the own files, and all that the index says about the external ones, which no
pass changes. -/
def Module.landmarks (m : Module) : List Landmark :=
  filesLandmarks m.files ++ (m.external.flatMap (symbolsOfFile true)).map Symbol.landmark

mutual

theorem Decl.landmarks_sublist : ∀ (d : Decl) (sc : SymbolScope),
    (d.landmarks sc.scope).Sublist ((d.symbols sc).map Symbol.landmark)
  | .classDecl head info members, sc => by
    rw [Decl.landmarks, Decl.symbols, List.map_append]
    exact (declsLandmarks_sublist members (sc.inside (.classDecl head info members))).append
      (.refl _)
  | .property head info backing getter setter, sc => by
    rw [Decl.landmarks, Decl.symbols, List.map_append, List.map_append, List.map_append]
    let inner := sc.accessors (.property head info backing getter setter)
    exact (((accessorLandmarks_sublist backing inner).append
      (accessorLandmarks_sublist getter inner)).append
      (accessorLandmarks_sublist setter inner)).append (.refl _)
  | .function _ _ _ _, sc => by
    rw [Decl.landmarks, Decl.symbols, List.map_append]
    exact List.sublist_append_right _ _
  | .field _ _ _, sc => by
    rw [Decl.landmarks, Decl.symbols, List.map_append]
    exact List.sublist_append_right _ _
  | .initializer _ _, sc => by
    rw [Decl.landmarks, Decl.symbols, List.map_append]
    exact List.sublist_append_right _ _

theorem accessorLandmarks_sublist : ∀ (d : Option Decl) (sc : SymbolScope),
    (accessorLandmarks sc.scope d).Sublist ((accessorSymbols sc d).map Symbol.landmark)
  | none, _ => .slnil
  | some d, sc => d.landmarks_sublist sc

theorem declsLandmarks_sublist : ∀ (ds : List Decl) (sc : SymbolScope),
    (declsLandmarks sc.scope ds).Sublist ((declsSymbols sc ds).map Symbol.landmark)
  | [], _ => .slnil
  | d :: ds, sc => by
    rw [declsLandmarks, declsSymbols, List.map_append]
    exact (d.landmarks_sublist sc).append (declsLandmarks_sublist ds sc)

end

theorem filesLandmarks_sublist : ∀ fs : List SourceFile, (filesLandmarks fs).Sublist
    ((fs.flatMap (Module.symbolsOfFile false)).map Symbol.landmark)
  | [] => .slnil
  | f :: fs => by
    rw [filesLandmarks, List.flatMap_cons, List.flatMap_cons, List.map_append]
    exact (declsLandmarks_sublist f.declarations
      { file := f.id, external := false, scope := f.package }).append (filesLandmarks_sublist fs)

/-- Every landmark has a symbol. -/
theorem Module.exists_symbol_of_landmark {m : Module} {l : Landmark} (hl : l ∈ m.landmarks) :
    ∃ s ∈ m.symbols, s.landmark = l := by
  have hsub : m.landmarks.Sublist (m.symbols.map Symbol.landmark) := by
    rw [Module.landmarks, Module.symbols, List.map_append]
    exact (filesLandmarks_sublist m.files).append (.refl _)
  exact List.mem_map.mp (hsub.mem hl)

/-! ### Passes keep landmarks -/

section

variable {σ : Type} {v : Visitor σ}

/-- A visitor that leaves declarations as they are. -/
def Visitor.LeavesDecls (v : Visitor σ) : Prop := ∀ sc d st, v.onDecl sc d st = (d, st)

theorem Visitor.LeavesDecls.landmarks (hv : v.LeavesDecls) (sc : ScopeStack) (d : Decl) (st : σ)
    (scope : String) : (v.onDecl sc d st).1.landmarks scope = d.landmarks scope := by
  rw [hv]

mutual

theorem Decl.walk_landmarks (hv : v.LeavesDecls) : ∀ (d : Decl) (sc : ScopeStack) (st : σ)
    (scope : String), (d.walk v sc st).1.landmarks scope = d.landmarks scope
  | .classDecl _ _ members, _, _, _ => by
    rw [Decl.walk]
    exact (hv.landmarks ..).trans (congrArg (· ++ _) (declsWalk_landmarks hv members _ _ _))
  | .property _ _ backing getter setter, _, _, _ => by
    rw [Decl.walk]
    refine (hv.landmarks ..).trans ?_
    simp only [Decl.landmarks, accessorWalk_landmarks hv backing, accessorWalk_landmarks hv getter,
      accessorWalk_landmarks hv setter]
    rfl
  | .function _ _ _ _, _, _, _ => by
    rw [Decl.walk]
    exact hv.landmarks ..
  | .field _ _ _, _, _, _ => by
    rw [Decl.walk]
    exact hv.landmarks ..
  | .initializer _ _, _, _, _ => by
    rw [Decl.walk]
    exact hv.landmarks ..

theorem accessorWalk_landmarks (hv : v.LeavesDecls) : ∀ (d : Option Decl) (sc : ScopeStack)
    (st : σ) (scope : String),
    accessorLandmarks scope (accessorWalk v sc d st).1 = accessorLandmarks scope d
  | none, _, _, _ => rfl
  | some d, sc, st, scope => d.walk_landmarks hv sc st scope

theorem declsWalk_landmarks (hv : v.LeavesDecls) : ∀ (ds : List Decl) (sc : ScopeStack) (st : σ)
    (scope : String), declsLandmarks scope (declsWalk v sc ds st).1 = declsLandmarks scope ds
  | [], _, _, _ => rfl
  | d :: ds, sc, st, scope =>
    congrArg₂ (· ++ ·) (d.walk_landmarks hv sc st scope) (declsWalk_landmarks hv ds sc _ scope)

end

theorem filesWalk_landmarks (hv : v.LeavesDecls) : ∀ (fs : List SourceFile) (st : σ),
    filesLandmarks (filesWalk v fs st).1 = filesLandmarks fs
  | [], _ => rfl
  | f :: fs, st =>
    congrArg₂ (· ++ ·) (declsWalk_landmarks hv f.declarations {} st f.package)
      (filesWalk_landmarks hv fs _)

end

namespace CallerCapture

variable (env : PassEnv)

mutual

theorem declExtract_landmarks : ∀ (d : Decl) (x : Extraction) (scope : String),
    (declExtract env d x).1.landmarks scope = d.landmarks scope
  | .classDecl _ _ members, x, scope => congrArg (· ++ _) (declsExtract_landmarks members x _)
  | .property _ _ backing getter setter, x, scope => by
    simp only [declExtract, Decl.landmarks, accessorExtract_landmarks backing,
      accessorExtract_landmarks getter, accessorExtract_landmarks setter]
    rfl
  | .function _ _ _ _, x, scope => by
    rw [declExtract]
    split <;> rfl
  | .field _ _ _, x, scope => rfl
  | .initializer _ _, x, scope => rfl

theorem accessorExtract_landmarks : ∀ (d : Option Decl) (x : Extraction) (scope : String),
    accessorLandmarks scope (accessorExtract env d x).1 = accessorLandmarks scope d
  | none, _, _ => rfl
  | some d, x, scope => declExtract_landmarks d x scope

theorem declsExtract_landmarks : ∀ (ds : List Decl) (x : Extraction) (scope : String),
    declsLandmarks scope (declsExtract env ds x).1 = declsLandmarks scope ds
  | [], _, _ => rfl
  | d :: ds, x, scope =>
    congrArg₂ (· ++ ·) (declExtract_landmarks d x scope) (declsExtract_landmarks ds _ scope)

end

theorem filesExtract_landmarks : ∀ (fs : List SourceFile) (x : Extraction),
    filesLandmarks (filesExtract env fs x).1 = filesLandmarks fs
  | [], _ => rfl
  | f :: fs, x =>
    congrArg₂ (· ++ ·) (declsExtract_landmarks env f.declarations x f.package)
      (filesExtract_landmarks fs _)

end CallerCapture

namespace Removal

variable (keys : List CallKey)

mutual

theorem declPrune_landmarks (owner : Option DeclId) : ∀ (d : Decl) (scope : String),
    (declPrune keys owner d).1.landmarks scope = d.landmarks scope
  | .classDecl _ _ members, scope => congrArg (· ++ _) (declsPrune_landmarks _ members _)
  | .property _ _ backing getter setter, scope => by
    simp only [declPrune, Decl.landmarks, accessorPrune_landmarks owner backing,
      accessorPrune_landmarks owner getter, accessorPrune_landmarks owner setter]
    rfl
  | .function _ _ _ _, scope => rfl
  | .field _ _ _, scope => rfl
  | .initializer _ _, scope => rfl

theorem accessorPrune_landmarks (owner : Option DeclId) : ∀ (d : Option Decl) (scope : String),
    accessorLandmarks scope (accessorPrune keys owner d).1 = accessorLandmarks scope d
  | none, _ => rfl
  | some d, scope => declPrune_landmarks owner d scope

theorem declsPrune_landmarks (owner : Option DeclId) : ∀ (ds : List Decl) (scope : String),
    declsLandmarks scope (declsPrune keys owner ds).1 = declsLandmarks scope ds
  | [], _ => rfl
  | d :: ds, scope =>
    congrArg₂ (· ++ ·) (declPrune_landmarks owner d scope) (declsPrune_landmarks owner ds scope)

end

theorem filesPrune_landmarks : ∀ fs : List SourceFile,
    filesLandmarks (filesPrune keys fs).1 = filesLandmarks fs
  | [] => rfl
  | f :: fs =>
    congrArg₂ (· ++ ·) (declsPrune_landmarks keys none f.declarations f.package)
      (filesPrune_landmarks fs)

end Removal

/-! ## Faces -/

/-- What passes that move code leave of every declaration they keep: its identity, the uses of one
annotation, and whether it is a function. -/
structure Face where
  id : DeclId
  uses : List AnnotationUse
  isFunction : Bool

def Decl.face (selectedBy : String) (d : Decl) : Face :=
  ⟨d.id, AnnotationUse.ofClass d.head.annotations selectedBy, d.functionHead?.isSome⟩

/-- The faces of declarations as their labels. -/
def Labels.faces (selectedBy : String) : Labels Face where
  label n := match n.shell with
    | .decl head function =>
      [⟨head.id, AnnotationUse.ofClass head.annotations selectedBy, function.isSome⟩]
    | _ => []
  shallow h := by rw [h]
  code h := by rw [h]

@[simp] theorem Labels.faces_decl (selectedBy : String) (d : Decl) :
    (faces selectedBy).label (.decl d) = [d.face selectedBy] := by
  cases d <;> rfl

theorem Labels.faces_expr (selectedBy : String) (e : Expr) :
    (faces selectedBy).label (.expr e) = [] := by
  cases e <;> rfl

theorem Labels.faces_within {selectedBy : String} {known : Face → Prop} {nodes : List Node} :
    (faces selectedBy).Within known nodes ↔ ∀ d ∈ declsOf nodes, known (d.face selectedBy) := by
  induction nodes with
  | nil => exact ⟨nofun, fun _ => .nil⟩
  | cons n nodes ih =>
    rw [Within.cons_iff, ih]
    cases n with
    | decl d => simp
    | param | var => exact and_iff_right nofun
    | expr e =>
      rw [faces_expr]
      exact and_iff_right nofun

theorem Module.mem_decls {m : Module} {d : Decl} :
    d ∈ m.decls ↔ d ∈ declsOf (filesNodes m.files) ∨ d ∈ declsOf (filesNodes m.external) := by
  rw [decls, nodes_eq, declsOf_append, List.mem_append]

/-- With distinct identities a declaration is known by its identity. -/
theorem Module.decl_unique {m : Module} (h : m.declIds.Nodup) {d d' : Decl} (hd : d ∈ m.decls)
    (hd' : d' ∈ m.decls) (hid : d.id = d'.id) : d = d' := by
  have hfound := find?_of_distinct Decl.id h hd
  rw [hid, find?_of_distinct Decl.id h hd'] at hfound
  exact (Option.some.inj hfound).symm

def Symbol.face (selectedBy : String) (s : Symbol) : Face :=
  ⟨s.id, AnnotationUse.ofClass s.head.annotations selectedBy, s.function?.isSome⟩

theorem Module.exists_decl_of_symbol {m : Module} {s : Symbol} (hs : s ∈ m.symbols)
    (selectedBy : String) : ∃ d ∈ m.decls, d.face selectedBy = s.face selectedBy := by
  have hmem : s.outline ∈ m.decls.map Decl.outline :=
    m.symbols_of.mem_iff.mp (List.mem_map_of_mem hs)
  obtain ⟨d, hd, houtline⟩ := List.mem_map.mp hmem
  obtain ⟨hhead, hfunction⟩ := Prod.mk.inj houtline
  refine ⟨d, hd, ?_⟩
  rw [Decl.face, Symbol.face, hfunction, Option.isSome_map]
  unfold Symbol.id
  rw [← hhead]
  rfl

namespace SymbolTable

variable {m : Module} {s : Symbol}

theorem exists_get?_of_mem (hs : s ∈ m.symbols) : ∃ t, (build m).get? s.id = some t := by
  rw [← Option.isSome_iff_exists, get?, List.find?_isSome]
  refine ⟨s, ?_, by simp⟩
  rwa [newest_build, List.mem_reverse]

theorem mem_lookup (hs : s ∈ m.symbols) : s.id ∈ (build m).lookup s.fqName := by
  unfold lookup
  rw [newest_build]
  refine List.mem_map_of_mem (List.mem_reverse.mpr (List.mem_filter.mpr ⟨?_, by simp⟩))
  exact List.mem_reverse.mpr hs

end SymbolTable

/-! ### Passes keep labels -/

section

variable {ρ : Type} {L : Labels ρ} {known : ρ → Prop} {env : PassEnv}

/-- Labels that no result of an intrinsic call shows. -/
def Labels.Tacit (L : Labels ρ) : Prop :=
  ∀ (resolved : Resolved) (site : Site), L.label (.expr (resolved.toExpr site)) = []

theorem Labels.Tacit.within (hL : L.Tacit) (resolved : Resolved) (site : Site) :
    L.Within known (resolved.toExpr site).nodes := by
  have hnodes : (resolved.toExpr site).nodes = [.expr (resolved.toExpr site)] := by
    cases resolved <;> rfl
  rw [hnodes, Within.cons_iff, hL]
  exact ⟨fun _ hr => absurd hr List.not_mem_nil, .nil⟩

theorem Labels.faces_tacit (selectedBy : String) : (faces selectedBy).Tacit := by
  rintro (_ | _ | _ | _) site <;> rfl

/-- Whatever a call is resolved to, nothing is declared in it. -/
theorem Dispatch.dispatcher_keepsLabels (hL : L.Tacit) {registry : Registry} :
    (dispatcher registry env).Keeps (.fixed L PassState known) where
  onDecl _ _ _ := .same
  onExpr sc _ e st := by
    change Knowledge.Keeps _ _ (PassState.edit (replaceCall registry env sc) e st).2 _
      (PassState.edit (replaceCall registry env sc) e st).1.nodes
    unfold PassState.edit replaceCall
    split
    · exact .same
    · split
      · split
        · exact .same
        · split
          · dsimp only
            split
            · exact fun _ _ => ⟨trivial, fun _ hr => hr, hL.within _ _⟩
            · exact fun _ hbefore => ⟨trivial, fun _ hr => hr, hbefore⟩
          · exact .same
      · exact .same

theorem CallerCapture.injector_keepsLabels {captured : CapturedDefaults}
    (hcaptured : CapturedIn L known captured) :
    (injector env captured).Keeps (.fixed L PassState known) where
  onDecl _ _ _ := .same
  onExpr sc _ e st := by
    change Knowledge.Keeps _ _ (PassState.edit (injectCall env captured) e st).2 _
      (PassState.edit (injectCall env captured) e st).1.nodes
    unfold PassState.edit injectCall
    split
    · exact .same
    · split
      · split
        · exact fun _ hbefore => ⟨trivial, fun _ hr => hr, hbefore⟩
        · exact .same
        · exact fun _ hbefore => ⟨trivial, fun _ hr => hr,
            within_filledCall hbefore fun _ _ _ he => within_freshCall hcaptured he⟩
      · exact .same

variable {selectedBy : String}

/-- A marker of another class than the selecting annotation does not change a face. -/
theorem CallerCapture.faces_ignoreMarkers (h : env.options.callerCapture.marker ≠ selectedBy) :
    IgnoresMarkers (.faces selectedBy) env := by
  intro head params info params' body' params'' body''
  have huses : AnnotationUse.ofClass (markedHead env head params).annotations selectedBy =
      AnnotationUse.ofClass head.annotations selectedBy := by
    simp [AnnotationUse.ofClass, markedHead, marker, h]
  rw [Labels.faces_decl, Labels.faces_decl, Decl.face, Decl.face]
  simp only [Decl.head, huses]
  rfl

end

end TraceWeave

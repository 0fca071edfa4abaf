import TraceWeave.Proofs.Factory.Obtained

/-! # The order of requests

The first request for a key decides what its descriptor contains. Where keys stand for one
declaration each, it does not matter which request that is: two sequences of requests leave stores
that say the same about everything that both have, up to the renaming of handles. A variable has
one key for its function and for frame captures, and a frame capture knows nothing of its
annotations. So the variable of a captured frame has to be without annotations.

`Factory.Answered` is what one sequence leaves, `Renaming.between` the renaming from one store to
the other, and `Factory.contents_independent_of_order` the result.
-/

namespace TraceWeave

open Factory

/-! ## The handles that two stores share -/

namespace Renaming

variable {s s' : Store}

/-- Whether two handles belong to one key. -/
def Partners (s s' : Store) {k : DescriptorKind} (h h' : Handle k) : Prop :=
  ∃ key, s.Finds k key h ∧ s'.Finds k key h'

theorem Partners.unique (hs : s.Sound) (hs' : s'.Sound) {k : DescriptorKind} {h g h' g' : Handle k}
    (hh : Partners s s' h h') (hg : Partners s s' g g') : h = g ↔ h' = g' := by
  obtain ⟨key, hkey, hkey'⟩ := hh
  obtain ⟨key', hgkey, hgkey'⟩ := hg
  rw [hs.handle_eq_iff hkey hgkey, hs'.handle_eq_iff hkey' hgkey']

open Classical in
/-- The renaming that takes the handle of a key in one store to its handle in another. -/
noncomputable def between (hs : s.Sound) (hs' : s'.Sound) : Renaming where
  shared r := ∃ h' : Handle r.kind, Partners s s' ⟨r.index⟩ h'
  apply h := if hh : ∃ h', Partners s s' h h' then hh.choose else h
  injective := by
    intro k h g (hh : ∃ h', Partners s s' h h') (hg : ∃ g', Partners s s' g g') heq
    rw [dif_pos hh, dif_pos hg] at heq
    exact (Partners.unique hs hs' hh.choose_spec hg.choose_spec).mpr heq

theorem between_takes (hs : s.Sound) (hs' : s'.Sound) {k : DescriptorKind} {h h' : Handle k}
    (hh : Partners s s' h h') : (between hs hs').Takes h h' := by
  have hex : ∃ h', Partners s s' h h' := ⟨h', hh⟩
  refine ⟨?_, hex⟩
  have happly : (between hs hs').apply h = hex.choose := dif_pos hex
  rw [happly]
  exact (Partners.unique hs hs' hh hex.choose_spec).mp rfl

theorem partners_of_shared (hs : s.Sound) (hs' : s'.Sound) {k : DescriptorKind} {h : Handle k}
    (hh : (between hs hs').shared h.toRef) : Partners s s' h ((between hs hs').apply h) := by
  obtain ⟨h', hpartners⟩ : ∃ h', Partners s s' h h' := hh
  rw [← (between_takes hs hs' hpartners).eq]
  exact hpartners

end Renaming

namespace Factory

variable {f : Factory} {asked : Request → Prop}

/-! ## The stores of two sequences -/

/-- What a sequence of requests leaves behind if all of them succeed. -/
structure Answered (f : Factory) (asked : Request → Prop) (rs : List Request) (as : List Answer)
    (s : Store) : Prop where
  sound : s.Sound
  sourced : s.Sourced f.sources
  explained : f.Explained asked s
  answers : List.Forall₂ (f.AnswerIs s) rs as
  none_building : ∀ k h, (s.arena k).slot? h ≠ some .building

theorem answered_of_run {rs : List Request} {as : List Answer} {s : Store}
    (hasked : ∀ r ∈ rs, asked r) (hrun : (rs.mapM f.serve).runOn {} = (.ok as, s)) :
    f.Answered asked rs as s := by
  have hserve : (rs.mapM f.serve).Obtains f asked fun u as => List.Forall₂ (f.AnswerIs u) rs as :=
    .mapM fun r hr => f.obtains_serve (hasked r hr)
  obtain ⟨⟨hsound, hsourced, hextends⟩, hok⟩ :=
    hserve {} _ s hrun Store.sound_empty (Store.sourced_empty _)
  obtain ⟨hexplained, hanswers⟩ := hok as rfl
  refine ⟨hsound, hsourced, hexplained explained_empty, hanswers s (.refl s), fun k h => ?_⟩
  refine (hextends.arenas k).settled h.index.toNat ?_
  rw [Store.arena_empty]
  exact Nat.zero_le _

/-- Every key leads to a finished descriptor with its content. -/
theorem Answered.info {rs : List Request} {as : List Answer} {s : Store}
    (h : f.Answered asked rs as s) {k : DescriptorKind} {key : k.Key} {x : Handle k}
    (hfinds : s.Finds k key x) :
    ∃ info, (s.arena k).get? x = some info ∧ f.Describes asked s k key info := by
  obtain ⟨slot, hslot, hlive⟩ := ((h.sound k).live x).mp (List.mem_map_of_mem hfinds)
  cases slot with
  | building => exact absurd hslot (h.none_building k x)
  | failed => exact absurd hlive Bool.false_ne_true
  | ready info =>
    have hget := Arena.get?_eq_some_iff.mpr hslot
    exact ⟨info, hget, h.explained k key x info hfinds hget s (.refl s)⟩

/-- Texts of one path are the same, whatever the spelling that they were read under. -/
theorem places_unique (hsources : f.sources.Componentwise) {s s' : Store}
    (hs : s.Sourced f.sources) (hs' : s'.Sourced f.sources) {span : Span}
    {position position' : Source.Position} (hp : f.Places s span position)
    (hp' : f.Places s' span position') : position' = position := by
  unfold Places at hp hp'
  split at hp
  · rename_i hneg
    rw [if_pos hneg] at hp'
    exact hp'.trans hp.symm
  · rename_i hneg
    rw [if_neg hneg] at hp'
    obtain ⟨lines, hlines, rfl⟩ := hp
    obtain ⟨lines', hlines', rfl⟩ := hp'
    obtain ⟨spelling, hspelling, rfl⟩ := hs _ _ hlines
    obtain ⟨spelling', hspelling', rfl⟩ := hs' _ _ hlines'
    rw [hsources spelling spelling' (hspelling.trans hspelling'.symm)]

section

variable {rs rs' : List Request} {as as' : List Answer} {s s' : Store}

theorem Answered.joins (hsources : f.sources.Componentwise) (h : f.Answered asked rs as s)
    (h' : f.Answered asked rs' as' s') : f.Joins (.between h.sound h'.sound) s s' where
  takes hfinds hfinds' := Renaming.between_takes _ _ ⟨_, hfinds, hfinds'⟩
  places := places_unique hsources h.sourced h'.sourced

theorem Answered.carries (hsources : f.sources.Componentwise) (hkeys : f.KeysApart asked)
    (h : f.Answered asked rs as s) (h' : f.Answered asked rs' as' s') :
    (Renaming.between h.sound h'.sound).Carries s s' := by
  intro k x hshared
  obtain ⟨key, hfinds, hfinds'⟩ := Renaming.partners_of_shared h.sound h'.sound hshared
  obtain ⟨info, hget, hinfo⟩ := h.info hfinds
  obtain ⟨info', hget', hinfo'⟩ := h'.info hfinds'
  obtain ⟨rfl, hrefs⟩ := (h.joins hsources h').info hkeys hinfo hinfo'
  exact ⟨info, hget, hget', hrefs⟩

theorem exists_of_getElem? {α β : Type} {P : α → β → Prop} {xs : List α} {ys : List β}
    (h : List.Forall₂ P xs ys) {i : Nat} {x : α} (hx : xs[i]? = some x) :
    ∃ y, ys[i]? = some y ∧ P x y := by
  obtain ⟨hi, rfl⟩ := List.getElem?_eq_some_iff.mp hx
  have hi' : i < ys.length := h.length_eq ▸ hi
  exact ⟨ys[i], List.getElem?_eq_getElem hi', h.get hi hi'⟩

/-- **Contents do not depend on the order of requests.** Two sequences of requests that succeed
leave stores that a renaming of handles carries over: a request of both sequences is answered with
the same handles, and these lead to descriptors that are the same in all fields, as long as keys
stand for one declaration each. -/
theorem contents_independent_of_order (hsources : f.sources.Componentwise)
    (hkeys : f.KeysApart (· ∈ rs ++ rs')) (hrun : (rs.mapM f.serve).runOn {} = (.ok as, s))
    (hrun' : (rs'.mapM f.serve).runOn {} = (.ok as', s')) :
    ∃ ρ : Renaming, ρ.Carries s s' ∧ ∀ (i j : Nat) r, rs[i]? = some r → rs'[j]? = some r →
      ∃ a, as[i]? = some a ∧ as'[j]? = some (a.rename ρ) ∧ ∀ q ∈ a.refs, ρ.shared q := by
  have h : f.Answered (· ∈ rs ++ rs') rs as s :=
    answered_of_run (fun _ => List.mem_append_left _) hrun
  have h' : f.Answered (· ∈ rs ++ rs') rs' as' s' :=
    answered_of_run (fun _ => List.mem_append_right _) hrun'
  refine ⟨_, h.carries hsources hkeys h', fun i j r hi hj => ?_⟩
  obtain ⟨a, ha, hanswer⟩ := exists_of_getElem? h.answers hi
  obtain ⟨a', ha', hanswer'⟩ := exists_of_getElem? h'.answers hj
  obtain ⟨rfl, hshared⟩ := (h.joins hsources h').answer hanswer hanswer'
  exact ⟨a, ha, ha', hshared⟩

end

/-! ## A class with a method, asked for in different orders -/

namespace OrderSample

def span (start : Int32) : Span := ⟨⟨0⟩, start, start + 1⟩

/-- The variable of the method, with annotations. -/
def localHead (uses : List AnnotationUse) : VarHead :=
  { id := ⟨2⟩, name := "x", ty := .int, span := span 6, annotations := uses }

def moduleWith (uses : List AnnotationUse) : Module where
  name := "order"
  files :=
    [{ id := ⟨0⟩, path := "Main.kt",
       declarations :=
        [.classDecl { id := ⟨0⟩, span := span 1 } { name := "C" }
          [.function { id := ⟨1⟩, span := span 2 } { name := "f", returnTy := .unit } []
            (.block [.var (localHead uses) none])]] }]

def factory (uses : List AnnotationUse) : Factory where
  symbols := .build (moduleWith uses)
  sources := .ofTexts [("Main.kt", "class C { val x: Int }")]
  moduleName := "order"

/-- The frame of the method behind its variable. -/
def frame : Request := .frameCapture (.function ⟨1⟩) [.ofVar (localHead [])] (span 8)

/-- The answers to requests, and the store that they leave. -/
def outcome (uses : List AnnotationUse) (rs : List Request) : Except Error (List Answer) × Store :=
  (rs.mapM (factory uses).serve).runOn {}

def classSymbol : Symbol where
  head := { id := ⟨0⟩, span := span 1 }
  parent := none
  file := ⟨0⟩
  fqName := "C"
  name := "C"
  external := false
  kind := .classSymbol { head := { name := "C" }, members := [⟨1⟩], primaryConstructor := none }

def methodSymbol (uses : List AnnotationUse) : Symbol where
  head := { id := ⟨1⟩, span := span 2 }
  parent := some ⟨0⟩
  file := ⟨0⟩
  fqName := "C.f"
  name := "f"
  external := false
  kind := .function {
    head := { name := "f", returnTy := .unit }, params := [], hasBody := true,
    locals := [localHead uses] }

theorem newest_eq (uses : List AnnotationUse) :
    (factory uses).symbols.newest = [classSymbol, methodSymbol uses] := by
  have hname : toString "C" ++ toString "." ++ toString "f" = "C.f" := by decide
  simp [factory, SymbolTable.build, moduleWith, SymbolTable.addFile, declsSymbols, Decl.symbols,
    SymbolScope.symbol, Decl.head, Decl.id, qualify, Decl.symbolName, SymbolScope.inside,
    Decl.isPrimaryConstructor, Body.symbols, Body.locals, Body.isPresent, stmtsSymbols, stmtsLocals,
    Stmt.symbols, Stmt.locals, optionSymbols, optionLocals, paramsSymbols, classSymbol,
    methodSymbol, hname]

theorem known {uses : List AnnotationUse} {id : DeclId} {s : Symbol}
    (h : (factory uses).symbols.get? id = some s) :
    (id = ⟨0⟩ ∧ s = classSymbol) ∨ (id = ⟨1⟩ ∧ s = methodSymbol uses) := by
  have hid := List.find?_some h
  have hmem := List.mem_of_find?_eq_some h
  rw [newest_eq, List.mem_cons, List.mem_singleton] at hmem
  rcases hmem with rfl | rfl
  · exact .inl ⟨(beq_iff_eq.mp hid).symm, rfl⟩
  · exact .inr ⟨(beq_iff_eq.mp hid).symm, rfl⟩

theorem known_kind {uses : List AnnotationUse} {α : Type} {pick : Symbol → Option α} {id : DeclId}
    {s : Symbol} {info : α} (h : (do
      let symbol ← (factory uses).symbols.get? id
      let info ← pick symbol
      some (symbol, info)) = some (s, info)) :
    ((id = ⟨0⟩ ∧ s = classSymbol) ∨ (id = ⟨1⟩ ∧ s = methodSymbol uses)) ∧ pick s = some info := by
  obtain ⟨s', hs', h⟩ := Option.bind_eq_some_iff.mp h
  obtain ⟨info', hinfo, h⟩ := Option.bind_eq_some_iff.mp h
  cases h
  exact ⟨known hs', hinfo⟩

theorem known_function {uses : List AnnotationUse} {id : DeclId} {s : Symbol} {g : FunctionSymbol}
    (h : (factory uses).symbols.function? id = some (s, g)) :
    id = ⟨1⟩ ∧ s = methodSymbol uses ∧ g.params = [] ∧ g.locals = [localHead uses] := by
  obtain ⟨⟨rfl, rfl⟩ | ⟨rfl, rfl⟩, hg⟩ := known_kind h
  · cases hg
  · cases hg
    exact ⟨rfl, rfl, rfl, rfl⟩

theorem known_class {uses : List AnnotationUse} {id : DeclId} {s : Symbol} {c : ClassSymbol}
    (h : (factory uses).symbols.class? id = some (s, c)) : id = ⟨0⟩ := by
  obtain ⟨⟨rfl, -⟩ | ⟨-, rfl⟩, hc⟩ := known_kind h
  · rfl
  · cases hc

/-- The method owns the variables of its frame. -/
theorem owner_eq :
    ((factory []).variableOwner (.function ⟨1⟩)).toOption.map Prod.snd = some "C.f" := by
  decide +kernel

/-- The requests of two orders. -/
def first : List Request := [.classInfo ⟨0⟩, frame]

def second : List Request := [frame, .functionInfo ⟨1⟩, .classInfo ⟨0⟩]

/-- Without annotations the variable of the method is the same for its function and its frame. -/
theorem known_local {owner : UInt64} {name : String} {v : VariableSite}
    (h : (factory []).OwnsLocal (· ∈ first ++ second) owner name v) :
    name = "C.f" ∧ v = .ofVar (localHead []) := by
  cases h with
  | declared hid hv =>
    obtain ⟨-, rfl, -, hlocals⟩ := known_function hid
    rw [hlocals, List.mem_singleton] at hv
    exact ⟨rfl, hv ▸ rfl⟩
  | captured hasked howner hv =>
    simp only [first, second, frame, List.cons_append, List.nil_append, List.mem_cons,
      List.not_mem_nil, or_false, reduceCtorEq, false_or, Request.frameCapture.injEq] at hasked
    obtain ⟨rfl, rfl, -⟩ : _ ∧ _ ∧ _ := hasked.elim id id
    rw [List.mem_singleton] at hv
    have hname := owner_eq
    rw [howner] at hname
    exact ⟨Option.some.inj hname, hv ▸ rfl⟩

theorem keysApart : (factory []).KeysApart (· ∈ first ++ second) where
  classes h h' _ := (known_class h).trans (known_class h').symm
  bare hasked := by simp [first, second, frame] at hasked
  functions h h' _ := (known_function h).1.trans (known_function h').1.symm
  properties h := by
    obtain ⟨⟨-, rfl⟩ | ⟨-, rfl⟩, hp⟩ := known_kind h <;> cases hp
  fields h := by
    obtain ⟨⟨-, rfl⟩ | ⟨-, rfl⟩, hp⟩ := known_kind h <;> cases hp
  parameters h := by
    obtain ⟨hid, hp⟩ := h
    rw [(known_function hid).2.2.1] at hp
    cases hp
  locals h h' _ := by
    obtain ⟨rfl, rfl⟩ := known_local h
    obtain ⟨rfl, rfl⟩ := known_local h'
    exact ⟨rfl, rfl⟩

/-- The frame is captured before and after its class is described, with the same content. -/
theorem frame_in_either_order :
    ∃ as s as' s', outcome [] first = (.ok as, s) ∧ outcome [] second = (.ok as', s') ∧
      ∃ ρ : Renaming, ρ.Carries s s' ∧
        ∃ a, as[1]? = some a ∧ as'[0]? = some (a.rename ρ) ∧ ∀ q ∈ a.refs, ρ.shared q := by
  have hok : (outcome [] first).1.isOk = true := by decide +kernel
  have hok' : (outcome [] second).1.isOk = true := by decide +kernel
  -- the runs are evaluated above, and are only names from here on
  generalize hrun : outcome [] first = run at hok ⊢
  generalize hrun' : outcome [] second = run' at hok' ⊢
  obtain ⟨result, s⟩ := run
  obtain ⟨result', s'⟩ := run'
  obtain ⟨as, rfl⟩ := Except.exists_ok hok
  obtain ⟨as', rfl⟩ := Except.exists_ok hok'
  obtain ⟨ρ, hcarries, hanswers⟩ := contents_independent_of_order
    (Source.componentwise_ofTexts _) keysApart hrun hrun'
  exact ⟨as, s, as', s', rfl, rfl, ρ, hcarries, hanswers 1 0 frame rfl rfl⟩

/-- How many types of annotation the captured variables have. -/
def annotationCounts (s : Store) : Answer → List (Option Nat)
  | .capture c => c.entries.map fun entry => (s.locals.get? entry.info).map (·.annotations.len)
  | .descriptor _ => []

theorem annotationCounts_rename {ρ : Renaming} {s s' : Store} (h : ρ.Carries s s') {a : Answer}
    (hshared : ∀ q ∈ a.refs, ρ.shared q) :
    annotationCounts s' (a.rename ρ) = annotationCounts s a := by
  cases a with
  | descriptor => rfl
  | capture c =>
    simp only [annotationCounts, Answer.rename, FrameCapture.rename, List.map_map]
    refine List.map_congr_left fun entry hentry => ?_
    obtain ⟨info, hinfo, hinfo', -⟩ := h .localInfo entry.info
      (hshared _ (List.mem_cons_of_mem _ (List.mem_map_of_mem hentry)))
    have hget : s.locals.get? entry.info = some info := hinfo
    have hget' : s'.locals.get? (ρ.apply entry.info) =
        some (DescriptorKind.rename ρ .localInfo info) := hinfo'
    simp [hget, hget', DescriptorKind.rename, AnnotationMap.rename, AnnotationMap.len, renameGroups]

/-- The annotation of the variable. -/
def marked : List AnnotationUse := [{ className := "Marked", span := span 5 }]

/-- If the variable has an annotation, then what its descriptor says depends on whether the method
or its frame is asked for first. -/
theorem annotation_lost_by_frame :
    ∃ as s as' s', outcome marked [.functionInfo ⟨1⟩, frame] = (.ok as, s) ∧
      outcome marked [frame, .functionInfo ⟨1⟩] = (.ok as', s') ∧
      ¬∃ ρ : Renaming, ρ.Carries s s' ∧
        ∃ a, as[1]? = some a ∧ as'[0]? = some (a.rename ρ) ∧ ∀ q ∈ a.refs, ρ.shared q := by
  have hcount : (outcome marked [.functionInfo ⟨1⟩, frame]).1.toOption.map (fun as =>
      as[1]?.map (annotationCounts (outcome marked [.functionInfo ⟨1⟩, frame]).2)) =
        some (some [some 1]) := by decide +kernel
  have hcount' : (outcome marked [frame, .functionInfo ⟨1⟩]).1.toOption.map (fun as =>
      as[0]?.map (annotationCounts (outcome marked [frame, .functionInfo ⟨1⟩]).2)) =
        some (some [some 0]) := by decide +kernel
  generalize outcome marked [.functionInfo ⟨1⟩, frame] = run at hcount ⊢
  generalize outcome marked [frame, .functionInfo ⟨1⟩] = run' at hcount' ⊢
  obtain ⟨result, s⟩ := run
  obtain ⟨result', s'⟩ := run'
  cases result with
  | error => cases hcount
  | ok as =>
    cases result' with
    | error => cases hcount'
    | ok as' =>
      refine ⟨as, s, as', s', rfl, rfl, ?_⟩
      rintro ⟨ρ, hcarries, a, ha, ha', hshared⟩
      have hsame := annotationCounts_rename hcarries hshared
      simp only [Except.toOption, ha, ha', Option.map_some, Option.some.injEq] at hcount hcount'
      rw [hcount, hcount'] at hsame
      exact absurd hsame (by decide)

end OrderSample

end Factory

end TraceWeave

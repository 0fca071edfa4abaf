import TraceWeave.Proofs.Program.Index
import TraceWeave.Proofs.Program.Tour

/-! # Scopes and symbols agree

The scopes of a walk and the index of symbols find the same declarations around an expression. Both
are compared with the declarations that the tour of the module passes on its way to it.

* `Visit.Leads`: symbols lead from a visit outwards; `ScopeStack.Mirrors`: scopes mirror the
  declarations around it.
* `filesRun_eq`: a walk with one stack takes the steps of the tour and leaves the stack empty.
* `Module.scopes_agree_with_symbols`: the agreement at every visit.
-/

namespace TraceWeave

/-! ## Declarations with their parents -/

/-- What the index and the scopes tell declarations apart by. -/
inductive Role where
  | classRole
  | function
  | property
  /-- A field or an initializer. -/
  | initializer
  deriving DecidableEq, Repr

def Decl.role : Decl → Role
  | .classDecl .. => .classRole
  | .function .. => .function
  | .property .. => .property
  | .field .. | .initializer .. => .initializer

def Symbol.role (s : Symbol) : Role :=
  match s.kind with
  | .classSymbol _ => .classRole
  | .function _ => .function
  | .property _ => .property
  | .field _ | .initializer => .initializer

/-- A declaration and where it is nested. -/
structure Entry where
  id : DeclId
  role : Role
  parent : Option DeclId
  deriving DecidableEq

def Symbol.entry (s : Symbol) : Entry := ⟨s.id, s.role, s.parent⟩

theorem Symbol.isSome_class? (s : Symbol) :
    s.class?.isSome = (s.entry.role == .classRole) := by
  obtain ⟨_, _, _, _, _, _, kind⟩ := s
  cases kind <;> rfl

theorem Symbol.isSome_function? (s : Symbol) :
    s.function?.isSome = (s.entry.role == .function) := by
  obtain ⟨_, _, _, _, _, _, kind⟩ := s
  cases kind <;> rfl

/-! ## The declarations around a visit -/

/-- Nested declarations, innermost first, each with the next one as its parent. -/
def linked : List Decl → List Entry
  | [] => []
  | d :: ds => ⟨d.id, d.role, ds.head?.map Decl.id⟩ :: linked ds

/-- Symbols that lead from a visit out to the declarations in `around`. -/
def Visit.Leads (x : Visit) (around : List Decl) (symbols : List Symbol) : Prop :=
  ∃ inner, linked x.around = inner ++ linked around ∧ inner.Sublist (symbols.map Symbol.entry)

namespace Visit.Leads

variable {x : Visit} {around : List Decl} {xs ys : List Symbol}

theorem left (h : x.Leads around xs) : x.Leads around (xs ++ ys) :=
  let ⟨inner, heq, hsub⟩ := h
  ⟨inner, heq, hsub.trans ((List.sublist_append_left xs ys).map _)⟩

theorem right (h : x.Leads around ys) : x.Leads around (xs ++ ys) :=
  let ⟨inner, heq, hsub⟩ := h
  ⟨inner, heq, hsub.trans ((List.sublist_append_right xs ys).map _)⟩

/-- Out of a declaration. -/
theorem out {d : Decl} {sc : SymbolScope} (h : x.Leads (d :: around) xs)
    (hparent : sc.parent = around.head?.map Decl.id) : x.Leads around (xs ++ [sc.declared d]) := by
  obtain ⟨inner, heq, hsub⟩ := h
  have hentry : (sc.declared d).entry = ⟨d.id, d.role, around.head?.map Decl.id⟩ := by
    rw [← hparent]
    cases d <;> rfl
  refine ⟨inner ++ [(sc.declared d).entry], ?_, ?_⟩
  · rw [heq, linked, List.append_assoc, hentry]
    rfl
  · rw [List.map_append]
    exact hsub.append (.refl _)

end Visit.Leads

section

variable {x : Visit}

mutual

-- The symbols of a declaration come behind those nested in it, so going out of a declaration is
-- going on in the list of symbols.
theorem Tour.visits_lead : ∀ (t : Tour) {scopes : ScopeStack} {around : List Decl}
    {sc : SymbolScope}, sc.parent = around.head?.map Decl.id → x ∈ t.visits scopes around →
      x.Leads around (t.symbols sc)
  | .visit _ _ operands => fun hparent h => by
    rw [Tour.visits, List.mem_append, List.mem_singleton] at h
    obtain h | rfl := h
    · exact toursVisits_lead operands hparent h
    · exact ⟨[], rfl, List.nil_sublist _⟩
  | .block items => fun hparent h => itemsVisits_lead items hparent h
  | .nested d => fun hparent h => d.visits_lead hparent h

theorem toursVisits_lead : ∀ (ts : List Tour) {scopes : ScopeStack} {around : List Decl}
    {sc : SymbolScope}, sc.parent = around.head?.map Decl.id → x ∈ toursVisits scopes around ts →
      x.Leads around (toursSymbols sc ts)
  | [] => fun _ => nofun
  | t :: ts => fun hparent h => by
    rw [toursVisits, List.mem_append] at h
    obtain h | h := h
    · exact (t.visits_lead hparent h).left
    · exact (toursVisits_lead ts hparent h).right

theorem itemsVisits_lead : ∀ (items : List BlockItem) {scopes : ScopeStack} {around : List Decl}
    {sc : SymbolScope}, sc.parent = around.head?.map Decl.id →
      x ∈ itemsVisits scopes around items → x.Leads around (itemsSymbols sc items)
  | [] => fun _ => nofun
  | .run t :: items => fun hparent h => by
    rw [itemsVisits, List.mem_append] at h
    obtain h | h := h
    · exact (t.visits_lead hparent h).left
    · exact (itemsVisits_lead items hparent h).right
  | .declare _ :: items => fun hparent h => itemsVisits_lead items hparent h

theorem DeclTour.visits_lead : ∀ (d : DeclTour) {scopes : ScopeStack} {around : List Decl}
    {sc : SymbolScope}, sc.parent = around.head?.map Decl.id → x ∈ d.visits scopes around →
      x.Leads around (d.symbols sc)
  | .group d _ members => fun hparent h =>
    (declToursVisits_lead members (SymbolScope.parent_entering _ d) h).out hparent
  | .code d _ parts => fun hparent h =>
    (toursVisits_lead parts (SymbolScope.parent_entering _ d) h).out hparent

theorem declToursVisits_lead : ∀ (ds : List DeclTour) {scopes : ScopeStack} {around : List Decl}
    {sc : SymbolScope}, sc.parent = around.head?.map Decl.id →
      x ∈ declToursVisits scopes around ds → x.Leads around (declToursSymbols sc ds)
  | [] => fun _ => nofun
  | d :: ds => fun hparent h => by
    rw [declToursVisits, List.mem_append] at h
    obtain h | h := h
    · exact (d.visits_lead hparent h).left
    · exact (declToursVisits_lead ds hparent h).right

end

end

/-- The declarations around a visit, with their parents, are among those of the index. -/
theorem Module.linked_sublist {m : Module} {x : Visit} (hx : x ∈ m.visits) :
    (linked x.around).Sublist (m.symbols.map Symbol.entry) := by
  obtain ⟨f, hf, hvisit⟩ := List.mem_flatMap.mp hx
  let sc : SymbolScope := { file := f.id, external := false, scope := f.package }
  obtain ⟨inner, heq, hsub⟩ := declToursVisits_lead _ (show sc.parent = _ from rfl) hvisit
  rw [← declsSymbols_eq] at hsub
  have hfile : (declsSymbols sc f.declarations).Sublist m.symbols := by
    refine .trans ?_ (List.sublist_append_left _ _)
    rw [List.flatMap_def]
    exact List.sublist_flatten_of_mem (List.mem_map_of_mem (f := symbolsOfFile false) hf)
  rw [heq, linked, List.append_nil]
  exact hsub.trans (hfile.map _)

/-! ## The scopes of a visit -/

/-- The kind of frame that a declaration stands for in the scopes, and its identity. -/
def Decl.marker (d : Decl) : Option (FrameKind × DeclId) :=
  match d.role with
  | .classRole => some (.classFrame, d.id)
  | .function => some (.function, d.id)
  | .property => none
  | .initializer => some (.initializer, d.id)

def ScopeFrame.marker (f : ScopeFrame) : Option (FrameKind × DeclId) := f.decl.map (f.kind, ·)

/-- Scopes that mirror the declarations in `around`; blocks are the only other frames. -/
structure ScopeStack.Mirrors (sc : ScopeStack) (around : List Decl) : Prop where
  markers : sc.frames.filterMap ScopeFrame.marker = around.filterMap Decl.marker
  blocks : ∀ f ∈ sc.frames, f.decl = none ↔ f.kind = .body

namespace ScopeStack.Mirrors

variable {sc : ScopeStack} {around : List Decl}

theorem outermost : Mirrors {} [] := ⟨rfl, nofun⟩

theorem block (h : sc.Mirrors around) : (sc.push .ofBody).Mirrors around :=
  ⟨h.markers, List.forall_mem_cons.mpr ⟨⟨fun _ => rfl, fun _ => rfl⟩, h.blocks⟩⟩

theorem declare (h : sc.Mirrors around) (v : VisibleLocal) : (sc.declare v).Mirrors around := by
  rcases sc with ⟨_ | ⟨f, fs⟩⟩
  · exact h
  · exact ⟨h.markers, List.forall_mem_cons.mpr (List.forall_mem_cons.mp h.blocks)⟩

/-- A frame for a declaration. -/
theorem push {d : Decl} {f : ScopeFrame} {id : DeclId} (h : sc.Mirrors around)
    (hid : f.decl = some id) (hmarker : d.marker = some (f.kind, id)) (hkind : f.kind ≠ .body) :
    (sc.push f).Mirrors (d :: around) := by
  constructor
  · have hframe : f.marker = some (f.kind, id) := by rw [ScopeFrame.marker, hid, Option.map_some]
    rw [ScopeStack.push, List.filterMap_cons_some hframe, List.filterMap_cons_some hmarker,
      h.markers]
  · refine List.forall_mem_cons.mpr ⟨?_, h.blocks⟩
    rw [hid]
    exact ⟨nofun, fun hbody => absurd hbody hkind⟩

theorem entering (h : sc.Mirrors around) (d : Decl) : (sc.entering d).Mirrors (d :: around) := by
  cases d with
  | property => exact ⟨h.markers, h.blocks⟩
  | _ =>
    refine h.push rfl rfl fun hbody => ?_
    cases hbody

end ScopeStack.Mirrors

/-- The innermost declaration holds code. -/
def InsideCode (around : List Decl) : Prop := ∃ d rest, around = d :: rest ∧ d.holdsCode = true

mutual

-- Blocks add a frame and variables, and neither makes a difference to what is mirrored. A
-- declaration adds itself and its frame on the same occasion.
theorem Tour.visits_mirror {x : Visit} : ∀ (t : Tour) (sc : ScopeStack) (around : List Decl),
    sc.Mirrors around → InsideCode around → x ∈ t.visits sc around →
      x.scopes.Mirrors x.around ∧ InsideCode x.around
  | .visit _ _ operands => fun sc around hmirrors hcode h => by
    rw [Tour.visits, List.mem_append, List.mem_singleton] at h
    obtain h | rfl := h
    · exact toursVisits_mirror operands sc around hmirrors hcode h
    · exact ⟨hmirrors, hcode⟩
  | .block items => fun _ around hmirrors hcode h =>
    itemsVisits_mirror items _ around hmirrors.block hcode h
  | .nested d => fun sc around hmirrors _ h => d.visits_mirror sc around hmirrors h

theorem toursVisits_mirror {x : Visit} : ∀ (ts : List Tour) (sc : ScopeStack) (around : List Decl),
    sc.Mirrors around → InsideCode around → x ∈ toursVisits sc around ts →
      x.scopes.Mirrors x.around ∧ InsideCode x.around
  | [] => fun _ _ _ _ => nofun
  | t :: ts => fun sc around hmirrors hcode h => by
    rw [toursVisits, List.mem_append] at h
    obtain h | h := h
    · exact t.visits_mirror sc around hmirrors hcode h
    · exact toursVisits_mirror ts sc around hmirrors hcode h

theorem itemsVisits_mirror {x : Visit} : ∀ (items : List BlockItem) (sc : ScopeStack)
    (around : List Decl), sc.Mirrors around → InsideCode around → x ∈ itemsVisits sc around items →
      x.scopes.Mirrors x.around ∧ InsideCode x.around
  | [] => fun _ _ _ _ => nofun
  | .run t :: items => fun sc around hmirrors hcode h => by
    rw [itemsVisits, List.mem_append] at h
    obtain h | h := h
    · exact t.visits_mirror sc around hmirrors hcode h
    · exact itemsVisits_mirror items sc around hmirrors hcode h
  | .declare v :: items => fun _ around hmirrors hcode h =>
    itemsVisits_mirror items _ around (hmirrors.declare v) hcode h

theorem DeclTour.visits_mirror {x : Visit} : ∀ (d : DeclTour) (sc : ScopeStack) (around : List Decl),
    sc.Mirrors around → x ∈ d.visits sc around → x.scopes.Mirrors x.around ∧ InsideCode x.around
  | .group d _ members => fun _ around hmirrors h =>
    declToursVisits_mirror members _ (d :: around) (hmirrors.entering d) h
  | .code d hcode parts => fun _ around hmirrors h =>
    toursVisits_mirror parts _ (d :: around) (hmirrors.entering d) ⟨d, around, rfl, hcode⟩ h

theorem declToursVisits_mirror {x : Visit} : ∀ (ds : List DeclTour) (sc : ScopeStack)
    (around : List Decl), sc.Mirrors around → x ∈ declToursVisits sc around ds →
      x.scopes.Mirrors x.around ∧ InsideCode x.around
  | [] => fun _ _ _ => nofun
  | d :: ds => fun sc around hmirrors h => by
    rw [declToursVisits, List.mem_append] at h
    obtain h | h := h
    · exact d.visits_mirror sc around hmirrors h
    · exact declToursVisits_mirror ds sc around hmirrors h

end

theorem Module.visits_mirror {m : Module} {x : Visit} (hx : x ∈ m.visits) :
    x.scopes.Mirrors x.around ∧ InsideCode x.around := by
  obtain ⟨f, -, hvisit⟩ := List.mem_flatMap.mp hx
  exact declToursVisits_mirror _ _ _ .outermost hvisit

/-! ## What the scopes answer -/

/-- Whether a declaration is one of the classes and functions around a point. -/
def Entry.isScope (e : Entry) : Bool := e.role == .classRole || e.role == .function

theorem scopes_of_markers (around : List Decl) :
    ((around.filterMap Decl.marker).filter fun p =>
      p.1 == .classFrame || p.1 == .function).map Prod.snd =
        ((linked around).filter Entry.isScope).map Entry.id := by
  induction around with
  | nil => rfl
  | cons d ds ih =>
    rw [List.filterMap_cons, linked]
    cases hrole : d.role <;> simp [Decl.marker, Entry.isScope, hrole, ← ih]

theorem class_of_markers (around : List Decl) :
    ((around.filterMap Decl.marker).find? (·.1 == .classFrame)).map Prod.snd =
      ((linked around).find? (·.role == .classRole)).map Entry.id := by
  induction around with
  | nil => rfl
  | cons d ds ih =>
    rw [List.filterMap_cons, linked]
    cases hrole : d.role <;> simp [Decl.marker, hrole, ← ih]

theorem Decl.marker_of_holdsCode {d : Decl} (h : d.holdsCode = true) :
    d.marker = some (if d.role = .function then .function else .initializer, d.id) := by
  cases d <;> first | rfl | exact nomatch h

namespace ScopeStack

theorem scopes_of_frames : ∀ frames : List ScopeFrame,
    (frames.filter fun f => f.kind == .classFrame || f.kind == .function).filterMap
      ScopeFrame.decl =
        ((frames.filterMap ScopeFrame.marker).filter fun p =>
          p.1 == .classFrame || p.1 == .function).map Prod.snd
  | [] => rfl
  | f :: fs => by
    obtain ⟨kind, decl, _⟩ := f
    cases kind <;> cases decl <;>
      simp [ScopeFrame.marker, List.filterMap_cons, scopes_of_frames fs]

theorem classOf_eq : ∀ {frames : List ScopeFrame},
    (∀ f ∈ frames, f.decl = none ↔ f.kind = .body) →
      classOf frames =
        ((frames.filterMap ScopeFrame.marker).find? (·.1 == .classFrame)).map Prod.snd
  | [], _ => rfl
  | f :: fs, h => by
    obtain ⟨hf, hfs⟩ := List.forall_mem_cons.mp h
    have ih := classOf_eq hfs
    obtain ⟨kind, decl, _⟩ := f
    unfold classOf at ih ⊢
    cases kind <;> cases decl <;> simp_all [ScopeFrame.marker]

/-- Blocks are passed over, so the innermost marker decides which code runs. -/
theorem executableOf_eq : ∀ {frames : List ScopeFrame},
    (∀ f ∈ frames, f.decl = none ↔ f.kind = .body) → ∀ {kind : FrameKind} {id : DeclId},
      (frames.filterMap ScopeFrame.marker).head? = some (kind, id) →
        (kind = .function → executableOf frames = some (.function id)) ∧
          (kind = .initializer → ∃ c, executableOf frames = some (.initializer id c))
  | [], _, _, _, hhead => nomatch hhead
  | f :: fs, h, kind, id, hhead => by
    obtain ⟨hf, hfs⟩ := List.forall_mem_cons.mp h
    obtain ⟨k, decl, _⟩ := f
    cases decl with
    | none =>
      obtain rfl : k = .body := hf.mp rfl
      exact executableOf_eq hfs hhead
    | some id' =>
      obtain ⟨rfl, rfl⟩ : k = kind ∧ id' = id := by simpa [ScopeFrame.marker] using hhead
      constructor
      · rintro rfl
        rfl
      · rintro rfl
        exact ⟨_, rfl⟩

namespace Mirrors

variable {sc : ScopeStack} {around rest : List Decl} {d : Decl}

theorem declarations_eq (h : sc.Mirrors around) :
    sc.declarations = (((linked around).filter Entry.isScope).map Entry.id).reverse := by
  rw [ScopeStack.declarations, scopes_of_frames, h.markers, scopes_of_markers]

theorem head?_markers (h : sc.Mirrors (d :: rest)) (hcode : d.holdsCode = true) :
    (sc.frames.filterMap ScopeFrame.marker).head? =
      some (if d.role = .function then .function else .initializer, d.id) := by
  rw [h.markers, List.filterMap_cons_some (Decl.marker_of_holdsCode hcode), List.head?_cons]

theorem innermostDecl?_eq (h : sc.Mirrors (d :: rest)) (hcode : d.holdsCode = true) :
    sc.innermostDecl? = some d.id := by
  have hhead := h.head?_markers hcode
  rw [List.head?_filterMap] at hhead
  obtain ⟨before, f, after, hframes, hf, hnone⟩ := List.findSome?_eq_some_iff.mp hhead
  refine List.findSome?_eq_some_iff.mpr ⟨before, f, after, hframes, ?_, fun g hg => ?_⟩
  · obtain ⟨id, hid, hpair⟩ := Option.map_eq_some_iff.mp hf
    rw [hid]
    exact congrArg (fun p => some p.2) hpair
  · exact Option.map_eq_none_iff.mp (hnone g hg)

/-- Code stands in no class of its own, so the class is found further out. -/
theorem currentClass?_eq (h : sc.Mirrors (d :: rest)) (hcode : d.holdsCode = true) :
    sc.currentClass? = ((linked rest).find? (·.role == .classRole)).map Entry.id := by
  have hd : (d.role == .classRole) = false := by cases d <;> first | rfl | exact nomatch hcode
  rw [ScopeStack.currentClass?, classOf_eq h.blocks, h.markers, class_of_markers, linked,
    List.find?_cons, hd]

theorem currentFunction?_eq_some_iff (h : sc.Mirrors (d :: rest)) (hcode : d.holdsCode = true) :
    sc.currentFunction? = some d.id ↔ d.role = .function := by
  have hexecutable := executableOf_eq h.blocks (h.head?_markers hcode)
  unfold currentFunction? currentExecutable?
  by_cases hrole : d.role = .function
  · rw [hexecutable.1 (if_pos hrole)]
    exact ⟨fun _ => hrole, fun _ => rfl⟩
  · obtain ⟨c, hc⟩ := hexecutable.2 (if_neg hrole)
    rw [hc]
    exact ⟨nofun, fun h => absurd h hrole⟩

end Mirrors

end ScopeStack

/-! ## What the index answers -/

namespace SymbolTable

variable {m : Module}

theorem exists_get?_of_entry (h : m.declIds.Nodup) {e : Entry}
    (he : e ∈ m.symbols.map Symbol.entry) : ∃ s, (build m).get? e.id = some s ∧ s.entry = e := by
  obtain ⟨s, hs, rfl⟩ := List.mem_map.mp he
  exact ⟨s, get?_of_mem h hs, rfl⟩

/-- From declaration to declaration the index follows the nesting outwards. -/
theorem map_entry_chain (h : m.declIds.Nodup) : ∀ (around : List Decl) (fuel : Nat),
    (∀ e ∈ linked around, e ∈ m.symbols.map Symbol.entry) → around.length ≤ fuel →
      ((build m).chain fuel (around.head?.map Decl.id)).map Symbol.entry = linked around
  | [], 0, _, _ => rfl
  | [], _ + 1, _, _ => rfl
  | d :: ds, fuel + 1, hmem, hlen => by
    obtain ⟨hd, hds⟩ := List.forall_mem_cons.mp hmem
    obtain ⟨s, hs, hentry⟩ := exists_get?_of_entry h hd
    have hparent : s.parent = ds.head?.map Decl.id := congrArg Entry.parent hentry
    rw [List.head?_cons, Option.map_some, chain]
    simp only [hs, List.map_cons, hentry, hparent]
    rw [map_entry_chain h ds fuel hds (Nat.le_of_succ_le_succ hlen), linked]

/-- The index entries of the innermost declaration around a visit, and of those around it. -/
theorem map_entry_ancestors (h : m.declIds.Nodup) {d : Decl} {rest : List Decl}
    (hsub : (linked (d :: rest)).Sublist (m.symbols.map Symbol.entry)) :
    ∃ s, (build m).get? d.id = some s ∧ s.entry = ⟨d.id, d.role, rest.head?.map Decl.id⟩ ∧
      ((build m).ancestors d.id).map Symbol.entry = linked rest := by
  have hlinked : ∀ ds : List Decl, (linked ds).length = ds.length := by
    intro ds
    induction ds with
    | nil => rfl
    | cons d ds ih => rw [linked, List.length_cons, List.length_cons, ih]
  obtain ⟨s, hs, hentry⟩ := exists_get?_of_entry h (hsub.subset List.mem_cons_self)
  refine ⟨s, hs, hentry, ?_⟩
  have hparent : s.parent = rest.head?.map Decl.id := congrArg Entry.parent hentry
  have hlen : rest.length ≤ (build m).newest.length := by
    have := hsub.length_le
    rw [hlinked, List.length_cons, List.length_map] at this
    rw [newest_build, List.length_reverse]
    omega
  rw [ancestors, hs, Option.bind_some, hparent]
  exact map_entry_chain h rest _
    (fun e he => hsub.subset (List.mem_cons_of_mem _ he)) hlen

end SymbolTable

/-! ## A walk with one stack -/

section

variable {σ ε : Type} (step : ScopeStack → Place → Expr → σ → Except ε σ)

/-- The steps of visits one after the other, up to the first failure. -/
def stepAll (visits : List Visit) (st : σ) : Except ε σ :=
  visits.foldlM (fun st x => step x.scopes x.place x.expr st) st

theorem stepAll_append (xs ys : List Visit) (st : σ) :
    stepAll step (xs ++ ys) st = (stepAll step xs st).bind (stepAll step ys) :=
  List.foldlM_append

namespace ScopeStack

theorem declare_push (sc : ScopeStack) (f : ScopeFrame) (v : VisibleLocal) :
    (sc.push f).declare v = sc.push { f with locals := f.locals ++ [v] } := rfl

theorem truncate_push (sc : ScopeStack) (f : ScopeFrame) : (sc.push f).truncate sc.depth = sc := by
  simp [truncate, push, depth]

theorem truncate_entering (sc : ScopeStack) : ∀ d : Decl, (sc.entering d).truncate sc.depth = sc
  | .property .. => by simp [entering, truncate, depth]
  | .classDecl .. | .function .. | .field .. | .initializer .. => truncate_push sc _

end ScopeStack

mutual

-- The stack is the same behind a piece of the tour as in front of it, also if a step inside has
-- failed. This is what the frame that is left at the end is good for.
theorem Tour.run_eq : ∀ (t : Tour) (sc : ScopeStack) (around : List Decl) (st : σ),
    t.run step sc st = (stepAll step (t.visits sc around) st, sc)
  | .visit place e operands => fun sc around st => by
    rw [Tour.run, toursRun_eq operands sc around st, Tour.visits, stepAll_append]
    cases stepAll step (toursVisits sc around operands) st with
    | error err => rfl
    | ok st' => exact Prod.ext (bind_pure _).symm rfl
  | .block items => fun sc around st => by
    obtain ⟨f, hrun⟩ := itemsRun_eq items sc .ofBody around st
    rw [Tour.run, hrun, leave, ScopeStack.truncate_push, Tour.visits]
  | .nested d => fun sc around st => by
    rw [Tour.run, d.run_eq sc around st, Tour.visits]

theorem toursRun_eq : ∀ (ts : List Tour) (sc : ScopeStack) (around : List Decl) (st : σ),
    toursRun step ts sc st = (stepAll step (toursVisits sc around ts) st, sc)
  | [] => fun _ _ _ => rfl
  | t :: ts => fun sc around st => by
    rw [toursRun, t.run_eq sc around st, toursVisits, stepAll_append]
    cases stepAll step (t.visits sc around) st with
    | error err => rfl
    | ok st' => exact toursRun_eq ts sc around st'

/-- In a block the innermost frame has taken up the variables so far. -/
theorem itemsRun_eq : ∀ (items : List BlockItem) (sc : ScopeStack) (f : ScopeFrame)
    (around : List Decl) (st : σ), ∃ f' : ScopeFrame, itemsRun step items (sc.push f) st =
      (stepAll step (itemsVisits (sc.push f) around items) st, sc.push f')
  | [] => fun _ f _ _ => ⟨f, rfl⟩
  | .run t :: items => fun sc f around st => by
    rw [itemsRun, t.run_eq (sc.push f) around st, itemsVisits, stepAll_append]
    cases stepAll step (t.visits (sc.push f) around) st with
    | error err => exact ⟨f, rfl⟩
    | ok st' => exact itemsRun_eq items sc f around st'
  | .declare v :: items => fun sc f around st => by
    rw [itemsRun, itemsVisits, ScopeStack.declare_push]
    exact itemsRun_eq items sc _ around st

theorem DeclTour.run_eq : ∀ (d : DeclTour) (sc : ScopeStack) (around : List Decl) (st : σ),
    d.run step sc st = (stepAll step (d.visits sc around) st, sc)
  | .group d _ members => fun sc around st => by
    rw [DeclTour.run, declToursRun_eq members _ (d :: around) st, leave,
      ScopeStack.truncate_entering, DeclTour.visits]
  | .code d _ parts => fun sc around st => by
    rw [DeclTour.run, toursRun_eq parts _ (d :: around) st, leave,
      ScopeStack.truncate_entering, DeclTour.visits]

theorem declToursRun_eq : ∀ (ds : List DeclTour) (sc : ScopeStack) (around : List Decl) (st : σ),
    declToursRun step ds sc st = (stepAll step (declToursVisits sc around ds) st, sc)
  | [] => fun _ _ _ => rfl
  | d :: ds => fun sc around st => by
    rw [declToursRun, d.run_eq sc around st, declToursVisits, stepAll_append]
    cases stepAll step (d.visits sc around) st with
    | error err => rfl
    | ok st' => exact declToursRun_eq ds sc around st'

end

/-- With one stack a walk takes the same steps as with scopes of their own, and on success as on
failure it leaves the stack as empty as it was. -/
theorem filesRun_eq : ∀ (fs : List SourceFile) (st : σ),
    filesRun step fs {} st = (stepAll step (fs.flatMap fun f =>
      declToursVisits {} [] (declsTours f.declarations)) st, {})
  | [], _ => rfl
  | f :: fs, st => by
    rw [filesRun, declToursRun_eq step (declsTours f.declarations) {} [] st, List.flatMap_cons,
      stepAll_append]
    cases stepAll step (declToursVisits {} [] (declsTours f.declarations)) st with
    | error err => rfl
    | ok st' => exact filesRun_eq fs st'

end

/-! ## Agreement -/

/-- The scopes of a visit and the index agree on the declarations around it. -/
def Visit.Agrees (x : Visit) (t : SymbolTable) : Prop :=
  ∃ d rest, x.around = d :: rest ∧ x.scopes.innermostDecl? = some d.id ∧
    x.scopes.declarations =
      ((((t.get? d.id).toList ++ t.ancestors d.id).filter fun s =>
        s.class?.isSome || s.function?.isSome).map Symbol.id).reverse ∧
    x.scopes.currentClass? = t.enclosingClass? d.id ∧
    (x.scopes.currentFunction? = some d.id ↔ (t.function? d.id).isSome)

theorem Module.visit_agrees {m : Module} (h : m.declIds.Nodup) {x : Visit} (hx : x ∈ m.visits) :
    x.Agrees (SymbolTable.build m) := by
  obtain ⟨hmirrors, d, rest, haround, hcode⟩ := visits_mirror hx
  have hsub := linked_sublist hx
  rw [haround] at hmirrors hsub
  obtain ⟨s, hs, hentry, hancestors⟩ := SymbolTable.map_entry_ancestors h hsub
  have hentries : (s :: (SymbolTable.build m).ancestors d.id).map Symbol.entry =
      linked (d :: rest) := by rw [List.map_cons, hentry, hancestors, linked]
  refine ⟨d, rest, haround, hmirrors.innermostDecl?_eq hcode, ?_, ?_, ?_⟩
  · have hscope : (fun s : Symbol => s.class?.isSome || s.function?.isSome) =
        Entry.isScope ∘ Symbol.entry := by
      funext s
      rw [Symbol.isSome_class?, Symbol.isSome_function?]
      rfl
    rw [hmirrors.declarations_eq, ← hentries, List.filter_map, List.map_map, hs, hscope]
    rfl
  · have hclass : (fun s : Symbol => s.class?.isSome) =
        (fun e : Entry => e.role == .classRole) ∘ Symbol.entry := by
      funext s
      exact Symbol.isSome_class? s
    rw [hmirrors.currentClass?_eq hcode, ← hancestors, List.find?_map, Option.map_map,
      SymbolTable.enclosingClass?, hclass]
    rfl
  · have hrole : s.entry.role = d.role := congrArg Entry.role hentry
    rw [hmirrors.currentFunction?_eq_some_iff hcode, SymbolTable.function?, hs]
    have hfunction := s.isSome_function?
    rw [hrole] at hfunction
    cases hf : s.function? with
    | none => simp_all
    | some info => simp_all

/-- Scopes and symbols agree everywhere. A walk calls its visitor for the expressions of the tour
with their scopes, whatever the visitor makes of them. For each of these expressions the scopes and
the index find the same declarations. And a walk that keeps the scopes on one stack, with a visitor
that may fail, takes the same steps up to the first failure and leaves an empty stack. -/
theorem Module.scopes_agree_with_symbols (m : Module) (h : m.declIds.Nodup) :
    (∀ {σ : Type} (v : Visitor σ) (st : σ),
      (filesWalk v.recording m.files (st, [])).2.2 = m.visits.map Visit.call) ∧
    (∀ x ∈ m.visits, x.Agrees (SymbolTable.build m)) ∧
    ∀ {σ ε : Type} (step : ScopeStack → Place → Expr → σ → Except ε σ) (st : σ),
      filesRun step m.files {} st = (stepAll step m.visits st, {}) :=
  ⟨fun v st => filesWalk_recording v m.files (st, []), fun _ => visit_agrees h,
    fun step st => filesRun_eq step m.files st⟩

/-- A class with a method that holds a lambda, and a field with an initial value. -/
def Module.nestedSample : Module :=
  let here : Span := .synthetic ⟨0⟩
  let one : Expr := .const ⟨here, .int⟩ (.int 1)
  let lambda : Decl := .function ⟨⟨3⟩, here, .source, []⟩
    { name := "", kind := .lambda, returnTy := .int } [] (.expression one)
  let method : Decl := .function ⟨⟨2⟩, here, .source, []⟩ { name := "run", returnTy := .unit } []
    (.block [.expr (.lambda ⟨here, .any⟩ lambda)])
  let field : Decl := .field ⟨⟨4⟩, here, .source, []⟩ { name := "size", ty := .int } (some one)
  { name := "sample"
    files := [{ id := ⟨0⟩, path := "a.kt", declarations :=
      [.classDecl ⟨⟨1⟩, here, .source, []⟩ { name := "Box" } [method, field]] }] }

theorem Module.scopes_agree_with_symbols_nested :
    nestedSample.declIds.Nodup ∧
      nestedSample.visits.map (·.scopes.declarations) = [[⟨1⟩, ⟨2⟩, ⟨3⟩], [⟨1⟩, ⟨2⟩], [⟨1⟩]] ∧
      ∀ x ∈ nestedSample.visits, x.Agrees (SymbolTable.build nestedSample) :=
  ⟨by decide, rfl, (scopes_agree_with_symbols nestedSample (by decide)).2.1⟩

end TraceWeave

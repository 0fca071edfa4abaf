import TraceWeave.Proofs.Program.Index
import TraceWeave.Proofs.Program.Tour

/-! # The marks of a program

Declarations and calls are the marks of a program, from left to right, each behind those in it. A
mark tells a declaration or a call apart from the code in it, so passes that change code around it
can leave it alone. Calls of some functions may be cut: neither they nor what stands in them counts.

A `Mark` is a `Profile` or a `CallFace` at a `Spot`, `Module.marks` lists those of a module, and a
`Cut` says which calls count. `MarksWithin` bounds the declarations that a call stands in.
-/

namespace TraceWeave

/-- What the index knows about a declaration, whatever stands in its code. -/
structure Profile where
  head : DeclHead
  fqName : String
  /-- The number of parameters of a function. -/
  params : Option Nat

def Symbol.profile (s : Symbol) : Profile :=
  ⟨s.head, s.fqName, s.function?.map fun info => info.params.length⟩

/-- A call apart from what stands in it. -/
structure CallFace where
  scopes : ScopeStack
  place : Place
  span : Span
  callee : DeclId
  /-- Which arguments are there. -/
  given : List Bool

def Expr.callFace? (sc : ScopeStack) (place : Place) : Expr → Option CallFace
  | .call s callee _ _ args => some ⟨sc, place, s.span, callee, args.map Option.isSome⟩
  | _ => none

inductive Mark where
  | decl (p : Profile)
  | call (f : CallFace)

namespace Mark

def profile? : Mark → Option Profile
  | .decl p => some p
  | .call _ => none

def call? : Mark → Option CallFace
  | .decl _ => none
  | .call f => some f

end Mark

/-- Where a piece of a program stands: the scopes of a walk, and the scope of its symbols. -/
structure Spot where
  scopes : ScopeStack
  symbols : SymbolScope

namespace Spot

def block (c : Spot) : Spot := { c with scopes := c.scopes.push .ofBody }

def declare (c : Spot) (v : VisibleLocal) : Spot := { c with scopes := c.scopes.declare v }

def after (c : Spot) (stmt : Stmt) : Spot := { c with scopes := c.scopes.after stmt }

def entering (c : Spot) (d : Decl) : Spot := ⟨c.scopes.entering d, c.symbols.entering d⟩

def declared (c : Spot) (d : Decl) : Mark := .decl (c.symbols.declared d).profile

@[simp] theorem scopes_entering (c : Spot) (d : Decl) :
    (c.entering d).scopes = c.scopes.entering d := rfl

@[simp] theorem symbols_entering (c : Spot) (d : Decl) :
    (c.entering d).symbols = c.symbols.entering d := rfl

@[simp] theorem profile?_declared (c : Spot) (d : Decl) :
    (c.declared d).profile? = some (c.symbols.declared d).profile := rfl

@[simp] theorem call?_declared (c : Spot) (d : Decl) : (c.declared d).call? = none := rfl

end Spot

/-- Functions whose calls are cut. -/
abbrev Cut := DeclId → Bool

def Cut.none : Cut := fun _ => false

/-- Whether an expression is a call that is cut. -/
def Expr.isCut (cut : Cut) : Expr → Bool
  | .call _ callee _ _ _ => cut callee
  | _ => false

theorem Expr.isCut_none (e : Expr) : e.isCut .none = false := by
  cases e <;> rfl

theorem Expr.isCut_of_callFace? {cut : Cut} {sc : ScopeStack} {place : Place} {e e' : Expr}
    (h : e'.callFace? sc place = e.callFace? sc place) : e'.isCut cut = e.isCut cut := by
  have heq : ∀ e : Expr, e.isCut cut =
      ((e.callFace? sc place).map fun f => cut f.callee).getD false := by
    intro e
    cases e <;> rfl
  rw [heq, heq, h]

mutual

def Tour.marks (cut : Cut) (c : Spot) : Tour → List Mark
  | .visit place e operands =>
    if e.isCut cut then []
    else toursMarks cut c operands ++ (e.callFace? c.scopes place).toList.map .call
  | .block items => itemsMarks cut c.block items
  | .nested d => d.marks cut c

def toursMarks (cut : Cut) (c : Spot) : List Tour → List Mark
  | [] => []
  | t :: ts => t.marks cut c ++ toursMarks cut c ts

def itemsMarks (cut : Cut) (c : Spot) : List BlockItem → List Mark
  | [] => []
  | .run t :: items => t.marks cut c ++ itemsMarks cut c items
  | .declare v :: items => itemsMarks cut (c.declare v) items

def DeclTour.marks (cut : Cut) (c : Spot) : DeclTour → List Mark
  | .group d _ members => declToursMarks cut (c.entering d) members ++ [c.declared d]
  | .code d _ parts => toursMarks cut (c.entering d) parts ++ [c.declared d]

def declToursMarks (cut : Cut) (c : Spot) : List DeclTour → List Mark
  | [] => []
  | d :: ds => d.marks cut c ++ declToursMarks cut c ds

end

/-- The marks of an expression in its place. -/
abbrev Expr.marks (cut : Cut) (c : Spot) (place : Place) (e : Expr) : List Mark :=
  (Tour.visit place e e.operandTours).marks cut c

theorem Expr.marks_of_isCut {cut : Cut} {c : Spot} {place : Place} {e : Expr}
    (h : e.isCut cut = true) : e.marks cut c place = [] := by
  rw [Expr.marks, Tour.marks, h]
  rfl

theorem Expr.marks_of_isCut_eq_false {cut : Cut} {c : Spot} {place : Place} {e : Expr}
    (h : e.isCut cut = false) : e.marks cut c place =
      toursMarks cut c e.operandTours ++ (e.callFace? c.scopes place).toList.map .call := by
  rw [Expr.marks, Tour.marks, h]
  rfl

section

variable (cut : Cut) (c : Spot)

@[simp] theorem toursMarks_append : ∀ xs ys : List Tour,
    toursMarks cut c (xs ++ ys) = toursMarks cut c xs ++ toursMarks cut c ys
  | [], _ => rfl
  | x :: xs, ys => by
    rw [List.cons_append, toursMarks, toursMarks, toursMarks_append xs ys, List.append_assoc]

@[simp] theorem declToursMarks_append : ∀ xs ys : List DeclTour,
    declToursMarks cut c (xs ++ ys) = declToursMarks cut c xs ++ declToursMarks cut c ys
  | [], _ => rfl
  | x :: xs, ys => by
    rw [List.cons_append, declToursMarks, declToursMarks, declToursMarks_append xs ys,
      List.append_assoc]

/-- Behind a statement its variable is in scope. -/
theorem itemsMarks_stmt (items : List BlockItem) (stmt : Stmt) :
    itemsMarks cut c (stmt.items ++ items) =
      itemsMarks cut c stmt.items ++ itemsMarks cut (c.after stmt) items := by
  cases stmt with
  | expr e => simp [Stmt.items, itemsMarks, Spot.after, ScopeStack.after]
  | var head init =>
    cases init <;>
      simp [Stmt.items, optionTours, itemsMarks, Spot.after, ScopeStack.after, Spot.declare]
  | decl d => simp [Stmt.items, itemsMarks, Spot.after, ScopeStack.after]

end

/-! ## Declarations are symbols, calls are visits -/

mutual

theorem Tour.profiles_eq : ∀ (t : Tour) (c : Spot),
    (t.marks .none c).filterMap Mark.profile? = (t.symbols c.symbols).map Symbol.profile
  | .visit place e operands => fun c => by
    have hown : ((e.callFace? c.scopes place).toList.map Mark.call).filterMap Mark.profile? = [] := by
      cases e.callFace? c.scopes place <;> rfl
    rw [Tour.marks, e.isCut_none, Tour.symbols]
    simp [hown, toursProfiles_eq operands c]
  | .block items => fun c => itemsProfiles_eq items c.block
  | .nested d => fun c => d.profiles_eq c

theorem toursProfiles_eq : ∀ (ts : List Tour) (c : Spot),
    (toursMarks .none c ts).filterMap Mark.profile? = (toursSymbols c.symbols ts).map Symbol.profile
  | [] => fun _ => rfl
  | t :: ts => fun c => by
    simp [toursMarks, toursSymbols, t.profiles_eq c, toursProfiles_eq ts c]

theorem itemsProfiles_eq : ∀ (items : List BlockItem) (c : Spot),
    (itemsMarks .none c items).filterMap Mark.profile? =
      (itemsSymbols c.symbols items).map Symbol.profile
  | [] => fun _ => rfl
  | .run t :: items => fun c => by
    simp [itemsMarks, itemsSymbols, t.profiles_eq c, itemsProfiles_eq items c]
  | .declare v :: items => fun c => itemsProfiles_eq items (c.declare v)

theorem DeclTour.profiles_eq : ∀ (d : DeclTour) (c : Spot),
    (d.marks .none c).filterMap Mark.profile? = (d.symbols c.symbols).map Symbol.profile
  | .group d _ members => fun c => by
    simp [DeclTour.marks, DeclTour.symbols, declToursProfiles_eq members (c.entering d)]
  | .code d _ parts => fun c => by
    simp [DeclTour.marks, DeclTour.symbols, toursProfiles_eq parts (c.entering d)]

theorem declToursProfiles_eq : ∀ (ds : List DeclTour) (c : Spot),
    (declToursMarks .none c ds).filterMap Mark.profile? =
      (declToursSymbols c.symbols ds).map Symbol.profile
  | [] => fun _ => rfl
  | d :: ds => fun c => by
    simp [declToursMarks, declToursSymbols, d.profiles_eq c, declToursProfiles_eq ds c]

end

/-- The call that a visit comes across. -/
def Visit.callFace? (x : Visit) : Option CallFace := x.expr.callFace? x.scopes x.place

mutual

theorem Tour.calls_eq : ∀ (t : Tour) (c : Spot) (around : List Decl),
    (t.marks .none c).filterMap Mark.call? = (t.visits c.scopes around).filterMap Visit.callFace?
  | .visit place e operands => fun c around => by
    have hown : ((e.callFace? c.scopes place).toList.map Mark.call).filterMap Mark.call? =
        (e.callFace? c.scopes place).toList := by
      cases e.callFace? c.scopes place <;> rfl
    have hvisit : [(⟨c.scopes, around, place, e⟩ : Visit)].filterMap Visit.callFace? =
        (e.callFace? c.scopes place).toList := by
      rw [List.filterMap_cons, Visit.callFace?]
      cases e.callFace? c.scopes place <;> rfl
    rw [Tour.marks, e.isCut_none, Tour.visits, List.filterMap_append, hvisit]
    simp [hown, toursCalls_eq operands c around]
  | .block items => fun c around => itemsCalls_eq items c.block around
  | .nested d => fun c around => d.calls_eq c around

theorem toursCalls_eq : ∀ (ts : List Tour) (c : Spot) (around : List Decl),
    (toursMarks .none c ts).filterMap Mark.call? =
      (toursVisits c.scopes around ts).filterMap Visit.callFace?
  | [] => fun _ _ => rfl
  | t :: ts => fun c around => by
    simp [toursMarks, toursVisits, t.calls_eq c around, toursCalls_eq ts c around]

theorem itemsCalls_eq : ∀ (items : List BlockItem) (c : Spot) (around : List Decl),
    (itemsMarks .none c items).filterMap Mark.call? =
      (itemsVisits c.scopes around items).filterMap Visit.callFace?
  | [] => fun _ _ => rfl
  | .run t :: items => fun c around => by
    simp [itemsMarks, itemsVisits, t.calls_eq c around, itemsCalls_eq items c around]
  | .declare v :: items => fun c around => itemsCalls_eq items (c.declare v) around

theorem DeclTour.calls_eq : ∀ (d : DeclTour) (c : Spot) (around : List Decl),
    (d.marks .none c).filterMap Mark.call? = (d.visits c.scopes around).filterMap Visit.callFace?
  | .group d _ members => fun c around => by
    simp [DeclTour.marks, DeclTour.visits, declToursCalls_eq members (c.entering d) (d :: around)]
  | .code d _ parts => fun c around => by
    simp [DeclTour.marks, DeclTour.visits, toursCalls_eq parts (c.entering d) (d :: around)]

theorem declToursCalls_eq : ∀ (ds : List DeclTour) (c : Spot) (around : List Decl),
    (declToursMarks .none c ds).filterMap Mark.call? =
      (declToursVisits c.scopes around ds).filterMap Visit.callFace?
  | [] => fun _ _ => rfl
  | d :: ds => fun c around => by
    simp [declToursMarks, declToursVisits, d.calls_eq c around, declToursCalls_eq ds c around]

end

/-! ## What cutting leaves -/

/-- A mark that is there without cutting too, and is no call that is cut. -/
def Mark.Left (cut : Cut) (all : List Mark) (k : Mark) : Prop :=
  k ∈ all ∧ ∀ f, k = .call f → cut f.callee = false

theorem Mark.Left.mono {cut : Cut} {xs ys : List Mark} {k : Mark} (h : k.Left cut xs)
    (hsub : xs ⊆ ys) : k.Left cut ys :=
  ⟨hsub h.1, h.2⟩

/-- Marks that cutting leaves of some. -/
theorem Mark.left_append {cut : Cut} {xs ys as bs : List Mark} (h : ∀ k ∈ xs, k.Left cut as)
    (h' : ∀ k ∈ ys, k.Left cut bs) : ∀ k ∈ xs ++ ys, k.Left cut (as ++ bs) :=
  List.forall_mem_append.mpr ⟨fun k hk => (h k hk).mono (List.subset_append_left _ _),
    fun k hk => (h' k hk).mono (List.subset_append_right _ _)⟩

theorem Mark.left_declared (cut : Cut) (c : Spot) (d : Decl) :
    ∀ k ∈ [c.declared d], k.Left cut [c.declared d] := by
  intro k hk
  refine ⟨hk, fun f hf => ?_⟩
  rw [List.mem_singleton.mp hk] at hf
  cases hf

mutual

theorem Tour.marks_left (cut : Cut) : ∀ (t : Tour) (c : Spot),
    ∀ k ∈ t.marks cut c, k.Left cut (t.marks .none c)
  | .visit place e operands => fun c => by
    rw [Tour.marks, Tour.marks, e.isCut_none]
    cases hcut : e.isCut cut with
    | true => nofun
    | false =>
      refine Mark.left_append (toursMarks_left cut operands c) fun k hk => ⟨hk, ?_⟩
      rintro f rfl
      cases e with
      | call s callee receiver typeArgs args =>
        obtain rfl : f = _ := by simpa [Expr.callFace?] using hk
        exact hcut
      | _ => cases hk
  | .block items => fun c => itemsMarks_left cut items c.block
  | .nested d => fun c => d.marks_left cut c

theorem toursMarks_left (cut : Cut) : ∀ (ts : List Tour) (c : Spot),
    ∀ k ∈ toursMarks cut c ts, k.Left cut (toursMarks .none c ts)
  | [] => fun _ => nofun
  | t :: ts => fun c => Mark.left_append (t.marks_left cut c) (toursMarks_left cut ts c)

theorem itemsMarks_left (cut : Cut) : ∀ (items : List BlockItem) (c : Spot),
    ∀ k ∈ itemsMarks cut c items, k.Left cut (itemsMarks .none c items)
  | [] => fun _ => nofun
  | .run t :: items => fun c => Mark.left_append (t.marks_left cut c) (itemsMarks_left cut items c)
  | .declare v :: items => fun c => itemsMarks_left cut items (c.declare v)

theorem DeclTour.marks_left (cut : Cut) : ∀ (d : DeclTour) (c : Spot),
    ∀ k ∈ d.marks cut c, k.Left cut (d.marks .none c)
  | .group d _ members => fun c =>
    Mark.left_append (declToursMarks_left cut members (c.entering d)) (Mark.left_declared cut c d)
  | .code d _ parts => fun c =>
    Mark.left_append (toursMarks_left cut parts (c.entering d)) (Mark.left_declared cut c d)

theorem declToursMarks_left (cut : Cut) : ∀ (ds : List DeclTour) (c : Spot),
    ∀ k ∈ declToursMarks cut c ds, k.Left cut (declToursMarks .none c ds)
  | [] => fun _ => nofun
  | d :: ds => fun c => Mark.left_append (d.marks_left cut c) (declToursMarks_left cut ds c)

end

/-! ## The declarations around a call -/

theorem ScopeStack.declarations_declare (sc : ScopeStack) (v : VisibleLocal) :
    (sc.declare v).declarations = sc.declarations := by
  rcases sc with ⟨_ | ⟨f, fs⟩⟩
  · rfl
  · simp only [declare, declarations, List.filter_cons]
    split <;> rfl

theorem ScopeStack.mem_declarations_entering {sc : ScopeStack} {d : Decl} {id : DeclId}
    (h : id ∈ (sc.entering d).declarations) : id = d.id ∨ id ∈ sc.declarations := by
  cases d with
  | property | field | initializer => exact .inr h
  | classDecl | function =>
    change id ∈ (List.cons _ _).reverse at h
    rw [List.mem_reverse, List.mem_cons] at h
    exact h.imp_right List.mem_reverse.mpr

/-- Calls that stand within scopes and declarations among the marks only. -/
def MarksWithin (sc : ScopeStack) (marks : List Mark) : Prop :=
  ∀ f, .call f ∈ marks → ∀ id ∈ f.scopes.declarations, id ∈ sc.declarations ∨
    ∃ p, .decl p ∈ marks ∧ p.head.id = id

namespace MarksWithin

variable {sc : ScopeStack} {xs ys : List Mark}

theorem nil : MarksWithin sc [] := nofun

theorem append (h : MarksWithin sc xs) (h' : MarksWithin sc ys) : MarksWithin sc (xs ++ ys) := by
  intro f hf id hid
  obtain hf | hf := List.mem_append.mp hf
  · obtain hsc | ⟨p, hp, hpid⟩ := h f hf id hid
    · exact .inl hsc
    · exact .inr ⟨p, List.mem_append_left _ hp, hpid⟩
  · obtain hsc | ⟨p, hp, hpid⟩ := h' f hf id hid
    · exact .inl hsc
    · exact .inr ⟨p, List.mem_append_right _ hp, hpid⟩

/-- Scopes within the same declarations. -/
theorem of_declarations {sc' : ScopeStack} (h : MarksWithin sc' xs)
    (hsc : sc'.declarations = sc.declarations) : MarksWithin sc xs := by
  intro f hf id hid
  rw [← hsc]
  exact h f hf id hid

/-- Inside a declaration its own mark counts. -/
theorem entering {c : Spot} {d : Decl} (h : MarksWithin (c.scopes.entering d) xs) :
    MarksWithin c.scopes (xs ++ [c.declared d]) := by
  intro f hf id hid
  have hown : Mark.decl (c.symbols.declared d).profile ∈ xs ++ [c.declared d] :=
    List.mem_append_right _ List.mem_cons_self
  obtain hf | hf := List.mem_append.mp hf
  · obtain hsc | ⟨p, hp, hpid⟩ := h f hf id hid
    · obtain rfl | hsc := ScopeStack.mem_declarations_entering hsc
      · exact .inr ⟨_, hown, rfl⟩
      · exact .inl hsc
    · exact .inr ⟨p, List.mem_append_left _ hp, hpid⟩
  · cases List.mem_singleton.mp hf

end MarksWithin

mutual

-- Going into a declaration puts its mark behind those of what is in it, so a call inside finds the
-- mark of each declaration that it stands in.
theorem Tour.marks_within (cut : Cut) : ∀ (t : Tour) (c : Spot),
    MarksWithin c.scopes (t.marks cut c)
  | .visit place e operands => fun c => by
    rw [Tour.marks]
    split
    · exact .nil
    · refine (toursMarks_within cut operands c).append fun f hf id hid => .inl ?_
      cases e with
      | call s callee receiver typeArgs args =>
        obtain rfl : f = _ := by simpa [Expr.callFace?] using hf
        exact hid
      | _ => cases hf
  | .block items => fun c => (itemsMarks_within cut items c.block).of_declarations rfl
  | .nested d => fun c => d.marks_within cut c

theorem toursMarks_within (cut : Cut) : ∀ (ts : List Tour) (c : Spot),
    MarksWithin c.scopes (toursMarks cut c ts)
  | [] => fun _ => .nil
  | t :: ts => fun c => (t.marks_within cut c).append (toursMarks_within cut ts c)

theorem itemsMarks_within (cut : Cut) : ∀ (items : List BlockItem) (c : Spot),
    MarksWithin c.scopes (itemsMarks cut c items)
  | [] => fun _ => .nil
  | .run t :: items => fun c => (t.marks_within cut c).append (itemsMarks_within cut items c)
  | .declare v :: items => fun c =>
    (itemsMarks_within cut items (c.declare v)).of_declarations (c.scopes.declarations_declare v)

theorem DeclTour.marks_within (cut : Cut) : ∀ (d : DeclTour) (c : Spot),
    MarksWithin c.scopes (d.marks cut c)
  | .group d _ members => fun c => (declToursMarks_within cut members (c.entering d)).entering
  | .code d _ parts => fun c => (toursMarks_within cut parts (c.entering d)).entering

theorem declToursMarks_within (cut : Cut) : ∀ (ds : List DeclTour) (c : Spot),
    MarksWithin c.scopes (declToursMarks cut c ds)
  | [] => fun _ => .nil
  | d :: ds => fun c => (d.marks_within cut c).append (declToursMarks_within cut ds c)

end

/-! ## Modules -/

/-- Where the declarations of an own file stand. -/
def SourceFile.spot (f : SourceFile) : Spot :=
  ⟨{}, { file := f.id, external := false, scope := f.package }⟩

def filesMarks (cut : Cut) (fs : List SourceFile) : List Mark :=
  fs.flatMap fun f => declToursMarks cut f.spot (declsTours f.declarations)

namespace Module

/-- The marks of the own files. -/
def marks (m : Module) (cut : Cut := .none) : List Mark := filesMarks cut m.files

variable {m : Module}

theorem marks_left {cut : Cut} {k : Mark} (hk : k ∈ m.marks cut) : k.Left cut m.marks := by
  obtain ⟨f, hf, hk⟩ := List.mem_flatMap.mp hk
  exact (declToursMarks_left cut _ f.spot k hk).mono
    fun k' hk' => List.mem_flatMap.mpr ⟨f, hf, hk'⟩

theorem marks_within {cut : Cut} {f : CallFace} (hf : .call f ∈ m.marks cut) {id : DeclId}
    (hid : id ∈ f.scopes.declarations) : ∃ p, .decl p ∈ m.marks cut ∧ p.head.id = id := by
  obtain ⟨file, hfile, hf⟩ := List.mem_flatMap.mp hf
  obtain hnone | ⟨p, hp, hpid⟩ := declToursMarks_within cut _ file.spot f hf id hid
  · cases hnone
  · exact ⟨p, List.mem_flatMap.mpr ⟨file, hfile, hp⟩, hpid⟩

theorem mem_marks_call {f : CallFace} :
    .call f ∈ m.marks ↔ ∃ x ∈ m.visits, x.callFace? = some f := by
  have hcalls : m.marks.filterMap Mark.call? = m.visits.filterMap Visit.callFace? := by
    unfold marks filesMarks visits
    rw [List.filterMap_flatMap, List.filterMap_flatMap]
    exact congrArg (m.files.flatMap ·) (funext fun f => declToursCalls_eq _ f.spot [])
  rw [← List.mem_filterMap, ← hcalls, List.mem_filterMap]
  constructor
  · intro h
    exact ⟨_, h, rfl⟩
  · rintro ⟨_ | g, hk, hg⟩
    · cases hg
    · cases hg
      exact hk

theorem mem_marks_decl {p : Profile} :
    .decl p ∈ m.marks ↔ ∃ s ∈ m.files.flatMap (symbolsOfFile false), s.profile = p := by
  have hprofiles : m.marks.filterMap Mark.profile? =
      (m.files.flatMap (symbolsOfFile false)).map Symbol.profile := by
    unfold marks filesMarks
    rw [List.filterMap_flatMap, List.map_flatMap]
    refine congrArg (m.files.flatMap ·) (funext fun f => ?_)
    rw [symbolsOfFile, declsSymbols_eq]
    exact declToursProfiles_eq _ f.spot
  rw [← List.mem_map, ← hprofiles, List.mem_filterMap]
  constructor
  · intro h
    exact ⟨_, h, rfl⟩
  · rintro ⟨_ | g, hk, hg⟩
    · cases hg
      exact hk
    · cases hg

end Module

end TraceWeave

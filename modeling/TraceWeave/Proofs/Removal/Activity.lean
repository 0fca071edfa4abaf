import TraceWeave.Proofs.Factory.Failures
import TraceWeave.Proofs.Program.Nesting

/-! # Where a trace call is active

Which trace types are active at a point is read off the annotations of the classes and functions
around it. The passes look these declarations up in the index of symbols by the scopes of a walk,
and come to the same answer wherever the walk comes by.

`typesAround` is said in terms of the declarations themselves, and `Visit.activeTypes_eq` is the
agreement with the scopes. `isOk_typesAround` says when annotations can be read.
-/

namespace TraceWeave

/-- What the trace passes read off a declaration. -/
structure DeclSign where
  role : Role
  head : DeclHead
  isLambda : Bool

def Decl.isLambda : Decl → Bool
  | .function _ info _ _ => info.kind == .lambda
  | _ => false

def Decl.sign (d : Decl) : DeclSign := ⟨d.role, d.head, d.isLambda⟩

/-- The annotations that select types for what stands in a declaration. Only those of classes and
functions do. -/
def DeclSign.selecting (o : Options) (d : DeclSign) : List AnnotationUse :=
  if d.role = .classRole ∨ d.role = .function then
    AnnotationUse.ofClass d.head.annotations o.tracing.selectedBy
  else []

/-- The types that are active inside nested declarations, innermost first: those that are active
everywhere, and those that the declarations select. -/
def typesAround (o : Options) : List DeclSign → Except Error TraceSet
  | [] => .ok o.tracing.defaultSet
  | d :: around => do
    let outside ← typesAround o around
    let own ← addTraced (d.selecting o) .empty
    return outside.union own

/-! ## Malformed annotations -/

/-- Whether the types of a selecting annotation cannot be read: they are no array of strings, or one
of the strings names no trace type. -/
def AnnotationUse.isMalformed (use : AnnotationUse) : Bool :=
  match use.argument? "types" with
  | none => false
  | some types =>
    match types.strings? with
    | none => true
    | some names => !names.all fun name => (TraceType.ofName? (TraceType.normalize name)).isSome

theorem Except.isOk_bind_pure {ε α β : Type} (r : Except ε α) (f : α → β) :
    (r >>= fun a => pure (f a)).isOk = r.isOk := by
  cases r <;> rfl

theorem Except.isOk_mapM {ε α β : Type} (f : α → Except ε β) (as : List α) :
    (as.mapM f).isOk = as.all fun a => (f a).isOk := by
  induction as with
  | nil => rfl
  | cons a as ih =>
    rw [List.mapM_cons, List.all_cons, ← ih]
    cases f a with
    | error e => rfl
    | ok b => exact isOk_bind_pure _ _

theorem TraceType.isOk_parse (text : String) :
    (parse text).isOk = (ofName? (normalize text)).isSome := by
  unfold parse
  cases ofName? (normalize text) <;> rfl

theorem isOk_tracedTypes (use : AnnotationUse) : (tracedTypes use).isOk = !use.isMalformed := by
  unfold tracedTypes AnnotationUse.isMalformed
  cases use.argument? "types" with
  | none => rfl
  | some types =>
    dsimp only
    cases types.strings? with
    | none => rfl
    | some names =>
      have hnames : (names.mapM TraceType.parse).isOk =
          names.all fun name => (TraceType.ofName? (TraceType.normalize name)).isSome := by
        simp only [Except.isOk_mapM, TraceType.isOk_parse]
      dsimp only
      rw [Bool.not_not, ← hnames]
      cases names.mapM TraceType.parse <;> rfl

/-- The types of uses can be read unless one of them is malformed. -/
theorem isOk_addTraced : ∀ (uses : List AnnotationUse) (set : TraceSet),
    (addTraced uses set).isOk = uses.all fun use => !use.isMalformed
  | [], _ => rfl
  | use :: uses, set => by
    rw [addTraced, List.all_cons, ← isOk_tracedTypes]
    cases tracedTypes use with
    | error e => rfl
    | ok types => exact isOk_addTraced uses _

/-- The active types can be read unless an annotation around is malformed. -/
theorem isOk_typesAround (o : Options) : ∀ around : List DeclSign,
    (typesAround o around).isOk =
      around.all fun d => (d.selecting o).all fun use => !use.isMalformed
  | [] => rfl
  | d :: around => by
    rw [typesAround, List.all_cons, ← isOk_typesAround o around, ← isOk_addTraced _ .empty]
    cases typesAround o around with
    | error e => exact (Bool.and_false _).symm
    | ok outside => exact (Except.isOk_bind_pure _ _).trans (Bool.and_true _).symm

theorem typesAround_fails (o : Options) : ∀ around : List DeclSign,
    Except.FailsWith (·.isConfig) (typesAround o around)
  | [] => .ok _
  | _ :: around =>
    (typesAround_fails o around).bind fun _ => (addTraced_fails _ _).bind fun _ => .ok _

/-! ## The declarations around a visit -/

/-- Declarations around a visit that are in `around`, or have their symbols in `symbols`. -/
def Visit.Declared (x : Visit) (around : List Decl) (symbols : List Symbol) : Prop :=
  ∀ d ∈ x.around, d ∈ around ∨ ∃ sc : SymbolScope, sc.declared d ∈ symbols

namespace Visit.Declared

variable {x : Visit} {around : List Decl} {xs ys : List Symbol}

theorem left (h : x.Declared around xs) : x.Declared around (xs ++ ys) := fun d hd =>
  (h d hd).imp_right fun ⟨sc, hmem⟩ => ⟨sc, List.mem_append_left ys hmem⟩

theorem right (h : x.Declared around ys) : x.Declared around (xs ++ ys) := fun d hd =>
  (h d hd).imp_right fun ⟨sc, hmem⟩ => ⟨sc, List.mem_append_right xs hmem⟩

/-- Out of a declaration. -/
theorem out {d : Decl} (sc : SymbolScope) (h : x.Declared (d :: around) xs) :
    x.Declared around (xs ++ [sc.declared d]) := by
  intro e he
  obtain hmem | hmem := h.left e he
  · obtain rfl | hmem := List.mem_cons.mp hmem
    · exact .inr ⟨sc, by simp⟩
    · exact .inl hmem
  · exact .inr hmem

end Visit.Declared

section

variable {x : Visit}

mutual

theorem Tour.visits_declared : ∀ (t : Tour) {scopes : ScopeStack} {around : List Decl}
    (sc : SymbolScope), x ∈ t.visits scopes around → x.Declared around (t.symbols sc)
  | .visit _ _ operands => fun sc h => by
    rw [Tour.visits, List.mem_append, List.mem_singleton] at h
    obtain h | rfl := h
    · exact toursVisits_declared operands sc h
    · exact fun _ hd => .inl hd
  | .block items => fun sc h => itemsVisits_declared items sc h
  | .nested d => fun sc h => d.visits_declared sc h

theorem toursVisits_declared : ∀ (ts : List Tour) {scopes : ScopeStack} {around : List Decl}
    (sc : SymbolScope), x ∈ toursVisits scopes around ts → x.Declared around (toursSymbols sc ts)
  | [] => fun _ => nofun
  | t :: ts => fun sc h => by
    rw [toursVisits, List.mem_append] at h
    obtain h | h := h
    · exact (t.visits_declared sc h).left
    · exact (toursVisits_declared ts sc h).right

theorem itemsVisits_declared : ∀ (items : List BlockItem) {scopes : ScopeStack}
    {around : List Decl} (sc : SymbolScope), x ∈ itemsVisits scopes around items →
      x.Declared around (itemsSymbols sc items)
  | [] => fun _ => nofun
  | .run t :: items => fun sc h => by
    rw [itemsVisits, List.mem_append] at h
    obtain h | h := h
    · exact (t.visits_declared sc h).left
    · exact (itemsVisits_declared items sc h).right
  | .declare _ :: items => fun sc h => itemsVisits_declared items sc h

theorem DeclTour.visits_declared : ∀ (d : DeclTour) {scopes : ScopeStack} {around : List Decl}
    (sc : SymbolScope), x ∈ d.visits scopes around → x.Declared around (d.symbols sc)
  | .group d _ members => fun sc h => (declToursVisits_declared members (sc.entering d) h).out sc
  | .code d _ parts => fun sc h => (toursVisits_declared parts (sc.entering d) h).out sc

theorem declToursVisits_declared : ∀ (ds : List DeclTour) {scopes : ScopeStack}
    {around : List Decl} (sc : SymbolScope), x ∈ declToursVisits scopes around ds →
      x.Declared around (declToursSymbols sc ds)
  | [] => fun _ => nofun
  | d :: ds => fun sc h => by
    rw [declToursVisits, List.mem_append] at h
    obtain h | h := h
    · exact (d.visits_declared sc h).left
    · exact (declToursVisits_declared ds sc h).right

end

end

/-- The index knows the declarations around a visit as they stand there. -/
theorem Module.get?_of_around {m : Module} (hids : m.declIds.Nodup) {x : Visit} (hx : x ∈ m.visits)
    {d : Decl} (hd : d ∈ x.around) :
    ∃ sc : SymbolScope, (SymbolTable.build m).get? d.id = some (sc.declared d) := by
  obtain ⟨f, hf, hvisit⟩ := List.mem_flatMap.mp hx
  let file : SymbolScope := { file := f.id, external := false, scope := f.package }
  obtain hmem | ⟨sc, hmem⟩ := declToursVisits_declared _ file hvisit d hd
  · cases hmem
  · rw [← declsSymbols_eq] at hmem
    have hsymbol : sc.declared d ∈ m.symbols :=
      List.mem_append_left _ (List.mem_flatMap.mpr ⟨f, hf, hmem⟩)
    have hid : (sc.declared d).id = d.id := by cases d <;> rfl
    refine ⟨sc, ?_⟩
    rw [← hid]
    exact SymbolTable.get?_of_mem hids hsymbol

/-! ## Activity at a visit -/

theorem TraceSet.union_empty (s : TraceSet) : s.union .empty = s :=
  congrArg TraceSet.mk (funext fun _ => Bool.or_false _)

theorem addDeclared_append (o : Options) (t : SymbolTable) : ∀ (xs ys : List DeclId)
    (set : TraceSet), addDeclared o t (xs ++ ys) set =
      (addDeclared o t xs set >>= addDeclared o t ys)
  | [], _, _ => rfl
  | id :: xs, ys, set => by
    rw [List.cons_append, addDeclared, addDeclared]
    cases t.get? id with
    | none => exact addDeclared_append o t xs ys set
    | some s =>
      dsimp only
      cases declaredTypes o s.head.annotations with
      | error e => rfl
      | ok types => exact addDeclared_append o t xs ys _

/-- Where the index knows the declarations around a point, the types that they select are those
that are found through it. -/
theorem addDeclared_eq (o : Options) (t : SymbolTable) : ∀ around : List Decl,
    (∀ d ∈ around, ∃ sc : SymbolScope, t.get? d.id = some (sc.declared d)) →
      addDeclared o t (((linked around).filter Entry.isScope).map Entry.id).reverse
        o.tracing.defaultSet = typesAround o (around.map Decl.sign)
  | [], _ => rfl
  | d :: around, h => by
    obtain ⟨⟨sc, hd⟩, haround⟩ := List.forall_mem_cons.mp h
    have ih := addDeclared_eq o t around haround
    have hhead : (sc.declared d).head = d.head := by cases d <;> rfl
    rw [List.map_cons, typesAround, linked, List.filter_cons]
    by_cases hscope : d.role = .classRole ∨ d.role = .function
    · have hentry : Entry.isScope ⟨d.id, d.role, around.head?.map Decl.id⟩ = true := by
        simpa [Entry.isScope] using hscope
      have hown : d.sign.selecting o =
          AnnotationUse.ofClass d.head.annotations o.tracing.selectedBy := if_pos hscope
      rw [if_pos hentry, List.map_cons, List.reverse_cons, addDeclared_append, ih, hown]
      refine congrArg (typesAround o (around.map Decl.sign) >>= ·) (funext fun outside => ?_)
      rw [addDeclared, hd]
      dsimp only
      rw [hhead, declaredTypes]
      cases addTraced (AnnotationUse.ofClass d.head.annotations o.tracing.selectedBy) .empty <;> rfl
    · have hentry : ¬Entry.isScope ⟨d.id, d.role, around.head?.map Decl.id⟩ = true := by
        simpa [Entry.isScope] using hscope
      have hown : d.sign.selecting o = [] := if_neg hscope
      rw [if_neg hentry, ih, hown]
      cases typesAround o (around.map Decl.sign) with
      | error e => rfl
      | ok outside => exact congrArg Except.ok outside.union_empty.symm

namespace Visit

/-- The declarations around a visit as the trace passes see them. -/
def signs (x : Visit) : List DeclSign := x.around.map Decl.sign

variable {m : Module} {env : PassEnv} {x : Visit}

theorem activeTypes_eq (hids : m.declIds.Nodup) (henv : env.symbols = .build m)
    (hx : x ∈ m.visits) : activeTypes env x.scopes = typesAround env.options x.signs := by
  obtain ⟨hmirrors, -⟩ := Module.visits_mirror hx
  rw [activeTypes, hmirrors.declarations_eq, henv]
  exact addDeclared_eq _ _ _ fun d hd => Module.get?_of_around hids hx hd

/-- Inside the same declaration the same types are active. -/
theorem typesAround_congr (hids : m.declIds.Nodup) (henv : env.symbols = .build m)
    (hx : x ∈ m.visits) {y : Visit} (hy : y ∈ m.visits)
    (h : x.scopes.innermostDecl? = y.scopes.innermostDecl?) :
    typesAround env.options x.signs = typesAround env.options y.signs := by
  obtain ⟨d, _, -, hd, hscopes, -⟩ := Module.visit_agrees hids hx
  obtain ⟨d', _, -, hd', hscopes', -⟩ := Module.visit_agrees hids hy
  have hsame : d.id = d'.id := Option.some.inj (hd.symm.trans (h.trans hd'))
  have hdeclarations : x.scopes.declarations = y.scopes.declarations := by
    rw [hscopes, hscopes', hsame]
  rw [← activeTypes_eq hids henv hx, ← activeTypes_eq hids henv hy, activeTypes, activeTypes,
    hdeclarations]

/-- Whether a visit stands directly in a lambda. -/
def inLambda (x : Visit) : Bool :=
  match x.signs with
  | d :: _ => d.isLambda
  | [] => false

theorem inLambda_eq (hids : m.declIds.Nodup) (henv : env.symbols = .build m) (hx : x ∈ m.visits) :
    Removal.inLambda env x.scopes = x.inLambda := by
  obtain ⟨hmirrors, d, rest, haround, hcode⟩ := Module.visits_mirror hx
  obtain ⟨sc, hd⟩ := Module.get?_of_around hids hx (haround ▸ List.mem_cons_self)
  rw [haround] at hmirrors
  have hsigns : x.inLambda = d.isLambda := by rw [inLambda, signs, haround]; rfl
  rw [Removal.inLambda, hmirrors.innermostDecl?_eq hcode, hsigns, Option.bind_some, henv,
    SymbolTable.function?, hd]
  cases d <;> rfl

end Visit

end TraceWeave

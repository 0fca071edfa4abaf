import TraceWeave.Proofs.Capture.Stripped
import TraceWeave.Proofs.Pipeline.Landmarks

/-! # The linkage after extraction

Linkage looks at the name, the kind and one annotation of every declaration. Extraction marks
functions with another annotation, so it changes nothing that linkage looks at, unless a declaration
stands inside a default that is taken out. Without such declarations the same intrinsics and hooks
are found before extraction and after it.

`SameViews` relates symbols that look alike to linkage, and `Linkage.build_sameViews` says that
they are linked alike. `BareDefaults` is the condition, `CallerCapture.linkage_extract` the
result.
-/

namespace TraceWeave

/-! ## What linkage looks at -/

/-- What linkage looks at: the landmark of a declaration, and its first use of an annotation. -/
def Symbol.view (markedBy : String) (s : Symbol) : Landmark × Option AnnotationUse :=
  (s.landmark, AnnotationUse.find? s.head.annotations markedBy)

/-- Symbols that look alike to linkage. -/
def Symbol.SameView (markedBy : String) (s u : Symbol) : Prop := s.view markedBy = u.view markedBy

/-- Lists of symbols that look alike to linkage one after the other. -/
abbrev SameViews (markedBy : String) : List Symbol → List Symbol → Prop :=
  List.Forall₂ (Symbol.SameView markedBy)

section

variable {markedBy : String} {s u : Symbol} {xs ys xs' ys' : List Symbol}

namespace Symbol.SameView

theorem landmark_eq (h : SameView markedBy s u) : s.landmark = u.landmark := congrArg Prod.fst h

theorem id_eq (h : SameView markedBy s u) : s.id = u.id := congrArg Landmark.id h.landmark_eq

theorem fqName_eq (h : SameView markedBy s u) : s.fqName = u.fqName :=
  congrArg Landmark.fqName h.landmark_eq

theorem isFunction_eq (h : SameView markedBy s u) : s.function?.isSome = u.function?.isSome :=
  congrArg Landmark.isFunction h.landmark_eq

theorem use_eq (h : SameView markedBy s u) : AnnotationUse.find? s.head.annotations markedBy =
    AnnotationUse.find? u.head.annotations markedBy :=
  congrArg Prod.snd h

end Symbol.SameView

namespace SameViews

theorem refl (xs : List Symbol) : SameViews markedBy xs xs := List.forall₂_same.mpr fun _ _ => rfl

theorem append (h : SameViews markedBy xs xs') (h' : SameViews markedBy ys ys') :
    SameViews markedBy (xs ++ ys) (xs' ++ ys') := List.rel_append h h'

theorem single (h : s.SameView markedBy u) : SameViews markedBy [s] [u] := .cons h .nil

end SameViews

end

namespace SymbolTable

variable {markedBy : String} {s u : Symbol} {xs ys : List Symbol} {t t' : SymbolTable}

theorem insertById_sameViews (hs : s.SameView markedBy u) (h : SameViews markedBy xs ys) :
    SameViews markedBy (insertById s xs) (insertById u ys) := by
  induction h with
  | nil => exact .single hs
  | cons hab hrest ih =>
    unfold insertById
    rw [hs.id_eq, hab.id_eq]
    split
    · exact .cons hs (.cons hab hrest)
    · split
      · exact .cons hab hrest
      · exact .cons hab ih

theorem entries_sameViews (h : SameViews markedBy t.newest t'.newest) :
    SameViews markedBy t.entries t'.entries := by
  have hfold : ∀ {xs ys}, SameViews markedBy xs ys → ∀ sorted sorted',
      SameViews markedBy sorted sorted' → SameViews markedBy
        (xs.foldl (fun sorted s => insertById s sorted) sorted)
        (ys.foldl (fun sorted s => insertById s sorted) sorted') := by
    intro xs ys h
    induction h with
    | nil => exact fun _ _ h => h
    | cons hs _ ih => exact fun _ _ h => ih _ _ (insertById_sameViews hs h)
  exact hfold h [] [] .nil

/-- Of symbols that look alike the same one is found. -/
theorem find?_sameViews (id : DeclId) (h : SameViews markedBy xs ys) :
    (xs.find? (·.id == id)).map (Symbol.view markedBy) =
      (ys.find? (·.id == id)).map (Symbol.view markedBy) := by
  induction h with
  | nil => rfl
  | cons hs _ ih =>
    rw [List.find?_cons, List.find?_cons, hs.id_eq]
    split
    · exact congrArg some hs
    · exact ih

theorem isFunction_sameViews (h : SameViews markedBy t.newest t'.newest) (id : DeclId) :
    (t.function? id).isSome = (t'.function? id).isSome := by
  have hfind : (t.get? id).map (Symbol.view markedBy) = (t'.get? id).map (Symbol.view markedBy) :=
    find?_sameViews id h
  have hsome : ∀ t : SymbolTable, (t.function? id).isSome =
      (((t.get? id).map (Symbol.view markedBy)).map fun v => v.1.isFunction).getD false := by
    intro t
    unfold function?
    cases t.get? id with
    | none => rfl
    | some s => cases hs : s.function? <;> simp [hs, Symbol.view, Symbol.landmark]
  rw [hsome t, hsome t', hfind]

theorem map_filter_sameViews (name : String) (h : SameViews markedBy xs ys) :
    (xs.filter (·.fqName == name)).map Symbol.id = (ys.filter (·.fqName == name)).map Symbol.id := by
  induction h with
  | nil => rfl
  | cons hs _ ih =>
    rw [List.filter_cons, List.filter_cons, hs.fqName_eq]
    split
    · rw [List.map_cons, List.map_cons, hs.id_eq, ih]
    · exact ih

theorem lookup_sameViews (h : SameViews markedBy t.newest t'.newest) (name : String) :
    t.lookup name = t'.lookup name := by
  rw [lookup, lookup, List.map_reverse, List.map_reverse, map_filter_sameViews name h]

end SymbolTable

namespace Linkage

variable {markedBy : String} {s u : Symbol} {xs ys : List Symbol} {t t' : SymbolTable}
  {o : Options}

theorem markedKind_sameView (h : s.SameView markedBy u) :
    markedKind markedBy s = markedKind markedBy u := by
  rw [markedKind, markedKind, h.use_eq, h.fqName_eq]

theorem addDecl_sameView (h : s.SameView markedBy u) (decls : List (IntrinsicKind × DeclId))
    (kind : IntrinsicKind) : addDecl decls kind s = addDecl decls kind u := by
  rw [addDecl, addDecl, h.fqName_eq, h.id_eq]

theorem addIntrinsics_sameViews (h : SameViews markedBy xs ys) :
    addIntrinsics markedBy xs = addIntrinsics markedBy ys := by
  induction h with
  | nil => rfl
  | cons hs _ ih =>
    funext l
    have hfunction := congrArg not hs.isFunction_eq
    rw [Option.not_isSome, Option.not_isSome] at hfunction
    rw [addIntrinsics, addIntrinsics, hfunction, markedKind_sameView hs, ih]
    simp only [addDecl_sameView hs, hs.id_eq]

/-- Symbols that look alike are linked alike. -/
theorem build_sameViews (h : SameViews o.intrinsics.markedBy t.newest t'.newest) :
    build t o = build t' o := by
  have hhooks : hooksOf t o.tracing.hooks = hooksOf t' o.tracing.hooks := by
    unfold hooksOf SymbolTable.lookupFunction?
    simp only [SymbolTable.lookup_sameViews h, SymbolTable.isFunction_sameViews h]
  rw [build, build, addIntrinsics_sameViews (SymbolTable.entries_sameViews h), hhooks]

end Linkage

/-! ## Extraction -/

/-- Nothing is declared inside the default of a parameter, if that is an intrinsic call. -/
def Param.BareDefault (l : Linkage) (p : Param) : Prop :=
  (CallerCapture.strippedDefault? l p.default).isSome = true → declsOf (optionNodes p.default) = []

/-- Nothing is declared inside the defaults of a declaration that are intrinsic calls. -/
def Decl.BareDefaults (l : Linkage) : Decl → Prop
  | .function _ _ params _ => ∀ p ∈ params, p.BareDefault l
  | _ => True

/-- Nothing is declared inside such defaults of the declarations among nodes. -/
def BareDefaults (l : Linkage) (nodes : List Node) : Prop :=
  ∀ d ∈ declsOf nodes, d.BareDefaults l

section

variable {l : Linkage} {xs ys nodes : List Node}

instance (p : Param) : Decidable (p.BareDefault l) := inferInstanceAs (Decidable (_ = true → _))

instance : (d : Decl) → Decidable (d.BareDefaults l)
  | .function _ _ params _ => inferInstanceAs (Decidable (∀ p ∈ params, p.BareDefault l))
  | .classDecl _ _ _ | .property _ _ _ _ _ | .field _ _ _ | .initializer _ _ => .isTrue trivial

instance : Decidable (BareDefaults l nodes) :=
  inferInstanceAs (Decidable (∀ d ∈ declsOf nodes, d.BareDefaults l))

theorem BareDefaults.append_iff :
    BareDefaults l (xs ++ ys) ↔ BareDefaults l xs ∧ BareDefaults l ys := by
  unfold BareDefaults
  rw [declsOf_append, List.forall_mem_append]

theorem BareDefaults.decl_iff {d : Decl} :
    BareDefaults l (.decl d :: nodes) ↔ d.BareDefaults l ∧ BareDefaults l nodes := by
  unfold BareDefaults
  rw [declsOf_decl, List.forall_mem_cons]

end

/-- Where nothing is declared, there are no symbols. -/
theorem optionSymbols_of_declsOf {e : Option Expr} (h : declsOf (optionNodes e) = [])
    (sc : SymbolScope) : optionSymbols sc e = [] := by
  have hperm := option_symbols_of sc e
  rw [SymbolsOf, h] at hperm
  exact List.map_eq_nil_iff.mp hperm.eq_nil

namespace CallerCapture

variable {env : PassEnv} {markedBy : String}

/-- A marker is none of the annotations that linkage looks at. -/
theorem find?_markedHead (hm : env.options.callerCapture.marker ≠ markedBy) (head : DeclHead)
    (params : List Param) :
    AnnotationUse.find? (markedHead env head params).annotations markedBy =
      AnnotationUse.find? head.annotations markedBy := by
  have hother : List.find? (·.className == markedBy)
      [marker env.options.callerCapture.marker head.span.file (params.map (mode env.linkage))] =
        none := by
    rw [List.find?_cons_of_neg, List.find?_nil]
    simpa [marker] using hm
  rw [AnnotationUse.find?, markedHead, List.find?_append, hother, Option.or_none]
  rfl

mutual

-- Only declarations have symbols. A function that is marked gets one annotation more, which linkage
-- does not look at, and its defaults declare nothing where they are taken out.
theorem exprExtract_sameViews (hm : env.options.callerCapture.marker ≠ markedBy) :
    ∀ (e : Expr) (x : Extraction) (sc : SymbolScope), BareDefaults env.linkage e.nodes →
      SameViews markedBy ((exprExtract env e x).1.symbols sc) (e.symbols sc)
  | .setVar _ _ value, x, sc, h => exprExtract_sameViews hm value x sc h
  | .call _ _ receiver _ args, x, sc, h =>
    have h := BareDefaults.append_iff.mp h
    (optionExtract_sameViews hm receiver x sc h.1).append (argsExtract_sameViews hm args _ sc h.2)
  | .block _ stmts, x, sc, h => stmtsExtract_sameViews hm stmts x sc h
  | .returnable _ _ stmts, x, sc, h => stmtsExtract_sameViews hm stmts x sc h
  | .ret _ _ value, x, sc, h => exprExtract_sameViews hm value x sc h
  | .when _ branches otherwise, x, sc, h =>
    have h := BareDefaults.append_iff.mp h
    (branchesExtract_sameViews hm branches x sc h.1).append
      (optionExtract_sameViews hm otherwise _ sc h.2)
  | .loop _ condition body, x, sc, h =>
    have h := BareDefaults.append_iff.mp h
    (exprExtract_sameViews hm condition x sc h.1).append (exprExtract_sameViews hm body _ sc h.2)
  | .binary _ _ lhs rhs, x, sc, h =>
    have h := BareDefaults.append_iff.mp h
    (exprExtract_sameViews hm lhs x sc h.1).append (exprExtract_sameViews hm rhs _ sc h.2)
  | .not _ operand, x, sc, h => exprExtract_sameViews hm operand x sc h
  | .concat _ parts, x, sc, h => exprsExtract_sameViews hm parts x sc h
  | .lambda _ decl, x, sc, h => declExtract_sameViews hm decl x sc h
  | .const _ _, _, _, _ | .getVar _ _, _, _, _ | .functionRef _ _, _, _, _
  | .propertyRef _ _, _, _, _ | .descriptor _ _, _, _, _ | .captureFrame _ _, _, _, _ => .refl _

theorem optionExtract_sameViews (hm : env.options.callerCapture.marker ≠ markedBy) :
    ∀ (e : Option Expr) (x : Extraction) (sc : SymbolScope),
      BareDefaults env.linkage (optionNodes e) →
        SameViews markedBy (optionSymbols sc (optionExtract env e x).1) (optionSymbols sc e)
  | none, _, _, _ => .refl _
  | some e, x, sc, h => exprExtract_sameViews hm e x sc h

theorem argsExtract_sameViews (hm : env.options.callerCapture.marker ≠ markedBy) :
    ∀ (args : List (Option Expr)) (x : Extraction) (sc : SymbolScope),
      BareDefaults env.linkage (argsNodes args) →
        SameViews markedBy (argsSymbols sc (argsExtract env args x).1) (argsSymbols sc args)
  | [], _, _, _ => .refl _
  | none :: args, x, sc, h => argsExtract_sameViews hm args x sc h
  | some e :: args, x, sc, h =>
    have h := BareDefaults.append_iff.mp h
    (exprExtract_sameViews hm e x sc h.1).append (argsExtract_sameViews hm args _ sc h.2)

theorem exprsExtract_sameViews (hm : env.options.callerCapture.marker ≠ markedBy) :
    ∀ (es : List Expr) (x : Extraction) (sc : SymbolScope),
      BareDefaults env.linkage (exprsNodes es) →
        SameViews markedBy (exprsSymbols sc (exprsExtract env es x).1) (exprsSymbols sc es)
  | [], _, _, _ => .refl _
  | e :: es, x, sc, h =>
    have h := BareDefaults.append_iff.mp h
    (exprExtract_sameViews hm e x sc h.1).append (exprsExtract_sameViews hm es _ sc h.2)

theorem branchesExtract_sameViews (hm : env.options.callerCapture.marker ≠ markedBy) :
    ∀ (branches : List (Expr × Expr)) (x : Extraction) (sc : SymbolScope),
      BareDefaults env.linkage (branchesNodes branches) →
        SameViews markedBy (branchesSymbols sc (branchesExtract env branches x).1)
          (branchesSymbols sc branches)
  | [], _, _, _ => .refl _
  | (condition, result) :: branches, x, sc, h =>
    have h := BareDefaults.append_iff.mp h
    have h' := BareDefaults.append_iff.mp h.1
    ((exprExtract_sameViews hm condition x sc h'.1).append
      (exprExtract_sameViews hm result _ sc h'.2)).append
      (branchesExtract_sameViews hm branches _ sc h.2)

theorem stmtsExtract_sameViews (hm : env.options.callerCapture.marker ≠ markedBy) :
    ∀ (stmts : List Stmt) (x : Extraction) (sc : SymbolScope),
      BareDefaults env.linkage (stmtsNodes stmts) →
        SameViews markedBy (stmtsSymbols sc (stmtsExtract env stmts x).1) (stmtsSymbols sc stmts)
  | [], _, _, _ => .refl _
  | stmt :: stmts, x, sc, h =>
    have h := BareDefaults.append_iff.mp h
    (stmtExtract_sameViews hm stmt x sc h.1).append (stmtsExtract_sameViews hm stmts _ sc h.2)

theorem stmtExtract_sameViews (hm : env.options.callerCapture.marker ≠ markedBy) :
    ∀ (stmt : Stmt) (x : Extraction) (sc : SymbolScope), BareDefaults env.linkage stmt.nodes →
      SameViews markedBy ((stmtExtract env stmt x).1.symbols sc) (stmt.symbols sc)
  | .expr e, x, sc, h => exprExtract_sameViews hm e x sc h
  | .var _ init, x, sc, h => optionExtract_sameViews hm init x sc h
  | .decl d, x, sc, h => declExtract_sameViews hm d x sc h

/-- What is taken out has no symbols. -/
theorem paramsExtract_sameViews (hm : env.options.callerCapture.marker ≠ markedBy)
    (capturing : Bool) :
    ∀ (params : List Param) (x : Extraction) (sc : SymbolScope),
      (∀ p ∈ params, p.BareDefault env.linkage) → BareDefaults env.linkage (paramsNodes params) →
        SameViews markedBy (paramsSymbols sc (paramsExtract env capturing params x).1)
          (paramsSymbols sc params)
  | [], _, _, _, _ => .refl _
  | ⟨head, default⟩ :: params, x, sc, hbare, h => by
    obtain ⟨hdefault, hrest⟩ := BareDefaults.append_iff.mp
      (show BareDefaults env.linkage (optionNodes default ++ paramsNodes params) from h)
    obtain ⟨hhead, htail⟩ := List.forall_mem_cons.mp hbare
    rw [paramsExtract, paramsSymbols]
    split
    · rename_i htaken
      rw [optionSymbols_of_declsOf (hhead (Bool.and_eq_true_iff.mp htaken).2) sc]
      exact paramsExtract_sameViews hm capturing params x sc htail hrest
    · exact (optionExtract_sameViews hm default x sc hdefault).append
        (paramsExtract_sameViews hm capturing params _ sc htail hrest)

theorem bodyExtract_sameViews (hm : env.options.callerCapture.marker ≠ markedBy) :
    ∀ (body : Body) (x : Extraction) (sc : SymbolScope), BareDefaults env.linkage body.nodes →
      SameViews markedBy ((bodyExtract env body x).1.symbols sc) (body.symbols sc)
  | .absent, _, _, _ => .refl _
  | .block stmts, x, sc, h => stmtsExtract_sameViews hm stmts x sc h
  | .expression e, x, sc, h => exprExtract_sameViews hm e x sc h

theorem declExtract_sameViews (hm : env.options.callerCapture.marker ≠ markedBy) :
    ∀ (d : Decl) (x : Extraction) (sc : SymbolScope), BareDefaults env.linkage d.nodes →
      SameViews markedBy ((declExtract env d x).1.symbols sc) (d.symbols sc)
  | .classDecl head info members, x, sc, h =>
    have h := BareDefaults.decl_iff.mp h
    (declsExtract_sameViews hm members x _ h.2).append (.single rfl)
  | .function head info params body, x, sc, h => by
    obtain ⟨hbare, h⟩ := BareDefaults.decl_iff.mp h
    obtain ⟨hparams, hbody⟩ := BareDefaults.append_iff.mp h
    rw [declExtract_function]
    cases isCapturing env head params with
    | true =>
      refine ((paramsExtract_sameViews hm true params _ _ hbare hparams).append
        (bodyExtract_sameViews hm body _ _ hbody)).append (.single ?_)
      exact congrArg (Prod.mk _) (find?_markedHead hm head params)
    | false =>
      exact ((paramsExtract_sameViews hm false params _ _ hbare hparams).append
        (bodyExtract_sameViews hm body _ _ hbody)).append (.single rfl)
  | .property head info backing getter setter, x, sc, h =>
    have h := (BareDefaults.decl_iff.mp h).2
    have h' := BareDefaults.append_iff.mp h
    have h'' := BareDefaults.append_iff.mp h'.1
    (((accessorExtract_sameViews hm backing x _ h''.1).append
      (accessorExtract_sameViews hm getter _ _ h''.2)).append
      (accessorExtract_sameViews hm setter _ _ h'.2)).append (.single rfl)
  | .field head info init, x, sc, h =>
    have h := BareDefaults.decl_iff.mp h
    (optionExtract_sameViews hm init x _ h.2).append (.single rfl)
  | .initializer head body, x, sc, h =>
    have h := BareDefaults.decl_iff.mp h
    (stmtsExtract_sameViews hm body x _ h.2).append (.single rfl)

theorem accessorExtract_sameViews (hm : env.options.callerCapture.marker ≠ markedBy) :
    ∀ (d : Option Decl) (x : Extraction) (sc : SymbolScope),
      BareDefaults env.linkage (accessorNodes d) →
        SameViews markedBy (accessorSymbols sc (accessorExtract env d x).1) (accessorSymbols sc d)
  | none, _, _, _ => .refl _
  | some d, x, sc, h => declExtract_sameViews hm d x sc h

theorem declsExtract_sameViews (hm : env.options.callerCapture.marker ≠ markedBy) :
    ∀ (ds : List Decl) (x : Extraction) (sc : SymbolScope),
      BareDefaults env.linkage (declsNodes ds) →
        SameViews markedBy (declsSymbols sc (declsExtract env ds x).1) (declsSymbols sc ds)
  | [], _, _, _ => .refl _
  | d :: ds, x, sc, h =>
    have h := BareDefaults.append_iff.mp h
    (declExtract_sameViews hm d x sc h.1).append (declsExtract_sameViews hm ds _ sc h.2)

end

theorem filesExtract_sameViews (hm : env.options.callerCapture.marker ≠ markedBy) :
    ∀ (fs : List SourceFile) (x : Extraction), BareDefaults env.linkage (filesNodes fs) →
      SameViews markedBy ((filesExtract env fs x).1.flatMap (Module.symbolsOfFile false))
        (fs.flatMap (Module.symbolsOfFile false))
  | [], _, _ => .refl _
  | f :: fs, x, h =>
    have h := BareDefaults.append_iff.mp h
    (declsExtract_sameViews hm f.declarations x _ h.1).append (filesExtract_sameViews hm fs _ h.2)

/-- The same intrinsics and hooks are found after extraction. -/
theorem linkage_extract {m : Module}
    (hm : env.options.callerCapture.marker ≠ env.options.intrinsics.markedBy)
    (hbare : BareDefaults env.linkage (filesNodes m.files))
    (captured : CapturedDefaults) :
    Linkage.build (SymbolTable.build (extract env m captured).1) env.options =
      Linkage.build (SymbolTable.build m) env.options := by
  refine Linkage.build_sameViews ?_
  rw [SymbolTable.newest_build, SymbolTable.newest_build]
  exact List.rel_reverse ((filesExtract_sameViews hm m.files _ hbare).append (.refl _))

end CallerCapture

end TraceWeave

import TraceWeave.Proofs.Capture.ByHand
import TraceWeave.Proofs.Capture.Relinked
import TraceWeave.Proofs.Program.Holding

/-! # Modes after extraction

If nothing is declared inside the defaults that are taken out, every declaration is left, and in a
module that had no markers a function has modes exactly if something was taken out of it: one for
each parameter.

`CallerCapture.Capturable` is the condition on the module and `CallerCapture.Extracted` the moment
behind extraction. `CallerCapture.Capturable.leaves` says that every declaration is left,
`CallerCapture.Capturable.modesOf_cases` which functions have modes.
-/

namespace TraceWeave.CallerCapture

variable {env env₁ : PassEnv} {m : Module}

/-! ## What extraction leaves -/

theorem length_paramsExtract (env : PassEnv) (capturing : Bool) (params : List Param) :
    ∀ x : Extraction, (paramsExtract env capturing params x).1.length = params.length := by
  induction params with
  | nil => exact fun _ => rfl
  | cons p params ih =>
    intro x
    obtain ⟨head, default⟩ := p
    rw [paramsExtract]
    split
    · exact congrArg (· + 1) (ih x)
    · exact congrArg (· + 1) (ih _)

/-- A function that something was taken out of has its marker and as many parameters as before. -/
theorem LeftOf.marked {d' : Decl} {head : DeclHead} {info : FunctionHead} {params : List Param}
    {body : Body} (h : LeftOf env d' (.function head info params body))
    (hcapturing : isCapturing env head params = true) : ∃ params' body',
      d' = .function (markedHead env head params) info params' body' ∧
        params'.length = params.length := by
  obtain ⟨x, rfl⟩ := h
  rw [declExtract_function, hcapturing]
  exact ⟨_, _, rfl, length_paramsExtract env true params _⟩

/-- Every other declaration keeps its head. -/
theorem LeftOf.head_eq {d d' : Decl} (h : LeftOf env d' d)
    (hplain : ∀ head info params body, d = .function head info params body →
      isCapturing env head params = false) : d'.head = d.head := by
  obtain ⟨x, rfl⟩ := h
  cases d with
  | function head info params body =>
    rw [declExtract_function, hplain head info params body rfl]
    rfl
  | _ => rfl

/-- A module without markers whose defaults can be taken out without losing a declaration. -/
structure Capturable (env : PassEnv) (m : Module) : Prop where
  distinct : m.declIds.Nodup
  unmarked : ∀ d ∈ m.decls,
    AnnotationUse.find? d.head.annotations env.options.callerCapture.marker = none
  names : env.options.callerCapture.marker ≠ env.options.intrinsics.markedBy
  bare : BareDefaults env.linkage (filesNodes m.files)

/-- An environment for the module that extraction leaves. -/
structure Extracted (env : PassEnv) (m : Module) (captured : CapturedDefaults) (env₁ : PassEnv) :
    Prop where
  options : env₁.options = env.options
  symbols : env₁.symbols = SymbolTable.build (extract env m captured).1
  linked : Linkage.build (SymbolTable.build (extract env m captured).1) env.options =
    .ok env₁.linkage
  linkage : env₁.linkage = env.linkage

variable {captured : CapturedDefaults}

/-- Every declaration is left, and what was taken out of any of them is on record. -/
theorem Capturable.leaves (h : Capturable env m) (captured : CapturedDefaults) :
    List.Forall₂ (LeftOf env) (declsOf (filesNodes (extract env m captured).1.files))
        (declsOf (filesNodes m.files)) ∧
      (extract env m captured).2 =
        (declsOf (filesNodes m.files)).foldl (recordDecl env) { captured } := by
  obtain ⟨ds, hleft, hsub, hrecords⟩ := filesExtract_extracts env m.files { captured }
  have hcount : ∀ fs : List SourceFile, (fs.flatMap (Module.symbolsOfFile false)).length =
      (declsOf (filesNodes fs)).length := by
    intro fs
    have hperm := (Module.files_symbols_of false fs).length_eq
    rwa [List.length_map, List.length_map] at hperm
  have hlength : (declsOf (filesNodes (filesExtract env m.files { captured }).1)).length =
      (declsOf (filesNodes m.files)).length := by
    rw [← hcount, ← hcount]
    exact (filesExtract_sameViews h.names m.files { captured } h.bare).length_eq
  obtain rfl := hsub.eq_of_length (hleft.length_eq.symm.trans hlength)
  exact ⟨hleft, hrecords⟩

/-! ## Modes -/

section

variable {m₁ : Module} {head : DeclHead} {info : FunctionHead} {params : List Param} {body : Body}

/-- A function whose marker lists one mode for each parameter has these modes. -/
theorem modesOf_listed (hids : m₁.declIds.Nodup) (hsymbols : env₁.symbols = SymbolTable.build m₁)
    (hd : .function head info params body ∈ m₁.decls) {modes : List String}
    (hmodes : listedModes? env₁.options.callerCapture.marker head = some modes)
    (hlength : modes.length = params.length) : modesOf env₁ head.id = .ok (some modes) := by
  obtain ⟨s, hs, hhead, hkind, -⟩ := SymbolTable.get?_of_decl hids hd
  obtain ⟨use, huse, hlist⟩ := Option.bind_eq_some_iff.mp hmodes
  have hfunction : env₁.symbols.function? head.id = some (s, {
      head := info
      params := params.map fun p => ⟨p.head, p.default.isSome⟩
      hasBody := body.isPresent
      locals := body.locals }) := by
    rw [hsymbols]
    refine SymbolTable.function?_of_get? hs ?_
    rw [Symbol.function?, hkind]
    rfl
  have hown : AnnotationUse.find? s.head.annotations env₁.options.callerCapture.marker =
      some use := by
    rw [hhead]
    exact huse
  unfold modesOf
  rw [hfunction]
  dsimp only
  rw [hown]
  dsimp only
  rw [hlist]
  dsimp only
  rw [List.length_map, if_neg (not_not_intro hlength)]

/-- A call of anything without a marker has nothing to be filled. -/
theorem modesOf_unmarked (hsymbols : env₁.symbols = SymbolTable.build m₁) {callee : DeclId}
    (h : ∀ d ∈ m₁.decls, d.id = callee →
      AnnotationUse.find? d.head.annotations env₁.options.callerCapture.marker = none) :
    modesOf env₁ callee = .ok none := by
  unfold modesOf
  cases hfunction : env₁.symbols.function? callee with
  | none => rfl
  | some found =>
    obtain ⟨s, hs, hinfo⟩ := Option.bind_eq_some_iff.mp hfunction
    obtain ⟨f, -, hfound⟩ := Option.bind_eq_some_iff.mp hinfo
    cases hfound
    rw [hsymbols] at hs
    obtain ⟨hmem, hid⟩ := SymbolTable.mem_of_get? hs
    have houtline : s.outline ∈ m₁.decls.map Decl.outline :=
      m₁.symbols_of.mem_iff.mp (List.mem_map_of_mem hmem)
    obtain ⟨d, hd, hdecl⟩ := List.mem_map.mp houtline
    have hhead : d.head = s.head := congrArg Prod.fst hdecl
    have hplain := h d hd ((congrArg DeclHead.id hhead).trans hid)
    rw [hhead] at hplain
    dsimp only
    rw [hplain]

end

section

variable {head : DeclHead} {info : FunctionHead} {params : List Param} {body : Body}

/-- After extraction a function that something was taken out of has one mode for each parameter. -/
theorem Capturable.modesOf_marked (h : Capturable env m) (h₁ : Extracted env m captured env₁)
    (hd : .function head info params body ∈ declsOf (filesNodes m.files))
    (hcapturing : isCapturing env head params = true) :
    modesOf env₁ head.id = .ok (some (params.map (mode env.linkage))) := by
  obtain ⟨d', hd', hleft⟩ := exists_of_forall₂ (h.leaves captured).1.flip hd
  obtain ⟨params', body', rfl, hlength⟩ := LeftOf.marked hleft hcapturing
  have hmem : Decl.function (markedHead env head params) info params' body' ∈
      (extract env m captured).1.decls := Module.mem_decls.mpr (.inl hd')
  have hlisted := listedModes?_markedHead hcapturing
  rw [← h₁.options] at hlisted
  exact modesOf_listed (nodup_extract h.distinct captured) h₁.symbols hmem hlisted
    (by rw [List.length_map, hlength])

end

/-- Nothing else has any. -/
theorem Capturable.modesOf_other (h : Capturable env m) (h₁ : Extracted env m captured env₁)
    {callee : DeclId} (hplain : ∀ head info params body,
      .function head info params body ∈ declsOf (filesNodes m.files) → head.id = callee →
        isCapturing env head params = false) : modesOf env₁ callee = .ok none := by
  refine modesOf_unmarked h₁.symbols fun d' hd' hid => ?_
  rw [h₁.options]
  obtain hown | hexternal := Module.mem_decls.mp hd'
  · obtain ⟨d, hd, hleft⟩ := exists_of_forall₂ (h.leaves captured).1 hown
    have hkept : ∀ head info params body, d = .function head info params body →
        isCapturing env head params = false := by
      rintro head info params body rfl
      exact hplain head info params body hd (hleft.id_eq.symm.trans hid)
    rw [hleft.head_eq hkept]
    exact h.unmarked d (Module.mem_decls.mpr (.inl hd))
  · exact h.unmarked d' (Module.mem_decls.mpr (.inr hexternal))

/-- A call is of a function that something was taken out of, or it has nothing to be filled. -/
theorem Capturable.modesOf_cases (h : Capturable env m) (h₁ : Extracted env m captured env₁)
    (callee : DeclId) :
    (∃ head info params body, .function head info params body ∈ declsOf (filesNodes m.files) ∧
        head.id = callee ∧ isCapturing env head params = true ∧
        modesOf env₁ callee = .ok (some (params.map (mode env.linkage)))) ∨
      (∀ head info params body, .function head info params body ∈ declsOf (filesNodes m.files) →
        head.id = callee → isCapturing env head params = false) ∧
        modesOf env₁ callee = .ok none := by
  by_cases hcapturing : ∃ head info params body,
      .function head info params body ∈ declsOf (filesNodes m.files) ∧ head.id = callee ∧
        isCapturing env head params = true
  · obtain ⟨head, info, params, body, hd, rfl, hcapturing⟩ := hcapturing
    exact .inl ⟨head, info, params, body, hd, rfl, hcapturing, h.modesOf_marked h₁ hd hcapturing⟩
  · have hnone : ∀ head info params body,
        .function head info params body ∈ declsOf (filesNodes m.files) → head.id = callee →
          isCapturing env head params = false := by
      intro head info params body hd hid
      rw [← Bool.not_eq_true]
      exact fun h => hcapturing ⟨head, info, params, body, hd, hid, h⟩
    exact .inr ⟨hnone, h.modesOf_other h₁ hnone⟩

end TraceWeave.CallerCapture

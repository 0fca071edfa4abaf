import TraceWeave.Proofs.Pipeline.Filled

/-! # Inherited declarations

Passes that replace and remove calls leave modules whose declarations all come from one module with
distinct identities, apart from the code in them. Such modules agree on what the index says about a
declaration that they share: which functions are intrinsics, which arguments they capture and which
trace types they select. If they find a hook under the same name, they give it the same trace type.

`Module.Inherits` is the relation to the one module. The agreement is
`Module.Inherits.isIntrinsic`, `Module.Inherits.filled`, `Module.Inherits.activeTypes_eq` and, for
hooks, `Module.Inherits.hookKind?_eq`.
-/

namespace TraceWeave

/-! ## Profiles -/

namespace Symbol

variable {s u : Symbol}

theorem id_of_profile (h : u.profile = s.profile) : u.id = s.id :=
  congrArg (fun p => p.head.id) h

theorem fqName_of_profile (h : u.profile = s.profile) : u.fqName = s.fqName :=
  congrArg Profile.fqName h

theorem isSome_of_profile (h : u.profile = s.profile) :
    u.function?.isSome = s.function?.isSome := by
  have hparams := congrArg (fun p => p.params.isSome) h
  simpa only [profile, Option.isSome_map] using hparams

theorem face_of_profile (h : u.profile = s.profile) (selectedBy : String) :
    u.face selectedBy = s.face selectedBy := by
  have hhead : u.head = s.head := congrArg Profile.head h
  rw [face, face, isSome_of_profile h, id_of_profile h, hhead]

theorem markedKind_of_profile (h : u.profile = s.profile) (markedBy : String) :
    Linkage.markedKind markedBy u = Linkage.markedKind markedBy s := by
  have hhead : u.head = s.head := congrArg Profile.head h
  rw [Linkage.markedKind, Linkage.markedKind, hhead, fqName_of_profile h]

end Symbol

/-- A module whose declarations all are, apart from the code in them, among those of a module with
distinct identities. -/
structure Module.Inherits (m base : Module) : Prop where
  distinct : base.declIds.Nodup
  profile : ∀ s ∈ m.symbols, ∃ u ∈ base.symbols, u.profile = s.profile

namespace Module.Inherits

variable {m m' base : Module}

theorem refl (h : base.declIds.Nodup) : base.Inherits base := ⟨h, fun s hs => ⟨s, hs, rfl⟩⟩

/-- A module whose own declarations are all left of another one. -/
theorem mono (h : m.Inherits base) (hexternal : m'.external = m.external)
    (hmarks : ∀ p, .decl p ∈ m'.marks → .decl p ∈ m.marks) : m'.Inherits base := by
  refine ⟨h.distinct, fun s hs => ?_⟩
  obtain hs | hs := List.mem_append.mp hs
  · obtain ⟨t, ht, hprofile⟩ :=
      mem_marks_decl.mp (hmarks s.profile (mem_marks_decl.mpr ⟨s, hs, rfl⟩))
    obtain ⟨u, hu, hprofile'⟩ := h.profile t (List.mem_append_left _ ht)
    exact ⟨u, hu, hprofile'.trans hprofile⟩
  · rw [hexternal] at hs
    exact h.profile s (List.mem_append_right _ hs)

/-- Symbols with one identity have one profile. -/
theorem profile_eq (h : m.Inherits base) (h' : m'.Inherits base) {s s' : Symbol}
    (hs : s ∈ m.symbols) (hs' : s' ∈ m'.symbols) (hid : s.id = s'.id) :
    s.profile = s'.profile := by
  obtain ⟨u, hu, hprofile⟩ := h.profile s hs
  obtain ⟨u', hu', hprofile'⟩ := h'.profile s' hs'
  have hsame : u.id = u'.id :=
    (Symbol.id_of_profile hprofile).trans (hid.trans (Symbol.id_of_profile hprofile').symm)
  obtain rfl := List.inj_on_of_nodup_map (nodup_symbols h.distinct) hu hu' hsame
  exact hprofile.symm.trans hprofile'

end Module.Inherits

/-! ## Intrinsics -/

theorem SymbolTable.mem_symbols_of_entries {m : Module} {s : Symbol} (h : s ∈ (build m).entries) :
    s ∈ m.symbols := by
  have hmem := mem_of_mem_entries h
  rwa [newest_build, List.mem_reverse] at hmem

/-- An annotated function is known as an intrinsic, if all symbols with its identity look the same. -/
theorem Linkage.isIntrinsic_of_symbol {m : Module} {o : Options} {l : Linkage}
    (hl : build (SymbolTable.build m) o = .ok l) {s : Symbol} (hs : s ∈ m.symbols)
    (hsame : ∀ u ∈ m.symbols, u.id = s.id →
      u.face o.intrinsics.markedBy = s.face o.intrinsics.markedBy)
    (hannotated : (s.face o.intrinsics.markedBy).IsAnnotated) : l.isIntrinsic s.id = true := by
  have hmem : s ∈ (SymbolTable.build m).newest := by
    rwa [SymbolTable.newest_build, List.mem_reverse]
  obtain ⟨u, hu, hid⟩ := SymbolTable.exists_entry hmem
  refine (isIntrinsic_of_build hl).mpr ⟨u, hu, hid, ?_⟩
  rw [hsame u (SymbolTable.mem_symbols_of_entries hu) hid]
  exact hannotated

namespace Module.Inherits

variable {m m' base : Module} {o : Options} {l l' : Linkage}

theorem exists_linkage (h : m.Inherits base)
    (hl : Linkage.build (SymbolTable.build base) o = .ok l) :
    ∃ l', Linkage.build (SymbolTable.build m) o = .ok l' := by
  refine Linkage.build_of_readable fun s hs hfunction => ?_
  obtain ⟨u, hu, hprofile⟩ := h.profile s (SymbolTable.mem_symbols_of_entries hs)
  have hmem : u ∈ (SymbolTable.build base).newest := by
    rwa [SymbolTable.newest_build, List.mem_reverse]
  obtain ⟨e, he, hid⟩ := SymbolTable.exists_entry hmem
  have hsame : e.profile = s.profile :=
    ((refl h.distinct).profile_eq (refl h.distinct) (SymbolTable.mem_symbols_of_entries he) hu
      hid).trans hprofile
  obtain ⟨_, hreads, -⟩ := Linkage.reads_of_build hl
  rw [← Symbol.markedKind_of_profile hsame]
  exact hreads.readable e he ((Symbol.isSome_of_profile hsame).trans hfunction)

theorem isIntrinsic (h : m.Inherits base)
    (hl : Linkage.build (SymbolTable.build base) o = .ok l)
    (hl' : Linkage.build (SymbolTable.build m) o = .ok l') {id : DeclId}
    (hid : l'.isIntrinsic id = true) : l.isIntrinsic id = true := by
  obtain ⟨s, hs, rfl, hannotated⟩ := (Linkage.isIntrinsic_of_build hl').mp hid
  obtain ⟨u, hu, hprofile⟩ := h.profile s (SymbolTable.mem_symbols_of_entries hs)
  rw [← Symbol.id_of_profile hprofile]
  refine Linkage.isIntrinsic_of_symbol hl hu (fun u' hu' hid => ?_) ?_
  · exact Symbol.face_of_profile
      ((refl h.distinct).profile_eq (refl h.distinct) hu' hu hid) _
  · rwa [Symbol.face_of_profile hprofile]

end Module.Inherits

/-! ## Captured arguments and selected types -/

theorem addDeclared_congr {o : Options} {t t' : SymbolTable} :
    ∀ {ids : List DeclId} {set : TraceSet},
      (∀ id ∈ ids, ∃ s s', t.get? id = some s ∧ t'.get? id = some s' ∧ s.head = s'.head) →
        addDeclared o t ids set = addDeclared o t' ids set
  | [], _, _ => rfl
  | id :: ids, set, hids => by
    obtain ⟨⟨s, s', hs, hs', hhead⟩, hrest⟩ := List.forall_mem_cons.mp hids
    rw [addDeclared, addDeclared, hs, hs']
    dsimp only
    rw [hhead]
    cases declaredTypes o s'.head.annotations with
    | ok types => exact addDeclared_congr hrest
    | error e => rfl

namespace Module.Inherits

variable {m m' base : Module}

/-- The index of a module finds a declaration with the profile that its base finds. -/
theorem get?_of_get? (h : m.Inherits base) {id : DeclId} {s : Symbol}
    (hs : (SymbolTable.build m).get? id = some s) :
    ∃ u, (SymbolTable.build base).get? id = some u ∧ u.profile = s.profile := by
  obtain ⟨hmem, rfl⟩ := SymbolTable.mem_of_get? hs
  obtain ⟨u, hu, hprofile⟩ := h.profile s hmem
  refine ⟨u, ?_, hprofile⟩
  rw [← Symbol.id_of_profile hprofile]
  exact SymbolTable.get?_of_mem h.distinct hu

/-- What a call captures in the base it captures in the module. -/
theorem filled (h : m.Inherits base) {env env' : PassEnv} (hoptions : env'.options = env.options)
    (henv : env.symbols = SymbolTable.build base) (henv' : env'.symbols = SymbolTable.build m)
    {f : CallFace} (hf : CallerCapture.Filled env f) : CallerCapture.Filled env' f := by
  obtain ⟨modes?, hmodes, hcovers⟩ := hf
  cases hfunction : env'.symbols.function? f.callee with
  | none => exact ⟨none, by rw [CallerCapture.modesOf, hfunction], nofun⟩
  | some found =>
    obtain ⟨s, info⟩ := found
    refine ⟨modes?, ?_, hcovers⟩
    rw [henv'] at hfunction
    obtain ⟨s', hs, hinfo⟩ := Option.bind_eq_some_iff.mp hfunction
    obtain ⟨info', hinfo', heq⟩ := Option.bind_eq_some_iff.mp hinfo
    cases heq
    obtain ⟨u, hu, hprofile⟩ := h.get?_of_get? hs
    have hhead : u.head = s.head := congrArg Profile.head hprofile
    obtain ⟨uinfo, huinfo, hlength⟩ : ∃ uinfo, u.function? = some uinfo ∧
        uinfo.params.length = info.params.length := by
      have hparams := congrArg Profile.params hprofile
      simp only [Symbol.profile, hinfo', Option.map_some] at hparams
      exact Option.map_eq_some_iff.mp hparams
    have hbase : env.symbols.function? f.callee = some (u, uinfo) := by
      rw [henv, SymbolTable.function?, hu]
      simp only [Option.bind_eq_bind, Option.bind_some, huinfo]
    rw [← hmodes, CallerCapture.modesOf, CallerCapture.modesOf, hbase, henv', hfunction]
    simp only [hhead, hoptions, hlength, Symbol.fqName_of_profile hprofile]

/-- Modules agree on the types that are active within declarations that both have. -/
theorem activeTypes_eq (h : m.Inherits base) (h' : m'.Inherits base) {env env' : PassEnv}
    (hoptions : env'.options = env.options) (henv : env.symbols = SymbolTable.build m)
    (henv' : env'.symbols = SymbolTable.build m') {f : CallFace} (hf : .call f ∈ m.marks)
    (hf' : .call f ∈ m'.marks) : activeTypes env f.scopes = activeTypes env' f.scopes := by
  have hfound : ∀ {n : Module}, .call f ∈ n.marks → ∀ id ∈ f.scopes.declarations,
      ∃ s, (SymbolTable.build n).get? id = some s := by
    intro n hn id hid
    obtain ⟨p, hp, rfl⟩ := marks_within hn hid
    obtain ⟨s, hs, rfl⟩ := mem_marks_decl.mp hp
    exact SymbolTable.exists_get?_of_mem (List.mem_append_left _ hs)
  rw [activeTypes, activeTypes, hoptions, henv, henv']
  refine addDeclared_congr fun id hid => ?_
  obtain ⟨s, hs⟩ := hfound hf id hid
  obtain ⟨s', hs'⟩ := hfound hf' id hid
  obtain ⟨hmem, hsid⟩ := SymbolTable.mem_of_get? hs
  obtain ⟨hmem', hsid'⟩ := SymbolTable.mem_of_get? hs'
  exact ⟨s, s', hs, hs',
    congrArg Profile.head (h.profile_eq h' hmem hmem' (hsid.trans hsid'.symm))⟩

end Module.Inherits

/-! ## Hooks -/

/-- The type of a hook is the last one under whose name it is found. -/
theorem Linkage.hookKind?_eq {t : SymbolTable} {o : Options} {l : Linkage}
    (h : build t o = .ok l) (callee : DeclId) : l.hookKind? callee =
      TraceType.all.reverse.find? fun ty =>
        t.lookupFunction? (o.tracing.hooks.get ty) == some callee := by
  rw [hookKind?, hooks_of_build h, hooksOf, ← List.filterMap_reverse]
  induction TraceType.all.reverse with
  | nil => rfl
  | cons ty tys ih =>
    rw [List.filterMap_cons, List.find?_cons]
    cases t.lookupFunction? (o.tracing.hooks.get ty) with
    | none => exact ih
    | some id =>
      rw [Option.map_some, List.find?_cons, Option.some_beq_some]
      cases id == callee with
      | true => rfl
      | false => exact ih

theorem SymbolTable.mem_of_lookupFunction? {m : Module} {name : String} {id : DeclId}
    (h : (build m).lookupFunction? name = some id) :
    ∃ s ∈ m.symbols, s.id = id ∧ s.fqName = name := by
  have hmem := List.mem_of_find?_eq_some h
  simp only [lookup, newest_build, List.mem_map, List.mem_reverse, List.mem_filter,
    beq_iff_eq] at hmem
  obtain ⟨s, ⟨hs, hname⟩, hid⟩ := hmem
  exact ⟨s, hs, hid, hname⟩

/-- A hook that two modules find under one name has one type in them. -/
theorem Module.Inherits.hookKind?_eq {m m' base : Module} {o : Options} {l l' : Linkage}
    (h : m.Inherits base) (h' : m'.Inherits base)
    (hl : Linkage.build (SymbolTable.build m) o = .ok l)
    (hl' : Linkage.build (SymbolTable.build m') o = .ok l') {name : String} {callee : DeclId}
    (hfound : (SymbolTable.build m).lookupFunction? name = some callee)
    (hfound' : (SymbolTable.build m').lookupFunction? name = some callee) :
    l.hookKind? callee = l'.hookKind? callee := by
  -- a declaration has one name, so no other name leads to it in either module
  have hname : ∀ {n n' : Module}, n.Inherits base → n'.Inherits base → ∀ {a b : String},
      (SymbolTable.build n).lookupFunction? a = some callee →
        (SymbolTable.build n').lookupFunction? b = some callee → a = b := by
    intro n n' hn hn' a b ha hb
    obtain ⟨s, hs, hsid, rfl⟩ := SymbolTable.mem_of_lookupFunction? ha
    obtain ⟨s', hs', hsid', rfl⟩ := SymbolTable.mem_of_lookupFunction? hb
    exact Symbol.fqName_of_profile (hn.profile_eq hn' hs hs' (hsid.trans hsid'.symm))
  rw [Linkage.hookKind?_eq hl, Linkage.hookKind?_eq hl']
  refine congrArg (List.find? · _) (funext fun ty => Bool.eq_iff_iff.mpr ?_)
  rw [beq_iff_eq, beq_iff_eq]
  constructor
  · intro hty
    rwa [hname h h' hty hfound']
  · intro hty
    rwa [hname h' h hty hfound]

end TraceWeave

import TraceWeave.Proofs.Factory.Obtained
import TraceWeave.Proofs.Program.Nesting

/-! # Declarations that share a descriptor

A class is known by its qualified name. A function is known by its qualified name, its signature
and a hash of its surroundings, and a lambda by its position as well. If hashes do not collide, then
functions share a descriptor exactly if they agree in these. In a module whose declarations have
positions of their own, in files with paths of their own, this leaves functions that are no lambdas
and stand directly in one declaration, as functions of sibling blocks do.

* `Factory.Alike`: that two functions agree in all that functions are known by.
* `Factory.shared_iff_alike`: sharing a descriptor, for functions and for classes.
* `Factory.Alike.siblings`: what is left in modules that `Module.Spread` and `Factory.PathsApart`
  hold of.
-/

namespace TraceWeave

/-! ## Parents -/

/-- Symbols of one file whose parents are among them or are that of the scope. -/
def Nests (sc : SymbolScope) (symbols : List Symbol) : Prop :=
  ∀ s ∈ symbols, s.file = sc.file ∧
    (s.parent = sc.parent ∨ ∃ p ∈ symbols, s.parent = some p.id ∧ p.file = sc.file)

namespace Nests

variable {sc : SymbolScope} {xs ys : List Symbol}

theorem nil : Nests sc [] := by simp [Nests]

theorem append (hx : Nests sc xs) (hy : Nests sc ys) : Nests sc (xs ++ ys) := by
  intro s hs
  rcases List.mem_append.mp hs with hs | hs
  · obtain ⟨hfile, hparent⟩ := hx s hs
    refine ⟨hfile, hparent.imp_right ?_⟩
    exact fun ⟨p, hp, hrest⟩ => ⟨p, List.mem_append_left _ hp, hrest⟩
  · obtain ⟨hfile, hparent⟩ := hy s hs
    refine ⟨hfile, hparent.imp_right ?_⟩
    exact fun ⟨p, hp, hrest⟩ => ⟨p, List.mem_append_right _ hp, hrest⟩

/-- Out of a declaration, which is the parent of what stands directly in it. -/
theorem out {d : Decl} (h : Nests (sc.entering d) xs) : Nests sc (xs ++ [sc.declared d]) := by
  have hentering : (sc.entering d).file = sc.file := by cases d <;> rfl
  intro s hs
  rcases List.mem_append.mp hs with hs | hs
  · obtain ⟨hfile, hparent⟩ := h s hs
    refine ⟨hfile.trans hentering, .inr ?_⟩
    rcases hparent with hparent | ⟨p, hp, hparent, hpfile⟩
    · exact ⟨sc.declared d, by simp, hparent.trans (sc.parent_entering d), rfl⟩
    · exact ⟨p, List.mem_append_left _ hp, hparent, hpfile.trans hentering⟩
  · rw [List.mem_singleton.mp hs]
    exact ⟨rfl, .inl rfl⟩

end Nests

-- A scope carries the identity of the declaration around it, which is added to the symbols only
-- after those inside of it; so parents are followed up to the scope where a tour starts.
mutual

theorem Tour.nests : ∀ (t : Tour) (sc : SymbolScope), Nests sc (t.symbols sc)
  | .visit _ _ operands, sc => tours_nest operands sc
  | .block items, sc => items_nest items sc
  | .nested d, sc => d.nests sc

theorem tours_nest : ∀ (ts : List Tour) (sc : SymbolScope), Nests sc (toursSymbols sc ts)
  | [], _ => .nil
  | t :: ts, sc => (t.nests sc).append (tours_nest ts sc)

theorem items_nest : ∀ (items : List BlockItem) (sc : SymbolScope), Nests sc (itemsSymbols sc items)
  | [], _ => .nil
  | .run t :: items, sc => (t.nests sc).append (items_nest items sc)
  | .declare _ :: items, sc => items_nest items sc

theorem DeclTour.nests : ∀ (d : DeclTour) (sc : SymbolScope), Nests sc (d.symbols sc)
  | .group _ _ members, _ => (declTours_nest members _).out
  | .code _ _ parts, _ => (tours_nest parts _).out

theorem declTours_nest : ∀ (ds : List DeclTour) (sc : SymbolScope),
    Nests sc (declToursSymbols sc ds)
  | [], _ => .nil
  | d :: ds, sc => (d.nests sc).append (declTours_nest ds sc)

end

namespace Module

variable {m : Module} {s : Symbol}

/-- The file that a symbol comes from, together with others. -/
theorem exists_file_of_mem (hs : s ∈ m.symbols) : ∃ file ∈ m.allFiles, ∃ external,
    s ∈ symbolsOfFile external file ∧ ∀ p ∈ symbolsOfFile external file, p ∈ m.symbols := by
  rcases List.mem_append.mp hs with hs | hs <;> obtain ⟨file, hfile, hs⟩ := List.mem_flatMap.mp hs
  · exact ⟨file, List.mem_append_left _ hfile, false, hs, fun p hp =>
      List.mem_append_left _ (List.mem_flatMap.mpr ⟨file, hfile, hp⟩)⟩
  · exact ⟨file, List.mem_append_right _ hfile, true, hs, fun p hp =>
      List.mem_append_right _ (List.mem_flatMap.mpr ⟨file, hfile, hp⟩)⟩

theorem symbolsOfFile_nest (external : Bool) (file : SourceFile) :
    Nests { file := file.id, external, scope := file.package } (symbolsOfFile external file) := by
  rw [symbolsOfFile, declsSymbols_eq]
  exact declTours_nest _ _

theorem file_of_mem (hs : s ∈ m.symbols) : ∃ file ∈ m.allFiles, s.file = file.id := by
  obtain ⟨file, hfile, external, hs, -⟩ := exists_file_of_mem hs
  exact ⟨file, hfile, (symbolsOfFile_nest external file s hs).1⟩

/-- The parent of a declaration is a declaration of the same file. -/
theorem parent_of_mem (hs : s ∈ m.symbols) :
    s.parent = none ∨ ∃ p ∈ m.symbols, s.parent = some p.id ∧ p.file = s.file := by
  obtain ⟨file, hfile, external, hs, hall⟩ := exists_file_of_mem hs
  obtain ⟨hsfile, hparent⟩ := symbolsOfFile_nest external file s hs
  refine hparent.imp_right ?_
  exact fun ⟨p, hp, hparent, hpfile⟩ => ⟨p, hall p hp, hparent, hpfile.trans hsfile.symm⟩

/-- Declarations that can be told apart by their identities, and by where they start. -/
structure Spread (m : Module) : Prop where
  ids : m.declIds.Nodup
  spans : (m.decls.map fun d => (d.head.span.file, d.head.span.start)).Nodup
  /-- The span of a declaration lies in the file that holds it. -/
  placed : ∀ file ∈ m.allFiles, ∀ d ∈ declsOf (declsNodes file.declarations),
    d.head.span.file = file.id

theorem Spread.span_file (hm : m.Spread) (hs : s ∈ m.symbols) : s.head.span.file = s.file := by
  obtain ⟨file, hfile, external, hs, -⟩ := exists_file_of_mem hs
  obtain ⟨d, hd, houtline⟩ := List.mem_map.mp
    ((decls_symbols_of _ file.declarations).mem_iff.mp (List.mem_map_of_mem hs))
  have hhead : d.head = s.head := congrArg Prod.fst houtline
  rw [← hhead, hm.placed file hfile d hd, (symbolsOfFile_nest external file s hs).1]

/-- Declarations of one file that start in the same place are the same. -/
theorem Spread.symbol_eq (hm : m.Spread) {s' : Symbol} (hs : s ∈ m.symbols) (hs' : s' ∈ m.symbols)
    (hfile : s.file = s'.file) (hstart : s.head.span.start = s'.head.span.start) : s = s' := by
  have hperm := m.symbols_of.map fun o => (o.1.span.file, o.1.span.start)
  rw [List.map_map, List.map_map] at hperm
  refine List.inj_on_of_nodup_map (hperm.nodup_iff.mpr hm.spans) hs hs' ?_
  have hspan : s.head.span.file = s'.head.span.file := by
    rw [hm.span_file hs, hm.span_file hs', hfile]
  exact Prod.ext hspan hstart

end Module

/-! ## What is hashed -/

namespace Factory

/-- What stands for the surroundings of a declaration in its key. -/
inductive Enclosure where
  | declaration (fqName path : String) (start : Int32)
  | file (path : String) (id : FileId)
  /-- A lambda, inside of surroundings with a hash. -/
  | lambda (outer : UInt64) (start : Int32)
  deriving DecidableEq

def Enclosure.hash : Enclosure → UInt64
  | .declaration fqName path start =>
    Hash.sip (Stream.ofString fqName ++ Stream.ofString path ++ Stream.ofInt32 start)
  | .file path id => Hash.sip (Stream.ofString path ++ Stream.ofUInt32 id.val)
  | .lambda outer start => Hash.sip (Stream.ofUInt64 outer ++ Stream.ofInt32 start)

variable (f : Factory)

/-- The surroundings of a declaration. -/
def enclosure (s : Symbol) : Enclosure :=
  match s.parent.bind f.symbols.get? with
  | some parent => .declaration parent.fqName (f.filePath s.file) parent.head.span.start
  | none => .file (f.filePath s.file) s.file

/-- The surroundings of a function, to which a lambda adds its position. -/
def functionEnclosure (s : Symbol) (g : FunctionSymbol) : Enclosure :=
  if g.head.kind = .lambda then .lambda (f.enclosure s).hash s.head.span.start else f.enclosure s

theorem enclosingHash_eq (s : Symbol) : f.enclosingHash s = (f.enclosure s).hash := by
  cases hparent : s.parent.bind f.symbols.get? <;>
    simp only [enclosingHash, enclosure, hparent] <;> rfl

theorem enclosure_ne_lambda (s : Symbol) (outer : UInt64) (start : Int32) :
    f.enclosure s ≠ .lambda outer start := by
  unfold enclosure
  split <;> exact Enclosure.noConfusion

theorem enclosing_functionKeyOf (s : Symbol) (g : FunctionSymbol) :
    (f.functionKeyOf s g).enclosing = (f.functionEnclosure s g).hash := by
  unfold functionKeyOf functionEnclosure
  split
  · rw [enclosingHash_eq, Enclosure.hash]
  · exact f.enclosingHash_eq s

/-- All surroundings that are hashed for the keys of declarations. -/
def hashed : List Enclosure :=
  f.symbols.newest.map f.enclosure ++
    f.symbols.newest.filterMap fun s => s.function?.map (f.functionEnclosure s)

/-- Whether different surroundings have different hashes. -/
def HashesApart : Prop := ∀ x ∈ f.hashed, ∀ y ∈ f.hashed, x.hash = y.hash → x = y

instance : Decidable f.HashesApart :=
  inferInstanceAs (Decidable (∀ x ∈ f.hashed, ∀ y ∈ f.hashed, x.hash = y.hash → x = y))

/-- Whether two functions agree in all that functions are known by: name, signature, surroundings,
and for lambdas the position. -/
structure Alike (s s' : Symbol) (g g' : FunctionSymbol) : Prop where
  fqName : s.fqName = s'.fqName
  returnTy : g.head.returnTy = g'.head.returnTy
  paramTys : g.params.map (·.head.ty) = g'.params.map (·.head.ty)
  around : f.enclosure s = f.enclosure s'
  lambdas : g.head.kind = .lambda ↔ g'.head.kind = .lambda
  starts : g.head.kind = .lambda → s.head.span.start = s'.head.span.start

section

variable {f} {m : Module} {s s' : Symbol} {g g' : FunctionSymbol}

theorem of_function? {id : DeclId} (h : f.symbols.function? id = some (s, g)) :
    f.symbols.get? id = some s ∧ s.function? = some g := by
  obtain ⟨found, hfound, h⟩ := Option.bind_eq_some_iff.mp h
  obtain ⟨info, hinfo, h⟩ := Option.bind_eq_some_iff.mp h
  cases h
  exact ⟨hfound, hinfo⟩

theorem Alike.functionEnclosure_eq (h : f.Alike s s' g g') :
    f.functionEnclosure s g = f.functionEnclosure s' g' := by
  unfold functionEnclosure
  by_cases hlambda : g.head.kind = .lambda
  · rw [if_pos hlambda, if_pos (h.lambdas.mp hlambda), h.around, h.starts hlambda]
  · rw [if_neg hlambda, if_neg fun hlambda' => hlambda (h.lambdas.mpr hlambda'), h.around]

/-- What stands for the surroundings of a function says whether it is a lambda. -/
theorem of_functionEnclosure_eq (hhashes : f.HashesApart) (hs : s ∈ f.symbols.newest)
    (hs' : s' ∈ f.symbols.newest) (h : f.functionEnclosure s g = f.functionEnclosure s' g') :
    f.enclosure s = f.enclosure s' ∧ (g.head.kind = .lambda ↔ g'.head.kind = .lambda) ∧
      (g.head.kind = .lambda → s.head.span.start = s'.head.span.start) := by
  unfold functionEnclosure at h
  by_cases hlambda : g.head.kind = .lambda <;> by_cases hlambda' : g'.head.kind = .lambda
  · rw [if_pos hlambda, if_pos hlambda'] at h
    obtain ⟨houter, hstart⟩ := Enclosure.lambda.inj h
    have hmem : ∀ {s}, s ∈ f.symbols.newest → f.enclosure s ∈ f.hashed := fun hs =>
      List.mem_append_left _ (List.mem_map_of_mem hs)
    exact ⟨hhashes _ (hmem hs) _ (hmem hs') houter, iff_of_true hlambda hlambda', fun _ => hstart⟩
  · rw [if_pos hlambda, if_neg hlambda'] at h
    exact absurd h.symm (f.enclosure_ne_lambda s' _ _)
  · rw [if_neg hlambda, if_pos hlambda'] at h
    exact absurd h (f.enclosure_ne_lambda s _ _)
  · rw [if_neg hlambda, if_neg hlambda'] at h
    exact ⟨h, iff_of_false hlambda hlambda', fun hcontra => absurd hcontra hlambda⟩

/-- Without collisions of hashes, functions have one key only if they are alike. -/
theorem functionKeyOf_eq_iff (hhashes : f.HashesApart) {id id' : DeclId}
    (hid : f.symbols.function? id = some (s, g)) (hid' : f.symbols.function? id' = some (s', g')) :
    f.functionKeyOf s g = f.functionKeyOf s' g' ↔ f.Alike s s' g g' := by
  obtain ⟨hfound, hg⟩ := of_function? hid
  obtain ⟨hfound', hg'⟩ := of_function? hid'
  have hs := List.mem_of_find?_eq_some hfound
  have hs' := List.mem_of_find?_eq_some hfound'
  have hmem : ∀ {s g}, s ∈ f.symbols.newest → s.function? = some g →
      f.functionEnclosure s g ∈ f.hashed := fun hs hg =>
    List.mem_append_right _ (List.mem_filterMap.mpr ⟨_, hs, by rw [hg, Option.map_some]⟩)
  have hkey : ∀ s g, f.functionKeyOf s g = ⟨s.fqName, g.head.returnTy,
      g.params.map (·.head.ty), (f.functionEnclosure s g).hash⟩ := fun s g => by
    rw [← enclosing_functionKeyOf]
    rfl
  rw [hkey, hkey, FunctionKey.mk.injEq]
  constructor
  · rintro ⟨hname, hreturn, hparams, hhash⟩
    obtain ⟨haround, hlambdas, hstarts⟩ := of_functionEnclosure_eq hhashes hs hs'
      (hhashes _ (hmem hs hg) _ (hmem hs' hg') hhash)
    exact ⟨hname, hreturn, hparams, haround, hlambdas, hstarts⟩
  · intro h
    exact ⟨h.fqName, h.returnTy, h.paramTys, by rw [h.functionEnclosure_eq]⟩

/-! ## Surroundings of the declarations of a module -/

theorem enclosure_of_mem (hf : f.symbols = .build m) (hids : m.declIds.Nodup) (hs : s ∈ m.symbols) :
    (s.parent = none ∧ f.enclosure s = .file (f.filePath s.file) s.file) ∨
      ∃ p ∈ m.symbols, s.parent = some p.id ∧ p.file = s.file ∧
        f.enclosure s = .declaration p.fqName (f.filePath s.file) p.head.span.start := by
  rcases m.parent_of_mem hs with hparent | ⟨p, hp, hparent, hfile⟩
  · exact .inl ⟨hparent, by simp [enclosure, hparent]⟩
  · have hget : f.symbols.get? p.id = some p := by rw [hf, SymbolTable.get?_of_mem hids hp]
    exact .inr ⟨p, hp, hparent, hfile, by simp [enclosure, hparent, hget]⟩

/-- Whether different files of a module have different paths. -/
def PathsApart (f : Factory) (m : Module) : Prop :=
  ∀ a ∈ m.allFiles, ∀ b ∈ m.allFiles, f.filePath a.id = f.filePath b.id → a.id = b.id

instance : Decidable (f.PathsApart m) := inferInstanceAs (Decidable (∀ a ∈ m.allFiles,
  ∀ b ∈ m.allFiles, f.filePath a.id = f.filePath b.id → a.id = b.id))

/-- Equal surroundings are one declaration, or the top level of one file. -/
theorem of_enclosure_eq (hf : f.symbols = .build m) (hm : m.Spread) (hpaths : f.PathsApart m)
    (hs : s ∈ m.symbols) (hs' : s' ∈ m.symbols) (h : f.enclosure s = f.enclosure s') :
    s.parent = s'.parent ∧ s.file = s'.file := by
  have hfile : f.filePath s.file = f.filePath s'.file → s.file = s'.file := by
    obtain ⟨a, ha, hfile⟩ := m.file_of_mem hs
    obtain ⟨b, hb, hfile'⟩ := m.file_of_mem hs'
    rw [hfile, hfile']
    exact hpaths a ha b hb
  rcases enclosure_of_mem hf hm.ids hs with ⟨hp, haround⟩ | ⟨p, hpmem, hp, hpfile, haround⟩ <;>
    rcases enclosure_of_mem hf hm.ids hs' with
      ⟨hp', haround'⟩ | ⟨p', hpmem', hp', hpfile', haround'⟩ <;>
    rw [haround, haround'] at h
  · exact ⟨hp.trans hp'.symm, (Enclosure.file.inj h).2⟩
  · cases h
  · cases h
  · obtain ⟨-, hpath, hstart⟩ := Enclosure.declaration.inj h
    have hpp' := hm.symbol_eq hpmem hpmem' (by rw [hpfile, hpfile', hfile hpath]) hstart
    exact ⟨by rw [hp, hp', hpp'], hfile hpath⟩

/-- Different functions that are alike are no lambdas, and stand in one declaration or at the top
level of one file. -/
theorem Alike.siblings (hf : f.symbols = .build m) (hm : m.Spread) (hpaths : f.PathsApart m)
    (hs : s ∈ m.symbols) (hs' : s' ∈ m.symbols) (hne : s ≠ s') (h : f.Alike s s' g g') :
    g.head.kind ≠ .lambda ∧ g'.head.kind ≠ .lambda ∧ s.parent = s'.parent ∧ s.file = s'.file := by
  obtain ⟨hparent, hfile⟩ := of_enclosure_eq hf hm hpaths hs hs' h.around
  have hlambda : g.head.kind ≠ .lambda := fun hlambda =>
    hne (hm.symbol_eq hs hs' hfile (h.starts hlambda))
  exact ⟨hlambda, fun hlambda' => hlambda (h.lambdas.mpr hlambda'), hparent, hfile⟩

end

/-! ## Requests -/

/-- The store after requests, of which any may have failed. -/
def after (rs : List Request) (s : Store) : Store :=
  rs.foldl (fun s r => ((f.serve r).runOn s).2) s

/-- Handles that two steps give one after the other, in a store that has served requests before
and serves others in between. -/
def BothGive {k : DescriptorKind} (step step' : Build Store (Handle k)) (h h' : Handle k) : Prop :=
  ∃ rs rs' t u, step.runOn (f.after rs {}) = (.ok h, t) ∧
    step'.runOn (f.after rs' t) = (.ok h', u)

section

variable {f} {m : Module}

theorem after_keeps (rs : List Request) : ∀ {s : Store}, s.Sound → s.Sourced f.sources →
    ((f.after rs s).Sound ∧ (f.after rs s).Sourced f.sources) ∧ s.Later (f.after rs s) := by
  induction rs with
  | nil => exact fun hs hsourced => ⟨⟨hs, hsourced⟩, .refl _⟩
  | cons r rs ih =>
    intro s hs hsourced
    have hserve : (f.serve r).Obtains f (fun _ => True) fun u a => f.AnswerIs u r a :=
      f.obtains_serve trivial
    obtain ⟨⟨hs', hsourced', hextends⟩, -⟩ := hserve s _ _ rfl hs hsourced
    obtain ⟨hkept, hlater⟩ := ih hs' hsourced'
    exact ⟨hkept, hextends.later.trans hlater⟩

/-- Handles are the same in the end exactly if they belong to one key. -/
theorem BothGive.eq_iff {k : DescriptorKind} {α : Type} {step step' : Build Store (Handle k)}
    {known known' : Option (Symbol × α)} {key : Symbol → α → k.Key} {h h' : Handle k}
    {s s' : Symbol} {info info' : α} (hgive : f.BothGive step step' h h')
    (hstep : step.Obtains f (fun _ => True) fun u h => DeclaredAt u k known key h)
    (hstep' : step'.Obtains f (fun _ => True) fun u h => DeclaredAt u k known' key h)
    (hknown : known = some (s, info)) (hknown' : known' = some (s', info')) :
    h = h' ↔ key s info = key s' info' := by
  obtain ⟨rs, rs', t, u, hrun, hrun'⟩ := hgive
  obtain ⟨⟨hsound, hsourced⟩, -⟩ :=
    after_keeps (f := f) rs Store.sound_empty (Store.sourced_empty _)
  obtain ⟨⟨hsound, hsourced, -⟩, hok⟩ := hstep _ _ _ hrun hsound hsourced
  obtain ⟨⟨hsound', hsourced'⟩, hlater⟩ := after_keeps rs' hsound hsourced
  obtain ⟨⟨hsound', -, hextends⟩, hok'⟩ := hstep' _ _ _ hrun' hsound' hsourced'
  obtain ⟨_, _, hsome, hfinds⟩ := (hok h rfl).2 u (hlater.trans hextends.later)
  obtain ⟨_, _, hsome', hfinds'⟩ := (hok' h' rfl).2 u (.refl u)
  cases hknown.symm.trans hsome
  cases hknown'.symm.trans hsome'
  exact hsound'.handle_eq_iff hfinds hfinds'

/-- **Shared descriptors.** If hashes of different surroundings are different, then two functions
have one descriptor exactly if they are alike, and two classes exactly if they have one qualified
name. Different functions of a module whose declarations can be told apart are alike only if they
are no lambdas and stand side by side. -/
theorem shared_iff_alike (hf : f.symbols = .build m) (hhashes : f.HashesApart) :
    (∀ {id id' s s' g g' h h'}, f.symbols.function? id = some (s, g) →
      f.symbols.function? id' = some (s', g') →
      f.BothGive (f.functionInfo id) (f.functionInfo id') h h' →
        (h = h' ↔ f.Alike s s' g g') ∧
        (m.Spread → f.PathsApart m → id ≠ id' → h = h' →
          g.head.kind ≠ .lambda ∧ g'.head.kind ≠ .lambda ∧
            s.parent = s'.parent ∧ s.file = s'.file)) ∧
    ∀ {id id' s s' c c' h h'}, f.symbols.class? id = some (s, c) →
      f.symbols.class? id' = some (s', c') →
      f.BothGive (f.classInfo id) (f.classInfo id') h h' → (h = h' ↔ s.fqName = s'.fqName) := by
  constructor
  · intro id id' s s' g g' h h' hid hid' hgive
    have hiff : h = h' ↔ f.Alike s s' g g' :=
      (hgive.eq_iff (f.obtains_functionInfo id) (f.obtains_functionInfo id') hid hid').trans
        (functionKeyOf_eq_iff hhashes hid hid')
    refine ⟨hiff, fun hm hpaths hne heq => ?_⟩
    have hfound := (of_function? hid).1
    have hfound' := (of_function? hid').1
    rw [hf] at hfound hfound'
    obtain ⟨hs, rfl⟩ := SymbolTable.mem_of_get? hfound
    obtain ⟨hs', rfl⟩ := SymbolTable.mem_of_get? hfound'
    exact (hiff.mp heq).siblings hf hm hpaths hs hs' fun hcontra => hne (congrArg Symbol.id hcontra)
  · intro id id' s s' c c' h h' hid hid' hgive
    exact hgive.eq_iff (f.obtains_classInfo id) (f.obtains_classInfo id') hid hid'

end

/-! ## Functions and classes of sibling blocks -/

namespace IdentitySample

def site : Site := ⟨.undefined ⟨0⟩, .unit⟩

def head (id : UInt32) : DeclHead := { id := ⟨id⟩, span := ⟨⟨0⟩, id.toInt32, id.toInt32 + 1⟩ }

/-- A block with nothing but a declaration. -/
def blockOf (d : Decl) : Stmt := .expr (.block site [.decl d])

def function (id : UInt32) : Decl :=
  .function (head id) { name := "g", returnTy := .unit } [] (.block [])

def lambda (id : UInt32) : Stmt :=
  .expr (.lambda site
    (.function (head id) { name := "", kind := .lambda, returnTy := .unit } [] (.block [])))

/-- A function with two blocks that declare a function, two that declare a class, and two
lambdas. -/
def sample : Module where
  name := "identity"
  files :=
    [{ id := ⟨0⟩, path := "Main.kt",
       declarations :=
        [.function (head 0) { name := "f", returnTy := .unit } []
          (.block [blockOf (function 1), blockOf (function 2),
            blockOf (.classDecl (head 3) { name := "L" } []),
            blockOf (.classDecl (head 4) { name := "L" } []), lambda 5, lambda 6])] }]

def factory : Factory where
  symbols := .build sample
  sources := .ofTexts [("Main.kt", "fun f() { g() }")]
  moduleName := "identity"

theorem hashesApart : factory.HashesApart := by decide +kernel

theorem spread : sample.Spread := ⟨by decide, by decide, by decide⟩

/-- Two requests one after the other, in a store without descriptors. -/
theorem bothGive_of_runs {k : DescriptorKind} {step step' : Build Store (Handle k)}
    {h h' : Handle k}
    (hrun : (step.runOn {}).1.toOption = some h)
    (hrun' : (step'.runOn (step.runOn {}).2).1.toOption = some h') :
    factory.BothGive step step' h h' := by
  have hok : ∀ {result : Except Error (Handle k)} {h}, result.toOption = some h →
      result = .ok h := by
    rintro (_ | _) _ ⟨⟩
    rfl
  exact ⟨[], [], _, _, Prod.ext (hok hrun) rfl, Prod.ext (hok hrun') rfl⟩

/-- Lambdas of one function have descriptors of their own. -/
theorem lambdas_apart : ∃ h h',
    factory.BothGive (factory.functionInfo ⟨5⟩) (factory.functionInfo ⟨6⟩) h h' ∧ h ≠ h' := by
  have hgive : factory.BothGive (factory.functionInfo ⟨5⟩) (factory.functionInfo ⟨6⟩) ⟨0⟩ ⟨1⟩ :=
    bothGive_of_runs (by decide +kernel) (by decide +kernel)
  obtain ⟨⟨s, g⟩, hid⟩ := Option.isSome_iff_exists.mp
    (by decide +kernel : (factory.symbols.function? ⟨5⟩).isSome = true)
  obtain ⟨⟨s', g'⟩, hid'⟩ := Option.isSome_iff_exists.mp
    (by decide +kernel : (factory.symbols.function? ⟨6⟩).isSome = true)
  refine ⟨_, _, hgive, fun heq => ?_⟩
  have hkind : (factory.symbols.function? ⟨5⟩).map (·.2.head.kind) = some .lambda := by
    decide +kernel
  rw [hid] at hkind
  exact (((shared_iff_alike rfl hashesApart).1 hid hid' hgive).2 spread (by decide +kernel)
    (by decide) heq).1 (Option.some.inj hkind)

/-- Functions of sibling blocks share a descriptor, and so do classes, though all declarations have
identities and positions of their own and no hashes collide. -/
theorem siblings_share :
    (sample.Spread ∧ (∀ d ∈ sample.decls, d.head.span.isReal = true) ∧ factory.HashesApart) ∧
      (∃ h, factory.BothGive (factory.functionInfo ⟨1⟩) (factory.functionInfo ⟨2⟩) h h) ∧
      ∃ h, factory.BothGive (factory.classInfo ⟨3⟩) (factory.classInfo ⟨4⟩) h h := by
  refine ⟨⟨spread, by decide, hashesApart⟩, ⟨⟨0⟩, ?_⟩, ⟨⟨0⟩, ?_⟩⟩ <;>
    exact bothGive_of_runs (by decide +kernel) (by decide +kernel)

end IdentitySample

end Factory

end TraceWeave

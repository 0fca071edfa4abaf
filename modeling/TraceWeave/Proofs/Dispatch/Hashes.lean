import TraceWeave.Proofs.Factory.Settling
import TraceWeave.Proofs.Snapshot.Dispatched

/-! # Hashes of declarations

A function or a class has a hash in a running program, and a call can ask for it from inside the
declaration or by naming it. From inside, the hash is that of a descriptor, which may have been
built long ago, through another declaration or for another module; by the name of a function, it is
that of a key. What makes both the same is that a descriptor always carries the identity that it is
filed under.

* `Handlers.functionHash_of_functionAt`, `Handlers.classHash_of_classAt`: the hash of a descriptor is
  that of its key or name.
* `Handlers.hashes_agree`: both ways lead to the same number.
-/

namespace TraceWeave

/-- The stores that factories of any modules make out of an empty one. Each of them may bring its
own source texts along, and may fail. -/
inductive Store.Reached : Store → Prop
  | empty : Reached {}
  | texts {s : Store} (h : s.Reached) (texts : Source.Cache) : Reached { s with texts }
  | asked {s : Store} (h : s.Reached) (m : Module) (sources : Source.Provider) (name : String)
      {α : Type} {step : Build Store α} (hstep : Factory.Offers ⟨.build m, sources, name⟩ step) :
      Reached (step.runOn s).2

theorem Store.Reached.filed {s : Store} (h : s.Reached) : s.Filed := by
  induction h with
  | empty => exact filed_empty
  | texts _ texts ih => exact ih.of_arena_eq fun _ => arena_texts texts
  | asked _ _ _ _ hstep ih => exact (hstep.advances _).filed ih

/-- What a call resolves to with the default handlers. -/
def PassEnv.Resolves (env : PassEnv) (sc : ScopeStack) (s : Store) (c : IntrinsicCall)
    (r : Resolved) : Prop :=
  ∃ t, (Dispatch.resolve Handlers.defaults env sc c).runOn s = (.ok r, t)

/-- The hash that a call asks for by naming a declaration. It is folded from the hash of what the
declaration is filed under: the key of a function, and the name of a class. -/
inductive PassEnv.NamedHash (env : PassEnv) (c : IntrinsicCall) : Int32 → Prop
  | function {id : DeclId} {key : FunctionKey} (hc : c.kind = .functionOfHash)
    (hof : Handlers.functionReference c = .ok id) (hkey : env.factory.functionKey id = .ok key) :
    env.NamedHash c (foldHash key.hash)
  | classes {name : String} {args : List Ty} {nullable : Bool} (hc : c.kind = .classOfHash)
    (hof : Handlers.typeArgument c = .ok (.classTy name args nullable)) :
    env.NamedHash c (foldHash (Hash.sip (Stream.ofString name)))

/-- Two calls that ask for the hash of one declaration, the first of them from inside. -/
inductive PassEnv.SameHash (env : PassEnv) (sc : ScopeStack) (c c' : IntrinsicCall) : Prop
  | function {id : DeclId} (hc : c.kind = .currentFunctionHash)
    (hin : sc.currentExecutable? = some (.function id)) (hc' : c'.kind = .functionOfHash)
    (hof : Handlers.functionReference c' = .ok id)
  /-- An initializer counts as the primary constructor of its class. -/
  | initializer {id inClass constructor : DeclId} {x : Symbol} {info : ClassSymbol}
    (hc : c.kind = .currentFunctionHash)
    (hin : sc.currentExecutable? = some (.initializer id (some inClass)))
    (hclass : env.factory.symbols.class? inClass = some (x, info))
    (hconstructor : info.primaryConstructor = some constructor) (hc' : c'.kind = .functionOfHash)
    (hof : Handlers.functionReference c' = .ok constructor)
  /-- A class is named by a type, with any arguments. -/
  | classes {id : DeclId} {x : Symbol} {info : ClassSymbol} {args : List Ty} {nullable : Bool}
    (hc : c.kind = .currentClassHash) (hin : sc.currentClass? = some id)
    (hclass : env.factory.symbols.class? id = some (x, info))
    (hlookup : env.factory.symbols.lookupClass? x.fqName = some id) (hc' : c'.kind = .classOfHash)
    (hof : Handlers.typeArgument c' = .ok (.classTy x.fqName args nullable))

namespace Handlers

variable {env : PassEnv} {sc sc' : ScopeStack} {c c' : IntrinsicCall} {s s' t : Store}
  {r r' : Resolved}

/-! ## The hash of a descriptor -/

/-- A hash that is read off a descriptor is read off one that carries its key. -/
theorem hash_of_finds (hs : s.Filed) {k : DescriptorKind} {key : k.Key} {h : Handle k}
    (hfinds : s.Finds k key h) {hash : k.Info → Int32}
    (hrun : (do
      let info ← Build.ofExcept (((← get) : Store).arena k |>.resolve h)
      return Resolved.int (hash info) : Build Store Resolved).runOn s = (.ok r, t)) :
    ∃ info, k.Carries key info ∧ r = .int (hash info) := by
  obtain ⟨u, v, hget, hrest⟩ := Build.of_bind hrun
  cases hget
  obtain ⟨info, w, hinfo, hresult⟩ := Build.of_bind hrest
  obtain ⟨hinfo, rfl⟩ := Build.of_ofExcept hinfo
  obtain ⟨rfl, -⟩ := Build.of_pure hresult
  refine ⟨info, ?_, rfl⟩
  unfold Arena.resolve at hinfo
  split at hinfo
  · rename_i hready
    cases hinfo
    exact (hs k).carried (key, h) hfinds info (Arena.get?_eq_some_iff.mp hready)
  · cases hinfo

theorem functionHash_of_functionAt {f : Factory} {id : DeclId} {h : Handle .functionInfo}
    (hs : s.Filed) (hat : f.FunctionAt s id h) (hrun : (functionHash h).runOn s = (.ok r, t)) :
    ∃ key, f.functionKey id = .ok key ∧ r = .int (foldHash key.hash) := by
  obtain ⟨x, g, hid, hfinds⟩ := hat
  obtain ⟨info, hkey, rfl⟩ := hash_of_finds hs hfinds hrun
  refine ⟨f.functionKeyOf x g, by rw [Factory.functionKey, hid], ?_⟩
  rw [FunctionInfo.structuralHash, show info.key = f.functionKeyOf x g from hkey]

theorem classHash_of_classAt {f : Factory} {id : DeclId} {x : Symbol} {info : ClassSymbol}
    {h : Handle .classInfo} (hs : s.Filed) (hclass : f.symbols.class? id = some (x, info))
    (hat : f.ClassAt s id h) (hrun : (classHash h).runOn s = (.ok r, t)) :
    r = .int (foldHash (Hash.sip (Stream.ofString x.fqName))) := by
  obtain ⟨_, _, hid, hfinds⟩ := hat
  cases hclass.symm.trans hid
  obtain ⟨content, hname, rfl⟩ := hash_of_finds hs hfinds hrun
  rw [ClassInfo.structuralHash, show content.qualifiedName = x.fqName from hname]

/-! ## The hash that a call asks for -/

/-- With the default handlers, it is the handler of its kind that resolves a call. -/
theorem of_resolves {kind : IntrinsicKind} (hc : c.kind = kind) (h : env.Resolves sc s c r) :
    ∃ t, (ofKind kind c sc env).runOn s = (.ok r, t) := by
  obtain ⟨t, hrun⟩ := h
  obtain ⟨_, hhandler, hrun, -⟩ := Dispatch.of_resolve hrun
  cases hhandler
  exact ⟨t, hc ▸ hrun⟩

/-- The hash of the executable around a call is read off the descriptor that stands for it. -/
theorem of_currentFunctionHash (hs : s.Filed) {executable : Executable}
    (hc : c.kind = .currentFunctionHash) (hin : sc.currentExecutable? = some executable)
    (hr : env.Resolves sc s c r) :
    ∃ h t u, t.Filed ∧ env.factory.ExecutableAt t executable h ∧
      (functionHash h).runOn t = (.ok r, u) := by
  obtain ⟨u, hrun⟩ := of_resolves hc hr
  obtain ⟨found, s', hfound, hrest⟩ := Build.of_bind hrun
  obtain ⟨hexecutable, rfl⟩ := Build.of_require hfound
  rw [hin] at hexecutable
  cases hexecutable
  obtain ⟨h, t, hinfo, hhash⟩ := Build.of_bind hrest
  obtain ⟨_, _, hsettles, -, hadv, -, hat⟩ := (env.factory.settles_executableInfo executable).run s'
  cases hinfo.symm.trans hsettles
  exact ⟨h, t, u, hadv.filed hs, hat h rfl, hhash⟩

theorem of_functionOfHash {id : DeclId} (hc : c.kind = .functionOfHash)
    (hof : functionReference c = .ok id) (hr : env.Resolves sc s c r) :
    ∃ key, env.factory.functionKey id = .ok key ∧ r = .int (foldHash key.hash) := by
  obtain ⟨u, hrun⟩ := of_resolves hc hr
  obtain ⟨found, s', hfound, hrest⟩ := Build.of_bind hrun
  obtain ⟨hreference, rfl⟩ := Build.of_ofExcept hfound
  rw [hof] at hreference
  cases hreference
  obtain ⟨key, t, hkey, hresult⟩ := Build.of_bind hrest
  obtain ⟨hkeyOf, rfl⟩ := Build.of_ofExcept hkey
  obtain ⟨rfl, -⟩ := Build.of_pure hresult
  exact ⟨key, hkeyOf, rfl⟩

theorem of_currentClassHash (hs : s.Filed) {id : DeclId} {x : Symbol} {info : ClassSymbol}
    (hc : c.kind = .currentClassHash) (hin : sc.currentClass? = some id)
    (hclass : env.factory.symbols.class? id = some (x, info)) (hr : env.Resolves sc s c r) :
    r = .int (foldHash (Hash.sip (Stream.ofString x.fqName))) := by
  obtain ⟨u, hrun⟩ := of_resolves hc hr
  obtain ⟨found, s', hfound, hrest⟩ := Build.of_bind hrun
  obtain ⟨henclosing, rfl⟩ := Build.of_require hfound
  rw [hin] at henclosing
  cases henclosing
  obtain ⟨h, t, hinfo, hhash⟩ := Build.of_bind hrest
  obtain ⟨_, _, hsettles, -, hadv, -, hat⟩ := (env.factory.settles_classInfo le_rfl id).run s'
  cases hinfo.symm.trans hsettles
  exact classHash_of_classAt (hadv.filed hs) hclass (hat h rfl) hhash

/-- A type leads to the class that is found by its name, and its arguments do not count. -/
theorem of_classOfHash (hs : s.Filed) {id : DeclId} {x : Symbol} {info : ClassSymbol} {ty : Ty}
    (hc : c.kind = .classOfHash) (hof : typeArgument c = .ok ty)
    (hty : env.factory.classOfType? ty = some id)
    (hclass : env.factory.symbols.class? id = some (x, info)) (hr : env.Resolves sc s c r) :
    r = .int (foldHash (Hash.sip (Stream.ofString x.fqName))) := by
  obtain ⟨u, hrun⟩ := of_resolves hc hr
  obtain ⟨found, s', hfound, hrest⟩ := Build.of_bind hrun
  obtain ⟨hargument, rfl⟩ := Build.of_ofExcept hfound
  rw [hof] at hargument
  cases hargument
  obtain ⟨h, t, hinfo, hhash⟩ := Build.of_bind hrest
  obtain ⟨_, _, hsettles, -, hadv, -, hat⟩ := (env.factory.settles_classInfoForType ty).run s'
  cases hinfo.symm.trans hsettles
  have hclassAt := hat h rfl
  rw [Factory.ClassForTypeAt, hty] at hclassAt
  exact classHash_of_classAt (hadv.filed hs) hclass hclassAt hhash

/-- The descriptor of a function and its key lead to one hash. -/
theorem hashes_of_functionAt (hs : s.Filed) {id : DeclId} {h : Handle .functionInfo}
    (hat : env.factory.FunctionAt s id h) (hrun : (functionHash h).runOn s = (.ok r, t))
    (hc' : c'.kind = .functionOfHash) (hof : functionReference c' = .ok id)
    (hr' : env.Resolves sc' s' c' r') : ∃ n, env.NamedHash c' n ∧ r = .int n ∧ r' = .int n := by
  obtain ⟨key, hkey, rfl⟩ := functionHash_of_functionAt hs hat hrun
  obtain ⟨key', hkey', rfl⟩ := of_functionOfHash hc' hof hr'
  cases hkey.symm.trans hkey'
  exact ⟨_, .function hc' hof hkey, rfl, rfl⟩

/-- **Hashes agree.** A call from inside a declaration and one that names it resolve to one number,
if both resolve, whatever was asked before of the factories of this module and of others. The number
is folded from the hash of the key of a function and of the name of a class. -/
theorem hashes_agree (hs : s.Reached) (hs' : s'.Reached) (hsame : env.SameHash sc c c')
    (hr : env.Resolves sc s c r) (hr' : env.Resolves sc' s' c' r') :
    ∃ n, env.NamedHash c' n ∧ r = .int n ∧ r' = .int n := by
  cases hsame with
  | function hc hin hc' hof =>
    obtain ⟨h, t, u, ht, hat, hhash⟩ := of_currentFunctionHash hs.filed hc hin hr
    exact hashes_of_functionAt ht hat hhash hc' hof hr'
  | initializer hc hin hclass hconstructor hc' hof =>
    obtain ⟨h, t, u, ht, ⟨x, info, g, hclassAt, hg, hat⟩, hhash⟩ :=
      of_currentFunctionHash hs.filed hc hin hr
    cases hclass.symm.trans hclassAt
    cases hconstructor.symm.trans hg
    exact hashes_of_functionAt ht hat hhash hc' hof hr'
  | classes hc hin hclass hlookup hc' hof =>
    obtain rfl := of_currentClassHash hs.filed hc hin hclass hr
    obtain rfl := of_classOfHash hs'.filed hc' hof hlookup hclass hr'
    exact ⟨_, .classes hc' hof, rfl, rfl⟩

end Handlers

/-! ## A class that another module has asked for -/

namespace HashSample

open Factory.MembersSample (factory)

def env : PassEnv := { options := {}, symbols := factory.symbols, linkage := {}, factory }

/-- In the initial value of a field. -/
def inside : ScopeStack := ⟨[.ofInitializer ⟨4⟩, .ofClass ⟨0⟩]⟩

def site : Site := ⟨.undefined ⟨0⟩, .int⟩

def call (kind : IntrinsicKind) (typeArgs : List Ty) (args : List (Option Expr)) : IntrinsicCall :=
  { kind, site, callee := ⟨9⟩, receiver := none, typeArgs, args }

/-- A store in which a module without declarations has described the class. -/
def described : Store :=
  ((Factory.serve ⟨.build { name := "other" }, .ofTexts [], "other"⟩
    (.classInfoForType (.classTy "C" [] false))).runOn {}).2

theorem reached_described : described.Reached := .asked .empty _ _ _ (.serve _)

theorem exists_resolves (sc : ScopeStack) (s : Store) (c : IntrinsicCall)
    (h : ((Dispatch.resolve Handlers.defaults env sc c).runOn s).1.isOk = true) :
    ∃ r, env.Resolves sc s c r := by
  obtain ⟨r, hr⟩ := Except.exists_ok h
  exact ⟨r, _, Prod.ext hr rfl⟩

/-- From an initializer and from outside of the class, the hashes of its constructor agree and so do
those of the class, where one store knows the class from another module. -/
theorem agree_from_outside :
    (∃ n, env.Resolves inside described (call .currentFunctionHash [] []) (.int n) ∧
      env.Resolves {} {} (call .functionOfHash [] [some (.functionRef site ⟨1⟩)]) (.int n)) ∧
    ∃ n, env.Resolves inside described (call .currentClassHash [] []) (.int n) ∧
      env.Resolves {} {} (call .classOfHash [.classTy "C" [.int] true] []) (.int n) := by
  have hknown : (env.factory.symbols.class? ⟨0⟩).map
      (fun known => (known.1.fqName, known.2.primaryConstructor)) = some ("C", some ⟨1⟩) := by
    decide +kernel
  obtain ⟨⟨x, info⟩, hclass, hentry⟩ := Option.map_eq_some_iff.mp hknown
  obtain ⟨hname, hconstructor⟩ := Prod.mk.inj hentry
  have hlookup : env.factory.symbols.lookupClass? "C" = some ⟨0⟩ := by decide +kernel
  constructor
  · obtain ⟨r, hr⟩ := exists_resolves inside described (call .currentFunctionHash [] [])
      (by decide +kernel)
    obtain ⟨r', hr'⟩ := exists_resolves {} {}
      (call .functionOfHash [] [some (.functionRef site ⟨1⟩)]) (by decide +kernel)
    obtain ⟨n, -, rfl, rfl⟩ := Handlers.hashes_agree reached_described .empty
      (.initializer rfl rfl hclass hconstructor rfl rfl) hr hr'
    exact ⟨n, hr, hr'⟩
  · obtain ⟨r, hr⟩ := exists_resolves inside described (call .currentClassHash [] [])
      (by decide +kernel)
    obtain ⟨r', hr'⟩ := exists_resolves {} {} (call .classOfHash [.classTy "C" [.int] true] [])
      (by decide +kernel)
    have htype : Handlers.typeArgument (call .classOfHash [.classTy "C" [.int] true] []) =
        .ok (.classTy x.fqName [.int] true) := by
      rw [hname]
      rfl
    obtain ⟨n, -, rfl, rfl⟩ := Handlers.hashes_agree reached_described .empty
      (.classes rfl rfl hclass (hname ▸ hlookup) rfl htype) hr hr'
    exact ⟨n, hr, hr'⟩

end HashSample

end TraceWeave

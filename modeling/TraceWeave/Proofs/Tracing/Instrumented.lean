import TraceWeave.Proofs.Program.Index
import TraceWeave.Proofs.Tracing.Outline
import TraceWeave.Proofs.Tracing.Simulation
import TraceWeave.Proofs.Tracing.Weaving

/-! # Runs of instrumented programs

A program that was instrumented does what the program before does under a tracer. What is proved
about the tracer therefore holds for the hooks.

`Instrument.Succeeds` is the situation and `Module.Woven` what the run of the pass has made.
`Instrument.Succeeds.callWithin_matches` compares the two programs.
-/

namespace TraceWeave

/-! ## The programs before and after -/

section

open Tracing

variable {env : PassEnv} {store : Store} {m m' : Module}

theorem Tracing.BodyWoven.isPresent_eq {own : DeclId} {plan : FunctionPlan} {body body' : Body}
    (h : BodyWoven env own plan body body') : body'.isPresent = body.isPresent := by
  cases h <;> rfl

theorem Body.Woven.isPresent_eq {sc : ScopeStack} {lv : Leaves} {body body' : Body}
    (h : body.Woven env store sc lv body') : body'.isPresent = body.isPresent := by
  cases body with
  | absent => rw [show body' = .absent from h]
  | block | expression =>
    obtain ⟨_, -, rfl⟩ := h
    rfl

theorem Decl.Woven.alike {sc : ScopeStack} {d d' : Decl} (h : d.Woven env store sc d') :
    d.Alike d' := by
  cases d with
  | function head info params body =>
    obtain ⟨params', body', body'', -, hbody, -, hwoven, rfl⟩ := h
    exact ⟨rfl, rfl, hwoven.isPresent_eq.trans hbody.isPresent_eq⟩
  | classDecl | field | initializer =>
    obtain ⟨_, -, rfl⟩ := h
    rfl
  | property =>
    obtain ⟨_, _, _, -, -, -, rfl⟩ := h
    rfl

/-- What becomes of a declaration: one of an own file is woven, with the events of its plan, and
one of an external file stays, with no events. -/
def Reworked (env : PassEnv) (store : Store) (m : Module) (d d' : Decl) : Prop :=
  (∃ sc, d.Woven env store sc d' ∧ planOf env store m d.id = functionPlan env store sc d) ∨
    (d' = d ∧ planOf env store m d.id = {})

theorem Reworked.alike {d d' : Decl} (h : Reworked env store m d d') : d.Alike d' := by
  obtain ⟨sc, hd, -⟩ | ⟨rfl, -⟩ := h
  · exact hd.alike
  · exact .refl _

/-- Elements that are found by the same key. -/
theorem find?_of_forall₂ {α : Type} {r : α → α → Prop} {key : α → DeclId}
    (hkey : ∀ a b, r a b → key b = key a) (id : DeclId) {l l' : List α} (h : List.Forall₂ r l l') :
    Option.Rel r (l.find? (key · == id)) (l'.find? (key · == id)) := by
  induction h with
  | nil => exact .none
  | @cons a b l l' hab _ ih =>
    rw [List.find?_cons, List.find?_cons, hkey a b hab]
    cases key a == id with
    | true => exact .some hab
    | false => exact ih

theorem Tracing.planOf_of_own (hids : m.declIds.Nodup) {x : ScopeStack × Decl} (hx : x ∈ m.ownDecls) :
    planOf env store m x.2.id = functionPlan env store x.1 x.2 := by
  unfold planOf
  rw [Module.ownDecl?_of_mem hids hx]

theorem Tracing.planOf_of_external (hids : m.declIds.Nodup) {d : Decl}
    (hd : d ∈ m.external.flatMap fun f => declsOf (declsNodes f.declarations)) :
    planOf env store m d.id = {} := by
  unfold planOf
  rw [Module.ownDecl?_of_external hids hd]

variable (env store) in
/-- The plan of a function of a module, own or external. -/
theorem Tracing.planOf_cases (hids : m.declIds.Nodup) {hosts : HostTable} {id : DeclId} {d : Decl}
    (hd : (Interpreter.ofModule m hosts).decl? id = some d) :
    (∃ sc, planOf env store m id = functionPlan env store sc d) ∨ planOf env store m id = {} := by
  unfold planOf
  obtain ⟨sc, -, hown⟩ | hnone := Interpreter.ownDecl?_cases hids hd
  · exact .inl ⟨sc, by rw [hown]⟩
  · exact .inr (by rw [hnone])

/-! ## Programs that differ in code only -/

namespace Interpreter

variable {m' : Module}

/-- The host knows functions by their qualified names. -/
theorem hostName_of_keys (h : m'.symbols.map Symbol.key = m.symbols.map Symbol.key)
    (hosts : HostTable) (id : DeclId) (info : FunctionHead) :
    (ofModule m' hosts).hostName id info = (ofModule m hosts).hostName id info := by
  have hkey : ∀ n : Module, (ofModule n hosts).hostName id info =
      (((n.symbols.map Symbol.key).reverse.find? (·.1 == id)).map Prod.snd).getD info.name := by
    intro n
    unfold hostName ofModule SymbolTable.get?
    rw [SymbolTable.newest_build, ← List.map_reverse, List.find?_map]
    simp only [Function.comp_def, Symbol.key]
    cases n.symbols.reverse.find? fun s => s.id == id <;> rfl
  rw [hkey, hkey, h]

variable {r : Decl → Decl → Prop}

theorem decl?_of_forall₂ (halike : ∀ d d', r d d' → d.Alike d')
    (h : List.Forall₂ r m.decls m'.decls) (hosts : HostTable) (id : DeclId) :
    Option.Rel r ((ofModule m hosts).decl? id) ((ofModule m' hosts).decl? id) := by
  rw [decl?_ofModule, decl?_ofModule]
  exact find?_of_forall₂ (fun d d' hr => congrArg DeclHead.id (halike d d' hr).head_eq) id
    (List.rel_reverse h)

theorem alike_of_forall₂ (halike : ∀ d d', r d d' → d.Alike d')
    (h : List.Forall₂ r m.decls m'.decls)
    (hnames : m'.symbols.map Symbol.key = m.symbols.map Symbol.key) (hosts : HostTable)
    (o o' : Observer) :
    Alike ((ofModule m hosts).observed o) ((ofModule m' hosts).observed o') where
  hosts := rfl
  hostName id info := hostName_of_keys hnames hosts id info
  decl id := by
    have hrel := decl?_of_forall₂ halike h hosts id
    change Option.Rel _ ((ofModule m hosts).decl? id) ((ofModule m' hosts).decl? id)
    generalize (ofModule m hosts).decl? id = d, (ofModule m' hosts).decl? id = d' at hrel
    cases hrel with
    | none => exact .none
    | some hd => exact .some (halike _ _ hd)

end Interpreter

namespace Module.Woven

/-- The declarations of own files. -/
theorem ownDecls (h : m.Woven env store m') :
    List.Forall₂ (fun x d' => x.2.Woven env store x.1 d') m.ownDecls
      (m'.files.flatMap fun f => declsOf (declsNodes f.declarations)) := by
  obtain ⟨hfiles, -⟩ := h
  unfold Module.ownDecls
  generalize m.files = fs, m'.files = fs' at hfiles
  induction hfiles with
  | nil => exact .nil
  | cons hf _ ih =>
    rw [List.flatMap_cons, List.flatMap_cons]
    exact List.rel_append (decls_woven_decls _ _ _ hf.2.2).decls ih

/-- The symbols keep their identities and names. -/
theorem symbols (h : m.Woven env store m') :
    m'.symbols.map Symbol.key = m.symbols.map Symbol.key := by
  obtain ⟨hfiles, hexternal⟩ := h
  unfold Module.symbols
  rw [List.map_append, List.map_append, hexternal]
  congr 1
  generalize m.files = fs, m'.files = fs' at hfiles
  induction hfiles with
  | nil => rfl
  | @cons f f' _ _ hf _ ih =>
    obtain ⟨hid, hpackage, hdecls⟩ := hf
    rw [List.flatMap_cons, List.flatMap_cons, List.map_append, List.map_append, ih]
    unfold Module.symbolsOfFile
    rw [hid, hpackage, (decls_woven_decls _ _ _ hdecls).names]

/-- All declarations. -/
theorem decls (hids : m.declIds.Nodup) (h : m.Woven env store m') :
    List.Forall₂ (Reworked env store m) m.decls m'.decls := by
  rw [Module.decls_eq, Module.decls_eq, Module.map_ownDecls m', h.external]
  refine List.rel_append (List.forall₂_map_left_iff.mpr ?_) (List.forall₂_same.mpr ?_)
  · have hmem := (List.forall₂_and_left (p := (· ∈ m.ownDecls)) _ _).mpr
      ⟨fun _ hx => hx, h.ownDecls⟩
    refine hmem.imp fun x d' hx => ?_
    exact .inl ⟨x.1, hx.2, planOf_of_own hids hx.1⟩
  · intro d hd
    exact .inr ⟨rfl, planOf_of_external hids hd⟩

theorem decl? (hids : m.declIds.Nodup) (h : m.Woven env store m') (hosts : HostTable)
    (id : DeclId) :
    Option.Rel (Reworked env store m) ((Interpreter.ofModule m hosts).decl? id)
      ((Interpreter.ofModule m' hosts).decl? id) :=
  Interpreter.decl?_of_forall₂ (fun _ _ hr => hr.alike) (h.decls hids) hosts id

theorem hostName_eq (h : m.Woven env store m') (hosts : HostTable) (id : DeclId)
    (info : FunctionHead) :
    (Interpreter.ofModule m' hosts).hostName id info =
      (Interpreter.ofModule m hosts).hostName id info :=
  Interpreter.hostName_of_keys h.symbols hosts id info

/-- The programs before and after differ in code only. -/
theorem alike (hids : m.declIds.Nodup) (h : m.Woven env store m') (hosts : HostTable)
    (o o' : Observer) :
    Interpreter.Alike ((Interpreter.ofModule m hosts).observed o)
      ((Interpreter.ofModule m' hosts).observed o') :=
  Interpreter.alike_of_forall₂ (fun _ _ hr => hr.alike) (h.decls hids) h.symbols hosts o o'

end Module.Woven

end

/-! ## Hooks -/

/-- The names of the hooks are pairwise distinct. -/
def HookNames.Distinct (names : HookNames) : Prop := ∀ a b, names.get a = names.get b → a = b

namespace HostTable

theorem withHooks_eq (table : HostTable) (names : HookNames) : ∀ tys : List TraceType,
    tys.foldl (fun table ty => (names.get ty, Host.hook ty) :: table) table =
      (tys.map fun ty => (names.get ty, Host.hook ty)).reverse ++ table
  | [] => rfl
  | ty :: tys => by
    rw [List.foldl_cons, withHooks_eq ((names.get ty, Host.hook ty) :: table) names tys,
      List.map_cons, List.reverse_cons, List.append_assoc]
    rfl

theorem lookup_hooks {names : HookNames} (hnames : names.Distinct) (ty : TraceType) :
    ∀ tys : List TraceType, ty ∈ tys →
      (tys.map fun ty => (names.get ty, Host.hook ty)).lookup (names.get ty) = some (.hook ty)
  | ty' :: tys, h => by
    rw [List.map_cons, List.lookup_cons]
    by_cases heq : ty = ty'
    · subst heq
      simp
    · rw [beq_false_of_ne fun hname => heq (hnames _ _ hname)]
      exact lookup_hooks hnames ty tys (List.mem_of_ne_of_mem heq h)

/-- With distinct names every hook is found by its name. -/
theorem lookup_withHooks {names : HookNames} (hnames : names.Distinct) (table : HostTable)
    (ty : TraceType) : (table.withHooks names).lookup (names.get ty) = some (.hook ty) := by
  unfold withHooks
  rw [withHooks_eq, ← List.map_reverse, List.lookup_append,
    lookup_hooks hnames ty _ (List.mem_reverse.mpr (TraceType.mem_all ty)), Option.some_or]

end HostTable

namespace Interpreter

theorem hostArgs_some (name : String) (span : Span) : ∀ (n : Nat) (vs : List Value),
    hostArgs name span n (vs.map some) = Eval.yield vs
  | _, [] => rfl
  | n, v :: vs => by
    rw [List.map_cons, hostArgs, hostArgs_some name span (n + 1) vs]
    rfl

/-- A call of a hook tells it the event. -/
theorem invoke_hook {p : Interpreter} {names : HookNames} {ev : TraceEvent} {id : DeclId}
    {head : DeclHead} {info : FunctionHead} {params : List Param} {body : Body}
    (hdecl : p.decl? id = some (.function head info params body))
    (hname : p.hostName id info = names.get ev.traceType)
    (hhost : p.hosts.lookup (names.get ev.traceType) = some (.hook ev.traceType)) (run : Runner)
    (span : Span) :
    p.invoke run id (ev.args.map some) span =
      Eval.andThen (Eval.tell [names.call ev]) fun _ => Eval.yield .unit := by
  unfold invoke
  simp only [hdecl, hname, hhost, hostArgs_some, Eval.yield_andThen]
  funext n
  simp only [Eval.callHost, Host.run, TraceEvent.ofCall_args]
  rfl

end Interpreter

/-! ## Instrumentation that succeeds -/

/-- A module with distinct identities, options with distinct hook names, and an instrumentation
that succeeds. -/
structure Instrument.Succeeds (options : Options) (sources : Source.Provider) (m : Module)
    (store : Store) (env : PassEnv) : Prop where
  build : PassEnv.build options sources m = .ok env
  ids : m.declIds.Nodup
  names : options.tracing.hooks.Distinct
  outcome : ∃ n, (Instrument.run env m store).outcome = .ok n

namespace Instrument.Succeeds

open Tracing Interpreter

variable {options : Options} {sources : Source.Provider} {m : Module} {store : Store}
  {env : PassEnv}

theorem build_eq (h : Succeeds options sources m store env) :
    env.options = options ∧ env.symbols = SymbolTable.build m ∧
      Linkage.build (SymbolTable.build m) options = .ok env.linkage :=
  PassEnv.build_eq_ok h.build

/-- A hook is a function, and the host knows it by its name. -/
theorem hook (h : Succeeds options sources m store env) (hosts : HostTable) {ty : TraceType}
    {id : DeclId} (hid : env.linkage.hook? ty = some id) :
    (∃ head info params body,
      (ofModule m hosts).decl? id = some (.function head info params body)) ∧
      ∀ info, (ofModule m hosts).hostName id info = options.tracing.hooks.get ty := by
  obtain ⟨s, hs, rfl, hname, hfunction⟩ := SymbolTable.of_lookupFunction? h.ids
    (Linkage.lookupFunction?_of_hook? h.build_eq.2.2 hid)
  exact ⟨exists_function_of_symbol h.ids hosts hs hfunction,
    fun info => (hostName_of_symbol h.ids hosts hs info).trans hname⟩

theorem woven (h : Succeeds options sources m store env) :
    m.Woven env (run env m store).store (run env m store).module := by
  obtain ⟨n, hn⟩ := h.outcome
  exact run_woven h.ids hn

/-- Hooks can be called from the program after. -/
theorem hooked (h : Succeeds options sources m store env) (hosts : HostTable) {w : Watch}
    (hw : Fits env w) (own : DeclId) (rounds : Nat) (runner : Runner) :
    Hooked env w ⟨own, rounds, w.observer,
      ((ofModule (run env m store).module (hosts.withHooks options.tracing.hooks)).observed
        w.observer).invoke runner⟩ where
  fits := hw
  observer := rfl
  call ev id span hid := by
    obtain ⟨⟨head, info, params, body, hdecl⟩, hname⟩ :=
      h.hook (hosts.withHooks options.tracing.hooks) hid
    have hrel := h.woven.decl? h.ids (hosts.withHooks options.tracing.hooks) id
    rw [hdecl] at hrel
    rw [h.build_eq.1]
    generalize hdecl' : (ofModule (run env m store).module
      (hosts.withHooks options.tracing.hooks)).decl? id = d' at hrel
    cases hrel with
    | @some _ d' hd =>
      have halike := hd.alike
      cases d' with
      | function head' info' params' body' =>
        exact invoke_hook hdecl' ((h.woven.hostName_eq _ id _).trans (hname _))
          (HostTable.lookup_withHooks h.names hosts ev.traceType) runner span
      | _ => exact halike.elim

/-- **Weaving is observing.** A call of an instrumented program under a watch and a call of the
program before under the tracer with that watch end in the same way, with the same host calls. -/
theorem callWithin_matches (h : Succeeds options sources m store env) {w : Watch}
    (hw : Fits env w) (hosts : HostTable) (rounds : Nat) (id : DeclId) (args : List Value) :
    CallsMatch (hookedComparison env w none).terms Eq (same Eq)
      (((ofModule m (hosts.withHooks options.tracing.hooks)).observed
        (tracerOf env (run env m store).store m w).observer).callWithin rounds id args)
      (((ofModule (run env m store).module (hosts.withHooks options.tracing.hooks)).observed
        w.observer).callWithin rounds id args) := by
  have halike := h.woven.alike h.ids (hosts.withHooks options.tracing.hooks)
    (tracerOf env (run env m store).store m w).observer w.observer
  refine Interpreter.callWithin_matches (K := hookedComparison env w none) (i := ()) halike
    (fun args span => ?_) args
  -- The rounds and the depth are the same on both sides, so it is enough to compare single
  -- activations.
  refine runWithin_matches (fun _ => True) halike rounds
    (fun _ _ _ _ _ _ _ _ hl => congrArg _ hl) ?_ maxCallDepth () id trivial args span
  intro runner runner' hcalls id head info ps ps' body body' hp hq _ args
  have hside : SideBySide env (run env m store).store m w
      ⟨id, rounds, (tracerOf env (run env m store).store m w).observer,
        ((ofModule m (hosts.withHooks options.tracing.hooks)).observed
          (tracerOf env (run env m store).store m w).observer).invoke runner⟩
      ⟨id, rounds, w.observer,
        ((ofModule (run env m store).module (hosts.withHooks options.tracing.hooks)).observed
          w.observer).invoke runner'⟩ :=
    { hooked := h.hooked hosts hw id rounds runner'
      function := rfl
      rounds := rfl
      observer := rfl
      call := fun id => hcalls () id trivial }
  have hid : head.id = id :=
    (mem_of_decl? (show (ofModule m (hosts.withHooks options.tracing.hooks)).decl? id = _ from hp)).2
  have hrel := h.woven.decl? h.ids (hosts.withHooks options.tracing.hooks) id
  rw [show (ofModule m _).decl? id = _ from hp,
    show (ofModule (run env m store).module _).decl? id = _ from hq] at hrel
  cases hrel with
  | some hd =>
    rw [Reworked, show (Decl.function head info ps body).id = id from hid] at hd
    -- The function has a plan and was woven, or it has none and is the same on both sides.
    obtain ⟨sc, hwoven, hplan⟩ | ⟨hsame, hplan⟩ := hd
    · exact hside.runFunction_woven hid hplan hwoven args
    · cases hsame
      exact hside.runFunction_same info _ _ hplan args

/-- A call of an instrumented program, next to the traced call of the program before. -/
theorem callWithin_agree (h : Succeeds options sources m store env) {w : Watch}
    (hw : Fits env w) (hosts : HostTable) (rounds : Nat) (id : DeclId) (args : List Value)
    {traced woven : Outcome Value × Machine}
    (htraced : ((ofModule m (hosts.withHooks options.tracing.hooks)).observed
      (tracerOf env (run env m store).store m w).observer).callWithin rounds id args {} = traced)
    (hwoven : ((ofModule (run env m store).module (hosts.withHooks options.tracing.hooks)).observed
      w.observer).callWithin rounds id args {} = woven) :
    woven.1 = traced.1 ∧ SameVisible options.tracing.hooks traced.2.log woven.2.log ∧
      ∀ v, traced.1 = .done v → woven.2.log = traced.2.log := by
  obtain ⟨o, l, hx, hright⟩ := h.callWithin_matches hw hosts rounds id args [] [] [] [] rfl rfl
  obtain rfl := htraced.symm.trans hx
  obtain hexcused | ⟨o', k, hy, hag⟩ := hright
  · cases o <;> exact hexcused.elim
  · obtain rfl := hwoven.symm.trans hy
    obtain ⟨rfl, hvisible⟩ := hag.outcome_eq stopped_of_eq
    rw [← h.build_eq.1]
    refine ⟨rfl, hvisible, ?_⟩
    rintro v rfl
    exact hag.2.symm

end Instrument.Succeeds

/-! ## A small program -/

namespace Sample

def span (start : Int32) : Span := ⟨⟨0⟩, start, start + 1⟩

/-- The declaration of a hook in the runtime library. -/
def hook (id : UInt32) (name : String) : Decl :=
  .function { id := ⟨id⟩, span := .undefined ⟨1⟩, origin := .library } { name, returnTy := .unit } []
    .absent

def runtime : SourceFile where
  id := ⟨1⟩
  path := "Tracer.kt"
  package := "spyglass.trace.Tracer"
  declarations :=
    [hook 100 "enterFunction", hook 101 "leaveFunction", hook 102 "beforeCall", hook 103 "afterCall",
      hook 104 "suspensionPoint"]

/-- A function that waits before it gives twice its argument. -/
def twice : Decl :=
  .function { id := ⟨1⟩, span := span 10 } { name := "twice", returnTy := .int, isSuspend := true }
    [⟨{ id := ⟨0⟩, name := "x", ty := .int, span := span 11 }, none⟩]
    (.expression (.binary ⟨span 12, .int⟩ .add (.getVar ⟨span 13, .int⟩ ⟨0⟩)
      (.getVar ⟨span 14, .int⟩ ⟨0⟩)))

/-- A function that returns `twice(3)`. -/
def main : Decl :=
  .function { id := ⟨0⟩, span := span 1 } { name := "main", returnTy := .int } []
    (.block [.expr (.ofReturn (span 2) (.function ⟨0⟩)
      (.call ⟨span 3, .int⟩ ⟨1⟩ none [] [some (.ofInt (span 4) 3)]))])

def program : Module where
  name := "sample"
  files := [{ id := ⟨0⟩, path := "Main.kt", declarations := [main, twice] }]
  external := [runtime]

def options : Options where
  tracing :=
    { defaultTypes := [.functionEnter, .functionLeave, .beforeCall, .afterCall, .suspensionPoint] }

/-- The environment that passes over a program with the hooks of `runtime` have. -/
def envOf (options : Options) (m : Module) : PassEnv where
  options := options
  symbols := SymbolTable.build m
  linkage :=
    { hooks := [(.functionEnter, ⟨100⟩), (.functionLeave, ⟨101⟩), (.beforeCall, ⟨102⟩),
        (.afterCall, ⟨103⟩), (.suspensionPoint, ⟨104⟩)] }
  factory := { symbols := SymbolTable.build m, sources := default, moduleName := m.name }

theorem distinct_hookNames : HookNames.Distinct {} := by
  intro a b
  cases a <;> cases b <;> decide

theorem succeeds : Instrument.Succeeds options default program {} (envOf options program) where
  build := rfl
  ids := by decide +kernel
  names := distinct_hookNames
  outcome := Except.exists_ok (by decide +kernel)

end Sample

end TraceWeave

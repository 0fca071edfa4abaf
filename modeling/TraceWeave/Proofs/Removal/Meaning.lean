import TraceWeave.Proofs.Removal.Spared

/-! # Removal keeps the meaning of programs

What a program computes, how it fails and what it asks of its host stays the same when inactive
trace calls are taken out, as long as these calls do nothing but tell a name and none of them stands
at the end of a block whose value is used.

`Removal.Spares` is the condition on the program, `Removal.Succeeds.callWithin_matches` compares
the calls of both programs, and `removal_preserves_meaning` is the result.
-/

namespace TraceWeave

open Interpreter Tracing

namespace Removal

/-! ## The calls that are taken out -/

/-- Whether a node is no trace call, or one that does nothing but tell a name. -/
def isPlain (env : PassEnv) : Node → Bool
  | .expr e => (e.callee?.bind (userCall? env)).isNone || tellsName e
  | _ => true

/-- Only trace calls are scheduled. -/
def TraceCalls (env : PassEnv) (keys : List CallKey) : Prop :=
  ∀ key ∈ keys, (userCall? env key.callee).isSome

theorem traceCalls_schedule {env : PassEnv} {found : Search} (sc : ScopeStack) (place : Place)
    (e : Expr) (h : TraceCalls env found.scheduled) :
    TraceCalls env (schedule env sc place e found).scheduled := by
  unfold schedule
  split
  · split
    · exact h
    · rename_i site callee _ _ _ _ ty hty
      split
      · exact h
      · split
        · exact h
        · split
          · exact h
          · refine List.forall_mem_cons.mpr ⟨?_, h⟩
            rw [hty]
            rfl
  · exact h

theorem traceCalls_of_search {env : PassEnv} {m : Module} {keys : List CallKey}
    (h : search env m = .ok keys) : TraceCalls env keys := by
  have hback : (searcher env).HandsBack fun found => ¬TraceCalls env found.scheduled :=
    { onExpr := fun sc place e found hne hcalls => hne (by
        simp only [searcher]
        split
        · exact hcalls
        · exact traceCalls_schedule sc place e hcalls)
      onDecl := fun _ _ _ hne => hne }
  unfold search at h
  simp only at h
  split at h
  · exact nomatch h
  · injection h with hkeys
    rw [← hkeys]
    by_contra hne
    exact filesWalk_handsBack hback m.files {} hne nofun

theorem plain_of_isPlain {env : PassEnv} {keys : List CallKey} (hkeys : TraceCalls env keys)
    {nodes : List Node} (h : ∀ n ∈ nodes, isPlain env n) : Plain keys nodes := by
  intro e owner he hscheduled
  unfold isScheduled at hscheduled
  split at hscheduled
  · rename_i site callee receiver typeArgs args
    have hcallee := hkeys _ (List.contains_iff_mem.mp hscheduled)
    have hplain : (userCall? env callee).isNone || tellsName _ := h _ he
    rw [Option.isNone_eq_false_iff.mpr hcallee, Bool.false_or] at hplain
    exact hplain
  · exact absurd hscheduled Bool.false_ne_true

/-! ## Modules -/

variable {keys : List CallKey}

/-- What becomes of a declaration: one of an own file is pruned, and one of an external file
stays. -/
def Reworked (keys : List CallKey) (m : Module) (d d' : Decl) : Prop :=
  (d ∈ declsOf (filesNodes m.files) ∧ Plain keys d.nodes ∧ d' = prunedDecl keys d) ∨ d' = d

theorem Reworked.alike {m : Module} {d d' : Decl} (h : Reworked keys m d d') : d.Alike d' := by
  obtain ⟨-, -, rfl⟩ | rfl := h
  · exact alike_prunedDecl keys d
  · exact .refl _

theorem filesPrune_decls : ∀ fs : List SourceFile, Plain keys (filesNodes fs) →
    List.Forall₂ (fun d d' => Plain keys d.nodes ∧ d' = prunedDecl keys d)
      (declsOf (filesNodes fs)) (declsOf (filesNodes (filesPrune keys fs).1))
  | [], _ => .nil
  | f :: fs, h => by
    have hf := declsPrune_outline none f.declarations h.left
    change List.Forall₂ _ (declsOf (declsNodes f.declarations ++ filesNodes fs))
      (declsOf (declsNodes (declsPrune keys none f.declarations).1 ++
        filesNodes (filesPrune keys fs).1))
    rw [declsOf_append, declsOf_append, hf.decls]
    refine List.rel_append (List.forall₂_map_right_iff.mpr (List.forall₂_same.mpr ?_))
      (filesPrune_decls fs h.right)
    exact fun d hd => ⟨hf.plain d hd, rfl⟩

theorem filesPrune_names : ∀ fs : List SourceFile, Plain keys (filesNodes fs) →
    ((filesPrune keys fs).1.flatMap (Module.symbolsOfFile false)).map Symbol.key =
      (fs.flatMap (Module.symbolsOfFile false)).map Symbol.key
  | [], _ => rfl
  | f :: fs, h => by
    have hf := (declsPrune_outline none f.declarations h.left).names
    have hfs := filesPrune_names fs h.right
    change (declsSymbols _ (declsPrune keys none f.declarations).1 ++
      (filesPrune keys fs).1.flatMap (Module.symbolsOfFile false)).map Symbol.key =
        (declsSymbols _ f.declarations ++ fs.flatMap (Module.symbolsOfFile false)).map Symbol.key
    rw [List.map_append, List.map_append, hf, hfs]

section

variable {m : Module}

theorem decls_pruned (h : Plain keys (filesNodes m.files)) :
    List.Forall₂ (Reworked keys m) m.decls
      { m with files := (filesPrune keys m.files).1 : Module }.decls := by
  unfold Module.decls
  rw [Module.nodes_eq, Module.nodes_eq, declsOf_append, declsOf_append]
  refine List.rel_append ?_ (List.forall₂_same.mpr fun _ _ => .inr rfl)
  have hown := (List.forall₂_and_left (p := (· ∈ declsOf (filesNodes m.files))) _ _).mpr
    ⟨fun _ hd => hd, filesPrune_decls m.files h⟩
  exact hown.imp fun _ _ hd => .inl hd

theorem symbols_pruned (h : Plain keys (filesNodes m.files)) :
    { m with files := (filesPrune keys m.files).1 : Module }.symbols.map Symbol.key =
      m.symbols.map Symbol.key := by
  unfold Module.symbols
  rw [List.map_append, List.map_append, filesPrune_names m.files h]

end

end Removal

/-! ## Hooks -/

/-- The hook that a declaration is, and the host function of its name. Of several hooks with one
name the same one counts for both. -/
theorem lookup_of_find? (names : HookNames) (find : String → Option DeclId) (callee : DeclId) :
    ∀ (tys : List TraceType) (hook : TraceType × DeclId),
      (tys.filterMap fun ty => (find (names.get ty)).map fun id => (ty, id)).find?
        (·.2 == callee) = some hook →
      find (names.get hook.1) = some callee ∧
        (tys.map fun ty => (names.get ty, Host.hook ty)).lookup (names.get hook.1) =
          some (.hook hook.1)
  | [], _, h => nomatch h
  | ty :: tys, hook, h => by
    rw [List.map_cons, List.lookup_cons]
    cases hty : find (names.get ty) with
    | none =>
      rw [List.filterMap_cons, hty] at h
      obtain ⟨hfind, hlookup⟩ := lookup_of_find? names find callee tys hook h
      -- An earlier hook of the same name would have been found first.
      have hne : names.get hook.1 ≠ names.get ty := by
        intro heq
        rw [heq, hty] at hfind
        exact nomatch hfind
      rw [beq_false_of_ne hne]
      exact ⟨hfind, hlookup⟩
    | some id =>
      rw [List.filterMap_cons, hty] at h
      simp only [Option.map_some, List.find?_cons] at h
      by_cases hid : id = callee
      · subst hid
        simp only [beq_self_eq_true, Option.some.injEq] at h
        subst h
        exact ⟨hty, by rw [beq_self_eq_true]⟩
      · simp only [beq_false_of_ne hid] at h
        obtain ⟨hfind, hlookup⟩ := lookup_of_find? names find callee tys hook h
        have hne : names.get hook.1 ≠ names.get ty := by
          intro heq
          rw [heq, hty] at hfind
          exact hid (Option.some.inj hfind)
        rw [beq_false_of_ne hne]
        exact ⟨hfind, hlookup⟩

theorem Linkage.lookup_of_hookKind? {t : SymbolTable} {o : Options} {l : Linkage}
    (h : Linkage.build t o = .ok l) {callee : DeclId} {ty : TraceType}
    (hkind : l.hookKind? callee = some ty) (hosts : HostTable) :
    t.lookupFunction? (o.tracing.hooks.get ty) = some callee ∧
      (hosts.withHooks o.tracing.hooks).lookup (o.tracing.hooks.get ty) = some (.hook ty) := by
  unfold hookKind? at hkind
  rw [hooks_of_build h, hooksOf, ← List.filterMap_reverse] at hkind
  obtain ⟨hook, hfind, rfl⟩ := Option.map_eq_some_iff.mp hkind
  obtain ⟨hid, hlookup⟩ := lookup_of_find? o.tracing.hooks t.lookupFunction? callee _ hook hfind
  refine ⟨hid, ?_⟩
  unfold HostTable.withHooks
  rw [HostTable.withHooks_eq, ← List.map_reverse, List.lookup_append, hlookup, Option.some_or]

/-- The event of a user's trace call. -/
theorem TraceType.exists_event {ty : TraceType} (h : ty.isUserCall) (name : String) :
    ∃ ev : TraceEvent, ev.traceType = ty ∧ ev.args = [.string name] := by
  cases ty with
  | spanEnter => exact ⟨.spanEnter name, rfl, rfl⟩
  | spanLeave => exact ⟨.spanLeave name, rfl, rfl⟩
  | event => exact ⟨.event name, rfl, rfl⟩
  | _ => exact absurd h Bool.false_ne_true

/-! ## Removal that succeeds -/

namespace Removal

/-- A module with distinct identities whose trace calls do nothing but tell a name, and what is left
of it by a removal that succeeds. -/
structure Succeeds (options : Options) (sources : Source.Provider) (m : Module) (env : PassEnv)
    (m' : Module) : Prop where
  build : PassEnv.build options sources m = .ok env
  ids : m.declIds.Nodup
  calls : ∀ n ∈ filesNodes m.files, isPlain env n
  outcome : ∃ removed, run env m = .ok (m', removed)

/-- No call that is taken out stands at the end of a block whose value is used. -/
def Spares (env : PassEnv) (m : Module) : Prop :=
  ∀ keys, search env m = .ok keys → ∀ d ∈ declsOf (filesNodes m.files), d.spared keys

theorem of_run {env : PassEnv} {m m' : Module} {removed : Nat}
    (h : run env m = .ok (m', removed)) :
    ∃ keys, search env m = .ok keys ∧ m' = { m with files := (filesPrune keys m.files).1 } := by
  unfold run at h
  cases hsearch : search env m with
  | error e =>
    rw [hsearch] at h
    exact nomatch h
  | ok keys =>
    rw [hsearch] at h
    injection h with hpair
    exact ⟨keys, rfl, (congrArg Prod.fst hpair).symm⟩

namespace Succeeds

variable {options : Options} {sources : Source.Provider} {m m' : Module} {env : PassEnv}

theorem build_eq (h : Succeeds options sources m env m') :
    Linkage.build (SymbolTable.build m) options = .ok env.linkage :=
  (PassEnv.build_eq_ok h.build).2.2

/-- A trace call of the program before tells the name that it is given. -/
theorem tells (h : Succeeds options sources m env m') (hosts : HostTable) {callee : DeclId}
    (hcallee : (userCall? env callee).isSome) (runner : Runner) (name : String) (span : Span) :
    ∃ told, visible options.tracing.hooks [told] = [] ∧
      (ofModule m (hosts.withHooks options.tracing.hooks)).invoke runner callee
          [some (.string name)] span =
        Eval.andThen (Eval.tell [told]) fun _ => Eval.yield .unit := by
  obtain ⟨ty, hty⟩ := Option.isSome_iff_exists.mp hcallee
  obtain ⟨hkind, huser⟩ := Option.filter_eq_some_iff.mp hty
  obtain ⟨hfind, hhost⟩ := Linkage.lookup_of_hookKind? h.build_eq hkind hosts
  obtain ⟨s, hs, rfl, hname, hfunction⟩ := SymbolTable.of_lookupFunction? h.ids hfind
  obtain ⟨head, info, params, body, hdecl⟩ := exists_function_of_symbol h.ids
    (hosts.withHooks options.tracing.hooks) hs hfunction
  obtain ⟨ev, rfl, hargs⟩ := TraceType.exists_event huser name
  refine ⟨options.tracing.hooks.call ev, visible_call _ ev, ?_⟩
  rw [show [some (Value.string name)] = ev.args.map some by rw [hargs]; rfl]
  exact invoke_hook hdecl ((hostName_of_symbol h.ids _ hs info).trans hname) hhost runner span

end Succeeds

theorem sameVisible_cons {names : HookNames} (call : HostCall) {l k : List HostCall}
    (h : SameVisible names l k) : SameVisible names (call :: l) (call :: k) := by
  rw [SameVisible, ← List.singleton_append, visible_append, h, ← visible_append,
    List.singleton_append]

namespace Succeeds

variable {options : Options} {sources : Source.Provider} {m m' : Module} {env : PassEnv}

/-- **Calls match.** A call of the program before and of what is left of it end in the same way,
with the same visible host calls. -/
theorem callWithin_matches (h : Succeeds options sources m env m') (hspares : Spares env m)
    (hosts : HostTable) (rounds : Nat) (id : DeclId) (args : List Value) :
    CallsMatch (visibly options.tracing.hooks).terms (SameVisible options.tracing.hooks)
      (same (SameVisible options.tracing.hooks))
      ((ofModule m (hosts.withHooks options.tracing.hooks)).callWithin rounds id args)
      ((ofModule m' (hosts.withHooks options.tracing.hooks)).callWithin rounds id args) := by
  obtain ⟨removed, hrun⟩ := h.outcome
  obtain ⟨keys, hsearch, rfl⟩ := of_run hrun
  have hkeys := traceCalls_of_search hsearch
  have hplain : Plain keys (filesNodes m.files) := plain_of_isPlain hkeys h.calls
  have halike := alike_of_forall₂ (fun _ _ hr => Reworked.alike hr) (decls_pruned hplain)
    (symbols_pruned hplain) (hosts.withHooks options.tracing.hooks) {} {}
  refine Interpreter.callWithin_matches (K := visibly options.tracing.hooks) (i := ()) halike
    (fun args span => ?_) args
  refine runWithin_matches (fun _ => True) halike rounds
    (fun _ _ _ _ _ args _ _ hl => sameVisible_cons _ hl) ?_ maxCallDepth () id trivial args span
  intro runner runner' hcalls id head info ps ps' body body' hp hq _ args
  have hside : SideBySide options.tracing.hooks keys
      ⟨id, rounds, {}, (ofModule m (hosts.withHooks options.tracing.hooks)).invoke runner⟩
      ⟨id, rounds, {}, (ofModule { m with files := (filesPrune keys m.files).1 }
        (hosts.withHooks options.tracing.hooks)).invoke runner'⟩ :=
    { rounds := rfl
      observer := rfl
      observer' := rfl
      call := fun id => hcalls () id trivial
      tells := fun key hkey name span => h.tells hosts (hkeys key hkey) runner name span }
  -- The two declarations that a call finds belong together: one was pruned to the other, or it is
  -- external and stayed.
  have hrel : Option.Rel (Reworked keys m) (some (.function head info ps body))
      (some (.function head info ps' body')) := by
    rw [← hp, ← hq]
    exact decl?_of_forall₂ (fun _ _ hr => Reworked.alike hr) (decls_pruned hplain) _ id
  cases hrel with
  | some hd =>
    obtain ⟨hown, hcode, hd⟩ | hd := hd
    · rw [prunedDecl_function] at hd
      injection hd with _ _ hps hbody
      subst hps hbody
      exact hside.runFunction_pruned rfl (hspares keys hsearch _ hown) hcode args
    · injection hd with _ _ hps hbody
      subst hps hbody
      exact hside.runFunction_same rfl info _ _ args

end Succeeds

end Removal

section

variable {options : Options} {sources : Source.Provider} {m m' : Module} {env : PassEnv}

/-- **Removal keeps the meaning of programs.** However many rounds loops may take, a call of the
program before and of what is left of it end in the same way: with the same value, with the same
error, or both cut short. The host calls that no hook made are the same. -/
theorem removal_preserves_meaning (h : Removal.Succeeds options sources m env m')
    (hspares : Removal.Spares env m) (hosts : HostTable) (rounds : Nat) (id : DeclId)
    (args : List Value) :
    ((ofModule m' (hosts.withHooks options.tracing.hooks)).callWithin rounds id args {}).1 =
      ((ofModule m (hosts.withHooks options.tracing.hooks)).callWithin rounds id args {}).1 ∧
    visible options.tracing.hooks
        ((ofModule m' (hosts.withHooks options.tracing.hooks)).callWithin rounds id args {}).2.log =
      visible options.tracing.hooks
        ((ofModule m (hosts.withHooks options.tracing.hooks)).callWithin rounds id args {}).2.log := by
  obtain ⟨o, l, hbefore, hright⟩ :=
    h.callWithin_matches hspares hosts rounds id args [] [] [] [] rfl rfl
  rw [show (ofModule m _).callWithin rounds id args {} = _ from hbefore]
  obtain hexcused | ⟨o', k, hafter, hag⟩ := hright
  · cases o <;> exact hexcused.elim
  · rw [show (ofModule m' _).callWithin rounds id args {} = _ from hafter]
    obtain ⟨rfl, hvisible⟩ := hag.outcome_eq fun _ _ hl => hl
    exact ⟨rfl, hvisible.symm⟩

end

/-! ## Small programs -/

namespace Removal.Sample

open TraceWeave.Sample (span hook)

/-- Trace hooks that are called by hand, and a function that the host provides. -/
def runtime : List SourceFile :=
  [{ id := ⟨1⟩, path := "Tracer.kt", package := "spyglass.trace.Tracer",
     declarations := [hook 100 "spanEnter", hook 101 "spanLeave", hook 102 "event"] },
   { id := ⟨2⟩, path := "Console.kt", declarations := [hook 103 "println"] }]

def ofFunctions (functions : List Decl) : Module where
  name := "sample"
  files := [{ id := ⟨0⟩, path := "Main.kt", declarations := functions }]
  external := runtime

/-- A call of the hook for events. -/
def event (start : Int32) (receiver : Option Expr) : Stmt :=
  .expr (.call ⟨span start, .unit⟩ ⟨102⟩ receiver [] [some (.ofString (span (start + 1)) "seen")])

def spanEnter (start : Int32) : Stmt :=
  .expr (.call ⟨span start, .unit⟩ ⟨100⟩ none [] [some (.ofString (span (start + 1)) "work")])

/-- A call that prints a number. -/
def println (start : Int32) (n : Int32) : Expr :=
  .call ⟨span start, .unit⟩ ⟨103⟩ none [] [some (.ofInt (span (start + 1)) n)]

/-- A function that prints, and tells an event at its end. -/
def note : Decl :=
  .function { id := ⟨1⟩, span := span 30 } { name := "note", returnTy := .unit } []
    (.block [.expr (println 31 7), event 33 none])

/-- A function that tells an event, and returns what a block comes to in which a span starts. -/
def main : Decl :=
  .function { id := ⟨0⟩, span := span 1 } { name := "main", returnTy := .int } []
    (.block [event 2 none, .expr (.call ⟨span 4, .unit⟩ ⟨1⟩ none [] []),
      .expr (.ofReturn (span 5) (.function ⟨0⟩) (.block ⟨span 6, .int⟩
        [event 7 none, spanEnter 9, .expr (.ofInt (span 11) 5)]))])

/-- A function that returns what a block comes to that has an event at its end. -/
def valued : Decl :=
  .function { id := ⟨0⟩, span := span 1 } { name := "main", returnTy := .any } []
    (.expression (.block ⟨span 2, .unit⟩ [.expr (.ofInt (span 3) 5), event 4 none]))

/-- A function that tells an event of what it prints. -/
def received : Decl :=
  .function { id := ⟨0⟩, span := span 1 } { name := "main", returnTy := .unit } []
    (.block [event 2 (some (println 4 7))])

/-- Spans are active everywhere, and events nowhere. -/
def options : Options where
  tracing := { defaultTypes := [.spanEnter] }

/-- The environment that passes over functions next to `runtime` have. -/
def envOf (functions : List Decl) : PassEnv where
  options := options
  symbols := SymbolTable.build (ofFunctions functions)
  linkage := { hooks := [(.spanEnter, ⟨100⟩), (.spanLeave, ⟨101⟩), (.event, ⟨102⟩)] }
  factory := { symbols := SymbolTable.build (ofFunctions functions), sources := default,
               moduleName := "sample" }

/-- What is left of functions. -/
def left (functions : List Decl) : Module :=
  match run (envOf functions) (ofFunctions functions) with
  | .ok (m, _) => m
  | .error _ => default

/-- A call of the main function, with hooks and a host that prints. -/
def runMain (m : Module) : Outcome Value × Machine :=
  (ofModule m (HostTable.withHooks [("println", .print)] options.tracing.hooks)).callWithin 1 ⟨0⟩ [] {}

theorem succeeds (functions : List Decl)
    (build : PassEnv.build options default (ofFunctions functions) = .ok (envOf functions))
    (ids : (ofFunctions functions).declIds.Nodup)
    (calls : ∀ n ∈ filesNodes (ofFunctions functions).files, isPlain (envOf functions) n)
    (outcome : (run (envOf functions) (ofFunctions functions)).isOk) :
    Succeeds options default (ofFunctions functions) (envOf functions) (left functions) where
  build := build
  ids := ids
  calls := calls
  outcome := by
    obtain ⟨⟨m', removed⟩, hrun⟩ := Except.exists_ok outcome
    exact ⟨removed, by rw [left, hrun]⟩

theorem spares : Spares (envOf [main, note]) (ofFunctions [main, note]) := by
  intro keys hkeys d hd
  have hall : (match search (envOf [main, note]) (ofFunctions [main, note]) with
      | .ok keys => (declsOf (filesNodes (ofFunctions [main, note]).files)).all (·.spared keys)
      | .error _ => true) = true := by decide +kernel
  rw [hkeys] at hall
  exact List.all_eq_true.mp hall d hd

theorem events_removed :
    (runMain (left [main, note])).1 = .done (.int 5) ∧
      visible options.tracing.hooks (runMain (left [main, note])).2.log =
        [⟨"println", [.int 7]⟩] := by
  have hsucceeds := succeeds [main, note] rfl (by decide +kernel) (by decide +kernel)
    (by decide +kernel)
  obtain ⟨hvalue, hvisible⟩ :=
    removal_preserves_meaning hsucceeds spares [("println", .print)] 1 ⟨0⟩ []
  unfold runMain
  rw [hvalue, hvisible]
  decide +kernel

/-- A removed call at the end of a block whose value is used shows the value before it, and a
removed call with a receiver takes along what the receiver does. -/
theorem results_changed :
    (Succeeds options default (ofFunctions [valued]) (envOf [valued]) (left [valued]) ∧
      (runMain (ofFunctions [valued])).1 = .done .unit ∧
      (runMain (left [valued])).1 = .done (.int 5)) ∧
    ((ofFunctions [received]).declIds.Nodup ∧
      (run (envOf [received]) (ofFunctions [received])).isOk ∧
      visible options.tracing.hooks (runMain (ofFunctions [received])).2.log =
        [⟨"println", [.int 7]⟩] ∧
      visible options.tracing.hooks (runMain (left [received])).2.log = []) := by
  refine ⟨⟨?_, by decide +kernel⟩, by decide +kernel⟩
  exact succeeds [valued] rfl (by decide +kernel) (by decide +kernel) (by decide +kernel)

end Removal.Sample

end TraceWeave

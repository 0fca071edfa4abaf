import TraceWeave.Proofs.Dispatch.Requests
import TraceWeave.Proofs.Program.Rebuilding
import TraceWeave.Proofs.Program.Watching

/-! # What dispatch leaves of a module

A run of dispatch that succeeds has replaced every call of an accepted intrinsic, those in the
arguments of others too, and nothing else. A run that fails has replaced some of them, and nothing
else either: no result of the wrong shape gets into the program, whatever the handlers are.

`Dispatch.Replaced` relates an expression to what is made of it, and
`Dispatch.accepted_calls_are_replaced` is about whole runs. A result of the wrong shape makes the
visit fail (`Dispatch.failure_of_shape`).
-/

namespace TraceWeave.Dispatch

section

variable {registry : Registry} {env : PassEnv}

/-- An expression and what dispatch makes of it: a call of an accepted intrinsic becomes what the
handler of its kind resolves it to, in the form that the kind promises. -/
def Replaced (registry : Registry) (env : PassEnv) (sc : ScopeStack) (e e' : Expr) : Prop :=
  match env.request? e with
  | none => e' = e
  | some call => ∃ handler s resolved t, registry call.kind = some handler ∧
      (handler call sc env).runOn s = (.ok resolved, t) ∧
        e' = resolved.toExpr call.site ∧ call.kind.shape.Form call.site e'

/-- The moments of a run of dispatch. -/
def moments (registry : Registry) (env : PassEnv) (m : Module) (store : Store) :
    List (Moment PassState) :=
  filesMoments (dispatcher registry env) m.files { ids := m.ids, store }

/-! ## What a visit puts in place -/

theorem Visited.replaces {sc : ScopeStack} {e : Expr} {st : PassState} {r : Expr × PassState}
    (h : Visited registry env sc e st r) (hr : r.2.failure = none) :
    Replaced registry env sc e r.1 := by
  unfold Replaced
  cases h with
  | halted err hst => exact nomatch hst.symm.trans hr
  | spared hst he => rw [he]
  | replaced hst call he resolved t hresolve =>
    obtain ⟨handler, hhandler, hrun, hshape⟩ := of_resolve hresolve
    rw [he]
    exact ⟨handler, st.store, resolved, t, hhandler, hrun, rfl, Resolved.form hshape call.site⟩
  | refused hst call he err t hresolve => cases hr

/-- In a pass that fails, a visit may have left the expression alone. -/
theorem Visited.replaces_or {sc : ScopeStack} {e : Expr} {st : PassState} {r : Expr × PassState}
    (h : Visited registry env sc e st r) : r.1 = e ∨ Replaced registry env sc e r.1 := by
  cases h with
  | halted | spared | refused => exact .inl rfl
  | replaced hst call he resolved t hresolve =>
    exact .inr ((Visited.replaced hst call he resolved t hresolve).replaces hst)

theorem dispatcher_rebuilds :
    (dispatcher registry env).Rebuilds (fun st => st.failure = none) (Replaced registry env) where
  handsBack := dispatcher_handsBack
  onExpr _ _ _ _ h := visited.replaces h
  onDecl _ _ _ := rfl

theorem dispatcher_rebuilds_or :
    (dispatcher registry env).Rebuilds (fun _ => True)
      fun sc e e' => e' = e ∨ Replaced registry env sc e e' where
  handsBack := ⟨fun _ _ _ _ _ => trivial, fun _ _ _ _ => trivial⟩
  onExpr _ _ _ _ _ := visited.replaces_or
  onDecl _ _ _ := rfl

/-- An expression that is no request calls no accepted intrinsic. -/
theorem acceptedKind?_of_request? {callee : DeclId} : ∀ {e : Expr}, env.request? e = none →
    e.callee? = some callee → env.acceptedKind? callee = none
  | .call _ _ _ _ _, he, rfl => Option.map_eq_none_iff.mp he

/-- What takes the place of an expression is no request, and calls no accepted intrinsic. -/
theorem replaced_keepsCalls :
    KeepsCalls (Replaced registry env) fun callee => env.acceptedKind? callee = none := by
  intro sc e e' h hbelow
  unfold Replaced at h
  cases he : env.request? e with
  | none =>
    rw [he] at h
    subst h
    intro callee hcallee
    rw [Expr.nodes_eq_cons, calleesOf_expr, List.mem_append] at hcallee
    obtain hcallee | hcallee := hcallee
    · exact acceptedKind?_of_request? he (Option.mem_toList.mp hcallee)
    · exact hbelow callee hcallee
  | some call =>
    rw [he] at h
    obtain ⟨-, -, -, -, -, -, -, hform⟩ := h
    obtain ⟨hnodes, hcallee⟩ := hform.nodes
    intro callee hmem
    rw [hnodes, calleesOf_expr, hcallee] at hmem
    cases hmem

/-! ## What a visit counts -/

theorem countP_callee? (e : Expr) :
    e.callee?.toList.countP (fun callee => (env.acceptedKind? callee).isSome) =
      if (env.request? e).isSome then 1 else 0 := by
  cases e with
  | call site callee receiver typeArgs args =>
    simp only [Expr.callee?, PassEnv.request?, Option.toList_some, List.countP_singleton,
      Option.isSome_map]
  | _ => rfl

theorem dispatcher_tallies : (dispatcher registry env).Tallies (fun st => st.failure = none)
    (fun st => st.edits) fun callee => (env.acceptedKind? callee).isSome where
  handsBack := dispatcher_handsBack
  onExpr sc place e st h := by
    rw [countP_callee?]
    have hvisit : Visited registry env sc e st ((dispatcher registry env).onExpr sc place e st) :=
      visited
    generalize (dispatcher registry env).onExpr sc place e st = r at hvisit h
    cases hvisit with
    | halted err hst => exact nomatch hst.symm.trans h
    | spared hst he => rw [he]; rfl
    | replaced hst call he resolved t hresolve => rw [he]; rfl
    | refused hst call he err t hresolve => cases h
  onDecl _ _ _ := rfl

/-! ## What a visit keeps -/

theorem Visited.ids {sc : ScopeStack} {e : Expr} {st : PassState} {r : Expr × PassState}
    (h : Visited registry env sc e st r) : r.2.ids = st.ids := by
  cases h <;> rfl

theorem Visited.bodies {sc : ScopeStack} {e : Expr} {st : PassState} {r : Expr × PassState}
    (h : Visited registry env sc e st r) : r.2.bodies = st.bodies := by
  cases h <;> rfl

/-- A failure is the end of the pass. -/
theorem Visited.failure {sc : ScopeStack} {e : Expr} {st : PassState} {r : Expr × PassState}
    (h : Visited registry env sc e st r) {err : Error} (hst : st.failure = some err) :
    r.2.failure = some err := by
  cases h with
  | halted => exact hst
  | spared hnone | replaced hnone | refused hnone => exact nomatch hst.symm.trans hnone

/-- With the default handlers the pass fails as they do. -/
theorem Visited.defaults {sc : ScopeStack} {e : Expr} {st : PassState} {r : Expr × PassState}
    (h : Visited Handlers.defaults env sc e st r)
    (hst : ∀ err, st.failure = some err → err.isOfIntrinsic) :
    ∀ err, r.2.failure = some err → err.isOfIntrinsic := by
  cases h with
  | halted | spared | replaced => exact hst
  | refused hnone call he err t hresolve =>
    rintro _ ⟨⟩
    exact resolve_defaults_fails env sc call _ _ _ hresolve

theorem dispatcher_upholds {lasting : PassState → Prop}
    (h : ∀ sc e st r, Visited registry env sc e st r → lasting st → lasting r.2) :
    (dispatcher registry env).Upholds lasting :=
  ⟨fun _ _ _ _ hst => h _ _ _ _ visited hst, fun _ _ _ hst => hst⟩

/-- A visit that fails in the midst of a run makes the run fail. -/
theorem outcome_of_moment {m : Module} {store : Store} {now : Moment PassState} {err : Error}
    (hnow : now ∈ moments registry env m store)
    (h : (now.visit (dispatcher registry env)).2.failure = some err) :
    (run registry env m store).outcome = .error err := by
  have hstays : (dispatcher registry env).Upholds fun st => st.failure = some err :=
    dispatcher_upholds fun _ _ _ _ hvisit hst => hvisit.failure hst
  have hfailure := lasting_of_moment hstays hnow h
  simp only [run, Module.runVisitor, PassResult.ofWalk, hfailure]

/-- A handler's result of another shape makes the visit fail. -/
theorem failure_of_shape {now : Moment PassState} (hnow : now.state.failure = none)
    {call : IntrinsicCall} (hcall : env.request? now.expr = some call) {handler : Handler}
    (hhandler : registry call.kind = some handler) {resolved : Resolved} {t : Store}
    (hrun : (handler call now.scopes env).runOn now.state.store = (.ok resolved, t))
    (hshape : resolved.shape? ≠ some call.kind.shape) :
    (now.visit (dispatcher registry env)).2.failure =
      some (.shapeMismatch call.kind.name call.kind.shape.name resolved.shapeName) := by
  have hresolve := resolve_of_shape hhandler hrun hshape
  have hvisit : Visited registry env now.scopes now.expr now.state
      (now.visit (dispatcher registry env)) := visited
  generalize now.visit (dispatcher registry env) = r at hvisit
  cases hvisit with
  | halted err hst => exact nomatch hst.symm.trans hnow
  | spared _ he => exact nomatch he.symm.trans hcall
  | replaced _ call' he resolved' t' h =>
    cases hcall.symm.trans he
    exact nomatch hresolve.symm.trans h
  | refused _ call' he err t' h =>
    cases hcall.symm.trans he
    cases hresolve.symm.trans h
    rfl

/-! ## Runs -/

/-- Dispatch replaces exactly the calls of accepted intrinsics, whatever the handlers are. A run that
succeeds has rebuilt the files with each such call replaced, has changed nothing else, has left none
of them, and reports how many there were. No run puts anything else into the files. A result of the
wrong shape makes the run fail with an error that says so, and with the default handlers there is
no such error. -/
theorem accepted_calls_are_replaced (registry : Registry) (env : PassEnv) (m : Module)
    (store : Store) :
    (∀ n, (run registry env m store).outcome = .ok n →
      filesRebuilt (Replaced registry env) m.files (run registry env m store).module.files ∧
      (∀ callee ∈ calleesOf (filesNodes (run registry env m store).module.files),
        env.acceptedKind? callee = none) ∧
      n = (calleesOf (filesNodes m.files)).countP fun callee =>
        (env.acceptedKind? callee).isSome) ∧
    filesRebuilt (fun sc e e' => e' = e ∨ Replaced registry env sc e e') m.files
      (run registry env m store).module.files ∧
    (run registry env m store).module =
      { m with files := (run registry env m store).module.files } ∧
    (∀ now ∈ moments registry env m store, now.state.failure = none →
      ∀ call, env.request? now.expr = some call →
        ∀ handler, registry call.kind = some handler →
          ∀ resolved t, (handler call now.scopes env).runOn now.state.store = (.ok resolved, t) →
            resolved.shape? ≠ some call.kind.shape →
              (run registry env m store).outcome = .error (.shapeMismatch call.kind.name
                call.kind.shape.name resolved.shapeName)) ∧
    (registry = Handlers.defaults → ∀ intrinsic expected found,
      (run registry env m store).outcome ≠ .error (.shapeMismatch intrinsic expected found)) := by
  refine ⟨fun n hn => ?_, ?_, ?_, ?_, ?_⟩
  · have hfailure := Module.failure_of_runVisitor hn
    have hrebuilt := filesWalk_rebuilds dispatcher_rebuilds m.files _ hfailure
    refine ⟨hrebuilt, files_rebuilt_calls replaced_keepsCalls hrebuilt, ?_⟩
    obtain ⟨-, hcount⟩ := filesWalk_counts dispatcher_tallies m.files _ hfailure
    -- The number reported is that of rewritten calls and bodies, and dispatch rewrites no body.
    have hstays : (dispatcher registry env).Upholds fun st => st.bodies = 0 :=
      dispatcher_upholds fun _ _ _ _ hvisit hst => hvisit.bodies.trans hst
    have hbodies := filesWalk_upholds hstays m.files { ids := m.ids, store } rfl
    simp only [run, Module.runVisitor, PassResult.ofWalk, hfailure] at hn
    cases hn
    rw [hbodies]
    exact hcount.trans (Nat.zero_add _)
  · exact filesWalk_rebuilds dispatcher_rebuilds_or m.files _ trivial
  · have hstays : (dispatcher registry env).Upholds fun st => st.ids = m.ids :=
      dispatcher_upholds fun _ _ _ _ hvisit hst => hvisit.ids.trans hst
    have hids := filesWalk_upholds hstays m.files { ids := m.ids, store } rfl
    simp only [run, Module.runVisitor, PassResult.ofWalk, hids]
  · intro now hnow hst call hcall handler hhandler resolved t hrun hshape
    exact outcome_of_moment hnow (failure_of_shape hst hcall hhandler hrun hshape)
  · rintro rfl intrinsic expected found houtcome
    have hstays : (dispatcher Handlers.defaults env).Upholds fun st =>
        ∀ err, st.failure = some err → err.isOfIntrinsic :=
      dispatcher_upholds fun _ _ _ _ hvisit hst => hvisit.defaults hst
    -- The default handlers fail only with errors of their own, and a wrong shape is none of them.
    have hfails := filesWalk_upholds hstays m.files { ids := m.ids, store }
      fun _ hnone => absurd hnone (Option.some_ne_none _).symm
    simp only [run, Module.runVisitor, PassResult.ofWalk] at houtcome
    split at houtcome
    · rename_i err herr
      cases houtcome
      exact absurd (hfails _ herr) Bool.false_ne_true
    · cases houtcome

end

/-! ### Calls inside calls -/

namespace NestedSample

def span (start : Int32) : Span := ⟨⟨0⟩, start, start⟩

def locationTy : Ty := .ofClass "spyglass.SourceLocation"

def intrinsic (id : UInt32) (name : String) (returnTy : Ty) : Decl :=
  .function
    { id := ⟨id⟩, span := .undefined ⟨1⟩, origin := .library,
      annotations := [{ className := "spyglass.Intrinsic", span := .undefined ⟨1⟩ }] }
    { name, returnTy } [] .absent

def library : SourceFile :=
  { id := ⟨1⟩, path := "Spyglass.kt", package := "spyglass",
    declarations := [intrinsic 100 "here" locationTy, intrinsic 101 "currentLine" .int,
      intrinsic 102 "currentFile" .string] }

def hereCall (start : Int32) : Expr := .call ⟨span start, locationTy⟩ ⟨100⟩ none [] []

/-- A line number that is asked for with a location as its argument. -/
def nestedCall (start : Int32) : Expr :=
  .call ⟨span start, .int⟩ ⟨101⟩ none [] [some (hereCall (start + 1))]

def fileCall (start : Int32) : Expr := .call ⟨span start, .string⟩ ⟨102⟩ none [] []

/-- A function with a location as a default value, that evaluates a line number and the name of its
file. -/
def main : Decl :=
  .function { id := ⟨0⟩, span := span 1 } { name := "main", returnTy := .string }
    [⟨{ id := ⟨0⟩, name := "at", ty := locationTy, span := span 2 }, some (hereCall 3)⟩]
    (.block [.expr (nestedCall 4), .expr (fileCall 6)])

def program : Module where
  name := "sample"
  files := [{ id := ⟨0⟩, path := "Main.kt", declarations := [main] }]
  external := [library]
  ids := { nextDecl := 200, nextVar := 200, nextBlock := 200 }

/-- Names of files are not accepted. -/
def options : Options where
  intrinsics := { kinds := [.here, .currentLine] }

def env : PassEnv where
  options := options
  symbols := SymbolTable.build program
  linkage :=
    { intrinsicKinds := [(⟨100⟩, .here), (⟨101⟩, .currentLine), (⟨102⟩, .currentFile)] }
  factory := { symbols := SymbolTable.build program, sources := default, moduleName := "sample" }

/-- Handlers that take every intrinsic for a number. -/
def numbers : Registry := fun _ => some fun _ _ _ => pure (.int 3)

/-- The moments when a location is asked for and nothing has gone wrong yet. -/
def asksForLocation (now : Moment PassState) : Bool :=
  now.state.failure.isNone && (env.request? now.expr).map (·.kind) == some .here

end NestedSample

open NestedSample in
/-- The default handlers resolve the three calls of accepted intrinsics, one of them in the argument
of another, and leave the fourth call alone. A number in the place of a location is an error. -/
theorem NestedSample.three_calls_replaced :
    filesRebuilt (Replaced Handlers.defaults env) program.files
        (run Handlers.defaults env program {}).module.files ∧
      calleesOf (filesNodes program.files) = [⟨100⟩, ⟨101⟩, ⟨100⟩, ⟨102⟩] ∧
      calleesOf (filesNodes (run Handlers.defaults env program {}).module.files) = [⟨102⟩] ∧
      (∀ found, (run Handlers.defaults env program {}).outcome ≠
        .error (.shapeMismatch "here" "source location" found)) ∧
      (run numbers env program {}).outcome =
        .error (.shapeMismatch "here" "source location" "integer") := by
  obtain ⟨hok, -, -, -, hdefaults⟩ := accepted_calls_are_replaced Handlers.defaults env program {}
  obtain ⟨-, -, -, hmismatch, -⟩ := accepted_calls_are_replaced numbers env program {}
  have hrun : (run Handlers.defaults env program {}).outcome = .ok 3 := by decide +kernel
  obtain ⟨hrebuilt, -, -⟩ := hok 3 hrun
  refine ⟨hrebuilt, by decide +kernel, by decide +kernel, fun found => hdefaults rfl _ _ _, ?_⟩
  -- the location that is the default value is asked for first
  have hsome : ((moments numbers env program {}).find? asksForLocation).isSome := by decide +kernel
  obtain ⟨now, hnow⟩ := Option.isSome_iff_exists.mp hsome
  have hasks := List.find?_some hnow
  unfold asksForLocation at hasks
  obtain ⟨hwell, hkind⟩ := Bool.and_eq_true_iff.mp hasks
  obtain ⟨call, hcall, hhere⟩ := Option.map_eq_some_iff.mp (beq_iff_eq.mp hkind)
  have hresult := hmismatch now (List.mem_of_find?_eq_some hnow) (Option.isNone_iff_eq_none.mp hwell)
    call hcall _ rfl (.int 3) now.state.store rfl (by rw [hhere]; decide)
  rw [hhere] at hresult
  exact hresult

end TraceWeave.Dispatch

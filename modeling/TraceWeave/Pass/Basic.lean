import TraceWeave.Factory.Declarations
import TraceWeave.Linkage
import TraceWeave.Pass.Walk

/-! # Passes

What a pass reads besides the program, and the state that it carries through a walk. A failure
ends the work of a pass: from then on it leaves every node and the rest of its state alone.

`PassEnv` is what is read and `PassState` what is carried; `PassState.edit` is one step of a pass,
and `Module.runVisitor` a whole walk, whose end is a `PassResult`. A walk that counts its changes
has met no failure (`Module.failure_of_runVisitor`).
-/

namespace TraceWeave

/-- What a pass reads besides the program. -/
structure PassEnv where
  options : Options
  symbols : SymbolTable
  linkage : Linkage
  factory : Factory

namespace PassEnv

/-- The environment for a module as it stands. -/
def build (options : Options) (sources : Source.Provider) (m : Module) : Except Error PassEnv := do
  let symbols := SymbolTable.build m
  let linkage ← Linkage.build symbols options
  let moduleName := options.moduleName.getD m.name
  return { options, symbols, linkage, factory := { symbols, sources, moduleName } }

theorem build_eq_ok {options : Options} {sources : Source.Provider} {m : Module} {env : PassEnv}
    (h : build options sources m = .ok env) :
    env.options = options ∧ env.symbols = SymbolTable.build m ∧
      Linkage.build (SymbolTable.build m) options = .ok env.linkage := by
  unfold build at h
  cases hl : Linkage.build (SymbolTable.build m) options with
  | error e =>
    simp only [hl] at h
    exact nomatch h
  | ok l =>
    simp only [hl] at h
    cases h
    exact ⟨rfl, rfl, rfl⟩

end PassEnv

/-- The state of a pass. -/
structure PassState where
  ids : IdAllocator
  store : Store
  /-- How many expressions were changed. -/
  edits : Nat := 0
  /-- How many function bodies were changed. -/
  bodies : Nat := 0
  failure : Option Error := none
  deriving Inhabited

namespace PassState

/-- Records a failure. -/
def fail (st : PassState) (e : Error) : PassState := { st with failure := some e }

/-- Runs a step on the descriptors of a pass. -/
def onStore {α : Type} (step : Build Store α) : Build PassState α := fun st =>
  let (result, store) := step.runOn st.store
  (result, { st with store })

/-- Replaces a node by the outcome of a step. Once a pass has failed, nothing is replaced. -/
def edit {α : Type} (step : α → PassState → α × PassState) (node : α) (st : PassState) :
    α × PassState :=
  if st.failure.isSome then (node, st) else step node st

section

variable {α : Type} {step : α → PassState → α × PassState} {node : α} {st : PassState}

theorem edit_of_none (h : st.failure = none) : edit step node st = step node st := by
  rw [edit, h, Option.isSome_none, if_neg Bool.false_ne_true]

theorem edit_of_some {e : Error} (h : st.failure = some e) : edit step node st = (node, st) := by
  rw [edit, h, Option.isSome_some, if_pos rfl]

/-- A step that hands a node back does so whether or not the pass has failed. -/
theorem edit_self (h : step node st = (node, st)) : edit step node st = (node, st) := by
  rw [edit, h, ite_self]

/-- A pass that has not failed behind a node had not failed before it and has worked on the node. -/
theorem of_edit (h : (edit step node st).2.failure = none) :
    st.failure = none ∧ edit step node st = step node st := by
  cases hfailure : st.failure with
  | none => exact ⟨rfl, edit_of_none hfailure⟩
  | some e =>
    rw [edit_of_some hfailure] at h
    cases hfailure.symm.trans h

end

end PassState

/-- What became of a module in a pass: how much changed, or why the pass failed. In either case
the module is as the pass left it. -/
structure PassResult where
  outcome : Except Error Nat
  module : Module
  store : Store

namespace PassResult

/-- The result of a pass whose walk ended in a state. -/
def ofWalk (m : Module) (files : List SourceFile) (st : PassState) : PassResult :=
  { outcome := match st.failure with
      | some e => .error e
      | none => .ok (st.edits + st.bodies)
    module := { m with files, ids := st.ids }
    store := st.store }

end PassResult

/-- Runs a visitor over the own files of a module. -/
def Module.runVisitor (m : Module) (v : Visitor PassState) (store : Store) : PassResult :=
  let (files, st) := filesWalk v m.files { ids := m.ids, store }
  .ofWalk m files st

/-- A pass that succeeds has met no failure. -/
theorem Module.failure_of_runVisitor {m : Module} {v : Visitor PassState} {store : Store} {n : Nat}
    (h : (m.runVisitor v store).outcome = .ok n) :
    (filesWalk v m.files { ids := m.ids, store }).2.failure = none := by
  simp only [runVisitor, PassResult.ofWalk] at h
  cases hf : (filesWalk v m.files { ids := m.ids, store }).2.failure with
  | none => rfl
  | some e =>
    rw [hf] at h
    cases h

end TraceWeave

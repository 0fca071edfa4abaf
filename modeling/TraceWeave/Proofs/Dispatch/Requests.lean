import TraceWeave.Proofs.Factory.Failures
import TraceWeave.Proofs.Snapshot.Dispatched

/-! # One intrinsic call

Dispatch asks the handler of its kind about every call of an accepted intrinsic. A result of the
shape that the kind promises takes the place of the call; any other one is an error. The handlers
that are there by default come to results of the right shape, or fail for reasons of their own.

`PassEnv.request?` says which expressions are such calls, `Dispatch.Visited` what a visit comes
to. `ResultShape.Form` are the forms that results take, and `Handlers.ofKind_yields` says that the
default handlers keep to them.
-/

namespace TraceWeave

open Dispatch

/-- The kind that dispatch knows the calls of a function by, if it is an accepted intrinsic. -/
def PassEnv.acceptedKind? (env : PassEnv) (callee : DeclId) : Option IntrinsicKind :=
  (env.linkage.intrinsicKind? callee).filter env.options.accepts

/-- The call of an accepted intrinsic that an expression is. -/
def PassEnv.request? (env : PassEnv) : Expr → Option IntrinsicCall
  | .call site callee receiver typeArgs args =>
    (env.acceptedKind? callee).map fun kind => { kind, site, callee, receiver, typeArgs, args }
  | _ => none

/-- The forms of expression that intrinsics of a shape stand for. -/
inductive ResultShape.Form (site : Site) : ResultShape → Expr → Prop
  | location (h : Handle .location) : Form site .location (.descriptor site h.toRef)
  | type (h : Handle .typeInfo) : Form site .type (.descriptor site h.toRef)
  | classInfo (h : Handle .classInfo) : Form site .classInfo (.descriptor site h.toRef)
  | function (h : Handle .functionInfo) : Form site .function (.descriptor site h.toRef)
  | property (h : Handle .propertyInfo) : Form site .property (.descriptor site h.toRef)
  | snapshot (capture : FrameCapture) : Form site .snapshot (.captureFrame site capture)
  | int (value : Int32) : Form site .int (.ofInt site.span value)
  | string (value : String) : Form site .string (.ofString site.span value)

/-- A form has nothing below it, and calls nothing. -/
theorem ResultShape.Form.nodes {site : Site} {shape : ResultShape} {e : Expr}
    (h : shape.Form site e) : e.nodes = [.expr e] ∧ e.callee? = none := by
  cases h <;> exact ⟨rfl, rfl⟩

theorem Resolved.hasShape_iff {r : Resolved} {shape : ResultShape} :
    r.hasShape shape = true ↔ r.shape? = some shape := beq_iff_eq

/-- A result of a shape becomes an expression of a form of that shape. -/
theorem Resolved.form {r : Resolved} {shape : ResultShape} (h : r.shape? = some shape)
    (site : Site) : shape.Form site (r.toExpr site) := by
  cases r with
  | descriptor ref =>
    obtain ⟨kind, index⟩ := ref
    cases kind with
    | location =>
      cases h
      exact .location ⟨index⟩
    | typeInfo =>
      cases h
      exact .type ⟨index⟩
    | classInfo =>
      cases h
      exact .classInfo ⟨index⟩
    | functionInfo =>
      cases h
      exact .function ⟨index⟩
    | propertyInfo =>
      cases h
      exact .property ⟨index⟩
    | fieldInfo | localInfo | parameterInfo => cases h
  | snapshot capture =>
    cases h
    exact .snapshot capture
  | int value =>
    cases h
    exact .int value
  | string value =>
    cases h
    exact .string value

/-! ## What a visit does -/

namespace Dispatch

variable {registry : Registry} {env : PassEnv} {sc : ScopeStack} {place : Place} {e : Expr}
  {st : PassState} {call : IntrinsicCall} {s t : Store} {resolved : Resolved}

/-- What a visit of an expression comes to. -/
inductive Visited (registry : Registry) (env : PassEnv) (sc : ScopeStack) (e : Expr)
    (st : PassState) : Expr × PassState → Prop
  /-- The pass has failed before. -/
  | halted (err : Error) (h : st.failure = some err) : Visited registry env sc e st (e, st)
  /-- There is nothing to resolve. -/
  | spared (hst : st.failure = none) (he : env.request? e = none) :
    Visited registry env sc e st (e, st)
  | replaced (hst : st.failure = none) (call : IntrinsicCall) (he : env.request? e = some call)
    (resolved : Resolved) (t : Store)
    (h : (resolve registry env sc call).runOn st.store = (.ok resolved, t)) :
    Visited registry env sc e st
      (resolved.toExpr call.site, { st with store := t, edits := st.edits + 1 })
  | refused (hst : st.failure = none) (call : IntrinsicCall) (he : env.request? e = some call)
    (err : Error) (t : Store)
    (h : (resolve registry env sc call).runOn st.store = (.error err, t)) :
    Visited registry env sc e st (e, { st with store := t, failure := some err })

theorem request?_of_callee? (h : e.callee? = none) : env.request? e = none := by
  cases e with
  | call => exact absurd h (Option.some_ne_none _)
  | _ => rfl

theorem visited : Visited registry env sc e st ((dispatcher registry env).onExpr sc place e st) := by
  -- A pass that has failed does nothing. Otherwise the expression calls no accepted intrinsic, or
  -- the handler refuses, or its result takes the place of the call.
  cases hst : st.failure with
  | some err =>
    simp only [dispatcher, PassState.edit_of_some hst]
    exact .halted err hst
  | none =>
    simp only [dispatcher, PassState.edit_of_none hst]
    cases hcallee : e.callee? with
    | none =>
      have he : replaceCall registry env sc e st = (e, st) := by
        cases e with
        | call => exact absurd hcallee (Option.some_ne_none _)
        | _ => rfl
      rw [he]
      exact .spared hst (request?_of_callee? hcallee)
    | some callee =>
      obtain ⟨site, receiver, typeArgs, args, rfl⟩ :
          ∃ site receiver typeArgs args, e = .call site callee receiver typeArgs args := by
        cases e <;> cases hcallee
        exact ⟨_, _, _, _, rfl⟩
      rw [replaceCall]
      have hrequest : env.request? (.call site callee receiver typeArgs args) =
          ((env.linkage.intrinsicKind? callee).filter env.options.accepts).map fun kind =>
            ⟨kind, site, callee, receiver, typeArgs, args⟩ := rfl
      cases hkind : env.linkage.intrinsicKind? callee with
      | none =>
        rw [hkind] at hrequest
        exact .spared hst hrequest
      | some kind =>
        rw [hkind, Option.filter_some] at hrequest
        dsimp only
        by_cases haccepts : env.options.accepts kind
        · rw [if_pos haccepts] at hrequest ⊢
          rcases hrun : (resolve registry env sc
              ⟨kind, site, callee, receiver, typeArgs, args⟩).runOn st.store with ⟨err | resolved, t⟩
          · rw [show (PassState.onStore _).runOn st = (.error err, { st with store := t }) from
              congrArg (fun r : Except Error Resolved × Store => (r.1, { st with store := r.2 })) hrun]
            exact .refused hst _ hrequest err t hrun
          · rw [show (PassState.onStore _).runOn st = (.ok resolved, { st with store := t }) from
              congrArg (fun r : Except Error Resolved × Store => (r.1, { st with store := r.2 })) hrun]
            exact .replaced hst _ hrequest resolved t hrun
        · rw [if_neg haccepts] at hrequest ⊢
          exact .spared hst hrequest

/-- Where there is a handler, it is asked, and its result is checked. -/
theorem resolve_of_handler {handler : Handler} (h : registry call.kind = some handler) :
    (resolve registry env sc call).runOn s = (handler call sc env >>= fun resolved =>
      if resolved.hasShape call.kind.shape then pure resolved
      else Build.fail (.shapeMismatch call.kind.name call.kind.shape.name resolved.shapeName)
        ).runOn s := by
  unfold resolve
  rw [h]
  rfl

/-- A result of another shape than the kind promises is an error. -/
theorem resolve_of_shape {handler : Handler} (hhandler : registry call.kind = some handler)
    (h : (handler call sc env).runOn s = (.ok resolved, t))
    (hshape : resolved.shape? ≠ some call.kind.shape) :
    (resolve registry env sc call).runOn s =
      (.error (.shapeMismatch call.kind.name call.kind.shape.name resolved.shapeName), t) := by
  rw [resolve_of_handler hhandler, Build.runOn_bind_ok h,
    if_neg (mt Resolved.hasShape_iff.mp hshape)]
  rfl

end Dispatch

/-! ## The default handlers -/

/-- A step whose results have a property. -/
def Build.Yields {σ α : Type} (Q : α → Prop) (step : Build σ α) : Prop :=
  ∀ s a t, step.runOn s = (.ok a, t) → Q a

namespace Build.Yields

variable {σ α β : Type} {Q : β → Prop}

theorem pure {b : β} (h : Q b) : Yields Q (Pure.pure b : Build σ β) := by
  rintro s a t ⟨⟩
  exact h

theorem bind {step : Build σ α} {next : α → Build σ β} (h : ∀ a, Yields Q (next a)) :
    Yields Q (step >>= next) := by
  intro s b t hrun
  obtain ⟨a, u, -, ha⟩ := of_bind hrun
  exact h a u b t ha

end Build.Yields

namespace Handlers

open Build

theorem functionHash_yields (h : Handle .functionInfo) :
    (functionHash h).Yields fun r => r.shape? = some .int :=
  .bind fun _ => .bind fun _ => .pure rfl

theorem classHash_yields (h : Handle .classInfo) :
    (classHash h).Yields fun r => r.shape? = some .int :=
  .bind fun _ => .bind fun _ => .pure rfl

/-- The default handlers keep what the catalog promises. -/
theorem ofKind_yields (kind : IntrinsicKind) (c : IntrinsicCall) (sc : ScopeStack) (env : PassEnv) :
    (ofKind kind c sc env).Yields fun r => r.shape? = some kind.shape := by
  cases kind with
  | here | currentLine => exact .bind fun _ => .pure rfl
  | currentFile => exact .pure rfl
  | currentFunction | currentClass | classOf | typeOf | functionOf | functionOfHash | propertyOf
  | frameSnapshot => exact .bind fun _ => .bind fun _ => .pure rfl
  | currentFunctionHash => exact .bind fun _ => .bind fun h => functionHash_yields h
  | currentClassHash | classOfHash => exact .bind fun _ => .bind fun h => classHash_yields h

end Handlers

/-- With the default handlers no call fails for a result of the wrong shape. -/
theorem Dispatch.resolve_defaults_fails (env : PassEnv) (sc : ScopeStack) (call : IntrinsicCall) :
    (resolve Handlers.defaults env sc call).FailsWith (·.isOfIntrinsic) := by
  intro s err t h
  have hhandler : Handlers.defaults call.kind = some (Handlers.ofKind call.kind) := rfl
  rw [resolve_of_handler hhandler] at h
  obtain hfailed | ⟨resolved, u, hresolved, hchecked⟩ := Build.of_bind_error h
  · exact Handlers.ofKind_fails call call.kind sc env s err t hfailed
  · have hshape := Handlers.ofKind_yields call.kind call sc env s resolved u hresolved
    rw [if_pos (Resolved.hasShape_iff.mpr hshape)] at hchecked
    cases hchecked

end TraceWeave

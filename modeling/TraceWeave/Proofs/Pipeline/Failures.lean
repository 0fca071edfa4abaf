import TraceWeave.Proofs.Factory.Failures

/-! # Failures for want of a runtime declaration

Two steps ask for a declaration of the runtime library by name: a hook call, and the fresh
intrinsic call that fills an argument. No other step of a pass fails for want of one, whatever else
it may fail for.

`Error.isLinkage` picks out these failures. `Except.Linked` and `Build.Linked` say of a step that
it has none, and are put together like the steps.
-/

namespace TraceWeave

/-- Whether an error says that a declaration of the runtime library is missing. -/
def Error.isLinkage : Error → Bool
  | .linkage _ => true
  | _ => false

/-- A result that is no failure for want of a runtime declaration. -/
def Except.Linked {α : Type} (r : Except Error α) : Prop := ∀ e, r = .error e → e.isLinkage = false

namespace Except.Linked

variable {α β : Type}

theorem ok (a : α) : Linked (.ok a) := FailsWith.ok a

theorem error {e : Error} (he : e.isLinkage = false) : Linked (.error e : Except Error α) :=
  FailsWith.error he

theorem bind {r : Except Error α} {next : α → Except Error β} (h : Linked r)
    (hnext : ∀ a, Linked (next a)) : Linked (r >>= next) :=
  FailsWith.bind h hnext

theorem map {r : Except Error α} (f : α → β) (h : Linked r) : Linked (r.map f) :=
  FailsWith.map f h

end Except.Linked

theorem IntrinsicKind.linked_parse (text : String) : Except.Linked (parse text) := by
  unfold parse
  split
  · exact .ok _
  · exact .error rfl

/-- A step that does not fail for want of a runtime declaration. -/
def Build.Linked {σ α : Type} (step : Build σ α) : Prop :=
  ∀ s e t, step.runOn s = (.error e, t) → e.isLinkage = false

theorem Error.isLinkage_of_isState : ∀ {e : Error}, e.isState → e.isLinkage = false
  | .invalidState _, _ => rfl

theorem Error.isLinkage_of_isOfIntrinsic : ∀ {e : Error}, e.isOfIntrinsic → e.isLinkage = false
  | .invalidState _, _ | .notInScope _ _ _, _ | .invalidIntrinsicArgument _ _ _, _ => rfl

theorem Error.isLinkage_of_isConfig : ∀ {e : Error}, e.isConfig → e.isLinkage = false
  | .config _, _ => rfl

namespace Build.Linked

variable {σ α β : Type}

theorem pure (a : α) : Linked (Pure.pure a : Build σ α) := FailsWith.pure a

theorem fail {e : Error} (he : e.isLinkage = false) : Linked (Build.fail e : Build σ α) :=
  FailsWith.fail he

/-- What is there does not have to be looked for. -/
theorem require_some {value : Option α} {a : α} {e : Error} (h : value = some a) :
    Linked (Build.require value e : Build σ α) :=
  FailsWith.require_some h

theorem bind {step : Build σ α} {next : α → Build σ β} (h : Linked step)
    (hnext : ∀ a, Linked (next a)) : Linked (step >>= next) :=
  FailsWith.bind h hnext

theorem ofExcept_bind {r : Except Error α} {next : α → Build σ β} (h : Except.Linked r)
    (hnext : ∀ a, r = .ok a → Linked (next a)) : Linked (Build.ofExcept r >>= next) :=
  FailsWith.ofExcept_bind h hnext

/-- A step that is only taken on a condition may rely on it. -/
theorem onlyIf {condition : Bool} {step : Build σ α} (h : condition = true → Linked step) :
    Linked (Build.onlyIf condition step) :=
  FailsWith.onlyIf h

theorem onStore {step : Build Store α} (h : Linked step) : Linked (PassState.onStore step) :=
  FailsWith.onStore h

end Build.Linked

/-! ## Descriptors and intrinsics -/

theorem Factory.linked_location (f : Factory) (span : Span) : (f.location span).Linked :=
  (f.location_fails span).mono fun _ => Error.isLinkage_of_isState

theorem Factory.linked_functionInfo (f : Factory) (id : DeclId) : (f.functionInfo id).Linked :=
  (f.functionInfo_fails id).mono fun _ => Error.isLinkage_of_isState

theorem Factory.linked_executableInfo (f : Factory) (executable : Executable) :
    (f.executableInfo executable).Linked :=
  (f.executableInfo_fails executable).mono fun _ => Error.isLinkage_of_isState

theorem Handlers.linked_ofKind (c : IntrinsicCall) (kind : IntrinsicKind) (sc : ScopeStack)
    (env : PassEnv) : (ofKind kind c sc env).Linked :=
  (ofKind_fails c kind sc env).mono fun _ => Error.isLinkage_of_isOfIntrinsic

theorem Dispatch.linked_resolve (env : PassEnv) (sc : ScopeStack) (call : IntrinsicCall) :
    (resolve Handlers.defaults env sc call).Linked := by
  have hhandler : ((Handlers.ofKind call.kind call sc env) >>= fun resolved =>
      if resolved.hasShape call.kind.shape then return resolved
      else Build.fail (.shapeMismatch call.kind.name call.kind.shape.name resolved.shapeName)
      : Build Store Resolved).Linked := by
    refine (Handlers.linked_ofKind call call.kind sc env).bind fun resolved => ?_
    split
    · exact .pure _
    · exact .fail rfl
  -- the registry has a handler for every kind
  exact hhandler

/-! ## Trace types and runtime declarations -/

theorem linked_declaredTypes (o : Options) (annotations : List AnnotationUse) :
    Except.Linked (declaredTypes o annotations) :=
  (addTraced_fails _ _).mono fun _ => Error.isLinkage_of_isConfig

theorem linked_activeTypes (env : PassEnv) (sc : ScopeStack) : Except.Linked (activeTypes env sc) :=
  (addDeclared_fails _ _ _ _).mono fun _ => Error.isLinkage_of_isConfig

namespace Linkage

theorem linked_markedKind (markedBy : String) (s : Symbol) :
    Except.Linked (markedKind markedBy s) := by
  unfold markedKind
  split
  · exact .ok _
  · split
    · split
      · exact (IntrinsicKind.linked_parse _).map _
      · exact .error rfl
    · split
      · exact .ok _
      · exact .error rfl

theorem linked_addIntrinsics (markedBy : String) : ∀ (symbols : List Symbol) (l : Linkage),
    Except.Linked (addIntrinsics markedBy symbols l)
  | [], _ => .ok _
  | s :: rest, l => by
    have hkind := linked_markedKind markedBy s
    unfold addIntrinsics
    split
    · exact linked_addIntrinsics markedBy rest l
    · split
      · rename_i e he
        exact .error (hkind e he)
      · exact linked_addIntrinsics markedBy rest l
      · exact linked_addIntrinsics markedBy rest _

end Linkage

theorem PassEnv.linked_build (options : Options) (sources : Source.Provider) (m : Module) :
    Except.Linked (build options sources m) :=
  ((Linkage.linked_addIntrinsics _ _ _).bind fun _ => .ok _).bind fun _ => .ok _

end TraceWeave

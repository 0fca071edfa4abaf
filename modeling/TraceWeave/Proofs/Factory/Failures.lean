import TraceWeave.Pipeline

/-! # What descriptors and intrinsics fail with

Building a descriptor fails only because something is not in the state that it would have to be in.
Resolving an intrinsic call may also fail because nothing of its scope is around it, or because it
cannot take its arguments. Reading trace types off annotations fails only where the configuration is
wrong.

`Build.FailsWith` is the judgement, for one sort of errors at a time: `Error.isState`,
`Error.isOfIntrinsic`, `Error.isConfig`. The builders are covered by `Factory.within_fails`, the
handlers by `Handlers.ofKind_fails`.
-/

namespace TraceWeave

/-- Whether an error says that something is not in the state it would have to be in. -/
def Error.isState : Error → Bool
  | .invalidState _ => true
  | _ => false

/-- Whether resolving an intrinsic call may fail with an error. -/
def Error.isOfIntrinsic : Error → Bool
  | .invalidState _ | .notInScope _ _ _ | .invalidIntrinsicArgument _ _ _ => true
  | _ => false

/-- Whether an error says that the configuration is wrong. -/
def Error.isConfig : Error → Bool
  | .config _ => true
  | _ => false

theorem Error.isOfIntrinsic_of_isState : ∀ {e : Error}, e.isState → e.isOfIntrinsic
  | .invalidState _, _ => rfl

variable {P Q : Error → Prop}

/-- A result that is no failure but with an error of some sort. -/
def Except.FailsWith {α : Type} (P : Error → Prop) (r : Except Error α) : Prop :=
  ∀ e, r = .error e → P e

namespace Except.FailsWith

variable {α β : Type}

theorem ok (a : α) : FailsWith P (.ok a) := nofun

theorem error {e : Error} (he : P e) : FailsWith P (.error e : Except Error α) := by
  rintro _ ⟨⟩
  exact he

theorem bind {r : Except Error α} {next : α → Except Error β} (h : FailsWith P r)
    (hnext : ∀ a, FailsWith P (next a)) : FailsWith P (r >>= next) := by
  cases r with
  | error e => exact .error (h e rfl)
  | ok a => exact hnext a

theorem map {r : Except Error α} (f : α → β) (h : FailsWith P r) : FailsWith P (r.map f) := by
  cases r with
  | error e => exact .error (h e rfl)
  | ok a => exact .ok _

theorem mapM {f : α → Except Error β} (h : ∀ a, FailsWith P (f a)) :
    ∀ as : List α, FailsWith P (as.mapM f)
  | [] => by
    rw [List.mapM_nil]
    exact .ok []
  | a :: as => by
    rw [List.mapM_cons]
    exact (h a).bind fun _ => (mapM h as).bind fun _ => .ok _

theorem mono {r : Except Error α} (h : FailsWith P r) (hPQ : ∀ e, P e → Q e) : FailsWith Q r :=
  fun e he => hPQ e (h e he)

end Except.FailsWith

/-- A step that fails only with an error of some sort. -/
def Build.FailsWith {σ α : Type} (P : Error → Prop) (step : Build σ α) : Prop :=
  ∀ s e t, step.runOn s = (.error e, t) → P e

namespace Build.FailsWith

variable {σ α β : Type}

theorem pure (a : α) : FailsWith P (Pure.pure a : Build σ α) := by
  rintro s e t ⟨⟩

theorem fail {e : Error} (he : P e) : FailsWith P (Build.fail e : Build σ α) := by
  rintro s _ t ⟨⟩
  exact he

theorem ofExcept {r : Except Error α} (h : Except.FailsWith P r) :
    FailsWith P (Build.ofExcept r : Build σ α) := by
  rintro s e t ⟨⟩
  exact h e rfl

theorem require {value : Option α} {e : Error} (he : P e) :
    FailsWith P (Build.require value e : Build σ α) := by
  cases value with
  | none => exact .fail he
  | some a =>
    rintro s _ t ⟨⟩

/-- What is there does not have to be looked for. -/
theorem require_some {value : Option α} {a : α} {e : Error} (h : value = some a) :
    FailsWith P (Build.require value e : Build σ α) := by
  rw [h]
  exact .pure a

theorem mono {step : Build σ α} (h : FailsWith P step) (hPQ : ∀ e, P e → Q e) :
    FailsWith Q step :=
  fun s e t hrun => hPQ e (h s e t hrun)

/-- What a descriptor fails with, the intrinsic that it is built for may fail with. -/
theorem ofIntrinsic {step : Build σ α} (h : FailsWith (·.isState) step) :
    FailsWith (·.isOfIntrinsic) step :=
  h.mono fun _ => Error.isOfIntrinsic_of_isState

/-- What is looked for in the state that it has to be in. -/
theorem look {value : Option α} {detail : String} :
    FailsWith (·.isState) (Build.require value (.invalidState detail) : Build σ α) :=
  .require rfl

theorem bind {step : Build σ α} {next : α → Build σ β} (h : FailsWith P step)
    (hnext : ∀ a, FailsWith P (next a)) : FailsWith P (step >>= next) := by
  intro s e t hrun
  obtain hstep | ⟨a, u, -, ha⟩ := of_bind_error hrun
  · exact h s e t hstep
  · exact hnext a u e t ha

theorem ofExcept_bind {r : Except Error α} {next : α → Build σ β} (h : Except.FailsWith P r)
    (hnext : ∀ a, r = .ok a → FailsWith P (next a)) : FailsWith P (Build.ofExcept r >>= next) := by
  cases r with
  | error e =>
    rintro s _ t ⟨⟩
    exact h e rfl
  | ok a => exact hnext a rfl

theorem fail_bind {e : Error} {next : α → Build σ β} (he : P e) :
    FailsWith P (Build.fail e >>= next) := by
  rintro s _ t ⟨⟩
  exact he

theorem map {step : Build σ α} (f : α → β) (h : FailsWith P step) : FailsWith P (f <$> step) := by
  rw [map_eq_pure_bind]
  exact h.bind fun a => .pure (f a)

theorem mapM {f : α → Build σ β} (h : ∀ a, FailsWith P (f a)) :
    ∀ as : List α, FailsWith P (as.mapM f)
  | [] => by
    rw [List.mapM_nil]
    exact .pure []
  | a :: as => by
    rw [List.mapM_cons]
    exact (h a).bind fun _ => (mapM h as).bind fun _ => .pure _

theorem onSome {f : α → Build σ β} (h : ∀ a, FailsWith P (f a)) :
    ∀ value, FailsWith P (Factory.onSome f value)
  | none => .pure none
  | some a => (h a).bind fun _ => .pure _

/-- A step that is only taken on a condition may rely on it. -/
theorem onlyIf {condition : Bool} {step : Build σ α} (h : condition = true → FailsWith P step) :
    FailsWith P (Build.onlyIf condition step) := by
  cases condition with
  | false => exact .pure none
  | true => exact (h rfl).map some

theorem onStore {step : Build Store α} (h : FailsWith P step) :
    FailsWith P (PassState.onStore step) := by
  intro st e st' hrun
  rcases hstep : step.runOn st.store with ⟨result, t⟩
  unfold Build.runOn PassState.onStore at hrun
  rw [hstep] at hrun
  obtain ⟨rfl, -⟩ := Prod.mk.inj hrun
  exact h _ _ _ hstep

variable {k : DescriptorKind} {κ : Type} {part : Part σ (Arena k κ α)}

theorem settle (h : Handle k) (slot : Slot α) (change : Arena k κ α → Arena k κ α) :
    FailsWith (·.isState) (Arena.store part fun a => (change a).settle h slot) := by
  intro s e t hrun
  unfold Build.runOn Arena.store at hrun
  split at hrun
  · cases hrun
  · rename_i e' hsettle
    cases hrun
    change (change (part.get s)).settle h slot = .error e at hsettle
    unfold Arena.settle at hsettle
    split at hsettle <;> cases hsettle <;> rfl

theorem getOrCreate [BEq κ] {key : κ} {build : Handle k → Build σ α}
    (hbuild : ∀ h, FailsWith (·.isState) (build h)) :
    FailsWith (·.isState) (Arena.getOrCreate part key build) := by
  intro s e t hrun
  unfold Build.runOn Arena.getOrCreate at hrun
  split at hrun
  · rename_i h hfind
    obtain ⟨hsettled, -⟩ := Prod.mk.inj hrun
    unfold Arena.settled at hsettled
    split at hsettled <;> cases hsettled <;> rfl
  · split at hrun
    · rename_i e' hpublish
      cases hrun
      unfold Arena.publish at hpublish
      split at hpublish <;> cases hpublish
      rfl
    · rename_i h a hpublish
      split at hrun
      · exact ((settle h _ id).bind fun _ => .pure h) _ _ _ hrun
      · rename_i e' u hfailed
        exact ((settle h _ (·.forget key)).bind fun _ => .fail (hbuild h _ _ _ hfailed)) _ _ _ hrun

end Build.FailsWith


/-! ## Descriptors -/

namespace Factory

open Build

variable (f : Factory)

theorem position_fails (span : Span) : (f.position span).FailsWith (·.isState) := by
  rintro s e t ⟨⟩

theorem ofLocation_fails (l : SourceLocation) : (ofLocation l).FailsWith (·.isState) :=
  .getOrCreate fun _ => .pure l

theorem location_fails (span : Span) : (f.location span).FailsWith (·.isState) :=
  (f.position_fails span).bind fun _ => ofLocation_fails _

theorem declLocation_fails (s : Symbol) : (f.declLocation s).FailsWith (·.isState) := by
  unfold declLocation
  split
  · exact ofLocation_fails _
  · exact ofLocation_fails _
  · exact f.location_fails _
  · exact f.location_fails _

theorem typeInfo_fails (ty : Ty) : (f.typeInfo ty).FailsWith (·.isState) := by
  refine .getOrCreate fun _ => ?_
  dsimp only
  split
  · exact (f.declLocation_fails _).bind fun _ => .pure _
  · exact (ofLocation_fails _).bind fun _ => .pure _

mutual

theorem annotationValue_fails : ∀ arg : AnnotationArg,
    (f.annotationValue arg).FailsWith (·.isState)
  | .const .null | .const .unit | .const (.boolean _) | .const (.int _) | .const (.long _)
  | .const (.string _) => .pure _
  | .type ty => (f.typeInfo_fails ty).bind fun _ => .pure _
  | .array items => (annotationValues_fails items).bind fun _ => .pure _

theorem annotationValues_fails : ∀ args : List AnnotationArg,
    (f.annotationValues args).FailsWith (·.isState)
  | [] => .pure []
  | item :: items =>
    (annotationValue_fails item).bind fun _ =>
      (annotationValues_fails items).bind fun _ => .pure _

end

theorem usageArguments_fails :
    ∀ (as : List AnnotationArgument) (found : NameMap AnnotationValue),
      (f.usageArguments as found).FailsWith (·.isState)
  | [], _ => .pure _
  | a :: as, _ => (f.annotationValue_fails a.value).bind fun _ => usageArguments_fails as _

theorem addAnnotations_fails : ∀ (uses : List AnnotationUse) (m : AnnotationMap),
    (f.addAnnotations uses m).FailsWith (·.isState)
  | [], _ => .pure _
  | use :: uses, _ =>
    (f.usageArguments_fails use.arguments []).bind fun _ =>
      (f.location_fails use.span).bind fun _ =>
        (f.typeInfo_fails use.ty).bind fun _ => addAnnotations_fails uses _

theorem annotations_fails (uses : List AnnotationUse) :
    (f.annotations uses).FailsWith (·.isState) :=
  f.addAnnotations_fails uses {}

theorem parameterInfo_fails (owner : UInt64) (ownerName : String) (index : Nat) (p : ParamHead) :
    (f.parameterInfo owner ownerName index p).FailsWith (·.isState) :=
  .getOrCreate fun _ =>
    (f.location_fails _).bind fun _ => (f.typeInfo_fails _).bind fun _ =>
      (f.annotations_fails _).bind fun _ => .pure _

theorem localInfo_fails (owner : UInt64) (ownerName : String) (v : VariableSite) :
    (f.localInfo owner ownerName v).FailsWith (·.isState) :=
  .getOrCreate fun _ =>
    (f.location_fails _).bind fun _ => (f.typeInfo_fails _).bind fun _ =>
      (f.annotations_fails _).bind fun _ => .pure _

theorem fieldInfo_fails (id : DeclId) : (f.fieldInfo id).FailsWith (·.isState) :=
  FailsWith.look.bind fun _ => .getOrCreate fun _ =>
    (f.declLocation_fails _).bind fun _ => (f.typeInfo_fails _).bind fun _ =>
      (f.annotations_fails _).bind fun _ => .pure _

/-- The builders that call each other, by induction on how many stand inside each other. -/
theorem within_fails : ∀ fuel id, (classInfoWithin f fuel id).FailsWith (·.isState) ∧
    (memberInfoWithin f fuel id).FailsWith (·.isState) ∧
    (functionInfoWithin f fuel id).FailsWith (·.isState) ∧
    (propertyInfoWithin f fuel id).FailsWith (·.isState)
  | 0, _ => ⟨.fail rfl, .fail rfl, .fail rfl, .fail rfl⟩
  | fuel + 1, id => by
    have ih := within_fails fuel
    refine ⟨?_, ?_, ?_, ?_⟩
    · exact FailsWith.look.bind fun _ => .getOrCreate fun _ =>
        (FailsWith.mapM (fun member => (ih member).2.1) _).bind fun _ =>
          (f.declLocation_fails _).bind fun _ => (f.annotations_fails _).bind fun _ => .pure _
    · unfold memberInfoWithin
      split
      · split
        · exact (ih id).1.bind fun _ => .pure _
        · exact .pure _
      · exact (ih id).2.2.1.bind fun _ => .pure _
      · exact (ih id).2.2.2.bind fun _ => .pure _
      · exact .pure _
    · exact FailsWith.look.bind fun _ => .getOrCreate fun _ =>
        (FailsWith.mapM (fun p => f.parameterInfo_fails _ _ _ _) _).bind fun _ =>
          (FailsWith.mapM (fun v => f.localInfo_fails _ _ _) _).bind fun _ =>
            (FailsWith.onSome (fun c => (ih c).1) _).bind fun _ =>
              (f.declLocation_fails _).bind fun _ => (f.typeInfo_fails _).bind fun _ =>
                (f.annotations_fails _).bind fun _ => .pure _
    · refine FailsWith.look.bind fun _ => .getOrCreate fun _ => ?_
      dsimp only
      split
      · exact .fail_bind rfl
      · exact (f.declLocation_fails _).bind fun _ =>
          (FailsWith.onSome (fun g => (ih g).2.2.1) _).bind fun _ =>
            (FailsWith.onSome (fun g => (ih g).2.2.1) _).bind fun _ =>
              (FailsWith.onSome f.fieldInfo_fails _).bind fun _ =>
                (f.annotations_fails _).bind fun _ => .pure _

theorem classInfo_fails (id : DeclId) : (f.classInfo id).FailsWith (·.isState) :=
  (f.within_fails f.bound id).1

theorem functionInfo_fails (id : DeclId) : (f.functionInfo id).FailsWith (·.isState) :=
  (f.within_fails f.bound id).2.2.1

theorem propertyInfo_fails (id : DeclId) : (f.propertyInfo id).FailsWith (·.isState) :=
  (f.within_fails f.bound id).2.2.2

theorem classInfoForType_fails (ty : Ty) : (f.classInfoForType ty).FailsWith (·.isState) := by
  unfold classInfoForType
  split
  · exact f.classInfo_fails _
  · exact .getOrCreate fun _ => (ofLocation_fails _).bind fun _ => .pure _

theorem executableInfo_fails (executable : Executable) :
    (f.executableInfo executable).FailsWith (·.isState) := by
  unfold executableInfo
  split
  · exact f.functionInfo_fails _
  · exact FailsWith.look.bind fun _ => FailsWith.look.bind fun _ => f.functionInfo_fails _
  · exact .fail rfl

theorem functionKey_fails (id : DeclId) : Except.FailsWith (·.isState) (f.functionKey id) := by
  unfold functionKey
  split
  · exact .ok _
  · exact .error rfl

theorem variableOwner_fails (executable : Executable) :
    Except.FailsWith (·.isState) (f.variableOwner executable) := by
  unfold variableOwner
  split
  · exact (f.functionKey_fails _).bind fun _ => .ok _
  · split
    · exact .ok _
    · exact .error rfl

theorem frameCapture_fails (executable : Executable) (locals : List VisibleLocal) (span : Span) :
    (f.frameCapture executable locals span).FailsWith (·.isState) :=
  (FailsWith.ofExcept (f.variableOwner_fails executable)).bind fun _ =>
    (FailsWith.mapM (fun _ => (f.localInfo_fails _ _ _).bind fun _ => .pure _) _).bind fun _ =>
      (f.location_fails span).bind fun _ => .pure _

end Factory

/-! ## Intrinsics -/

namespace Handlers

open Build

variable (c : IntrinsicCall)

theorem typeArgument_fails : Except.FailsWith (·.isOfIntrinsic) (typeArgument c) := by
  unfold typeArgument
  split
  · exact .error rfl
  · exact .ok _
  · exact .error rfl

theorem functionReference_fails : Except.FailsWith (·.isOfIntrinsic) (functionReference c) := by
  unfold functionReference
  split
  · exact .ok _
  · exact .error rfl

theorem propertyReference_fails : Except.FailsWith (·.isOfIntrinsic) (propertyReference c) := by
  unfold propertyReference
  split
  · exact .ok _
  · exact .error rfl

theorem resolve_fails {k : DescriptorKind} {κ α : Type} (arena : Store → Arena k κ α)
    (h : Handle k) (hash : α → Int32) :
    (do let info ← Build.ofExcept ((arena (← get)).resolve h)
        return .int (hash info) : Build Store Resolved).FailsWith (·.isOfIntrinsic) := by
  intro s e t hrun
  have hresolve : Except.FailsWith (·.isOfIntrinsic) ((arena s).resolve h) := by
    unfold Arena.resolve
    split
    · exact .ok _
    · exact .error rfl
  exact ((FailsWith.ofExcept hresolve).bind fun _ => .pure _) s e t hrun

theorem ofKind_fails (kind : IntrinsicKind) (sc : ScopeStack) (env : PassEnv) :
    (ofKind kind c sc env).FailsWith (·.isOfIntrinsic) := by
  have hexecutable : (executable c sc).FailsWith (·.isOfIntrinsic) := .require rfl
  have hclass : (enclosingClass c sc).FailsWith (·.isOfIntrinsic) := .require rfl
  have hty : (Build.ofExcept (typeArgument c) : Build Store Ty).FailsWith (·.isOfIntrinsic) :=
    .ofExcept (typeArgument_fails c)
  have hfunction :
      (Build.ofExcept (functionReference c) : Build Store DeclId).FailsWith (·.isOfIntrinsic) :=
    .ofExcept (functionReference_fails c)
  cases kind with
  | here => exact (env.factory.location_fails _).ofIntrinsic.bind fun _ => .pure _
  | currentFile => exact .pure _
  | currentLine => exact (env.factory.position_fails _).ofIntrinsic.bind fun _ => .pure _
  | currentFunction =>
    exact hexecutable.bind fun _ =>
      (env.factory.executableInfo_fails _).ofIntrinsic.bind fun _ => .pure _
  | currentFunctionHash =>
    exact hexecutable.bind fun _ => (env.factory.executableInfo_fails _).ofIntrinsic.bind fun h =>
      resolve_fails Store.functions h FunctionInfo.structuralHash
  | currentClass =>
    exact hclass.bind fun _ => (env.factory.classInfo_fails _).ofIntrinsic.bind fun _ => .pure _
  | currentClassHash =>
    exact hclass.bind fun _ => (env.factory.classInfo_fails _).ofIntrinsic.bind fun h =>
      resolve_fails Store.classes h ClassInfo.structuralHash
  | classOf =>
    exact hty.bind fun _ => (env.factory.classInfoForType_fails _).ofIntrinsic.bind fun _ => .pure _
  | classOfHash =>
    exact hty.bind fun _ => (env.factory.classInfoForType_fails _).ofIntrinsic.bind fun h =>
      resolve_fails Store.classes h ClassInfo.structuralHash
  | typeOf =>
    exact hty.bind fun _ => (env.factory.typeInfo_fails _).ofIntrinsic.bind fun _ => .pure _
  | functionOf =>
    exact hfunction.bind fun _ =>
      (env.factory.functionInfo_fails _).ofIntrinsic.bind fun _ => .pure _
  | functionOfHash =>
    exact hfunction.bind fun _ =>
      (FailsWith.ofExcept (env.factory.functionKey_fails _)).ofIntrinsic.bind fun _ => .pure _
  | propertyOf =>
    exact (FailsWith.ofExcept (propertyReference_fails c)).bind fun _ =>
      (env.factory.propertyInfo_fails _).ofIntrinsic.bind fun _ => .pure _
  | frameSnapshot =>
    exact hexecutable.bind fun _ =>
      (env.factory.frameCapture_fails _ _ _).ofIntrinsic.bind fun _ => .pure _

end Handlers

/-! ## Trace types -/

theorem tracedTypes_fails (use : AnnotationUse) : Except.FailsWith (·.isConfig) (tracedTypes use) := by
  have hparse : ∀ text, Except.FailsWith (·.isConfig) (TraceType.parse text) := by
    intro text
    unfold TraceType.parse
    split
    · exact .ok _
    · exact .error rfl
  unfold tracedTypes
  split
  · exact .ok _
  · split
    · exact .error rfl
    · exact (Except.FailsWith.mapM hparse _).map _

theorem addTraced_fails : ∀ (uses : List AnnotationUse) (set : TraceSet),
    Except.FailsWith (·.isConfig) (addTraced uses set)
  | [], _ => .ok _
  | use :: uses, set => by
    have huse := tracedTypes_fails use
    unfold addTraced
    split
    · exact addTraced_fails uses _
    · rename_i e he
      exact .error (huse e he)

theorem addDeclared_fails (o : Options) (t : SymbolTable) : ∀ (ids : List DeclId) (set : TraceSet),
    Except.FailsWith (·.isConfig) (addDeclared o t ids set)
  | [], _ => .ok _
  | id :: ids, set => by
    unfold addDeclared
    split
    · exact addDeclared_fails o t ids _
    · rename_i s hs
      have hdeclared : Except.FailsWith (·.isConfig) (declaredTypes o s.head.annotations) :=
        addTraced_fails _ _
      split
      · exact addDeclared_fails o t ids _
      · rename_i e he
        exact .error (hdeclared e he)

end TraceWeave

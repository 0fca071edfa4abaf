import TraceWeave.Pass.Handlers
import TraceWeave.Proofs.Descriptor.Closure
import TraceWeave.Proofs.Program.References

/-! # Builders keep stores closed

Every descriptor is put together from handles that its builder has asked for, so each of them is
known when the descriptor is finished. Classes, functions and properties ask for each other, by
induction on how many builders stand inside each other.

`Factory.closes_within` is the induction. Over it stand the requests of a factory, such as
`Factory.closes_frameCapture`, and the handlers: `Handlers.closes_ofKind`,
`Dispatch.closes_resolve`.
-/

namespace TraceWeave

namespace Store

variable {s t : Store} {mayFail : Prop} {pending : DescriptorRef → Prop}

/-- What a store says about descriptors depends on its arenas only. -/
theorem ClosedBut.of_arena_eq (h : ∀ k, t.arena k = s.arena k) (hs : s.ClosedBut mayFail pending) :
    t.ClosedBut mayFail pending := by
  have hgrown : s.Grown t := fun k => by rw [h]; exact .refl _
  refine ⟨fun k entry hentry => ?_, fun k x info hinfo r hr => ?_, fun r hr => ?_⟩
  · rw [h] at hentry
    exact (hs.indexed k entry hentry).imp_left hgrown.resolves
  · rw [h] at hinfo
    exact (hs.stored k x info hinfo r hr).mono hgrown
  · rw [slot?, h]
    exact hs.building r hr

end Store

/-- The handles inside what an intrinsic call is resolved to. -/
def Resolved.refs : Resolved → List DescriptorRef
  | .descriptor ref => [ref]
  | .snapshot capture => capture.refs
  | .int _ | .string _ => []

namespace Factory

open Build

variable (f : Factory) {mayFail : Prop} {given : List DescriptorRef}

theorem closes_position (span : Span) : Closes Store.itself mayFail given (f.position span) fun _ => [] := by
  rintro pending s result t hrun - hs -
  have harena : ∀ k, t.arena k = s.arena k := fun k => by
    rw [show t = ((f.position span).runOn s).2 by rw [hrun]]
    exact Store.arena_texts _
  exact ⟨fun k => by rw [harena]; exact .refl _, hs.of_arena_eq harena, by simp⟩

theorem closes_ofLocation (l : SourceLocation) :
    Closes Store.itself mayFail [] (ofLocation l) fun h => [h.toRef] :=
  .getOrCreate (k := .location) fun _ => .pure (by simp [DescriptorKind.refs])

theorem closes_location (span : Span) : Closes Store.itself mayFail [] (f.location span) fun h => [h.toRef] :=
  (f.closes_position span).bind fun _ => closes_ofLocation _

theorem closes_declLocation (s : Symbol) :
    Closes Store.itself mayFail [] (f.declLocation s) fun h => [h.toRef] := by
  unfold declLocation
  split
  · exact closes_ofLocation _
  · exact closes_ofLocation _
  · exact f.closes_location _
  · exact f.closes_location _

theorem closes_typeInfo (ty : Ty) : Closes Store.itself mayFail [] (f.typeInfo ty) fun h => [h.toRef] := by
  refine .getOrCreate (k := .typeInfo) fun _ => ?_
  dsimp only
  split
  · exact (f.closes_declLocation _).bind fun _ => .pure (by simp [DescriptorKind.refs])
  · exact (closes_ofLocation _).bind fun _ => .pure (by simp [DescriptorKind.refs])

mutual

theorem closes_annotationValue : ∀ arg : AnnotationArg,
    Closes Store.itself mayFail [] (f.annotationValue arg) AnnotationValue.refs
  | .const .null | .const .unit | .const (.boolean _) | .const (.int _) | .const (.long _)
  | .const (.string _) => .pure (by simp [AnnotationValue.refs])
  | .type ty => (f.closes_typeInfo ty).bind fun _ => .pure (by simp [AnnotationValue.refs])
  | .array items =>
    (closes_annotationValues items).bind fun _ => .pure (by simp [AnnotationValue.refs])

theorem closes_annotationValues : ∀ args : List AnnotationArg,
    Closes Store.itself mayFail [] (f.annotationValues args) annotationRefs
  | [] => .pure (by simp [annotationRefs])
  | item :: items =>
    (closes_annotationValue item).bind fun _ => (closes_annotationValues items).bind fun _ =>
      .pure (by simp +contextual [annotationRefs, or_comm])

end

theorem closes_usageArguments : ∀ (as : List AnnotationArgument) (found : NameMap AnnotationValue),
    Closes Store.itself mayFail (argumentRefs found) (f.usageArguments as found) argumentRefs
  | [], _ => .pure fun _ h => h
  | a :: as, _ =>
    (f.closes_annotationValue a.value).bind fun _ =>
      (closes_usageArguments as _).weaken fun _ => mem_argumentRefs_insert

theorem closes_addAnnotations : ∀ (uses : List AnnotationUse) (m : AnnotationMap),
    Closes Store.itself mayFail m.refs (f.addAnnotations uses m) AnnotationMap.refs
  | [], _ => .pure fun _ h => h
  | use :: uses, m => by
    refine (f.closes_usageArguments use.arguments []).bind fun arguments =>
      (f.closes_location use.span).bind fun location =>
        (f.closes_typeInfo use.ty).bind fun ty =>
          (closes_addAnnotations uses _).weaken fun r hr => ?_
    have := mem_groupRefs_pushTo hr
    simp only [AnnotationUsage.refs, List.mem_append, List.mem_cons, List.not_mem_nil,
      or_false] at this ⊢
    unfold AnnotationMap.refs
    tauto

theorem closes_annotations (uses : List AnnotationUse) :
    Closes Store.itself mayFail [] (f.annotations uses) AnnotationMap.refs :=
  f.closes_addAnnotations uses {}

/-- The location, the type and the annotations that a variable or field is described by. -/
theorem closes_described {β : Type} {location : Build Store (Handle .location)}
    (hlocation : Closes Store.itself mayFail [] location fun h => [h.toRef]) (ty : Ty)
    (uses : List AnnotationUse)
    {info : Handle .location → Handle .typeInfo → AnnotationMap → β}
    {refs : β → List DescriptorRef}
    (hrefs : ∀ l t m, refs (info l t m) = l.toRef :: t.toRef :: m.refs) :
    Closes Store.itself mayFail [] (do
      let location ← location
      let ty ← f.typeInfo ty
      let annotations ← f.annotations uses
      return info location ty annotations) refs :=
  hlocation.bind fun _ => (f.closes_typeInfo ty).bind fun _ =>
    (f.closes_annotations uses).bind fun _ => .pure (by
      rw [hrefs]
      simp +contextual)

theorem closes_parameterInfo (owner : UInt64) (ownerName : String) (index : Nat) (p : ParamHead) :
    Closes Store.itself mayFail [] (f.parameterInfo owner ownerName index p) fun h => [h.toRef] :=
  .getOrCreate (k := .parameterInfo) fun _ =>
    f.closes_described (f.closes_location _) _ _ fun _ _ _ => rfl

theorem closes_localInfo (owner : UInt64) (ownerName : String) (v : VariableSite) :
    Closes Store.itself mayFail [] (f.localInfo owner ownerName v) fun h => [h.toRef] :=
  .getOrCreate (k := .localInfo) fun _ =>
    f.closes_described (f.closes_location _) _ _ fun _ _ _ => rfl

theorem closes_fieldInfo (id : DeclId) : Closes Store.itself mayFail [] (f.fieldInfo id) fun h => [h.toRef] :=
  Closes.require.bind fun _ => .getOrCreate (k := .fieldInfo) fun _ =>
    f.closes_described (f.closes_declLocation _) _ _ fun _ _ _ => rfl

/-- The handle of a member, if the class lists it. -/
def MemberHandle.refs : MemberHandle → List DescriptorRef
  | .companion h => [h.toRef]
  | .function h => [h.toRef]
  | .property h => [h.toRef]
  | .unlisted => []

theorem mem_handleRefs_filterMap {k : DescriptorKind} {pick : MemberHandle → Option (Handle k)}
    (hpick : ∀ m h, pick m = some h → m.refs = [h.toRef]) {members : List MemberHandle}
    {r : DescriptorRef} (hr : r ∈ handleRefs (members.filterMap pick)) :
    r ∈ members.flatMap MemberHandle.refs := by
  obtain ⟨h, hmem, rfl⟩ := List.mem_map.mp hr
  obtain ⟨m, hm, hh⟩ := List.mem_filterMap.mp hmem
  exact List.mem_flatMap.mpr ⟨m, hm, by simp [hpick m h hh]⟩

theorem handleRefs_eq {k : DescriptorKind} (hs : List (Handle k)) :
    handleRefs hs = hs.flatMap fun h => [h.toRef] :=
  List.map_eq_flatMap

/-- The builders that call each other, by induction on how many stand inside each other. -/
theorem closes_within : ∀ fuel id,
    Closes Store.itself mayFail [] (classInfoWithin f fuel id) (fun h => [h.toRef]) ∧
    Closes Store.itself mayFail [] (memberInfoWithin f fuel id) MemberHandle.refs ∧
    Closes Store.itself mayFail [] (functionInfoWithin f fuel id) (fun h => [h.toRef]) ∧
    Closes Store.itself mayFail [] (propertyInfoWithin f fuel id) (fun h => [h.toRef])
  | 0, _ => ⟨.fail _, .fail _, .fail _, .fail _⟩
  | fuel + 1, id => by
    have ih := closes_within fuel
    refine ⟨?_, ?_, ?_, ?_⟩
    · refine Closes.require.bind fun _ => .getOrCreate (k := .classInfo) fun _ =>
        (Closes.mapM (fun member => (ih member).2.1) _).bind fun members =>
          (f.closes_declLocation _).bind fun _ =>
            (f.closes_annotations _).bind fun _ => .pure fun r hr => ?_
      simp only [DescriptorKind.refs, List.mem_cons, List.mem_append] at hr ⊢
      rcases hr with hr | ((hr | hr) | hr) | hr
      · exact .inr (.inl (.inl hr))
      · exact .inr (.inr (.inl (mem_handleRefs_filterMap (by rintro (_ | _ | _ | _) _ ⟨⟩; rfl) hr)))
      · exact .inr (.inr (.inl (mem_handleRefs_filterMap (by rintro (_ | _ | _ | _) _ ⟨⟩; rfl) hr)))
      · exact .inr (.inr (.inl (mem_handleRefs_filterMap (by rintro (_ | _ | _ | _) _ ⟨⟩; rfl) hr)))
      · exact .inl hr
    · unfold memberInfoWithin
      split
      · split
        · exact (ih id).1.bind fun _ => .pure (by simp [MemberHandle.refs])
        · exact .pure (by simp [MemberHandle.refs])
      · exact (ih id).2.2.1.bind fun _ => .pure (by simp [MemberHandle.refs])
      · exact (ih id).2.2.2.bind fun _ => .pure (by simp [MemberHandle.refs])
      · exact .pure (by simp [MemberHandle.refs])
    · refine Closes.require.bind fun _ => .getOrCreate (k := .functionInfo) fun _ =>
        (Closes.mapM (fun p => f.closes_parameterInfo _ _ _ _) _).bind fun _ =>
          (Closes.mapM (fun v => f.closes_localInfo _ _ _) _).bind fun _ =>
            (Closes.onSome (fun c => (ih c).1) _).bind fun _ =>
              (f.closes_declLocation _).bind fun _ => (f.closes_typeInfo _).bind fun _ =>
                (f.closes_annotations _).bind fun _ => .pure fun r hr => ?_
      simp only [DescriptorKind.refs, handleRefs_eq, List.mem_cons, List.mem_append,
        List.not_mem_nil, or_false] at hr ⊢
      tauto
    · refine Closes.require.bind fun _ => .getOrCreate (k := .propertyInfo) fun _ => ?_
      dsimp only
      split
      · exact .fail_bind _ _
      · refine (f.closes_declLocation _).bind fun _ =>
          (Closes.onSome (fun g => (ih g).2.2.1) _).bind fun _ =>
            (Closes.onSome (fun g => (ih g).2.2.1) _).bind fun _ =>
              (Closes.onSome f.closes_fieldInfo _).bind fun _ =>
                (f.closes_annotations _).bind fun _ => .pure fun r hr => ?_
        simp only [DescriptorKind.refs, handleRefs_eq, List.mem_cons, List.mem_append,
          List.not_mem_nil, or_false] at hr ⊢
        tauto

theorem closes_classInfo (id : DeclId) : Closes Store.itself mayFail [] (f.classInfo id) fun h => [h.toRef] :=
  (f.closes_within f.bound id).1

theorem closes_functionInfo (id : DeclId) :
    Closes Store.itself mayFail [] (f.functionInfo id) fun h => [h.toRef] :=
  (f.closes_within f.bound id).2.2.1

theorem closes_propertyInfo (id : DeclId) :
    Closes Store.itself mayFail [] (f.propertyInfo id) fun h => [h.toRef] :=
  (f.closes_within f.bound id).2.2.2

theorem closes_classInfoForType (ty : Ty) :
    Closes Store.itself mayFail [] (f.classInfoForType ty) fun h => [h.toRef] := by
  unfold classInfoForType
  split
  · exact f.closes_classInfo _
  · exact .getOrCreate (k := .classInfo) fun _ => (closes_ofLocation _).bind fun _ =>
      .pure (by simp [DescriptorKind.refs, handleRefs, AnnotationMap.refs, groupRefs])

theorem closes_executableInfo (executable : Executable) :
    Closes Store.itself mayFail [] (f.executableInfo executable) fun h => [h.toRef] := by
  unfold executableInfo
  split
  · exact f.closes_functionInfo _
  · exact Closes.require.bind fun _ => Closes.require.bind fun _ => f.closes_functionInfo _
  · exact .fail _

theorem closes_frameCapture (executable : Executable) (locals : List VisibleLocal) (span : Span) :
    Closes Store.itself mayFail [] (f.frameCapture executable locals span) FrameCapture.refs := by
  refine Closes.ofExcept.bind fun ⟨owner, ownerName⟩ => ?_
  have hentries : Closes Store.itself mayFail [] (locals.mapM fun v => do
      let info ← f.localInfo owner ownerName (.ofVisible v)
      return (⟨info, v.var⟩ : CapturedLocal)) fun cs => cs.flatMap fun c => [c.info.toRef] :=
    .mapM (fun v => (f.closes_localInfo _ _ _).bind fun _ => .pure (by simp)) locals
  refine hentries.bind fun _ => (f.closes_location span).bind fun _ => .pure fun r hr => ?_
  simpa [FrameCapture.refs, List.map_eq_flatMap] using hr

end Factory

/-! ## Handlers -/

namespace Handlers

open Build

variable {mayFail : Prop} {given : List DescriptorRef}

theorem closes_functionHash (h : Handle .functionInfo) :
    Closes Store.itself mayFail given (functionHash h) Resolved.refs :=
  Closes.get.bind fun _ => Closes.ofExcept.bind fun _ => .pure (by simp [Resolved.refs])

theorem closes_classHash (h : Handle .classInfo) :
    Closes Store.itself mayFail given (classHash h) Resolved.refs :=
  Closes.get.bind fun _ => Closes.ofExcept.bind fun _ => .pure (by simp [Resolved.refs])

/-- A handler that hands out the handle of one descriptor. -/
theorem closes_ofHandle {k : DescriptorKind} {step : Build Store (Handle k)}
    (h : Closes Store.itself mayFail [] step fun h => [h.toRef]) :
    Closes Store.itself mayFail [] (do return ofHandle (← step)) Resolved.refs :=
  h.bind fun _ => .pure (by simp [ofHandle, Resolved.refs])

/-- Every handler keeps a store closed, and what it resolves a call to is known. -/
theorem closes_ofKind (kind : IntrinsicKind) (c : IntrinsicCall) (sc : ScopeStack) (env : PassEnv) :
    Closes Store.itself mayFail [] (ofKind kind c sc env) Resolved.refs := by
  have hexecutable : Closes Store.itself mayFail [] (executable c sc) fun _ => [] := .require
  have hclass : Closes Store.itself mayFail [] (enclosingClass c sc) fun _ => [] := .require
  cases kind with
  | here => exact closes_ofHandle (env.factory.closes_location _)
  | currentFile => exact .pure (by simp [Resolved.refs])
  | currentLine =>
    exact (env.factory.closes_position _).bind fun _ => .pure (by simp [Resolved.refs])
  | currentFunction =>
    exact hexecutable.bind fun _ => closes_ofHandle (env.factory.closes_executableInfo _)
  | currentFunctionHash =>
    exact hexecutable.bind fun _ =>
      (env.factory.closes_executableInfo _).bind fun _ => closes_functionHash _
  | currentClass => exact hclass.bind fun _ => closes_ofHandle (env.factory.closes_classInfo _)
  | currentClassHash =>
    exact hclass.bind fun _ => (env.factory.closes_classInfo _).bind fun _ => closes_classHash _
  | classOf =>
    exact Closes.ofExcept.bind fun _ => closes_ofHandle (env.factory.closes_classInfoForType _)
  | classOfHash =>
    exact Closes.ofExcept.bind fun _ =>
      (env.factory.closes_classInfoForType _).bind fun _ => closes_classHash _
  | typeOf => exact Closes.ofExcept.bind fun _ => closes_ofHandle (env.factory.closes_typeInfo _)
  | functionOf =>
    exact Closes.ofExcept.bind fun _ => closes_ofHandle (env.factory.closes_functionInfo _)
  | functionOfHash =>
    exact Closes.ofExcept.bind fun _ => Closes.ofExcept.bind fun _ =>
      .pure (by simp [Resolved.refs])
  | propertyOf =>
    exact Closes.ofExcept.bind fun _ => closes_ofHandle (env.factory.closes_propertyInfo _)
  | frameSnapshot =>
    exact hexecutable.bind fun _ =>
      (env.factory.closes_frameCapture _ _ _).bind fun _ => .pure (by simp [Resolved.refs])

end Handlers

/-- What a call is resolved to is known. -/
theorem Dispatch.closes_resolve {mayFail : Prop} (env : PassEnv) (sc : ScopeStack)
    (call : IntrinsicCall) :
    (resolve Handlers.defaults env sc call).Closes Store.itself mayFail [] Resolved.refs := by
  have hhandler : ∀ e, (Build.require (Handlers.defaults call.kind) e : Build Store Handler) =
      pure (Handlers.ofKind call.kind) := fun _ => rfl
  unfold resolve
  rw [hhandler, pure_bind]
  refine (Handlers.closes_ofKind call.kind call sc env).bind fun resolved => ?_
  split
  · exact .pure (by simp)
  · exact .fail _

end TraceWeave

import TraceWeave.Proofs.Descriptor.Closure
import TraceWeave.Proofs.Program.References

/-! # Descriptors under a renaming of handles

A handle is a number that was given out in the order of requests, so two stores can say the same
about a program with different handles. A renaming takes the handles that two stores share from the
first to the second. A descriptor is renamed by renaming the handles inside it and leaving every
other field as it is.

`Renaming` is one to one on what is shared, `DescriptorKind.rename` renames a descriptor, and
`Renaming.Carries` says that two stores are the same up to a renaming.
-/

namespace TraceWeave

/-- A renaming of handles, one to one on those that are shared. -/
structure Renaming where
  shared : DescriptorRef → Prop
  apply : {k : DescriptorKind} → Handle k → Handle k
  injective : ∀ {k : DescriptorKind} {h g : Handle k},
    shared h.toRef → shared g.toRef → apply h = apply g → h = g

namespace Renaming

/-- A reference of any kind after the renaming. -/
def ref (ρ : Renaming) (r : DescriptorRef) : DescriptorRef :=
  (ρ.apply (⟨r.index⟩ : Handle r.kind)).toRef

/-- Whether a handle is shared and another one is what it is renamed to. -/
structure Takes (ρ : Renaming) {k : DescriptorKind} (h h' : Handle k) : Prop where
  eq : h' = ρ.apply h
  shared : ρ.shared h.toRef

end Renaming

/-! ## Renamed annotations -/

mutual

def AnnotationValue.rename (ρ : Renaming) : AnnotationValue → AnnotationValue
  | .type h => .type (ρ.apply h)
  | .list items => .list (renameValues ρ items)
  | .null => .null
  | .boolean b => .boolean b
  | .int n => .int n
  | .long n => .long n
  | .string s => .string s

def renameValues (ρ : Renaming) : List AnnotationValue → List AnnotationValue
  | [] => []
  | item :: items => item.rename ρ :: renameValues ρ items

end

/-- Arguments by name; the names stay. -/
def renameArguments (ρ : Renaming) (arguments : NameMap AnnotationValue) :
    NameMap AnnotationValue :=
  arguments.map fun argument => (argument.1, argument.2.rename ρ)

def AnnotationUsage.rename (ρ : Renaming) (u : AnnotationUsage) : AnnotationUsage where
  location := ρ.apply u.location
  annotationType := ρ.apply u.annotationType
  arguments := renameArguments ρ u.arguments

/-- Groups of uses by annotation type. -/
def renameGroups (ρ : Renaming) (groups : List (Handle .typeInfo × List AnnotationUsage)) :
    List (Handle .typeInfo × List AnnotationUsage) :=
  groups.map fun group => (ρ.apply group.1, group.2.map (AnnotationUsage.rename ρ))

def AnnotationMap.rename (ρ : Renaming) (m : AnnotationMap) : AnnotationMap :=
  ⟨renameGroups ρ m.entries⟩

theorem renameArguments_insert (ρ : Renaming) (name : String) (value : AnnotationValue) :
    ∀ m : NameMap AnnotationValue, renameArguments ρ (m.insert name value) =
      (renameArguments ρ m).insert name (value.rename ρ)
  | [] => rfl
  | (n, v) :: rest => by
    have ih := renameArguments_insert ρ name value rest
    simp only [renameArguments, NameMap.insert, List.map_cons] at ih ⊢
    split
    · rfl
    · split
      · rfl
      · rw [List.map_cons, ih]

/-- Different types stay different, so a renamed use joins the group that it joined before. -/
theorem renameGroups_pushTo {ρ : Renaming} {usage : AnnotationUsage}
    (husage : ρ.shared usage.annotationType.toRef) :
    ∀ {groups : List (Handle .typeInfo × List AnnotationUsage)},
      (∀ r ∈ groupRefs groups, ρ.shared r) →
      renameGroups ρ (AnnotationMap.pushTo usage groups) =
        AnnotationMap.pushTo (usage.rename ρ) (renameGroups ρ groups)
  | [], _ => rfl
  | (ty, usages) :: rest, hshared => by
    simp only [groupRefs, List.flatMap_cons, List.mem_append] at hshared
    have hty : ρ.shared ty.toRef := hshared _ (.inl (List.mem_cons_self ..))
    have hrest := renameGroups_pushTo husage fun r hr => hshared r (.inr hr)
    simp only [renameGroups, AnnotationMap.pushTo, List.map_cons] at hrest ⊢
    by_cases heq : ty = usage.annotationType
    · have heq' : ρ.apply ty = (usage.rename ρ).annotationType := congrArg ρ.apply heq
      rw [if_pos heq, if_pos heq', List.map_cons, List.map_append]
      rfl
    · have hne : ρ.apply ty ≠ (usage.rename ρ).annotationType := fun h =>
        heq (ρ.injective hty husage h)
      rw [if_neg heq, if_neg hne, List.map_cons, hrest]

theorem AnnotationMap.rename_push {ρ : Renaming} {m : AnnotationMap} {usage : AnnotationUsage}
    (hm : ∀ r ∈ m.refs, ρ.shared r) (husage : ρ.shared usage.annotationType.toRef) :
    (m.push usage).rename ρ = (m.rename ρ).push (usage.rename ρ) :=
  congrArg AnnotationMap.mk (renameGroups_pushTo husage hm)

/-! ## Renamed descriptors -/

/-- A descriptor with all handles inside it renamed. -/
def DescriptorKind.rename (ρ : Renaming) : (k : DescriptorKind) → k.Info → k.Info
  | .location, info => info
  | .typeInfo, info => { info with location := ρ.apply info.location }
  | .classInfo, info =>
    { info with
      location := ρ.apply info.location
      companions := info.companions.map ρ.apply
      functions := info.functions.map ρ.apply
      properties := info.properties.map ρ.apply
      annotations := info.annotations.rename ρ }
  | .functionInfo, info =>
    { info with
      location := ρ.apply info.location
      returnType := ρ.apply info.returnType
      parameters := info.parameters.map ρ.apply
      locals := info.locals.map ρ.apply
      declaringClass := info.declaringClass.map ρ.apply
      annotations := info.annotations.rename ρ }
  | .propertyInfo, info =>
    { info with
      location := ρ.apply info.location
      getter := info.getter.map ρ.apply
      setter := info.setter.map ρ.apply
      backing := info.backing.map ρ.apply
      annotations := info.annotations.rename ρ }
  | .fieldInfo, info =>
    { info with
      location := ρ.apply info.location
      ty := ρ.apply info.ty
      annotations := info.annotations.rename ρ }
  | .localInfo, info =>
    { info with
      location := ρ.apply info.location
      ty := ρ.apply info.ty
      annotations := info.annotations.rename ρ }
  | .parameterInfo, info =>
    { info with
      location := ρ.apply info.location
      ty := ρ.apply info.ty
      annotations := info.annotations.rename ρ }

def FrameCapture.rename (ρ : Renaming) (c : FrameCapture) : FrameCapture where
  location := ρ.apply c.location
  entries := c.entries.map fun entry => { entry with info := ρ.apply entry.info }

/-- Two stores that say the same about everything that is shared: it is finished in both, equal up
to the renaming, and leads to nothing that is not shared. -/
def Renaming.Carries (ρ : Renaming) (s t : Store) : Prop :=
  ∀ (k : DescriptorKind) (h : Handle k), ρ.shared h.toRef →
    ∃ info, (s.arena k).get? h = some info ∧ (t.arena k).get? (ρ.apply h) = some (k.rename ρ info) ∧
      ∀ r ∈ k.refs info, ρ.shared r

end TraceWeave

import TraceWeave.Factory.Declarations
import TraceWeave.Proofs.Descriptor.Growth
import TraceWeave.Proofs.Descriptor.Slots

/-! # Closed stores

A store is closed when every key leads to a finished descriptor and every handle inside a finished
descriptor names a finished one. While builders run this holds but for the handles of the
descriptors under construction, and a builder that fails leaves handles behind that lead nowhere.
The invariant says which handles these can be, and each step of building is judged by what it
hands out: handles that are known, in a store that keeps what was there.

* `Store.Closed`: the goal; `Store.ClosedBut`: the invariant while descriptors are pending.
* `Build.Closes`: the judgement on a step, with one rule for each way to put steps together.
* `Build.Closes.getOrCreate`: the rule for a request, where a descriptor becomes pending and
  settles.
-/

namespace TraceWeave

/-! ## The arenas of a store by kind -/

namespace DescriptorKind

/-- What descriptors of a kind are found by. -/
abbrev Key : DescriptorKind → Type
  | .location => SourceLocation
  | .typeInfo => Ty
  | .classInfo => String
  | .functionInfo => FunctionKey
  | .propertyInfo => PropertyKey
  | .fieldInfo => FieldKey
  | .localInfo => VariableKey
  | .parameterInfo => VariableKey

/-- The descriptors of a kind. -/
abbrev Info : DescriptorKind → Type
  | .location => SourceLocation
  | .typeInfo => TypeInfo
  | .classInfo => ClassInfo
  | .functionInfo => FunctionInfo
  | .propertyInfo => PropertyInfo
  | .fieldInfo => FieldInfo
  | .localInfo => LocalInfo
  | .parameterInfo => ParameterInfo

end DescriptorKind

namespace Store

/-- The arena of a kind as a part of the store. -/
def part : (k : DescriptorKind) → Part Store (Arena k k.Key k.Info)
  | .location => locationsPart
  | .typeInfo => typesPart
  | .classInfo => classesPart
  | .functionInfo => functionsPart
  | .propertyInfo => propertiesPart
  | .fieldInfo => fieldsPart
  | .localInfo => localsPart
  | .parameterInfo => parametersPart

/-- The arena of a kind. -/
def arena (s : Store) (k : DescriptorKind) : Arena k k.Key k.Info := (part k).get s

variable {s t u : Store} {k : DescriptorKind} {a : Arena k k.Key k.Info}

@[simp] theorem arena_set : ((part k).set a s).arena k = a := by
  cases k <;> rfl

theorem arena_set_of_ne {k' : DescriptorKind} (hne : k' ≠ k) :
    ((part k).set a s).arena k' = s.arena k' := by
  cases k <;> cases k' <;> first | rfl | exact absurd rfl hne

/-- What holds of the arenas of a store and of the one that is put in holds of the new store. -/
theorem forall_arena_set {P : ∀ k : DescriptorKind, Arena k k.Key k.Info → Prop} (ha : P k a)
    (h : ∀ k', P k' (s.arena k')) (k' : DescriptorKind) :
    P k' (((part k).set a s).arena k') := by
  by_cases hk : k' = k
  · subst hk
    rwa [arena_set]
  · rw [arena_set_of_ne hk]
    exact h k'

/-- The source texts are no descriptors. -/
theorem arena_texts (texts : Source.Cache) : ({ s with texts } : Store).arena k = s.arena k := by
  cases k <;> rfl

/-- The slot that a reference names. -/
def slot? (s : Store) (r : DescriptorRef) : Option (Slot r.kind.Info) :=
  (s.arena r.kind).slot? ⟨r.index⟩

/-- A reference that leads to a finished descriptor. -/
def Resolves (s : Store) (r : DescriptorRef) : Prop :=
  ((s.arena r.kind).get? ⟨r.index⟩).isSome

/-- A reference whose descriptor could not be built. -/
def Lost (s : Store) (r : DescriptorRef) : Prop := ∃ message, s.slot? r = some (.failed message)

end Store

/-! ## The handles inside descriptors -/

mutual

/-- The handles in the value of an argument, also in nested lists. -/
def AnnotationValue.refs : AnnotationValue → List DescriptorRef
  | .type h => [h.toRef]
  | .list items => annotationRefs items
  | .null | .boolean _ | .int _ | .long _ | .string _ => []

def annotationRefs : List AnnotationValue → List DescriptorRef
  | [] => []
  | item :: items => item.refs ++ annotationRefs items

end

/-- The handles in arguments. -/
def argumentRefs (arguments : NameMap AnnotationValue) : List DescriptorRef :=
  arguments.flatMap fun argument => argument.2.refs

def AnnotationUsage.refs (u : AnnotationUsage) : List DescriptorRef :=
  u.location.toRef :: u.annotationType.toRef :: argumentRefs u.arguments

/-- The handles in groups of uses. -/
def groupRefs (groups : List (Handle .typeInfo × List AnnotationUsage)) : List DescriptorRef :=
  groups.flatMap fun group => group.1.toRef :: group.2.flatMap AnnotationUsage.refs

def AnnotationMap.refs (m : AnnotationMap) : List DescriptorRef := groupRefs m.entries

/-- The handles of a list. -/
def handleRefs {k : DescriptorKind} (handles : List (Handle k)) : List DescriptorRef :=
  handles.map Handle.toRef

/-- The handles inside a descriptor. -/
def DescriptorKind.refs : (k : DescriptorKind) → k.Info → List DescriptorRef
  | .location, _ => []
  | .typeInfo, info => [info.location.toRef]
  | .classInfo, info =>
    info.location.toRef :: (handleRefs info.companions ++ handleRefs info.functions ++
      handleRefs info.properties ++ info.annotations.refs)
  | .functionInfo, info =>
    info.location.toRef :: info.returnType.toRef :: (handleRefs info.parameters ++
      handleRefs info.locals ++ handleRefs info.declaringClass.toList ++ info.annotations.refs)
  | .propertyInfo, info =>
    info.location.toRef :: (handleRefs info.getter.toList ++ handleRefs info.setter.toList ++
      handleRefs info.backing.toList ++ info.annotations.refs)
  | .fieldInfo, info => info.location.toRef :: info.ty.toRef :: info.annotations.refs
  | .localInfo, info => info.location.toRef :: info.ty.toRef :: info.annotations.refs
  | .parameterInfo, info => info.location.toRef :: info.ty.toRef :: info.annotations.refs

theorem mem_argumentRefs_insert {name : String} {value : AnnotationValue}
    {m : NameMap AnnotationValue} {r : DescriptorRef}
    (h : r ∈ argumentRefs (m.insert name value)) : r ∈ value.refs ++ argumentRefs m := by
  induction m with
  | nil => simpa [argumentRefs, NameMap.insert] using h
  | cons entry rest ih =>
    simp only [argumentRefs, NameMap.insert, List.flatMap_cons, List.mem_append] at h ih ⊢
    split at h
    · simpa [or_assoc] using h
    · split at h
      · simp only [List.flatMap_cons, List.mem_append] at h
        exact h.imp_right .inr
      · simp only [List.flatMap_cons, List.mem_append] at h
        rcases h with h | h
        · exact .inr (.inl h)
        · exact (ih h).imp_right .inr

theorem mem_groupRefs_pushTo {usage : AnnotationUsage}
    {groups : List (Handle .typeInfo × List AnnotationUsage)} {r : DescriptorRef}
    (h : r ∈ groupRefs (AnnotationMap.pushTo usage groups)) :
    r ∈ usage.refs ++ groupRefs groups := by
  induction groups with
  | nil => 
    simp only [groupRefs, AnnotationMap.pushTo, AnnotationUsage.refs, List.flatMap_cons,
      List.flatMap_nil, List.append_nil, List.mem_cons] at h ⊢
    rcases h with rfl | h
    · exact .inr (.inl rfl)
    · exact h
  | cons group rest ih =>
    simp only [groupRefs, AnnotationMap.pushTo, List.flatMap_cons, List.mem_append] at h ih ⊢
    split at h
    · simp only [List.flatMap_cons, List.flatMap_append, List.flatMap_nil, List.append_nil,
        List.mem_append, List.mem_cons] at h ⊢
      tauto
    · simp only [List.flatMap_cons, List.mem_append] at h
      rcases h with h | h
      · exact .inr (.inl h)
      · exact (ih h).imp_right .inr

/-! ## What requests do to an arena -/

namespace Arena

variable {k : DescriptorKind} {κ α : Type}

/-- Slots that were settled stay, and no key is given a handle that was there before. -/
structure Grown (a b : Arena k κ α) : Prop where
  slots : ∀ h slot, a.slot? h = some slot → slot ≠ .building → b.slot? h = some slot
  length : a.slots.length ≤ b.slots.length
  index : ∀ entry ∈ b.index, entry.2.index.toNat < a.slots.length → entry ∈ a.index

theorem lt_of_slot? {a : Arena k κ α} {h : Handle k} {slot : Slot α}
    (hslot : a.slot? h = some slot) : h.index.toNat < a.slots.length :=
  (List.getElem?_eq_some_iff.mp hslot).1

namespace Grown

variable {a b c : Arena k κ α} {key : κ} {h : Handle k}

theorem refl (a : Arena k κ α) : a.Grown a := ⟨fun _ _ hs _ => hs, Nat.le_refl _, fun _ hm _ => hm⟩

theorem trans (hab : a.Grown b) (hbc : b.Grown c) : a.Grown c where
  slots h slot hs hne := hbc.slots h slot (hab.slots h slot hs hne) hne
  length := Nat.le_trans hab.length hbc.length
  index entry hm hlt := hab.index entry (hbc.index entry hm (Nat.lt_of_lt_of_le hlt hab.length)) hlt

theorem publish (hp : a.publish key = .ok (h, b)) : a.Grown b := by
  have hslot := slot?_publish hp
  obtain ⟨hindex, -, rfl⟩ := of_publish hp
  refine ⟨fun h' slot hs _ => ?_, by simp, fun entry hm hlt => ?_⟩
  · rw [hslot, if_neg, hs]
    rintro rfl
    exact absurd (lt_of_slot? hs) (by omega)
  · rcases List.mem_append.mp hm with hm | hm
    · exact hm
    · cases List.mem_singleton.mp hm
      exact absurd hlt (by simp [hindex])

/-- Settling a slot under construction, and taking keys back. -/
theorem settle {slot : Slot α} (hbuilding : a.slot? h = some .building)
    (hb : b.slots = a.slots.set h.index.toNat slot) (hindex : ∀ entry ∈ b.index, entry ∈ a.index) :
    a.Grown b := by
  refine ⟨fun h' old hs hne => ?_, by simp [hb], fun entry hm _ => hindex entry hm⟩
  have hput : (a.put h slot).slot? h' = a.slot? h' := by
    rw [slot?_put hbuilding, if_neg]
    rintro rfl
    rw [hbuilding] at hs
    exact hne (Option.some.inj hs).symm
  rw [slot?, hb]
  exact hput.trans hs

end Grown

end Arena

namespace Store

variable {s t u : Store} {r : DescriptorRef}

/-- Every arena of the store has grown. -/
def Grown (s t : Store) : Prop := ∀ k, (s.arena k).Grown (t.arena k)

theorem Grown.refl (s : Store) : s.Grown s := fun _ => .refl _

theorem Grown.trans (hst : s.Grown t) (htu : t.Grown u) : s.Grown u :=
  fun k => (hst k).trans (htu k)

theorem Grown.set {k : DescriptorKind} {a : Arena k k.Key k.Info} (ha : (s.arena k).Grown a) :
    s.Grown ((part k).set a s) :=
  forall_arena_set (P := fun k b => (s.arena k).Grown b) ha fun _ => .refl _

theorem resolves_iff : s.Resolves r ↔ ∃ info, s.slot? r = some (.ready info) := by
  unfold Resolves slot?
  rw [Option.isSome_iff_exists]
  exact exists_congr fun info => Arena.get?_eq_some_iff

theorem Grown.get? (hst : s.Grown t) {k : DescriptorKind} {h : Handle k} {info : k.Info}
    (hinfo : (s.arena k).get? h = some info) : (t.arena k).get? h = some info :=
  Arena.get?_eq_some_iff.mpr
    ((hst k).slots h _ (Arena.get?_eq_some_iff.mp hinfo) (by simp))

theorem Grown.resolves (hst : s.Grown t) (h : s.Resolves r) : t.Resolves r := by
  obtain ⟨info, hinfo⟩ := Option.isSome_iff_exists.mp h
  exact Option.isSome_iff_exists.mpr ⟨info, hst.get? hinfo⟩

theorem Grown.lost (hst : s.Grown t) (h : s.Lost r) : t.Lost r := by
  obtain ⟨message, hmessage⟩ := h
  exact ⟨message, (hst r.kind).slots _ _ hmessage (by simp)⟩

/-! ## Closed but for pending handles -/

/-- Every key leads to a finished descriptor, and so does every handle inside one. -/
structure Closed (s : Store) : Prop where
  indexed : ∀ k, ∀ entry ∈ (s.arena k).index, s.Resolves entry.2.toRef
  stored : ∀ (k : DescriptorKind) (h : Handle k) (info : k.Info),
    (s.arena k).get? h = some info → ∀ r ∈ k.refs info, s.Resolves r

/-- A reference to a finished or pending descriptor, or, where builders may fail, to one whose
builder failed. -/
def Known (mayFail : Prop) (pending : DescriptorRef → Prop) (s : Store) (r : DescriptorRef) : Prop :=
  s.Resolves r ∨ pending r ∨ (mayFail ∧ s.Lost r)

/-- A store that is closed but for pending descriptors, which are under construction. -/
structure ClosedBut (mayFail : Prop) (pending : DescriptorRef → Prop) (s : Store) : Prop where
  indexed : ∀ k, ∀ entry ∈ (s.arena k).index, s.Resolves entry.2.toRef ∨ pending entry.2.toRef
  stored : ∀ (k : DescriptorKind) (h : Handle k) (info : k.Info),
    (s.arena k).get? h = some info → ∀ r ∈ k.refs info, s.Known mayFail pending r
  building : ∀ r, pending r → s.slot? r = some .building

variable {mayFail : Prop} {pending : DescriptorRef → Prop}

theorem Known.mono (hst : s.Grown t) (h : s.Known mayFail pending r) :
    t.Known mayFail pending r :=
  h.imp hst.resolves (Or.imp_right (And.imp_right hst.lost))

theorem Closed.closedBut (hs : s.Closed) : s.ClosedBut mayFail fun _ => False where
  indexed k entry hentry := .inl (hs.indexed k entry hentry)
  stored k h info hinfo r hr := .inl (hs.stored k h info hinfo r hr)
  building _ h := h.elim

theorem ClosedBut.closed (hs : s.ClosedBut False fun _ => False) : s.Closed where
  indexed k entry hentry := (hs.indexed k entry hentry).resolve_right id
  stored k h info hinfo r hr := by
    rcases hs.stored k h info hinfo r hr with h | h | h
    · exact h
    · exact h.elim
    · exact h.1.elim

/-- A handle next to pending ones. -/
def Adding (pending : DescriptorRef → Prop) (r : DescriptorRef) (q : DescriptorRef) : Prop :=
  q = r ∨ pending q

section

variable {k : DescriptorKind} {h : Handle k} {a : Arena k k.Key k.Info} {key : k.Key}

/-- A new arena that differs in one slot changes the store in one slot. -/
theorem slot?_set_of_ne (ha : ∀ h', h' ≠ h → a.slot? h' = (s.arena k).slot? h')
    (hne : r ≠ h.toRef) : ((part k).set a s).slot? r = s.slot? r := by
  obtain ⟨kind, index⟩ := r
  unfold slot?
  by_cases hk : kind = k
  · subst hk
    rw [arena_set]
    refine ha ⟨index⟩ fun heq => hne ?_
    rw [← heq]
    rfl
  · rw [arena_set_of_ne hk]

theorem slot?_set_toRef : ((part k).set a s).slot? h.toRef = a.slot? h := by
  change (((part k).set a s).arena k).slot? h = _
  rw [arena_set]

/-- A handle that is given out was in no use before. -/
theorem slot?_new_of_publish (hp : (s.arena k).publish key = .ok (h, a)) :
    s.slot? h.toRef = none := by
  change (s.arena k).slots[h.index.toNat]? = none
  rw [(Arena.of_publish hp).1]
  exact List.getElem?_eq_none (Nat.le_refl _)

theorem ClosedBut.not_pending (hs : s.ClosedBut mayFail pending)
    (hnew : s.slot? r = none) : ¬pending r := by
  intro hpending
  rw [hs.building _ hpending] at hnew
  cases hnew

theorem ClosedBut.not_indexed (hs : s.ClosedBut mayFail pending) (hnew : s.slot? h.toRef = none) :
    ∀ entry ∈ (s.arena k).index, entry.2 ≠ h := by
  rintro entry hentry rfl
  rcases hs.indexed k entry hentry with hr | hr
  · obtain ⟨info, hinfo⟩ := resolves_iff.mp hr
    rw [hinfo] at hnew
    cases hnew
  · exact hs.not_pending hnew hr

theorem ClosedBut.publish (hs : s.ClosedBut mayFail pending)
    (hp : (s.arena k).publish key = .ok (h, a)) :
    ((part k).set a s).ClosedBut mayFail (Adding pending h.toRef) := by
  have hgrown : s.Grown ((part k).set a s) := .set (.publish hp)
  have hslot : ∀ r, r ≠ h.toRef → ((part k).set a s).slot? r = s.slot? r := fun r hne =>
    slot?_set_of_ne (fun h' hne => by rw [Arena.slot?_publish hp, if_neg hne]) hne
  have hbuilding : ((part k).set a s).slot? h.toRef = some .building :=
    slot?_set_toRef.trans ((Arena.slot?_publish hp h).trans (if_pos rfl))
  -- Keys, handles inside descriptors, and slots under construction: the new key leads to the new
  -- handle, and that one is pending.
  refine ⟨fun k' entry hentry => ?_, fun k' h' info hinfo r hr => ?_, fun r hr => ?_⟩
  · have hold : entry ∈ (s.arena k').index →
        ((part k).set a s).Resolves entry.2.toRef ∨ Adding pending h.toRef entry.2.toRef :=
      fun hentry => (hs.indexed k' entry hentry).imp hgrown.resolves .inr
    by_cases hk : k' = k
    · subst hk
      obtain ⟨-, -, rfl⟩ := Arena.of_publish hp
      rw [arena_set] at hentry
      rcases List.mem_append.mp hentry with hentry | hentry
      · exact hold hentry
      · cases List.mem_singleton.mp hentry
        exact .inr (.inl rfl)
    · rw [arena_set_of_ne hk] at hentry
      exact hold hentry
  · have hready : ((part k).set a s).slot? h'.toRef = some (.ready info) :=
      Arena.get?_eq_some_iff.mp hinfo
    have hne : h'.toRef ≠ h.toRef := fun heq => by
      obtain rfl : k' = k := congrArg DescriptorRef.kind heq
      obtain rfl := Handle.toRef_injective heq
      rw [hbuilding] at hready
      cases hready
    have hinfo' : (s.arena k').get? h' = some info :=
      Arena.get?_eq_some_iff.mpr ((hslot _ hne).symm.trans hready)
    rcases hs.stored k' h' info hinfo' r hr with hr | hr | hr
    · exact .inl (hgrown.resolves hr)
    · exact .inr (.inl (.inr hr))
    · exact .inr (.inr ⟨hr.1, hgrown.lost hr.2⟩)
  · rcases hr with rfl | hr
    · exact hbuilding
    · have hne : r ≠ h.toRef := fun heq =>
        hs.not_pending (slot?_new_of_publish hp) (heq ▸ hr)
      rw [hslot r hne]
      exact hs.building r hr

/-- The construction of a pending descriptor ends: it is finished and the handles inside it are
known, or it is lost and no key leads to it. -/
theorem ClosedBut.settle {slot : Slot k.Info} (hs : s.ClosedBut mayFail (Adding pending h.toRef))
    (hnew : ¬pending h.toRef) (hslots : a.slots = (s.arena k).slots.set h.index.toNat slot)
    (hindex : ∀ entry ∈ a.index, entry ∈ (s.arena k).index)
    (hslot : (∃ v, slot = .ready v ∧
        ∀ r ∈ k.refs v, s.Known mayFail (Adding pending h.toRef) r) ∨
      mayFail ∧ (∃ message, slot = .failed message) ∧ ∀ entry ∈ a.index, entry.2 ≠ h) :
    s.Grown ((part k).set a s) ∧ ((part k).set a s).ClosedBut mayFail pending := by
  have hold : (s.arena k).slot? h = some .building := hs.building _ (.inl rfl)
  have hput : ∀ h', a.slot? h' = if h' = h then some slot else (s.arena k).slot? h' := fun h' => by
    rw [← Arena.slot?_put hold]
    unfold Arena.slot?
    rw [hslots]
    rfl
  have hgrown : s.Grown ((part k).set a s) := .set (.settle hold hslots hindex)
  have hother : ∀ r, r ≠ h.toRef → ((part k).set a s).slot? r = s.slot? r := fun r hne =>
    slot?_set_of_ne (fun h' hne => by rw [hput, if_neg hne]) hne
  have hself : ((part k).set a s).slot? h.toRef = some slot :=
    slot?_set_toRef.trans ((hput h).trans (if_pos rfl))
  -- However the construction ends, the handle is accounted for afterwards, and it is the only one
  -- that was pending before and no longer is.
  have hknown : ((part k).set a s).Known mayFail pending h.toRef := by
    rcases hslot with ⟨v, rfl, -⟩ | ⟨hfail, ⟨message, rfl⟩, -⟩
    · exact .inl (resolves_iff.mpr ⟨v, hself⟩)
    · exact .inr (.inr ⟨hfail, message, hself⟩)
  have hkept : ∀ r, s.Known mayFail (Adding pending h.toRef) r →
      ((part k).set a s).Known mayFail pending r := by
    rintro r (hr | (rfl | hr) | hr)
    · exact .inl (hgrown.resolves hr)
    · exact hknown
    · exact .inr (.inl hr)
    · exact .inr (.inr ⟨hr.1, hgrown.lost hr.2⟩)
  refine ⟨hgrown, fun k' entry hentry => ?_, fun k' h' info hinfo r hr => ?_, fun r hr => ?_⟩
  · have hmem : entry ∈ (s.arena k').index ∧
        (entry.2.toRef = h.toRef → ((part k).set a s).Resolves entry.2.toRef) := by
      by_cases hk : k' = k
      · subst hk
        rw [arena_set] at hentry
        refine ⟨hindex entry hentry, fun heq => ?_⟩
        -- A key that still leads to the handle: it was finished, since a lost one has no key.
        rcases hslot with ⟨v, rfl, -⟩ | ⟨-, -, hkeys⟩
        · rw [heq]
          exact resolves_iff.mpr ⟨v, hself⟩
        · exact absurd (Handle.toRef_injective heq) (hkeys entry hentry)
      · rw [arena_set_of_ne hk] at hentry
        exact ⟨hentry, fun heq => absurd (congrArg DescriptorRef.kind heq) hk⟩
    rcases hs.indexed k' entry hmem.1 with hr | heq | hr
    · exact .inl (hgrown.resolves hr)
    · exact .inl (hmem.2 heq)
    · exact .inr hr
  · have hready : ((part k).set a s).slot? h'.toRef = some (.ready info) :=
      Arena.get?_eq_some_iff.mp hinfo
    by_cases heq : h'.toRef = h.toRef
    · obtain rfl : k' = k := congrArg DescriptorRef.kind heq
      obtain rfl := Handle.toRef_injective heq
      rw [hself] at hready
      rcases hslot with ⟨v, rfl, hrefs⟩ | ⟨-, ⟨message, rfl⟩, -⟩
      · cases hready
        exact hkept r (hrefs r hr)
      · cases hready
    · rw [hother _ heq] at hready
      exact hkept r (hs.stored k' h' info (Arena.get?_eq_some_iff.mpr hready) r hr)
  · have hne : r ≠ h.toRef := fun heq => hnew (heq ▸ hr)
    rw [hother r hne]
    exact hs.building r (.inr hr)

/-- A pending descriptor is finished with content whose handles are known. -/
theorem ClosedBut.finish {v : k.Info} (hs : s.ClosedBut mayFail (Adding pending h.toRef))
    (hnew : ¬pending h.toRef) (hrefs : ∀ r ∈ k.refs v, s.Known mayFail (Adding pending h.toRef) r) :
    s.Grown ((part k).set ((s.arena k).put h (.ready v)) s) ∧
      ((part k).set ((s.arena k).put h (.ready v)) s).ClosedBut mayFail pending ∧
      ((part k).set ((s.arena k).put h (.ready v)) s).Resolves h.toRef := by
  have hbuilding : (s.arena k).slot? h = some .building := hs.building _ (.inl rfl)
  obtain ⟨hgrown, hclosed⟩ := hs.settle (a := (s.arena k).put h (.ready v)) hnew rfl
    (fun _ hentry => hentry) (.inl ⟨v, rfl, hrefs⟩)
  exact ⟨hgrown, hclosed, resolves_iff.mpr
    ⟨v, slot?_set_toRef.trans ((Arena.slot?_put hbuilding h).trans (if_pos rfl))⟩⟩

/-- A pending descriptor is lost, with the one key that leads to it. -/
theorem ClosedBut.giveUp [BEq k.Key] [LawfulBEq k.Key]
    (hs : s.ClosedBut mayFail (Adding pending h.toRef)) (hnew : ¬pending h.toRef) (hfail : mayFail)
    (hkeys : ∀ entry ∈ (s.arena k).index, entry.2 = h → entry.1 = key) (message : String) :
    s.Grown ((part k).set (((s.arena k).forget key).put h (.failed message)) s) ∧
      ((part k).set (((s.arena k).forget key).put h (.failed message)) s).ClosedBut mayFail
        pending := by
  refine hs.settle hnew rfl (fun _ hentry => (List.mem_filter.mp hentry).1)
    (.inr ⟨hfail, ⟨message, rfl⟩, fun entry hentry heq => ?_⟩)
  obtain ⟨hmem, hkey⟩ := List.mem_filter.mp hentry
  rw [hkeys entry hmem heq, BEq.rfl] at hkey
  cases hkey

/-- No other key leads to a handle that was given out for one. -/
theorem ClosedBut.key_of_publish {t : Store} (hs : s.ClosedBut mayFail pending)
    (hp : (s.arena k).publish key = .ok (h, a)) (hgrown : ((part k).set a s).Grown t) :
    ∀ entry ∈ (t.arena k).index, entry.2 = h → entry.1 = key := by
  rintro entry hentry rfl
  have hold := (hgrown k).index entry hentry
  rw [arena_set] at hold
  obtain ⟨hindex, -, rfl⟩ := Arena.of_publish hp
  rcases List.mem_append.mp (hold (by simp [hindex])) with hmem | hmem
  · exact absurd rfl (hs.not_indexed (slot?_new_of_publish hp) entry hmem)
  · exact congrArg Prod.fst (List.mem_singleton.mp hmem)

end

end Store

/-! ## Steps that keep a store closed -/

/-- A store as the whole state of a step. -/
abbrev Store.itself (s : Store) : Store := s

namespace Build

variable {σ α β : Type} {store : σ → Store} {mayFail : Prop} {given : List DescriptorRef}

/-- A step that keeps the store in its state closed but for pending descriptors, and hands out
references that are known if the given ones are. Where builders may not fail this is said of a step
that succeeds. -/
def Closes (store : σ → Store) (mayFail : Prop) (given : List DescriptorRef) (step : Build σ α)
    (out : α → List DescriptorRef) : Prop :=
  ∀ pending s result t, step.runOn s = (result, t) → (mayFail ∨ ∃ a, result = .ok a) →
    (store s).ClosedBut mayFail pending → (∀ r ∈ given, (store s).Known mayFail pending r) →
    (store s).Grown (store t) ∧ (store t).ClosedBut mayFail pending ∧
      ∀ a, result = .ok a → ∀ r ∈ out a, (store t).Known mayFail pending r

namespace Closes

variable {step : Build σ α} {next : α → Build σ β} {out : α → List DescriptorRef}
  {out' : β → List DescriptorRef}

/-- A step that does not touch the store and hands out given references. -/
theorem of_same (hsame : ∀ s, store (step.runOn s).2 = store s)
    (hout : ∀ s a, (step.runOn s).1 = .ok a → ∀ r ∈ out a, r ∈ given) :
    Closes store mayFail given step out := by
  intro pending s result t hrun _ hs hgiven
  have ht : store t = store s := by rw [← hsame s, hrun]
  rw [ht]
  refine ⟨.refl _, hs, fun a ha r hr => hgiven r (hout s a ?_ r hr)⟩
  rw [hrun, ha]

theorem pure {a : α} (hout : ∀ r ∈ out a, r ∈ given) :
    Closes store mayFail given (Pure.pure a) out :=
  .of_same (fun _ => rfl) (by rintro _ _ ⟨⟩; exact hout)

theorem fail (e : Error) : Closes store mayFail given (Build.fail e) out :=
  .of_same (fun _ => rfl) (by rintro _ _ ⟨⟩)

theorem fail_bind (e : Error) (next : α → Build σ β) :
    Closes store mayFail given (Build.fail e >>= next) out' :=
  .of_same (fun _ => rfl) (by rintro _ _ ⟨⟩)

theorem require {value : Option α} {e : Error} :
    Closes store mayFail given (Build.require value e) fun _ => [] := by
  refine .of_same (fun _ => ?_) (by simp)
  cases value <;> rfl

theorem ofExcept {result : Except Error α} :
    Closes store mayFail given (Build.ofExcept result) fun _ => [] :=
  .of_same (fun _ => rfl) (by simp)

theorem get : Closes store mayFail given (MonadState.get : Build σ σ) fun _ => [] :=
  .of_same (fun _ => rfl) (by simp)

theorem weaken {given' : List DescriptorRef} (h : Closes store mayFail given step out)
    (hgiven : ∀ r ∈ given, r ∈ given') : Closes store mayFail given' step out :=
  fun pending s result t hrun hok hs hknown =>
    h pending s result t hrun hok hs fun r hr => hknown r (hgiven r hr)

/-- What the first part hands out is given to the second. -/
theorem bind_given (h : Closes store mayFail given step out)
    (hnext : ∀ a, Closes store mayFail (out a ++ given) (next a) out') :
    Closes store mayFail given (step >>= next) out' := by
  intro pending s result t hrun hok hs hgiven
  rcases hstep : step.runOn s with ⟨e | a, u⟩
  · rw [runOn_bind_error hstep] at hrun
    cases hrun
    have hfail : mayFail := hok.resolve_right (by rintro ⟨_, ⟨⟩⟩)
    obtain ⟨hgrown, hclosed, -⟩ := h pending s _ t hstep (.inl hfail) hs hgiven
    exact ⟨hgrown, hclosed, by rintro _ ⟨⟩⟩
  · rw [runOn_bind_ok hstep] at hrun
    obtain ⟨hgrown, hclosed, hknown⟩ := h pending s _ u hstep (.inr ⟨a, rfl⟩) hs hgiven
    have hgiven' : ∀ r ∈ out a ++ given, (store u).Known mayFail pending r := by
      intro r hr
      rcases List.mem_append.mp hr with hr | hr
      · exact hknown a rfl r hr
      · exact (hgiven r hr).mono hgrown
    obtain ⟨hgrown', hclosed', hknown'⟩ := hnext a pending u result t hrun hok hclosed hgiven'
    exact ⟨hgrown.trans hgrown', hclosed', hknown'⟩

theorem bind (h : Closes store mayFail [] step out)
    (hnext : ∀ a, Closes store mayFail (out a ++ given) (next a) out') :
    Closes store mayFail given (step >>= next) out' :=
  (h.weaken (by simp)).bind_given hnext

theorem mapM {f : α → Build σ β} (h : ∀ a, Closes store mayFail [] (f a) out') :
    ∀ as : List α, Closes store mayFail [] (as.mapM f) fun bs => bs.flatMap out'
  | [] => by
    rw [List.mapM_nil]
    exact .pure (by simp)
  | a :: as => by
    rw [List.mapM_cons]
    exact (h a).bind fun b => (mapM h as).bind fun bs => .pure (by simp +contextual [or_comm])

theorem onSome {f : α → Build σ β} (h : ∀ a, Closes store mayFail [] (f a) out') :
    ∀ value, Closes store mayFail [] (Factory.onSome f value) fun b => b.toList.flatMap out'
  | none => .pure (by simp)
  | some a => (h a).bind fun b => .pure (by simp)

theorem onlyIf (condition : Bool) (h : Closes store mayFail given step out) :
    Closes store mayFail given (Build.onlyIf condition step) fun a => a.toList.flatMap out := by
  unfold Build.onlyIf
  split
  · rw [map_eq_pure_bind]
    exact h.bind_given fun a => .pure (by simp +contextual)
  · exact .pure (by simp)

end Closes

end Build

namespace Arena

variable {k : DescriptorKind} {κ α : Type} {a : Arena k κ α} {h h' : Handle k}

theorem of_settled (hs : a.settled h = .ok h') : h' = h := by
  unfold settled at hs
  split at hs <;> cases hs <;> rfl

theorem mem_index_of_find? [BEq κ] [LawfulBEq κ] {key : κ} (hfind : a.find? key = some h) :
    (key, h) ∈ a.index := by
  obtain ⟨_, _, hindex, -⟩ := List.lookup_eq_some_iff.mp hfind
  simp [hindex]

end Arena

/-- A request for a key keeps a store closed if its builder does, and hands out the handle. -/
theorem Build.Closes.getOrCreate {mayFail : Prop} {k : DescriptorKind} [BEq k.Key] [LawfulBEq k.Key]
    {key : k.Key} {build : Handle k → Build Store k.Info}
    (hbuild : ∀ h, Closes Store.itself mayFail [] (build h) k.refs) :
    Closes Store.itself mayFail [] (Arena.getOrCreate (Store.part k) key build) fun h => [h.toRef] := by
  intro pending s result t hrun hok hs _
  -- The four ends of a request: the key is there, there is no slot left, and the builder fails or
  -- succeeds below a handle that is pending meanwhile.
  cases hfind : ((Store.part k).get s).find? key with
  | some h =>
    rw [Arena.runOn_getOrCreate_found hfind] at hrun
    obtain ⟨rfl, rfl⟩ := Prod.mk.inj hrun
    refine ⟨.refl s, hs, fun h' hset r hr => ?_⟩
    obtain rfl := Arena.of_settled hset
    cases List.mem_singleton.mp hr
    exact (hs.indexed k _ (Arena.mem_index_of_find? hfind)).imp_right .inl
  | none =>
    cases hp : ((Store.part k).get s).publish key with
    | error e =>
      rw [Arena.runOn_getOrCreate_full hfind hp] at hrun
      cases hrun
      exact ⟨.refl s, hs, by rintro _ ⟨⟩⟩
    | ok published =>
      obtain ⟨h, a⟩ := published
      have hnew := hs.not_pending (Store.slot?_new_of_publish hp)
      have hpublished : s.Grown ((Store.part k).set a s) := .set (.publish hp)
      rcases hbuilt : (build h).runOn ((Store.part k).set a s) with ⟨e | v, u⟩
      · -- A request whose builder fails has no result, so builders may fail here.
        have hfail : mayFail := by
          refine hok.resolve_right ?_
          rintro ⟨h', rfl⟩
          obtain ⟨hfind', -⟩ | ⟨_, _, _, _, -, hp', hbuilt', -⟩ := Arena.of_getOrCreate hrun
          · rw [hfind] at hfind'
            cases hfind'
          · cases hp.symm.trans hp'
            cases hbuilt.symm.trans hbuilt'
        obtain ⟨hgrown, hclosed, -⟩ :=
          hbuild h _ _ _ u hbuilt (.inl hfail) (hs.publish hp) (by simp)
        have hbuilding : (u.arena k).slot? h = some .building := hclosed.building _ (.inl rfl)
        rw [Arena.runOn_getOrCreate_failed hfind hp hbuilt hbuilding] at hrun
        cases hrun
        obtain ⟨hsettled, hclosed'⟩ :=
          hclosed.giveUp hnew hfail (hs.key_of_publish hp hgrown) e.message
        exact ⟨(hpublished.trans hgrown).trans hsettled, hclosed', by rintro _ ⟨⟩⟩
      · obtain ⟨hgrown, hclosed, hrefs⟩ :=
          hbuild h _ _ _ u hbuilt (.inr ⟨v, rfl⟩) (hs.publish hp) (by simp)
        have hbuilding : (u.arena k).slot? h = some .building := hclosed.building _ (.inl rfl)
        rw [Arena.runOn_getOrCreate_built hfind hp hbuilt hbuilding] at hrun
        cases hrun
        obtain ⟨hsettled, hclosed', hresolves⟩ := hclosed.finish hnew (hrefs v rfl)
        refine ⟨(hpublished.trans hgrown).trans hsettled, hclosed', ?_⟩
        rintro _ ⟨⟩ r hr
        cases List.mem_singleton.mp hr
        exact .inl hresolves

end TraceWeave

import TraceWeave.Proofs.Factory.Obtained

/-! # Descriptors under their keys

A descriptor carries the identity that it is filed under. A request keeps it so wherever it starts
and however it ends: a key is given away once while its builder runs, and a builder that fails
leaves no descriptor behind. Nothing is assumed about where the other descriptors of a store come
from.

`DescriptorKind.Carries` is what a descriptor and its key have in common, `Store.Filed` says it of
a store. `Store.Advances` is what a request does, put together from its steps by
`Store.Advances.of_request`.
-/

namespace TraceWeave

/-- A descriptor carries the identity that it is filed under. -/
def DescriptorKind.Carries : (k : DescriptorKind) → k.Key → k.Info → Prop
  | .location, key, info => info = key
  | .typeInfo, key, info => info.ty = key
  | .classInfo, key, info => info.qualifiedName = key
  | .functionInfo, key, info => info.key = key
  | .propertyInfo, key, info => info.key = key
  | .fieldInfo, key, info => info.qualifiedName = key.qualifiedName
  | .localInfo, key, info => info.simpleName = key.name
  | .parameterInfo, key, info => info.simpleName = key.name

namespace Arena

section

variable {k : DescriptorKind} {κ α : Type} {P : κ → α → Prop} {a b u c : Arena k κ α} {key : κ}
  {h : Handle k} {slot : Slot α}

/-- Keys lead to slots that exist, and the finished ones have descriptors that belong there. -/
structure Filed (P : κ → α → Prop) (a : Arena k κ α) : Prop where
  bounded : ∀ entry ∈ a.index, entry.2.index.toNat < a.slots.length
  carried : ∀ entry ∈ a.index, ∀ info, a.slot? entry.2 = some (.ready info) → P entry.1 info

theorem filed_empty : ({} : Arena k κ α).Filed P := ⟨nofun, nofun⟩

theorem Filed.publish (ha : a.Filed P) (hp : a.publish key = .ok (h, b)) : b.Filed P := by
  have hslot := slot?_publish hp
  obtain ⟨hlen, -, rfl⟩ := of_publish hp
  refine ⟨fun entry hentry => ?_, fun entry hentry info hinfo => ?_⟩
  · rw [List.length_append, List.length_singleton]
    rcases List.mem_append.mp hentry with hentry | hentry
    · exact Nat.lt_succ_of_lt (ha.bounded entry hentry)
    · rw [List.mem_singleton.mp hentry, hlen]
      exact Nat.lt_succ_self _
  · rw [hslot] at hinfo
    by_cases heq : entry.2 = h
    · rw [if_pos heq] at hinfo
      cases hinfo
    · rw [if_neg heq] at hinfo
      rcases List.mem_append.mp hentry with hentry | hentry
      · exact ha.carried entry hentry info hinfo
      · exact absurd (congrArg Prod.snd (List.mem_singleton.mp hentry)) heq

/-- Only one key leads to a slot under construction. -/
theorem Filed.key_of_publish (ha : a.Filed P) (hp : a.publish key = .ok (h, b))
    (hgrown : b.Grown u) {entry : κ × Handle k} (hentry : entry ∈ u.index) (heq : entry.2 = h) :
    entry.1 = key := by
  obtain ⟨hlen, -, rfl⟩ := of_publish hp
  have hlt : entry.2.index.toNat < (a.slots ++ [Slot.building]).length := by
    rw [heq, hlen, List.length_append]
    exact Nat.lt_succ_self _
  rcases List.mem_append.mp (hgrown.index entry hentry hlt) with hold | hnew
  · have hbound := ha.bounded entry hold
    rw [heq, hlen] at hbound
    exact absurd hbound (Nat.lt_irrefl _)
  · exact congrArg Prod.fst (List.mem_singleton.mp hnew)

/-- The construction of a slot ends, with a descriptor that belongs to its key or with none. -/
theorem Filed.settle (hu : u.Filed P) (hbuilding : u.slot? h = some .building)
    (hkey : ∀ entry ∈ u.index, entry.2 = h → entry.1 = key)
    (hslots : c.slots = u.slots.set h.index.toNat slot)
    (hsub : ∀ entry ∈ c.index, entry ∈ u.index) (hv : ∀ info, slot = .ready info → P key info) :
    c.Filed P := by
  have hput : ∀ h', c.slot? h' = if h' = h then some slot else u.slot? h' := fun h' => by
    rw [← slot?_put hbuilding]
    unfold slot?
    rw [hslots]
    rfl
  refine ⟨fun entry hentry => ?_, fun entry hentry info hinfo => ?_⟩
  · rw [hslots, List.length_set]
    exact hu.bounded entry (hsub entry hentry)
  · rw [hput] at hinfo
    by_cases heq : entry.2 = h
    · rw [if_pos heq] at hinfo
      rw [hkey entry (hsub entry hentry) heq]
      exact hv info (Option.some.inj hinfo)
    · rw [if_neg heq] at hinfo
      exact hu.carried entry (hsub entry hentry) info hinfo

end

end Arena

namespace Store

variable {s t u : Store} {k : DescriptorKind} {a c : Arena k k.Key k.Info} {key : k.Key}
  {h : Handle k}

/-- Every arena has its descriptors under their keys. -/
def Filed (s : Store) : Prop := ∀ k, (s.arena k).Filed k.Carries

theorem filed_empty : ({} : Store).Filed := fun k => by
  rw [arena_empty]
  exact Arena.filed_empty

theorem Filed.of_arena_eq (hs : s.Filed) (h : ∀ k, t.arena k = s.arena k) : t.Filed := fun k => by
  rw [h]
  exact hs k

theorem Filed.set (hs : s.Filed) (ha : a.Filed k.Carries) : ((part k).set a s).Filed :=
  forall_arena_set ha hs

/-- No descriptor is under construction. -/
def Idle (s : Store) : Prop := ∀ k (h : Handle k), (s.arena k).slot? h ≠ some .building

/-- What a request does to a store, however it ends. -/
structure Advances (s t : Store) : Prop where
  extended : s.Extends t
  grown : s.Grown t
  filed : s.Filed → t.Filed

theorem Advances.refl (s : Store) : s.Advances s := ⟨.refl s, .refl s, id⟩

theorem Advances.trans (hst : s.Advances t) (htu : t.Advances u) : s.Advances u :=
  ⟨hst.extended.trans htu.extended, hst.grown.trans htu.grown, htu.filed ∘ hst.filed⟩

theorem Advances.idle (hst : s.Advances t) (hs : s.Idle) : t.Idle := fun k h hbuilding =>
  hs k h (((hst.extended.arenas k).building_iff h).mp hbuilding)

/-- The slot of a key that was published is under construction until its own builder ends. -/
theorem Advances.building (hp : (s.arena k).publish key = .ok (h, a))
    (hadv : ((part k).set a s).Advances u) : (u.arena k).slot? h = some .building := by
  have hext := hadv.extended.arenas k
  rw [arena_set] at hext
  exact (hext.building_iff h).mpr ((Arena.slot?_publish hp h).trans (if_pos rfl))

/-- A request as a whole: a key is published, a builder runs, and the slot is settled. -/
theorem Advances.of_request (hp : (s.arena k).publish key = .ok (h, a))
    (hadv : ((part k).set a s).Advances u) {slot : Slot k.Info} (hslot : slot ≠ .building)
    (hslots : c.slots = (u.arena k).slots.set h.index.toNat slot)
    (hsub : ∀ entry ∈ c.index, entry ∈ (u.arena k).index)
    (hkept : ∀ entry ∈ (s.arena k).index, entry ∈ c.index)
    (hv : ∀ info, slot = .ready info → k.Carries key info) :
    s.Advances ((part k).set c u) := by
  have hbuilding := hadv.building hp
  have hext := hadv.extended.arenas k
  have hgrown := hadv.grown k
  rw [arena_set] at hext hgrown
  refine ⟨hadv.extended.of_set (.of_put hp hext hslot hslots hkept), ?_, fun hs => ?_⟩
  · have hsettled : u.Grown ((part k).set c u) := .set (.settle hbuilding hslots hsub)
    exact (Grown.set (.publish hp)).trans (hadv.grown.trans hsettled)
  · have hu := hadv.filed (hs.set ((hs k).publish hp))
    exact hu.set ((hu k).settle hbuilding
      (fun entry hentry heq => (hs k).key_of_publish hp hgrown hentry heq) hslots hsub hv)

end Store

end TraceWeave

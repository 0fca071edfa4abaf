import Mathlib.Data.List.Perm.Basic
import Mathlib.Data.List.Nodup
import TraceWeave.Descriptor.Arena

/-! # Slots and keys of an arena

Every key of an arena leads to a slot that is finished or under construction, and every such slot
has one key. Requests only add slots and leave those that were there as they are, so a slot stays
under construction until its own builder ends.

`Arena.Sound` is the invariant and `Arena.Extends` what requests do. The four ends of a request
are `Arena.runOn_getOrCreate_found`, `Arena.runOn_getOrCreate_full`,
`Arena.runOn_getOrCreate_built` and `Arena.runOn_getOrCreate_failed`.
-/

namespace TraceWeave

/-- Whether a slot is finished or under construction. -/
def Slot.isLive {α : Type} : Slot α → Bool
  | .failed _ => false
  | .building | .ready _ => true

theorem Handle.eq_of_toNat {k : DescriptorKind} {h h' : Handle k}
    (heq : h.index.toNat = h'.index.toNat) : h = h' := by
  cases h
  cases h'
  exact congrArg Handle.mk (UInt32.toNat_inj.mp heq)

namespace Arena

variable {k : DescriptorKind} {κ α : Type}

/-- The slot behind a handle. -/
def slot? (a : Arena k κ α) (h : Handle k) : Option (Slot α) := a.slots[h.index.toNat]?

/-- Ends the construction of a slot, whatever state it is in. -/
def put (a : Arena k κ α) (h : Handle k) (slot : Slot α) : Arena k κ α :=
  { a with slots := a.slots.set h.index.toNat slot }

/-- Keys and handles occur once, and the handles of keys are those of live slots. -/
structure Sound (a : Arena k κ α) : Prop where
  fits : a.slots.length ≤ capacity
  keys : (a.index.map Prod.fst).Nodup
  handles : (a.index.map Prod.snd).Nodup
  live : ∀ h, h ∈ a.index.map Prod.snd ↔ ∃ slot, a.slot? h = some slot ∧ slot.isLive

/-- What requests do to an arena: slots and keys stay, and new slots are settled. -/
structure Extends (a b : Arena k κ α) : Prop where
  slots : ∀ (i : Nat) slot, a.slots[i]? = some slot → b.slots[i]? = some slot
  settled : ∀ i : Nat, a.slots.length ≤ i → b.slots[i]? ≠ some .building
  index : ∀ entry ∈ a.index, entry ∈ b.index

theorem sound_empty : ({} : Arena k κ α).Sound where
  fits := Nat.zero_le _
  keys := .nil
  handles := .nil
  live h := by simp [slot?]

theorem Extends.refl (a : Arena k κ α) : a.Extends a where
  slots _ _ h := h
  settled i hi := by simp [List.getElem?_eq_none hi]
  index _ h := h

theorem Extends.trans {a b c : Arena k κ α} (hab : a.Extends b) (hbc : b.Extends c) :
    a.Extends c where
  slots i slot h := hbc.slots i slot (hab.slots i slot h)
  settled i hi := by
    cases hb : b.slots[i]? with
    | none => exact hbc.settled i (List.getElem?_eq_none_iff.mp hb)
    | some slot =>
      rw [hbc.slots i slot hb, ← hb]
      exact hab.settled i hi
  index entry h := hbc.index entry (hab.index entry h)

/-- The slots under construction stay the same. -/
theorem Extends.building_iff {a b : Arena k κ α} (hab : a.Extends b) (h : Handle k) :
    b.slot? h = some .building ↔ a.slot? h = some .building := by
  unfold slot?
  cases ha : a.slots[h.index.toNat]? with
  | none => simp [hab.settled _ (List.getElem?_eq_none_iff.mp ha)]
  | some slot => rw [hab.slots _ slot ha]

/-! ## Looking up -/

section

variable [BEq κ] [LawfulBEq κ] {a b : Arena k κ α} {key : κ} {h : Handle k}

theorem find?_eq_none_iff : a.find? key = none ↔ key ∉ a.index.map Prod.fst := by
  rw [find?, List.lookup_eq_none_iff]
  simp only [List.mem_map, not_exists, not_and, bne_iff_ne, ne_eq]
  exact ⟨fun hne entry hentry heq => hne entry hentry heq.symm,
    fun hne entry hentry heq => hne entry hentry heq.symm⟩

theorem find?_eq_some_iff (ha : (a.index.map Prod.fst).Nodup) :
    a.find? key = some h ↔ (key, h) ∈ a.index := by
  unfold find?
  generalize a.index = index at ha
  induction index with
  | nil => simp
  | cons entry rest ih =>
    obtain ⟨key', h'⟩ := entry
    obtain ⟨hnew, hrest⟩ := List.nodup_cons.mp ha
    by_cases heq : key = key'
    · subst heq
      have habsent : (key, h) ∉ rest := fun hmem => hnew (List.mem_map.mpr ⟨_, hmem, rfl⟩)
      simp [habsent, eq_comm]
    · rw [List.lookup_cons, beq_eq_false_iff_ne.mpr heq, List.mem_cons]
      simp [heq, ih hrest]

/-- Keys that are there stay there. -/
theorem Extends.find? (hab : a.Extends b) (ha : a.Sound) (hb : b.Sound)
    (hfind : a.find? key = some h) : b.find? key = some h :=
  (find?_eq_some_iff hb.keys).mpr (hab.index _ ((find?_eq_some_iff ha.keys).mp hfind))

/-- A key leads to a live slot. -/
theorem Sound.slot?_of_find? (ha : a.Sound) (hfind : a.find? key = some h) :
    ∃ slot, a.slot? h = some slot ∧ slot.isLive :=
  (ha.live h).mp (List.mem_map_of_mem ((find?_eq_some_iff ha.keys).mp hfind))

/-- A request for a key that is there gives its handle. -/
theorem Sound.settled_eq (ha : a.Sound) (hfind : a.find? key = some h) : a.settled h = .ok h := by
  obtain ⟨slot, hslot, hlive⟩ := ha.slot?_of_find? hfind
  unfold Arena.settled
  rw [show a.slots[h.index.toNat]? = some slot from hslot]
  cases slot with
  | building | ready => rfl
  | failed => exact absurd hlive Bool.false_ne_true

end

/-! ## The finished descriptors -/

/-- A finished slot is not one under construction. -/
theorem ne_of_ready {a : Arena k κ α} {h h' : Handle k} {v : α}
    (hready : a.slot? h = some (.ready v)) (hbuilding : a.slot? h' = some .building) : h ≠ h' := by
  rintro rfl
  cases hready.symm.trans hbuilding

theorem get?_eq_some_iff {a : Arena k κ α} {h : Handle k} {v : α} :
    a.get? h = some v ↔ a.slot? h = some (.ready v) := by
  unfold get? slot?
  cases a.slots[h.index.toNat]? with
  | none => simp
  | some slot => cases slot <;> simp [Slot.value?]

theorem mem_values {a : Arena k κ α} (ha : a.slots.length ≤ capacity) {h : Handle k} {v : α} :
    (h, v) ∈ a.values ↔ a.get? h = some v := by
  have hindex : ∀ i < a.slots.length, (UInt32.ofNat i).toNat = i := fun i hi =>
    UInt32.toNat_ofNat_of_lt' (Nat.lt_of_lt_of_le hi ha)
  unfold values
  rw [List.mem_filterMap, get?_eq_some_iff, slot?]
  constructor
  · rintro ⟨⟨slot, i⟩, hmem, hvalue⟩
    have hslot := List.mem_zipIdx_iff_getElem?.mp hmem
    obtain ⟨hi, -⟩ := List.getElem?_eq_some_iff.mp hslot
    cases slot with
    | ready w =>
      cases hvalue
      rwa [hindex i hi]
    | building | failed => cases hvalue
  · intro hslot
    refine ⟨(.ready v, h.index.toNat), List.mem_zipIdx_iff_getElem?.mpr hslot, ?_⟩
    simp [Slot.value?]

/-- The finished descriptors come in the order of their handles. -/
theorem values_sorted {a : Arena k κ α} (ha : a.slots.length ≤ capacity) :
    (a.values.map fun x => x.1.index.toNat).Pairwise (· < ·) := by
  unfold values
  rw [List.pairwise_map, List.pairwise_filterMap]
  have hsorted : (a.slots.zipIdx).Pairwise fun x y => x.2 < y.2 ∧ y.2 < a.slots.length := by
    rw [List.pairwise_iff_getElem]
    intro i j hi hj hij
    simp only [List.length_zipIdx] at hi hj
    simp only [List.getElem_zipIdx]
    omega
  refine hsorted.imp ?_
  rintro ⟨slot, i⟩ ⟨slot', j⟩ ⟨hij, hj⟩ x hx y hy
  obtain ⟨v, -, rfl⟩ := Option.map_eq_some_iff.mp hx
  obtain ⟨w, -, rfl⟩ := Option.map_eq_some_iff.mp hy
  have hi' : (UInt32.ofNat i).toNat = i :=
    UInt32.toNat_ofNat_of_lt' (Nat.lt_of_lt_of_le (Nat.lt_trans hij hj) ha)
  have hj' : (UInt32.ofNat j).toNat = j :=
    UInt32.toNat_ofNat_of_lt' (Nat.lt_of_lt_of_le hj ha)
  simpa [hi', hj'] using hij

/-- The finished descriptors, by their handles alone. -/
theorem mem_handles_values {a : Arena k κ α} (ha : a.slots.length ≤ capacity) (h : Handle k) :
    h ∈ a.values.map Prod.fst ↔ (a.get? h).isSome := by
  rw [List.mem_map, Option.isSome_iff_exists]
  constructor
  · rintro ⟨⟨_, v⟩, hmem, rfl⟩
    exact ⟨v, (Arena.mem_values ha).mp hmem⟩
  · rintro ⟨v, hv⟩
    exact ⟨(h, v), (Arena.mem_values ha).mpr hv, rfl⟩

theorem nodup_handles_values {a : Arena k κ α} (ha : a.slots.length ≤ capacity) :
    (a.values.map Prod.fst).Nodup := by
  rw [List.Nodup, List.pairwise_map]
  refine (List.pairwise_map.mp (values_sorted ha)).imp fun hlt heq => ?_
  rw [heq] at hlt
  exact absurd hlt (Nat.lt_irrefl _)

/-- An arena in which nothing is under construction: keys and finished descriptors belong to each
other, one to one. -/
structure Settled [BEq κ] (a : Arena k κ α) : Prop where
  none_building : ∀ slot ∈ a.slots, slot ≠ .building
  ready : ∀ key h, a.find? key = some h → (a.get? h).isSome
  keyed : ∀ h, (a.get? h).isSome → ∃! key, a.find? key = some h
  len : a.len = a.values.length
  mem_values : ∀ h v, (h, v) ∈ a.values ↔ a.get? h = some v
  sorted : (a.values.map fun x => x.1.index.toNat).Pairwise (· < ·)

/-- While nothing is under construction, keys lead to the finished descriptors. -/
theorem Sound.mem_handles_iff {a : Arena k κ α} (ha : a.Sound)
    (hnone : ∀ h, a.slot? h ≠ some .building) (h : Handle k) :
    h ∈ a.index.map Prod.snd ↔ (a.get? h).isSome := by
  rw [ha.live]
  constructor
  · rintro ⟨slot, hslot, hlive⟩
    cases slot with
    | building => exact absurd hslot (hnone h)
    | ready v => rw [get?_eq_some_iff.mpr hslot, Option.isSome_some]
    | failed => exact absurd hlive Bool.false_ne_true
  · intro hget
    obtain ⟨v, hv⟩ := Option.isSome_iff_exists.mp hget
    exact ⟨.ready v, get?_eq_some_iff.mp hv, rfl⟩

theorem Sound.settled_of_none_building [BEq κ] [LawfulBEq κ] {a : Arena k κ α} (ha : a.Sound)
    (hnone : ∀ h, a.slot? h ≠ some .building) : a.Settled := by
  have hready := ha.mem_handles_iff hnone
  constructor
  · intro slot hmem hslot
    obtain ⟨i, hi, rfl⟩ := List.mem_iff_getElem.mp hmem
    refine hnone ⟨UInt32.ofNat i⟩ ?_
    have hindex := UInt32.toNat_ofNat_of_lt' (Nat.lt_of_lt_of_le hi ha.fits)
    rw [slot?, hindex, List.getElem?_eq_getElem hi, hslot]
  · intro key h hfind
    exact (hready h).mp (List.mem_map_of_mem ((find?_eq_some_iff ha.keys).mp hfind))
  · intro h hget
    obtain ⟨⟨key, _⟩, hmem, rfl⟩ := List.mem_map.mp ((hready h).mpr hget)
    refine ⟨key, (find?_eq_some_iff ha.keys).mpr hmem, fun key' hfind => ?_⟩
    have hmem' := (find?_eq_some_iff ha.keys).mp hfind
    exact congrArg Prod.fst (List.inj_on_of_nodup_map ha.handles hmem' hmem rfl)
  · have hperm : (a.index.map Prod.snd).Perm (a.values.map Prod.fst) :=
      (List.perm_ext_iff_of_nodup ha.handles (nodup_handles_values ha.fits)).mpr fun h =>
        (hready h).trans (mem_handles_values ha.fits h).symm
    simpa [len] using hperm.length_eq
  · exact fun h v => Arena.mem_values ha.fits
  · exact values_sorted ha.fits

/-! ## What a request does to its arena -/

section

variable [BEq κ] [LawfulBEq κ] {a b u : Arena k κ α} {key : κ} {h : Handle k}

omit [BEq κ] [LawfulBEq κ] in
theorem of_publish (hp : a.publish key = .ok (h, b)) :
    h.index.toNat = a.slots.length ∧ a.slots.length < capacity ∧
      b = { index := a.index ++ [(key, h)], slots := a.slots ++ [.building] } := by
  unfold publish at hp
  split at hp
  · rename_i hlt
    cases hp
    exact ⟨UInt32.toNat_ofNat_of_lt' hlt, hlt, rfl⟩
  · cases hp

omit [BEq κ] [LawfulBEq κ] in
theorem slot?_publish (hp : a.publish key = .ok (h, b)) (h' : Handle k) :
    b.slot? h' = if h' = h then some .building else a.slot? h' := by
  obtain ⟨hindex, -, rfl⟩ := of_publish hp
  unfold slot?
  by_cases heq : h' = h
  · rw [if_pos heq, heq, hindex]
    simp
  · have hne : h'.index.toNat ≠ a.slots.length := fun hval =>
      heq (Handle.eq_of_toNat (hval.trans hindex.symm))
    rw [if_neg heq]
    rcases Nat.lt_or_gt_of_ne hne with hlt | hgt
    · exact List.getElem?_append_left hlt
    · rw [List.getElem?_eq_none (Nat.le_of_lt hgt), List.getElem?_eq_none]
      rw [List.length_append]
      exact hgt

theorem Sound.publish (ha : a.Sound) (hnone : a.find? key = none)
    (hp : a.publish key = .ok (h, b)) : b.Sound := by
  have hslot := slot?_publish hp
  obtain ⟨hindex, hlt, rfl⟩ := of_publish hp
  have hnew : a.slot? h = none := by
    rw [slot?, hindex]
    exact List.getElem?_eq_none (Nat.le_refl _)
  refine ⟨?_, ?_, ?_, fun h' => ?_⟩
  · rw [List.length_append]
    exact hlt
  · rw [List.map_append, List.nodup_append]
    refine ⟨ha.keys, by simp, fun x hx y hy => ?_⟩
    rintro rfl
    rw [List.mem_singleton.mp hy] at hx
    exact find?_eq_none_iff.mp hnone hx
  · rw [List.map_append, List.nodup_append]
    refine ⟨ha.handles, by simp, fun x hx y hy heq => ?_⟩
    rw [List.mem_singleton.mp hy] at heq
    obtain ⟨slot, hslot, -⟩ := (ha.live x).mp hx
    rw [heq, hnew] at hslot
    exact nomatch hslot
  · rw [List.map_append, List.mem_append, ha.live h', hslot h']
    by_cases heq : h' = h
    · simp [heq, Slot.isLive]
    · simp [heq]

omit [BEq κ] [LawfulBEq κ] in
theorem settle_eq {slot : Slot α} (hbuilding : a.slot? h = some .building) :
    a.settle h slot = .ok (a.put h slot) := by
  unfold settle
  rw [show a.slots[h.index.toNat]? = _ from hbuilding]
  rfl

omit [BEq κ] [LawfulBEq κ] in
theorem slot?_put {slot : Slot α} (hbuilding : a.slot? h = some .building) (h' : Handle k) :
    (a.put h slot).slot? h' = if h' = h then some slot else a.slot? h' := by
  obtain ⟨hlt, -⟩ := List.getElem?_eq_some_iff.mp (show a.slots[h.index.toNat]? = _ from hbuilding)
  unfold slot? put
  by_cases heq : h' = h
  · subst heq
    rw [if_pos rfl, List.getElem?_set_self hlt]
  · rw [if_neg heq, List.getElem?_set_ne fun hval => heq (Handle.eq_of_toNat hval.symm)]

omit [BEq κ] [LawfulBEq κ] in
theorem Sound.put_ready (ha : a.Sound) (hbuilding : a.slot? h = some .building) (v : α) :
    (a.put h (.ready v)).Sound where
  fits := by simpa [put] using ha.fits
  keys := ha.keys
  handles := ha.handles
  live h' := by
    rw [slot?_put hbuilding]
    by_cases heq : h' = h
    · subst heq
      simp [put, ha.live, hbuilding, Slot.isLive]
    · rw [if_neg heq]
      exact ha.live h'

theorem mem_forget {entry : κ × Handle k} :
    entry ∈ (a.forget key).index ↔ entry ∈ a.index ∧ entry.1 ≠ key := by
  simp [forget, List.mem_filter]

/-- Taking a key back together with its slot. -/
theorem Sound.put_failed (ha : a.Sound) (hbuilding : a.slot? h = some .building)
    (hkey : (key, h) ∈ a.index) (message : String) :
    ((a.forget key).put h (.failed message)).Sound where
  fits := by simpa [put, forget] using ha.fits
  keys := ha.keys.sublist (List.filter_sublist.map _)
  handles := ha.handles.sublist (List.filter_sublist.map _)
  live h' := by
    have hforget : (a.forget key).slot? h = some .building := hbuilding
    rw [slot?_put hforget]
    change h' ∈ (a.forget key).index.map Prod.snd ↔ _
    by_cases heq : h' = h
    · subst heq
      rw [if_pos rfl]
      refine iff_of_false (fun hmem => ?_) (by simp [Slot.isLive])
      obtain ⟨entry, hentry, hsnd⟩ := List.mem_map.mp hmem
      obtain ⟨hindex, hne⟩ := mem_forget.mp hentry
      exact hne (congrArg Prod.fst (List.inj_on_of_nodup_map ha.handles hindex hkey hsnd))
    · rw [if_neg heq]
      refine Iff.trans ?_ (ha.live h')
      constructor
      · exact fun hmem => (List.filter_sublist.map _).subset hmem
      · intro hmem
        obtain ⟨entry, hentry, rfl⟩ := List.mem_map.mp hmem
        refine List.mem_map_of_mem (mem_forget.mpr ⟨hentry, fun hfst => heq ?_⟩)
        exact congrArg Prod.snd (List.inj_on_of_nodup_map ha.keys hentry hkey hfst)

omit [BEq κ] [LawfulBEq κ] in
/-- A slot that was published and settled is a new settled slot. -/
theorem Extends.of_put (hp : a.publish key = .ok (h, b)) (hbu : b.Extends u) {slot : Slot α}
    (hslot : slot ≠ .building) {c : Arena k κ α}
    (hslots : c.slots = u.slots.set h.index.toNat slot)
    (hindex : ∀ entry ∈ a.index, entry ∈ c.index) : a.Extends c := by
  obtain ⟨hlen, -, rfl⟩ := of_publish hp
  have hother : ∀ i ≠ a.slots.length, c.slots[i]? = u.slots[i]? := by
    intro i hi
    rw [hslots, hlen, List.getElem?_set_ne hi.symm]
  refine ⟨fun i old hi => ?_, fun i hi => ?_, hindex⟩
  · obtain ⟨hlt, -⟩ := List.getElem?_eq_some_iff.mp hi
    rw [hother i (Nat.ne_of_lt hlt)]
    exact hbu.slots i old ((List.getElem?_append_left hlt).trans hi)
  · by_cases heq : i = a.slots.length
    · rw [hslots, hlen, heq, List.getElem?_set]
      simp only [if_true]
      split
      · simpa using hslot
      · simp
    · rw [hother i heq]
      exact hbu.settled i (by simp only [List.length_append, List.length_singleton]; omega)

end

/-! ## Requests that run a builder -/

section

variable {σ : Type} [BEq κ] {part : Part σ (Arena k κ α)} {key : κ} {build : Handle k → Build σ α}
  {s u : σ} {a : Arena k κ α} {h : Handle k}

omit [BEq κ] in
theorem runOn_store {step : Arena k κ α → Except Error (Arena k κ α)} {b : Arena k κ α}
    (h : step (part.get s) = .ok b) : (store part step).runOn s = (.ok (), part.set b s) := by
  unfold Build.runOn store
  rw [h]

/-- A request for a key that is there does nothing. -/
theorem runOn_getOrCreate_found (hfind : (part.get s).find? key = some h) :
    (getOrCreate part key build).runOn s = ((part.get s).settled h, s) := by
  unfold Build.runOn getOrCreate
  simp only [hfind]

/-- A request that gets no slot does nothing. -/
theorem runOn_getOrCreate_full (hfind : (part.get s).find? key = none) {e : Error}
    (hp : (part.get s).publish key = .error e) :
    (getOrCreate part key build).runOn s = (.error e, s) := by
  unfold Build.runOn getOrCreate
  simp only [hfind, hp]

/-- A request whose builder succeeds finishes the slot. -/
theorem runOn_getOrCreate_built (hfind : (part.get s).find? key = none)
    (hp : (part.get s).publish key = .ok (h, a)) {v : α}
    (hrun : (build h).runOn (part.set a s) = (.ok v, u))
    (hslot : (part.get u).slot? h = some .building) :
    (getOrCreate part key build).runOn s = (.ok h, part.set ((part.get u).put h (.ready v)) u) := by
  unfold Build.runOn getOrCreate
  simp only [hfind, hp, hrun]
  exact Build.runOn_bind_ok (runOn_store (settle_eq hslot))

/-- A request whose builder fails takes the key back and gives the slot up. -/
theorem runOn_getOrCreate_failed (hfind : (part.get s).find? key = none)
    (hp : (part.get s).publish key = .ok (h, a)) {e : Error}
    (hrun : (build h).runOn (part.set a s) = (.error e, u))
    (hslot : (part.get u).slot? h = some .building) :
    (getOrCreate part key build).runOn s =
      (.error e, part.set (((part.get u).forget key).put h (.failed e.message)) u) := by
  have hslot' : ((part.get u).forget key).slot? h = some .building := hslot
  have hstored : (store part fun a => (a.forget key).settle h (.failed e.message)).runOn u =
      (.ok (), part.set (((part.get u).forget key).put h (.failed e.message)) u) :=
    runOn_store (settle_eq hslot')
  unfold Build.runOn getOrCreate
  simp only [hfind, hp, hrun]
  exact Build.runOn_bind_ok hstored

end

end Arena

end TraceWeave

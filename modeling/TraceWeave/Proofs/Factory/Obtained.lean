import TraceWeave.Proofs.Factory.Descriptions

/-! # What requests leave in a store

A request that succeeds leaves its descriptor under the key of what was asked for, and everything
that it built on the way has the content of its own key. A request that fails takes its key back
and leaves the arenas sound. Both are shown for each builder; builders that ask for each other go
by induction on how many stand inside each other.

`Build.Obtains` is the judgement on a step, `Factory.Explained` what it keeps of the descriptors.
`Build.Obtains.getOrCreate` is the rule for a request, `Factory.obtains_within` the induction and
`Factory.obtains_serve` the result.
-/

namespace TraceWeave

namespace Store

/-- Whether every arena of a store is sound. -/
def Sound (s : Store) : Prop := ∀ k, (s.arena k).Sound

/-- What requests do to a store: slots, keys and texts stay, and new slots are settled. -/
structure Extends (s t : Store) : Prop where
  arenas : ∀ k, (s.arena k).Extends (t.arena k)
  texts : ∀ path lines, s.texts.files.lookup path = some lines →
    t.texts.files.lookup path = some lines

/-- A store that has at least the keys and texts of another one. -/
structure Later (t u : Store) : Prop where
  finds : ∀ {k : DescriptorKind} {key : k.Key} {h : Handle k}, t.Finds k key h → u.Finds k key h
  texts : ∀ path lines, t.texts.files.lookup path = some lines →
    u.texts.files.lookup path = some lines

/-- Whether the texts of a store were given for some spelling of their path. -/
def Sourced (sources : Source.Provider) (s : Store) : Prop :=
  ∀ path lines, s.texts.files.lookup path = some lines →
    ∃ spelling, .ofText spelling = path ∧ lines = sources spelling

variable {s t u : Store} {k : DescriptorKind} {a : Arena k k.Key k.Info}

theorem arena_empty : ({} : Store).arena k = {} := by
  cases k <;> rfl

theorem sound_empty : ({} : Store).Sound := fun k => by
  rw [arena_empty]
  exact Arena.sound_empty

theorem sourced_empty (sources : Source.Provider) : ({} : Store).Sourced sources := nofun

theorem Extends.refl (s : Store) : s.Extends s := ⟨fun _ => .refl _, fun _ _ h => h⟩

theorem Extends.trans (hst : s.Extends t) (htu : t.Extends u) : s.Extends u :=
  ⟨fun k => (hst.arenas k).trans (htu.arenas k),
    fun path lines h => htu.texts path lines (hst.texts path lines h)⟩

theorem Extends.later (h : s.Extends t) : s.Later t := ⟨(h.arenas _).index _, h.texts⟩

theorem Later.refl (s : Store) : s.Later s := ⟨id, fun _ _ h => h⟩

theorem Later.trans (hst : s.Later t) (htu : t.Later u) : s.Later u :=
  ⟨fun h => htu.finds (hst.finds h),
    fun path lines h => htu.texts path lines (hst.texts path lines h)⟩

theorem texts_set : ((part k).set a s).texts = s.texts := by
  cases k <;> rfl

theorem Sound.set (hs : s.Sound) (ha : a.Sound) : ((part k).set a s).Sound :=
  forall_arena_set ha hs

/-- One arena of a store and the rest of it may grow in different steps. -/
theorem Extends.of_set {b : Arena k k.Key k.Info} (h : ((part k).set b s).Extends t)
    (ha : (s.arena k).Extends a) : s.Extends ((part k).set a t) := by
  refine ⟨fun k' => ?_, fun path lines hl => ?_⟩
  · by_cases hk : k' = k
    · subst hk
      rwa [arena_set]
    · have hother := h.arenas k'
      rw [arena_set_of_ne hk] at hother ⊢
      exact hother
  · rw [texts_set]
    exact h.texts path lines (by rwa [texts_set])

/-- A store with an arena that has more keys. -/
theorem Later.set (ha : ∀ entry ∈ (s.arena k).index, entry ∈ a.index) :
    s.Later ((part k).set a s) := by
  refine ⟨fun {k'} {key} {h} hfinds => ?_, fun path lines hl => by rwa [texts_set]⟩
  unfold Finds at hfinds ⊢
  by_cases hk : k' = k
  · subst hk
    rw [arena_set]
    exact ha _ hfinds
  · rwa [arena_set_of_ne hk]

/-- A handle has one key. -/
theorem Sound.key_unique (hs : s.Sound) {key key' : k.Key} {h : Handle k} (hfinds : s.Finds k key h)
    (hfinds' : s.Finds k key' h) : key = key' :=
  congrArg Prod.fst (List.inj_on_of_nodup_map (hs k).handles hfinds hfinds' rfl)

/-- A key has one handle. -/
theorem Sound.handle_unique (hs : s.Sound) {key : k.Key} {h h' : Handle k}
    (hfinds : s.Finds k key h) (hfinds' : s.Finds k key h') : h = h' :=
  congrArg Prod.snd (List.inj_on_of_nodup_map (hs k).keys hfinds hfinds' rfl)

theorem Sound.handle_eq_iff (hs : s.Sound) {key key' : k.Key} {h h' : Handle k}
    (hfinds : s.Finds k key h) (hfinds' : s.Finds k key' h') : h = h' ↔ key = key' := by
  constructor
  · rintro rfl
    exact hs.key_unique hfinds hfinds'
  · rintro rfl
    exact hs.handle_unique hfinds hfinds'

end Store

namespace Factory

/-- Whether every finished descriptor has the content of its key. -/
def Explained (f : Factory) (asked : Request → Prop) (s : Store) : Prop :=
  ∀ (k : DescriptorKind) (key : k.Key) (h : Handle k) (info : k.Info), s.Finds k key h →
    (s.arena k).get? h = some info → ∀ u, s.Later u → f.Describes asked u k key info

section

variable {f : Factory} {asked : Request → Prop} {s : Store} {k : DescriptorKind} {key : k.Key}
  {h : Handle k} {a : Arena k k.Key k.Info}

theorem explained_empty : f.Explained asked {} := by
  intro k key h info hfinds
  rw [Store.Finds, Store.arena_empty] at hfinds
  cases hfinds

/-- An arena in which the finished descriptors are old or have the content of their keys. -/
theorem Explained.set (hs : f.Explained asked s)
    (hlater : ∀ entry ∈ (s.arena k).index, entry ∈ a.index)
    (ha : ∀ key h info, (key, h) ∈ a.index → a.get? h = some info →
      (s.Finds k key h ∧ (s.arena k).get? h = some info) ∨
        ∀ u, ((Store.part k).set a s).Later u → f.Describes asked u k key info) :
    f.Explained asked ((Store.part k).set a s) := by
  intro k' key' h' info hfinds hget u hu
  have hold := (Store.Later.set hlater).trans hu
  by_cases hk : k' = k
  · subst hk
    rw [Store.Finds, Store.arena_set] at hfinds
    rw [Store.arena_set] at hget
    rcases ha key' h' info hfinds hget with ⟨hfinds, hget⟩ | hnew
    · exact hs _ _ _ _ hfinds hget u hold
    · exact hnew u hu
  · rw [Store.Finds, Store.arena_set_of_ne hk] at hfinds
    rw [Store.arena_set_of_ne hk] at hget
    exact hs _ _ _ _ hfinds hget u hold

/-- A descriptor under construction has no content yet. -/
theorem Explained.publish (hs : f.Explained asked s) (hp : (s.arena k).publish key = .ok (h, a)) :
    f.Explained asked ((Store.part k).set a s) := by
  have hslot := Arena.slot?_publish hp
  obtain ⟨-, -, rfl⟩ := Arena.of_publish hp
  refine hs.set (fun _ => List.mem_append_left _) fun key' h' info hmem hget => .inl ?_
  have hready := Arena.get?_eq_some_iff.mp hget
  rw [hslot] at hready
  split at hready
  · cases hready
  · rename_i hne
    refine ⟨(List.mem_append.mp hmem).resolve_right fun hmem => hne ?_,
      Arena.get?_eq_some_iff.mpr hready⟩
    exact congrArg Prod.snd (List.mem_singleton.mp hmem)

theorem Explained.settle (hs : f.Explained asked s) (hsound : s.Sound)
    (hbuilding : (s.arena k).slot? h = some .building) (hfinds : s.Finds k key h) {v : k.Info}
    (hv : ∀ u, s.Later u → f.Describes asked u k key v) :
    f.Explained asked ((Store.part k).set ((s.arena k).put h (.ready v)) s) := by
  refine hs.set (fun _ hmem => hmem) fun key' h' info hmem hget => ?_
  have hready := Arena.get?_eq_some_iff.mp hget
  rw [Arena.slot?_put hbuilding] at hready
  split at hready
  · rename_i heq
    subst heq
    cases hready
    obtain rfl := hsound.key_unique hfinds hmem
    have hlater : s.Later ((Store.part k).set ((s.arena k).put h' (.ready v)) s) :=
      .set fun _ hmem => hmem
    exact .inr fun u hu => hv u (hlater.trans hu)
  · exact .inl ⟨hmem, Arena.get?_eq_some_iff.mpr hready⟩

end

end Factory

open Factory

namespace Build

variable {α β : Type} {f : Factory} {asked : Request → Prop}

/-- A step that extends a store and keeps it sound. If it succeeds, then descriptors that it has
built have the content of their keys, and what it gives is as `post` says in every later store. -/
def Obtains (f : Factory) (asked : Request → Prop) (step : Build Store α)
    (post : Store → α → Prop) : Prop :=
  ∀ s result t, step.runOn s = (result, t) → s.Sound → s.Sourced f.sources →
    (t.Sound ∧ t.Sourced f.sources ∧ s.Extends t) ∧
      ∀ a, result = .ok a → (f.Explained asked s → f.Explained asked t) ∧
        ∀ u, t.Later u → post u a

namespace Obtains

variable {step : Build Store α} {next : α → Build Store β} {post : Store → α → Prop}
  {post' : Store → β → Prop}

/-- A step that leaves the store as it is. -/
theorem of_same (hsame : ∀ s, (step.runOn s).2 = s)
    (hpost : ∀ s a, (step.runOn s).1 = .ok a → ∀ u, post u a) : Obtains f asked step post := by
  intro s result t hrun hsound hsourced
  obtain rfl : t = s := by rw [← hsame s, hrun]
  refine ⟨⟨hsound, hsourced, .refl t⟩, fun a ha => ⟨id, fun u _ => hpost t a ?_ u⟩⟩
  rw [hrun, ha]

theorem pure {a : α} (hpost : ∀ u, post u a) : Obtains f asked (Pure.pure a) post :=
  .of_same (fun _ => rfl) (by rintro _ _ ⟨⟩; exact hpost)

theorem fail (e : Error) : Obtains f asked (Build.fail e) post :=
  .of_same (fun _ => rfl) (by rintro _ _ ⟨⟩)

theorem fail_bind (e : Error) (next : α → Build Store β) :
    Obtains f asked (Build.fail e >>= next) post' :=
  .of_same (fun _ => rfl) (by rintro _ _ ⟨⟩)

theorem imp {post' : Store → α → Prop} (h : Obtains f asked step post)
    (hpost : ∀ u a, post u a → post' u a) : Obtains f asked step post' := by
  intro s result t hrun hsound hsourced
  obtain ⟨hkept, hok⟩ := h s result t hrun hsound hsourced
  exact ⟨hkept, fun a ha => ⟨(hok a ha).1, fun u hu => hpost u a ((hok a ha).2 u hu)⟩⟩

/-- What the first part gives is known to be as its `post` says when the second part ends. -/
theorem bind (h : Obtains f asked step post)
    (hnext : ∀ a, Obtains f asked (next a) fun u b => post u a → post' u b) :
    Obtains f asked (step >>= next) post' := by
  intro s result t hrun hsound hsourced
  rcases hstep : step.runOn s with ⟨e | a, w⟩
  · rw [runOn_bind_error hstep] at hrun
    cases hrun
    exact ⟨(h s _ _ hstep hsound hsourced).1, by rintro _ ⟨⟩⟩
  · rw [runOn_bind_ok hstep] at hrun
    obtain ⟨⟨hsound', hsourced', hextends⟩, hok⟩ := h s _ w hstep hsound hsourced
    obtain ⟨hexplained, hpost⟩ := hok a rfl
    obtain ⟨⟨hsound'', hsourced'', hextends'⟩, hok'⟩ := hnext a w result t hrun hsound' hsourced'
    refine ⟨⟨hsound'', hsourced'', hextends.trans hextends'⟩, fun b hb => ?_⟩
    obtain ⟨hexplained', hpost'⟩ := hok' b hb
    exact ⟨fun hs => hexplained' (hexplained hs),
      fun u hu => hpost' u hu (hpost u (hextends'.later.trans hu))⟩

theorem require {value : Option α} {e : Error}
    (hnext : ∀ a, value = some a → Obtains f asked (next a) post') :
    Obtains f asked (Build.require value e >>= next) post' := by
  cases value with
  | none => exact .fail_bind e next
  | some a => exact hnext a rfl

theorem ofExcept {value : Except Error α}
    (hnext : ∀ a, value = .ok a → Obtains f asked (next a) post') :
    Obtains f asked (Build.ofExcept value >>= next) post' := by
  cases value with
  | error e => exact .fail_bind e next
  | ok a => exact hnext a rfl

theorem mapM {step : α → Build Store β} {post : Store → α → β → Prop} : ∀ {as : List α},
    (∀ a ∈ as, Obtains f asked (step a) fun u => post u a) →
      Obtains f asked (as.mapM step) fun u bs => List.Forall₂ (post u) as bs
  | [], _ => by
    rw [List.mapM_nil]
    exact .pure fun _ => .nil
  | a :: as, h => by
    rw [List.mapM_cons]
    exact (h a (.head _)).bind fun b => (mapM fun a ha => h a (.tail _ ha)).bind fun bs =>
      .pure fun _ hbs hb => .cons hb hbs

theorem onSome {step : α → Build Store β} {post : Store → α → β → Prop}
    (h : ∀ a, Obtains f asked (step a) fun u => post u a) : ∀ value,
    Obtains f asked (Factory.onSome step value) fun u b => Option.Rel (post u) value b
  | none => .pure fun _ => .none
  | some a => (h a).bind fun _ => .pure fun _ hb => .some hb

/-- A request for a key leaves its handle under the key, if the builder gives the content of the
key. -/
theorem getOrCreate {k : DescriptorKind} [BEq k.Key] [LawfulBEq k.Key] {key : k.Key}
    {build : Handle k → Build Store k.Info}
    (hbuild : ∀ h, Obtains f asked (build h) fun u info => f.Describes asked u k key info) :
    Obtains f asked (Arena.getOrCreate (Store.part k) key build) fun u h => u.Finds k key h := by
  intro s result t hrun hsound hsourced
  cases hfind : ((Store.part k).get s).find? key with
  | some h =>
    rw [Arena.runOn_getOrCreate_found hfind] at hrun
    obtain ⟨rfl, rfl⟩ := Prod.mk.inj hrun
    refine ⟨⟨hsound, hsourced, .refl s⟩, fun h' hset => ⟨id, fun u hu => hu.finds ?_⟩⟩
    obtain rfl := Arena.of_settled hset
    exact Arena.mem_index_of_find? hfind
  | none =>
    cases hp : ((Store.part k).get s).publish key with
    | error e =>
      rw [Arena.runOn_getOrCreate_full hfind hp] at hrun
      cases hrun
      exact ⟨⟨hsound, hsourced, .refl s⟩, by rintro _ ⟨⟩⟩
    | ok published =>
      obtain ⟨h, a⟩ := published
      rcases hbuilt : (build h).runOn ((Store.part k).set a s) with ⟨result', w⟩
      have hsourced' : ((Store.part k).set a s).Sourced f.sources := by
        rwa [Store.Sourced, Store.texts_set]
      obtain ⟨⟨hsound', hsourcedw, hextends⟩, hok⟩ := hbuild h _ _ w hbuilt
        (hsound.set ((hsound k).publish hfind hp)) hsourced'
      -- While the builder runs, the slot stays under construction and its key in the index.
      have hgrown := hextends.arenas k
      rw [Store.arena_set] at hgrown
      have hbuilding : (w.arena k).slot? h = some .building :=
        (hgrown.building_iff h).mpr ((Arena.slot?_publish hp h).trans (if_pos rfl))
      have hkey : (key, h) ∈ (w.arena k).index := by
        obtain ⟨-, -, rfl⟩ := Arena.of_publish hp
        exact hgrown.index _ (by simp)
      have hold : ∀ entry ∈ (s.arena k).index, entry ∈ (w.arena k).index := by
        obtain ⟨-, -, rfl⟩ := Arena.of_publish hp
        exact fun entry hentry => hgrown.index _ (List.mem_append_left _ hentry)
      cases result' with
      | error e =>
        rw [Arena.runOn_getOrCreate_failed hfind hp hbuilt hbuilding] at hrun
        cases hrun
        refine ⟨⟨hsound'.set ((hsound' k).put_failed hbuilding hkey _), ?_,
          hextends.of_set (.of_put hp hgrown (by simp) rfl fun entry hentry => ?_)⟩, by rintro _ ⟨⟩⟩
        · rwa [Store.Sourced, Store.texts_set]
        · refine Arena.mem_forget.mpr ⟨hold entry hentry, fun heq => ?_⟩
          exact Arena.find?_eq_none_iff.mp hfind (heq ▸ List.mem_map_of_mem hentry)
      | ok v =>
        rw [Arena.runOn_getOrCreate_built hfind hp hbuilt hbuilding] at hrun
        cases hrun
        obtain ⟨hexplained, hpost⟩ := hok v rfl
        refine ⟨⟨hsound'.set ((hsound' k).put_ready hbuilding v), ?_,
          hextends.of_set (.of_put hp hgrown (by simp) rfl hold)⟩, ?_⟩
        · rwa [Store.Sourced, Store.texts_set]
        · rintro _ ⟨⟩
          -- The content is that of the key because the builder says so of the store that it leaves.
          refine ⟨fun hs => (hexplained (hs.publish hp)).settle hsound' hbuilding hkey hpost,
            fun u hu => hu.finds ?_⟩
          rw [Store.Finds, Store.arena_set]
          exact hkey

/-- A request for a declaration that the index knows. -/
theorem declared {k : DescriptorKind} [BEq k.Key] [LawfulBEq k.Key] {known : Option (Symbol × α)}
    (key : Symbol → α → k.Key) {s : Symbol} {info : α} {build : Handle k → Build Store k.Info}
    (hknown : known = some (s, info)) (hbuild : ∀ h, Obtains f asked (build h) fun u content =>
      f.Describes asked u k (key s info) content) :
    Obtains f asked (Arena.getOrCreate (Store.part k) (key s info) build) fun u h =>
      DeclaredAt u k known key h :=
  (getOrCreate hbuild).imp fun _ _ hfinds => ⟨s, info, hknown, hfinds⟩

end Obtains

end Build

/-! ## Builders of descriptors -/

namespace Factory

open Build

variable (f : Factory) {asked : Request → Prop}

theorem Explained.of_arena_eq {f : Factory} {s t : Store} (hs : f.Explained asked s)
    (h : ∀ k, t.arena k = s.arena k) (hlater : s.Later t) : f.Explained asked t := by
  intro k key x info hfinds hget u hu
  rw [Store.Finds, h] at hfinds
  rw [h] at hget
  exact hs k key x info hfinds hget u (hlater.trans hu)

/-- A position that was looked for is the one of the text that was read. -/
theorem obtains_position (span : Span) :
    Obtains f asked (f.position span) fun u position => f.Places u span position := by
  rintro s result t hrun hsound hsourced
  obtain ⟨position, rfl⟩ : ∃ position, result = .ok position := ⟨_, (congrArg Prod.fst hrun).symm⟩
  obtain ⟨hresolve, ht⟩ := f.of_position hrun
  have hposition : position = (s.texts.resolve f.sources _ _ _).1 := congrArg Prod.fst hresolve
  have htexts : t.texts = (s.texts.resolve f.sources _ _ _).2 := congrArg Prod.snd hresolve
  -- Looking up a place may read one text; the arenas stay as they are.
  have harena : ∀ k, t.arena k = s.arena k := fun k => by
    rw [ht]
    exact Store.arena_texts _
  have hextends : s.Extends t := by
    refine ⟨fun k => ?_, fun path lines hl => ?_⟩
    · rw [harena]
      exact .refl _
    · rw [htexts]
      exact Source.Cache.lookup_resolve hl
  refine ⟨⟨fun k => by rw [harena]; exact hsound k, fun path lines hl => ?_, hextends⟩, ?_⟩
  · rw [htexts] at hl
    unfold Source.Cache.resolve at hl
    -- A negative offset is answered without the lines of the file.
    split at hl
    · exact hsourced path lines hl
    · exact (Source.Cache.of_lookup_lines hl).elim (hsourced path lines) fun h => ⟨_, h⟩
  · rintro _ ⟨⟩
    refine ⟨fun hs => hs.of_arena_eq harena hextends.later, fun u hu => ?_⟩
    unfold Places
    unfold Source.Cache.resolve at hposition htexts
    split
    · rename_i hneg
      rw [hposition, if_pos hneg]
    · rename_i hneg
      rw [if_neg hneg] at hposition htexts
      refine ⟨_, hu.texts _ _ ?_, hposition⟩
      rw [htexts]
      exact Source.Cache.lookup_lines_self _ _ _

theorem obtains_ofLocation (l : SourceLocation) :
    Obtains f asked (ofLocation l) fun u h => u.Finds .location l h :=
  .getOrCreate (k := .location) fun _ => .pure fun _ => rfl

theorem obtains_location (span : Span) :
    Obtains f asked (f.location span) fun u h => f.LocationAt u span h := by
  refine (f.obtains_position span).bind fun position => ?_
  exact (f.obtains_ofLocation _).imp fun u h hfinds hplaces => ⟨position, hplaces, hfinds⟩

theorem obtains_declLocation (s : Symbol) :
    Obtains f asked (f.declLocation s) fun u h => f.DeclLocationAt u s h := by
  cases horigin : s.head.origin <;> simp only [declLocation, DeclLocationAt, horigin]
  · exact f.obtains_location _
  · exact f.obtains_location _
  · exact f.obtains_ofLocation _
  · exact f.obtains_ofLocation _

theorem obtains_typeInfo (ty : Ty) :
    Obtains f asked (f.typeInfo ty) fun u h => u.Finds .typeInfo ty h := by
  refine .getOrCreate (k := .typeInfo) fun _ => ?_
  dsimp only
  split
  · rename_i s hclass
    refine (f.obtains_declLocation s).bind fun _ => .pure fun u hlocation => .mk ?_
    rwa [TypeLocationAt, hclass]
  · rename_i hclass
    refine (f.obtains_ofLocation _).bind fun _ => .pure fun u hlocation => .mk ?_
    rwa [TypeLocationAt, hclass]

mutual

theorem obtains_annotationValue : ∀ arg : AnnotationArg,
    Obtains f asked (f.annotationValue arg) fun u v => ValueIs u arg v
  | .const .null | .const .unit | .const (.boolean _) | .const (.int _) | .const (.long _)
  | .const (.string _) => .pure fun _ => .const _
  | .type ty => (f.obtains_typeInfo ty).bind fun _ => .pure fun _ => .type
  | .array items => (obtains_annotationValues items).bind fun _ => .pure fun _ => .array

theorem obtains_annotationValues : ∀ args : List AnnotationArg,
    Obtains f asked (f.annotationValues args) fun u vs => ValuesAre u args vs
  | [] => .pure fun _ => .nil
  | item :: items =>
    (obtains_annotationValue item).bind fun _ => (obtains_annotationValues items).bind fun _ =>
      .pure fun _ hvalues hvalue => .cons hvalue hvalues

end

theorem obtains_usageArguments : ∀ (as : List AnnotationArgument) (found : NameMap AnnotationValue),
    Obtains f asked (f.usageArguments as found) fun u all => ArgumentsAre u as found all
  | [], found => .pure fun _ => .nil found
  | a :: as, _ =>
    (f.obtains_annotationValue a.value).bind fun _ =>
      (obtains_usageArguments as _).imp fun _ _ hrest hvalue => .cons hvalue hrest

theorem obtains_addAnnotations : ∀ (uses : List AnnotationUse) (m : AnnotationMap),
    Obtains f asked (f.addAnnotations uses m) fun u all => f.AnnotationsAre u uses m all
  | [], m => .pure fun _ => .nil m
  | use :: uses, _ =>
    (f.obtains_usageArguments use.arguments []).bind fun _ =>
      (f.obtains_location use.span).bind fun _ =>
        (f.obtains_typeInfo use.ty).bind fun _ =>
          (obtains_addAnnotations uses _).imp fun _ _ hrest hty hlocation harguments =>
            .cons ⟨harguments, hlocation, hty⟩ hrest

theorem obtains_annotations (uses : List AnnotationUse) :
    Obtains f asked (f.annotations uses) fun u all => f.AnnotationsAre u uses {} all :=
  f.obtains_addAnnotations uses {}

theorem obtains_parameterInfo {owner : UInt64} {ownerName : String} {index : Nat} {p : ParamHead}
    (hsite : f.OwnsParameter owner ownerName index p) :
    Obtains f asked (f.parameterInfo owner ownerName index p) fun u h =>
      u.Finds .parameterInfo (parameterKey owner p) h :=
  .getOrCreate (k := .parameterInfo) fun _ =>
    (f.obtains_location _).bind fun _ => (f.obtains_typeInfo _).bind fun _ =>
      (f.obtains_annotations _).bind fun _ => .pure fun _ hannotations hty hlocation =>
        .mk hsite rfl hlocation hty hannotations

theorem obtains_localInfo {owner : UInt64} {ownerName : String} {v : VariableSite}
    (hsite : f.OwnsLocal asked owner ownerName v) :
    Obtains f asked (f.localInfo owner ownerName v) fun u h =>
      u.Finds .localInfo (v.key owner) h :=
  .getOrCreate (k := .localInfo) fun _ =>
    (f.obtains_location _).bind fun _ => (f.obtains_typeInfo _).bind fun _ =>
      (f.obtains_annotations _).bind fun _ => .pure fun _ hannotations hty hlocation =>
        .mk hsite rfl hlocation hty hannotations

theorem obtains_fieldInfo (id : DeclId) :
    Obtains f asked (f.fieldInfo id) fun u h => f.FieldAt u id h := by
  refine .require fun ⟨s, head⟩ hid => .declared (k := .fieldInfo) f.fieldKeyOf hid fun _ => ?_
  exact (f.obtains_declLocation s).bind fun _ => (f.obtains_typeInfo head.ty).bind fun _ =>
    (f.obtains_annotations s.head.annotations).bind fun _ =>
      .pure fun _ hannotations hty hlocation => .mk hid rfl hlocation hty hannotations

/-- The builders that call each other, by induction on how many stand inside each other. -/
theorem obtains_within : ∀ fuel id,
    Obtains f asked (classInfoWithin f fuel id) (fun u h => f.ClassAt u id h) ∧
    Obtains f asked (memberInfoWithin f fuel id) (fun u m => f.MemberAt u id m) ∧
    Obtains f asked (functionInfoWithin f fuel id) (fun u h => f.FunctionAt u id h) ∧
    Obtains f asked (propertyInfoWithin f fuel id) (fun u h => f.PropertyAt u id h)
  | 0, _ => ⟨.fail _, .fail _, .fail _, .fail _⟩
  | fuel + 1, id => by
    have ih := obtains_within fuel
    -- A class, a member, a function and a property, each with the requests that its builder makes,
    -- in their order. Requests for other declarations have less fuel.
    refine ⟨?_, ?_, ?_, ?_⟩
    · refine .require fun known hid => ?_
      obtain ⟨s, c⟩ := known
      refine .declared (k := .classInfo) (fun s _ => s.fqName) hid fun _ => ?_
      exact (Obtains.mapM fun member _ => (ih member).2.1).bind fun _ =>
        (f.obtains_declLocation s).bind fun _ =>
          (f.obtains_annotations s.head.annotations).bind fun _ =>
            .pure fun _ hannotations hlocation hmembers =>
              .declared hid rfl hmembers hlocation hannotations
    · unfold memberInfoWithin MemberAt
      cases (f.symbols.get? id).map Symbol.kind with
      | none => exact .pure fun _ => rfl
      | some kind =>
        cases kind with
        | classSymbol nested =>
          dsimp only
          split
          · exact (ih id).1.bind fun h => .pure fun _ hat => ⟨h, hat, rfl⟩
          · exact .pure fun _ => rfl
        | function => exact (ih id).2.2.1.bind fun h => .pure fun _ hat => ⟨h, hat, rfl⟩
        | property => exact (ih id).2.2.2.bind fun h => .pure fun _ hat => ⟨h, hat, rfl⟩
        | field => exact .pure fun _ => rfl
        | initializer => exact .pure fun _ => rfl
    · refine .require fun known hid => ?_
      obtain ⟨s, g⟩ := known
      refine .declared (k := .functionInfo) f.functionKeyOf hid fun _ => ?_
      exact (Obtains.mapM fun p hp => f.obtains_parameterInfo (.declared hid hp)).bind fun _ =>
        (Obtains.mapM fun v hv => f.obtains_localInfo (.declared hid hv)).bind fun _ =>
          (Obtains.onSome (fun c => (ih c).1) _).bind fun _ =>
            (f.obtains_declLocation s).bind fun _ =>
              (f.obtains_typeInfo g.head.returnTy).bind fun _ =>
                (f.obtains_annotations s.head.annotations).bind fun _ =>
                  .pure fun _ hannotations hreturn hlocation hclass hlocals hparameters =>
                    .mk hid rfl hparameters hlocals hclass hlocation hreturn hannotations
    · refine .require fun known hid => ?_
      obtain ⟨s, p⟩ := known
      refine .declared (k := .propertyInfo) (fun s _ => f.propertyKeyOf s) hid fun _ => ?_
      dsimp only
      split
      · exact .fail_bind _ _
      · exact (f.obtains_declLocation s).bind fun _ =>
          (Obtains.onSome (fun g => (ih g).2.2.1) _).bind fun _ =>
            (Obtains.onSome (fun g => (ih g).2.2.1) _).bind fun _ =>
              (Obtains.onSome f.obtains_fieldInfo _).bind fun _ =>
                (f.obtains_annotations s.head.annotations).bind fun _ =>
                  .pure fun _ hannotations hbacking hsetter hgetter hlocation =>
                    .mk hid rfl hlocation hgetter hsetter hbacking hannotations

theorem obtains_classInfo (id : DeclId) :
    Obtains f asked (f.classInfo id) fun u h => f.ClassAt u id h :=
  (f.obtains_within f.bound id).1

theorem obtains_functionInfo (id : DeclId) :
    Obtains f asked (f.functionInfo id) fun u h => f.FunctionAt u id h :=
  (f.obtains_within f.bound id).2.2.1

theorem obtains_propertyInfo (id : DeclId) :
    Obtains f asked (f.propertyInfo id) fun u h => f.PropertyAt u id h :=
  (f.obtains_within f.bound id).2.2.2

theorem obtains_classInfoForType {ty : Ty} (hasked : asked (.classInfoForType ty)) :
    Obtains f asked (f.classInfoForType ty) fun u h => f.ClassForTypeAt u ty h := by
  cases hclass : f.classOfType? ty <;> simp only [classInfoForType, ClassForTypeAt, hclass]
  · exact .getOrCreate (k := .classInfo) fun _ => (f.obtains_ofLocation _).bind fun _ =>
      .pure fun _ hlocation => .bare hasked hclass rfl hlocation
  · exact f.obtains_classInfo _

theorem obtains_executableInfo : ∀ executable : Executable,
    Obtains f asked (f.executableInfo executable) fun u h => f.ExecutableAt u executable h
  | .function id => f.obtains_functionInfo id
  | .initializer _ (some _) =>
    .require fun ⟨s, c⟩ hclass => .require fun g hg =>
      (f.obtains_functionInfo g).imp fun _ _ hat => ⟨s, c, g, hclass, hg, hat⟩
  | .initializer _ none => .fail _

theorem obtains_frameCapture {executable : Executable} {locals : List VisibleLocal} {span : Span}
    (hasked : asked (.frameCapture executable locals span)) :
    Obtains f asked (f.frameCapture executable locals span) fun u c =>
      f.CaptureIs u executable locals span c := by
  refine .ofExcept fun ⟨owner, ownerName⟩ howner => ?_
  have hentry : ∀ v ∈ locals, Obtains f asked (do
      let info ← f.localInfo owner ownerName (.ofVisible v)
      return (⟨info, v.var⟩ : CapturedLocal)) fun u entry => entry.var = v.var ∧
        u.Finds .localInfo ((VariableSite.ofVisible v).key owner) entry.info := fun v hv =>
    (f.obtains_localInfo (.captured hasked howner hv)).bind fun _ => .pure fun _ hfinds =>
      ⟨rfl, hfinds⟩
  exact (Obtains.mapM hentry).bind fun _ => (f.obtains_location span).bind fun _ =>
    .pure fun _ hlocation hentries => ⟨⟨owner, ownerName, howner, hentries⟩, hlocation⟩

/-- **Requests.** A request that was asked for leaves what it is answered with. -/
theorem obtains_serve : ∀ {r : Request}, asked r →
    Obtains f asked (f.serve r) fun u a => f.AnswerIs u r a
  | .location span, _ => (f.obtains_location span).bind fun h => .pure fun _ hat => ⟨h, hat, rfl⟩
  | .typeInfo ty, _ => (f.obtains_typeInfo ty).bind fun h => .pure fun _ hat => ⟨h, hat, rfl⟩
  | .classInfo id, _ => (f.obtains_classInfo id).bind fun h => .pure fun _ hat => ⟨h, hat, rfl⟩
  | .classInfoForType _, hasked =>
    (f.obtains_classInfoForType hasked).bind fun h => .pure fun _ hat => ⟨h, hat, rfl⟩
  | .functionInfo id, _ =>
    (f.obtains_functionInfo id).bind fun h => .pure fun _ hat => ⟨h, hat, rfl⟩
  | .executableInfo executable, _ =>
    (f.obtains_executableInfo executable).bind fun h => .pure fun _ hat => ⟨h, hat, rfl⟩
  | .propertyInfo id, _ =>
    (f.obtains_propertyInfo id).bind fun h => .pure fun _ hat => ⟨h, hat, rfl⟩
  | .fieldInfo id, _ => (f.obtains_fieldInfo id).bind fun h => .pure fun _ hat => ⟨h, hat, rfl⟩
  | .frameCapture _ _ _, hasked =>
    (f.obtains_frameCapture hasked).bind fun c => .pure fun _ hc => ⟨c, hc, rfl⟩

end Factory

end TraceWeave

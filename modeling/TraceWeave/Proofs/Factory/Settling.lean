import TraceWeave.Proofs.Factory.Filed
import TraceWeave.Proofs.Factory.Members
import TraceWeave.Proofs.Program.Chains

/-! # Requests for descriptors come to an end

Builders of classes, functions and properties ask for each other around cycles. What ends the
recursion is that a builder has its key in an arena while it runs: inside it one declaration less is
left whose descriptor could be asked for anew. `Settles` judges two builders that may differ in how
many others they allow inside each other. From stores where few enough declarations are unbuilt they
run to the same end, in a store with the same keys and more, in which every descriptor still carries
the identity that it is filed under. Nothing is assumed of the store: it may come from other
modules, and from requests that failed.
-/

namespace TraceWeave

/-! ## Declarations that are left to build -/

namespace Factory

/-- The key that the descriptor of a symbol is filed under, for the declarations whose builders ask
for each other. -/
inductive Keyed (f : Factory) (x : Symbol) : (k : DescriptorKind) → k.Key → Prop
  | classInfo {info : ClassSymbol} (h : x.kind = .classSymbol info) : f.Keyed x .classInfo x.fqName
  | functionInfo {info : FunctionSymbol} (h : x.kind = .function info) :
    f.Keyed x .functionInfo (f.functionKeyOf x info)
  | propertyInfo {info : PropertySymbol} (h : x.kind = .property info) :
    f.Keyed x .propertyInfo ⟨x.fqName, f.enclosingHash x⟩

/-- Whether a request for the descriptor of a symbol would run a builder. -/
def Unbuilt (f : Factory) (s : Store) (x : Symbol) : Prop :=
  ∃ k key, f.Keyed x k key ∧ key ∉ (s.arena k).index.map Prod.fst

open Classical in
/-- How many symbols have descriptors that are left to build. -/
noncomputable def missing (f : Factory) (s : Store) : Nat :=
  f.symbols.newest.countP fun x => f.Unbuilt s x

variable {f : Factory} {s t : Store} {k : DescriptorKind} {key : k.Key}

theorem missing_le_length (s : Store) : f.missing s ≤ f.symbols.newest.length :=
  List.countP_le_length

/-- With more keys there are no more symbols left. -/
theorem Unbuilt.mono (hkeys : ∀ k, ∀ entry ∈ (s.arena k).index, entry ∈ (t.arena k).index)
    {x : Symbol} (h : f.Unbuilt t x) : f.Unbuilt s x := by
  obtain ⟨k, key, hkeyed, hkey⟩ := h
  refine ⟨k, key, hkeyed, fun hmem => hkey ?_⟩
  obtain ⟨entry, hentry, heq⟩ := List.mem_map.mp hmem
  exact List.mem_map.mpr ⟨entry, hkeys k entry hentry, heq⟩

theorem Keyed.unique {x : Symbol} {k k' : DescriptorKind} {key : k.Key} {key' : k'.Key}
    (h : f.Keyed x k key) (h' : f.Keyed x k' key') :
    (⟨k, key⟩ : Sigma DescriptorKind.Key) = ⟨k', key'⟩ := by
  cases h <;> cases h' <;> simp_all

theorem missing_le (hkeys : ∀ k, ∀ entry ∈ (s.arena k).index, entry ∈ (t.arena k).index) :
    f.missing t ≤ f.missing s := by
  classical
  refine List.countP_mono_left fun x _ hx => ?_
  exact decide_eq_true ((of_decide_eq_true hx).mono hkeys)

/-- Keys that were published are there, next to the old ones. -/
theorem mem_index_of_publish {h : Handle k} {a : Arena k k.Key k.Info}
    (hp : (s.arena k).publish key = .ok (h, a)) {k' : DescriptorKind}
    {entry : k'.Key × Handle k'} (hentry : entry ∈ (s.arena k').index) :
    entry ∈ (((Store.part k).set a s).arena k').index := by
  by_cases hk : k' = k
  · subst hk
    obtain ⟨-, -, rfl⟩ := Arena.of_publish hp
    rw [Store.arena_set]
    exact List.mem_append_left _ hentry
  · rwa [Store.arena_set_of_ne hk]

/-- Inside the builder of a declaration there is one less that is left. -/
theorem missing_lt_of_publish {x : Symbol} (hx : x ∈ f.symbols.newest) (hkeyed : f.Keyed x k key)
    (hnone : key ∉ (s.arena k).index.map Prod.fst) {h : Handle k} {a : Arena k k.Key k.Info}
    (hp : (s.arena k).publish key = .ok (h, a)) :
    f.missing ((Store.part k).set a s) < f.missing s := by
  classical
  have hmono : ∀ y, f.Unbuilt ((Store.part k).set a s) y → f.Unbuilt s y := fun y hy =>
    hy.mono fun _ _ => mem_index_of_publish hp
  have hbuilt : ¬f.Unbuilt ((Store.part k).set a s) x := by
    rintro ⟨k', key', hkeyed', hkey'⟩
    cases hkeyed.unique hkeyed'
    obtain ⟨-, -, rfl⟩ := Arena.of_publish hp
    rw [Store.arena_set] at hkey'
    exact hkey' (List.mem_map.mpr ⟨_, List.mem_append_right _ (List.mem_singleton_self _), rfl⟩)
  obtain ⟨before, after, hsplit⟩ := List.append_of_mem hx
  have hle : ∀ ys : List Symbol, ys.countP (fun y => f.Unbuilt ((Store.part k).set a s) y) ≤
      ys.countP fun y => f.Unbuilt s y := fun ys =>
    List.countP_mono_left fun y _ hy => decide_eq_true (hmono y (of_decide_eq_true hy))
  unfold missing
  rw [hsplit, List.countP_append, List.countP_append,
    List.countP_cons_of_neg (by simpa using hbuilt),
    List.countP_cons_of_pos (by simpa using ⟨k, key, hkeyed, hnone⟩)]
  have hbefore := hle before
  have hafter := hle after
  omega

/-! ## Steps that settle -/

/-- An error about declarations or descriptors, and not about builders inside each other. -/
theorem ne_nestedTooDeep {text : String} (h : text.toList.take 11 ≠ "descriptors".toList) :
    Error.invalidState text ≠ nestedTooDeep := fun heq =>
  h (congrArg (fun t => t.toList.take 11) (Error.invalidState.inj heq))

theorem notA_ne (id : DeclId) (what : String) : notA id what ≠ nestedTooDeep :=
  ne_nestedTooDeep (by simp [toString])

theorem settled_ne {κ α : Type} {a : Arena k κ α} {h : Handle k} {e : Error}
    (he : a.settled h = .error e) : e ≠ nestedTooDeep := by
  unfold Arena.settled at he
  split at he <;> cases he
  · exact ne_nestedTooDeep (by simp [toString])
  · exact ne_nestedTooDeep (by simp [toString])

theorem publish_ne {κ α : Type} {a : Arena k κ α} {key : κ} {e : Error}
    (he : a.publish key = .error e) : e ≠ nestedTooDeep := by
  unfold Arena.publish at he
  split at he <;> cases he
  exact ne_nestedTooDeep (by simp)

/-- From stores where less than `n` declarations are left to build, two steps run to the same end.
They advance the store, do not fail for being nested too deep, and give what `post` says. -/
def Settles (f : Factory) (n : Nat) {α : Type} (x y : Build Store α) (post : Store → α → Prop) :
    Prop :=
  ∀ s, f.missing s < n → ∃ r t, x.runOn s = (r, t) ∧ y.runOn s = (r, t) ∧ s.Advances t ∧
    (∀ e, r = .error e → e ≠ nestedTooDeep) ∧ ∀ a, r = .ok a → post t a

/-- A step that settles, whatever it gives. -/
abbrev Ends (f : Factory) (n : Nat) {α : Type} (x y : Build Store α) : Prop :=
  f.Settles n x y fun _ _ => True

namespace Settles

variable {n m : Nat} {α β : Type} {x y : Build Store α} {next next' : α → Build Store β}
  {post : Store → α → Prop} {post' : Store → β → Prop}

theorem zero : f.Settles 0 x y post := fun _ hs => absurd hs (Nat.not_lt_zero _)

theorem imp {post' : Store → α → Prop} (h : f.Settles n x y post)
    (hpost : ∀ t a, post t a → post' t a) : f.Settles n x y post' := by
  intro s hs
  obtain ⟨r, t, hx, hy, hadv, herror, hok⟩ := h s hs
  exact ⟨r, t, hx, hy, hadv, herror, fun a ha => hpost t a (hok a ha)⟩

theorem ends (h : f.Settles n x y post) : f.Ends n x y := h.imp fun _ _ _ => trivial

/-- A step that only looks. -/
theorem pure {a : α} (hpost : ∀ t, post t a) : f.Settles n (Pure.pure a) (Pure.pure a) post :=
  fun s _ => ⟨.ok a, s, rfl, rfl, .refl s, nofun, fun _ h => Except.ok.inj h ▸ hpost s⟩

theorem fail {e : Error} (he : e ≠ nestedTooDeep) :
    f.Settles n (Build.fail e) (Build.fail e) post :=
  fun s _ => ⟨.error e, s, rfl, rfl, .refl s, fun _ h => Except.error.inj h ▸ he, nofun⟩

theorem fail_bind {e : Error} (he : e ≠ nestedTooDeep) :
    f.Settles n (Build.fail e >>= next) (Build.fail e >>= next') post' :=
  fun s _ => ⟨.error e, s, rfl, rfl, .refl s, fun _ h => Except.error.inj h ▸ he, nofun⟩

theorem require {value : Option α} {e : Error} (he : e ≠ nestedTooDeep)
    (hnext : ∀ a, value = some a → f.Settles n (next a) (next' a) post') :
    f.Settles n (Build.require value e >>= next) (Build.require value e >>= next') post' := by
  cases value with
  | none => exact fail_bind he
  | some a => exact hnext a rfl

theorem ofExcept {value : Except Error α} (he : ∀ e, value = .error e → e ≠ nestedTooDeep)
    (hnext : ∀ a, value = .ok a → f.Settles n (next a) (next' a) post') :
    f.Settles n (Build.ofExcept value >>= next) (Build.ofExcept value >>= next') post' := by
  cases value with
  | error e => exact fail_bind (he e rfl)
  | ok a => exact hnext a rfl

theorem bind (h : f.Settles n x y post)
    (hnext : ∀ a, f.Settles n (next a) (next' a) post') :
    f.Settles n (x >>= next) (y >>= next') post' := by
  intro s hs
  obtain ⟨r, t, hx, hy, hadv, herror, -⟩ := h s hs
  cases r with
  | error e =>
    exact ⟨.error e, t, Build.runOn_bind_error hx, Build.runOn_bind_error hy, hadv,
      fun _ h => Except.error.inj h ▸ herror e rfl, nofun⟩
  | ok a =>
    have ht : f.missing t < n :=
      Nat.lt_of_le_of_lt (missing_le fun k => (hadv.extended.arenas k).index) hs
    obtain ⟨r, u, hx', hy', hadv', herror', hok⟩ := hnext a t ht
    refine ⟨r, u, ?_, ?_, hadv.trans hadv', herror', hok⟩
    · rw [Build.runOn_bind_ok hx, hx']
    · rw [Build.runOn_bind_ok hy, hy']

/-- A result that is only wrapped. -/
theorem wrap (h : f.Ends n x y) (wrapper : α → β) :
    f.Ends n (do return wrapper (← x)) (do return wrapper (← y)) :=
  h.bind fun _ => .pure fun _ => trivial

theorem mapM {step step' : α → Build Store β} : ∀ {as : List α},
    (∀ a ∈ as, f.Ends n (step a) (step' a)) → f.Ends n (as.mapM step) (as.mapM step')
  | [], _ => by
    rw [List.mapM_nil, List.mapM_nil]
    exact .pure fun _ => trivial
  | a :: as, h => by
    rw [List.mapM_cons, List.mapM_cons]
    exact (h a (.head _)).bind fun b => (mapM fun a ha => h a (.tail _ ha)).bind fun bs =>
      .pure fun _ => trivial

theorem onSome {step step' : α → Build Store β} (h : ∀ a, f.Ends n (step a) (step' a)) : ∀ value,
    f.Ends n (Factory.onSome step value) (Factory.onSome step' value)
  | none => .pure fun _ => trivial
  | some a => (h a).wrap some

section

variable {k : DescriptorKind} [BEq k.Key] [LawfulBEq k.Key] {key : k.Key}
  {build build' : Handle k → Build Store k.Info}

/-- A request for a key settles if its builders do, from the stores in which they run. -/
theorem of_builders
    (hless : ∀ s h a, f.missing s < m → key ∉ (s.arena k).index.map Prod.fst →
      (s.arena k).publish key = .ok (h, a) → f.missing ((Store.part k).set a s) < n)
    (hbuild : ∀ h, f.Settles n (build h) (build' h) fun _ => k.Carries key) :
    f.Settles m (Arena.getOrCreate (Store.part k) key build)
      (Arena.getOrCreate (Store.part k) key build') fun t h => t.Finds k key h := by
  intro s hs
  -- Both requests take the same way: they find the key, get no slot, or run their builders, which
  -- is where the bound is used.
  cases hfind : ((Store.part k).get s).find? key with
  | some h =>
    refine ⟨_, s, Arena.runOn_getOrCreate_found hfind, Arena.runOn_getOrCreate_found hfind,
      .refl s, fun e he => settled_ne he, fun h' hset => ?_⟩
    obtain rfl := Arena.of_settled hset
    exact Arena.mem_index_of_find? hfind
  | none =>
    have hnone := Arena.find?_eq_none_iff.mp hfind
    cases hp : ((Store.part k).get s).publish key with
    | error e =>
      exact ⟨_, s, Arena.runOn_getOrCreate_full hfind hp, Arena.runOn_getOrCreate_full hfind hp,
        .refl s, fun _ he => Except.error.inj he ▸ publish_ne hp, nofun⟩
    | ok published =>
      obtain ⟨h, a⟩ := published
      obtain ⟨r, u, hx, hy, hadv, herror, hok⟩ := hbuild h _ (hless s h a hs hnone hp)
      have hbuilding := hadv.building hp
      have hext := hadv.extended.arenas k
      have hold : ∀ entry ∈ (s.arena k).index, entry ∈ (u.arena k).index := fun entry hentry =>
        hext.index _ (mem_index_of_publish hp hentry)
      cases r with
      | error e =>
        have hfailed : (.failed e.message : Slot k.Info) ≠ .building := nofun
        refine ⟨_, _, Arena.runOn_getOrCreate_failed hfind hp hx hbuilding,
          Arena.runOn_getOrCreate_failed hfind hp hy hbuilding,
          .of_request hp hadv hfailed rfl
            (fun entry hentry => (Arena.mem_forget.mp hentry).1)
            (fun entry hentry => Arena.mem_forget.mpr ⟨hold entry hentry, fun heq => ?_⟩) nofun,
          fun _ he => Except.error.inj he ▸ herror e rfl, nofun⟩
        exact hnone (heq ▸ List.mem_map_of_mem hentry)
      | ok v =>
        have hready : (.ready v : Slot k.Info) ≠ .building := nofun
        refine ⟨_, _, Arena.runOn_getOrCreate_built hfind hp hx hbuilding,
          Arena.runOn_getOrCreate_built hfind hp hy hbuilding,
          .of_request hp hadv hready rfl (fun _ hentry => hentry) hold
            (fun info hinfo => Slot.ready.inj hinfo ▸ hok v rfl), nofun, ?_⟩
        rintro _ ⟨⟩
        rw [Store.Finds, Store.arena_set]
        refine hext.index _ ?_
        obtain ⟨-, -, rfl⟩ := Arena.of_publish hp
        rw [Store.arena_set]
        exact List.mem_append_right _ (List.mem_singleton_self _)

/-- A request whose builders ask for no declaration. -/
theorem getOrCreate (hbuild : ∀ h, f.Settles n (build h) (build' h) fun _ => k.Carries key) :
    f.Settles n (Arena.getOrCreate (Store.part k) key build)
      (Arena.getOrCreate (Store.part k) key build') fun t h => t.Finds k key h :=
  of_builders (fun _ _ _ hs _ hp =>
    Nat.lt_of_le_of_lt (missing_le fun _ _ => mem_index_of_publish hp) hs) hbuild

/-- A request for a declaration, whose builders may ask for the others that are left. -/
theorem declared {x : Symbol} (hx : x ∈ f.symbols.newest) (hkeyed : f.Keyed x k key)
    (hbuild : ∀ h, f.Settles n (build h) (build' h) fun _ => k.Carries key) :
    f.Settles (n + 1) (Arena.getOrCreate (Store.part k) key build)
      (Arena.getOrCreate (Store.part k) key build') fun t h => t.Finds k key h :=
  of_builders (fun _ _ _ hs hnone hp =>
    Nat.lt_of_lt_of_le (missing_lt_of_publish hx hkeyed hnone hp) (Nat.le_of_lt_succ hs)) hbuild

end

end Settles

/-! ## Builders without declarations -/

section

variable (f : Factory) (n : Nat)

theorem settles_position (span : Span) : f.Ends n (f.position span) (f.position span) := by
  intro s _
  rcases hrun : (f.position span).runOn s with ⟨r, t⟩
  obtain ⟨position, rfl⟩ : ∃ position, r = .ok position := ⟨_, (congrArg Prod.fst hrun).symm⟩
  obtain ⟨hresolve, ht⟩ := f.of_position hrun
  have harena : ∀ k, t.arena k = s.arena k := fun k => by
    rw [ht]
    exact Store.arena_texts _
  refine ⟨_, t, rfl, rfl, ⟨⟨fun k => ?_, fun path lines hl => ?_⟩, fun k => ?_,
    fun hs => hs.of_arena_eq harena⟩, nofun, fun _ _ => trivial⟩
  · rw [harena]
    exact .refl _
  · rw [show t.texts = _ from congrArg Prod.snd hresolve]
    exact Source.Cache.lookup_resolve hl
  · rw [harena]
    exact .refl _

theorem settles_ofLocation (l : SourceLocation) : f.Ends n (ofLocation l) (ofLocation l) :=
  .ends (.getOrCreate (k := .location) fun _ => .pure fun _ => rfl)

theorem settles_location (span : Span) : f.Ends n (f.location span) (f.location span) :=
  (f.settles_position n span).bind fun _ => f.settles_ofLocation n _

theorem settles_declLocation (s : Symbol) :
    f.Ends n (f.declLocation s) (f.declLocation s) := by
  unfold declLocation
  split
  · exact f.settles_ofLocation n _
  · exact f.settles_ofLocation n _
  · exact f.settles_location n _
  · exact f.settles_location n _

theorem settles_typeInfo (ty : Ty) : f.Ends n (f.typeInfo ty) (f.typeInfo ty) := by
  refine .ends (.getOrCreate (k := .typeInfo) fun _ => ?_)
  dsimp only
  split
  · exact (f.settles_declLocation n _).bind fun _ => .pure fun _ => rfl
  · exact (f.settles_ofLocation n _).bind fun _ => .pure fun _ => rfl

mutual

theorem settles_annotationValue : ∀ arg : AnnotationArg,
    f.Ends n (f.annotationValue arg) (f.annotationValue arg)
  | .const .null | .const .unit | .const (.boolean _) | .const (.int _) | .const (.long _)
  | .const (.string _) => .pure fun _ => trivial
  | .type ty => (f.settles_typeInfo n ty).wrap _
  | .array items => (settles_annotationValues items).wrap _

theorem settles_annotationValues : ∀ args : List AnnotationArg,
    f.Ends n (f.annotationValues args) (f.annotationValues args)
  | [] => .pure fun _ => trivial
  | item :: items => (settles_annotationValue item).bind fun _ =>
    (settles_annotationValues items).wrap _

end

theorem settles_usageArguments : ∀ (as : List AnnotationArgument) (found : NameMap AnnotationValue),
    f.Ends n (f.usageArguments as found) (f.usageArguments as found)
  | [], _ => .pure fun _ => trivial
  | a :: as, _ =>
    (f.settles_annotationValue n a.value).bind fun _ => settles_usageArguments as _

theorem settles_addAnnotations : ∀ (uses : List AnnotationUse) (m : AnnotationMap),
    f.Ends n (f.addAnnotations uses m) (f.addAnnotations uses m)
  | [], _ => .pure fun _ => trivial
  | use :: uses, _ =>
    (f.settles_usageArguments n use.arguments []).bind fun _ =>
      (f.settles_location n use.span).bind fun _ =>
        (f.settles_typeInfo n use.ty).bind fun _ => settles_addAnnotations uses _

theorem settles_annotations (uses : List AnnotationUse) :
    f.Ends n (f.annotations uses) (f.annotations uses) :=
  f.settles_addAnnotations n uses {}

theorem settles_parameterInfo (owner : UInt64) (ownerName : String) (index : Nat) (p : ParamHead) :
    f.Ends n (f.parameterInfo owner ownerName index p) (f.parameterInfo owner ownerName index p) :=
  .ends (.getOrCreate (k := .parameterInfo) fun _ =>
    (f.settles_location n _).bind fun _ => (f.settles_typeInfo n _).bind fun _ =>
      (f.settles_annotations n _).bind fun _ => .pure fun _ => rfl)

theorem settles_localInfo (owner : UInt64) (ownerName : String) (v : VariableSite) :
    f.Ends n (f.localInfo owner ownerName v) (f.localInfo owner ownerName v) :=
  .ends (.getOrCreate (k := .localInfo) fun _ =>
    (f.settles_location n _).bind fun _ => (f.settles_typeInfo n _).bind fun _ =>
      (f.settles_annotations n _).bind fun _ => .pure fun _ => rfl)

theorem settles_fieldInfo (id : DeclId) : f.Ends n (f.fieldInfo id) (f.fieldInfo id) := by
  refine .require (notA_ne id _) fun ⟨s, field⟩ _ => ?_
  exact .ends (.getOrCreate (k := .fieldInfo) fun _ =>
    (f.settles_declLocation n s).bind fun _ => (f.settles_typeInfo n field.ty).bind fun _ =>
      (f.settles_annotations n s.head.annotations).bind fun _ => .pure fun _ => rfl)

end

/-! ## Builders around cycles -/

section

variable (f : Factory) {fuel more n : Nat} {id : DeclId}

/-- A class settles if its members do with one declaration less to build. -/
theorem settles_class
    (hmembers : ∀ member,
      f.Ends n (memberInfoWithin f fuel member) (memberInfoWithin f more member)) :
    f.Settles (n + 1) (classInfoWithin f (fuel + 1) id) (classInfoWithin f (more + 1) id)
      fun t h => f.ClassAt t id h := by
  refine .require (notA_ne id _) fun ⟨s, c⟩ hid => ?_
  obtain ⟨hget, hkind⟩ := of_class? hid
  refine .imp (.declared (k := .classInfo) (List.mem_of_find?_eq_some hget) (.classInfo hkind)
    fun _ => ?_) fun _ _ hfinds => ⟨s, c, hid, hfinds⟩
  exact (Settles.mapM fun member _ => hmembers member).bind fun _ =>
    (f.settles_declLocation n s).bind fun _ =>
      (f.settles_annotations n s.head.annotations).bind fun _ => .pure fun _ => rfl

/-- A member takes a step of its own to the declaration that it is. -/
theorem settles_member
    (hclass : f.Ends n (classInfoWithin f fuel id) (classInfoWithin f more id))
    (hfunction : f.Ends n (functionInfoWithin f fuel id) (functionInfoWithin f more id))
    (hproperty : f.Ends n (propertyInfoWithin f fuel id) (propertyInfoWithin f more id)) :
    f.Ends n (memberInfoWithin f (fuel + 1) id) (memberInfoWithin f (more + 1) id) := by
  unfold memberInfoWithin
  cases (f.symbols.get? id).map Symbol.kind with
  | none => exact .pure fun _ => trivial
  | some kind =>
    cases kind with
    | classSymbol nested =>
      dsimp only
      split
      · exact hclass.wrap _
      · exact .pure fun _ => trivial
    | function => exact hfunction.wrap _
    | property => exact hproperty.wrap _
    | field => exact .pure fun _ => trivial
    | initializer => exact .pure fun _ => trivial

/-- A function settles if its class does with one declaration less to build. -/
theorem settles_function
    (hclass : ∀ c, f.Ends n (classInfoWithin f fuel c) (classInfoWithin f more c)) :
    f.Settles (n + 1) (functionInfoWithin f (fuel + 1) id) (functionInfoWithin f (more + 1) id)
      fun t h => f.FunctionAt t id h := by
  refine .require (notA_ne id _) fun ⟨s, g⟩ hid => ?_
  obtain ⟨hget, hkind⟩ := kind_of_function? hid
  refine .imp (.declared (k := .functionInfo) (List.mem_of_find?_eq_some hget) (.functionInfo hkind)
    fun _ => ?_) fun _ _ hfinds => ⟨s, g, hid, hfinds⟩
  exact (Settles.mapM fun p _ => f.settles_parameterInfo n _ _ p.2 p.1.head).bind fun _ =>
    (Settles.mapM fun v _ => f.settles_localInfo n _ _ (.ofVar v)).bind fun _ =>
      (Settles.onSome hclass _).bind fun _ => (f.settles_declLocation n s).bind fun _ =>
        (f.settles_typeInfo n g.head.returnTy).bind fun _ =>
          (f.settles_annotations n s.head.annotations).bind fun _ => .pure fun _ => rfl

/-- A property settles if its accessors do with one declaration less to build. -/
theorem settles_property
    (haccessor : ∀ g, f.Ends n (functionInfoWithin f fuel g) (functionInfoWithin f more g)) :
    f.Settles (n + 1) (propertyInfoWithin f (fuel + 1) id) (propertyInfoWithin f (more + 1) id)
      fun t h => f.PropertyAt t id h := by
  refine .require (notA_ne id _) fun ⟨s, p⟩ hid => ?_
  obtain ⟨hget, hkind⟩ := of_property? hid
  refine .imp (.declared (k := .propertyInfo) (List.mem_of_find?_eq_some hget) (.propertyInfo hkind)
    fun _ => ?_) fun _ _ hfinds => ⟨s, p, hid, hfinds⟩
  dsimp only
  split
  · exact .fail_bind (ne_nestedTooDeep (by simp [toString]))
  · exact (f.settles_declLocation n s).bind fun _ => (Settles.onSome haccessor _).bind fun _ =>
      (Settles.onSome haccessor _).bind fun _ =>
        (Settles.onSome (f.settles_fieldInfo n) _).bind fun _ =>
          (f.settles_annotations n s.head.annotations).bind fun _ => .pure fun _ => rfl

/-- The builders that call each other may differ in how many others they allow inside each other, if
that is enough for what is left to build: a builder leaves one declaration less to those inside it,
and it takes two steps to the next one, through a member of a class. -/
theorem settles_within : ∀ fuel more n id, fuel ≤ more →
    (2 * n ≤ fuel + 1 →
      f.Settles n (classInfoWithin f fuel id) (classInfoWithin f more id)
        fun t h => f.ClassAt t id h) ∧
    (2 * n ≤ fuel → f.Ends n (memberInfoWithin f fuel id) (memberInfoWithin f more id)) ∧
    (2 * n ≤ fuel + 1 →
      f.Settles n (functionInfoWithin f fuel id) (functionInfoWithin f more id)
        fun t h => f.FunctionAt t id h) ∧
    (2 * n ≤ fuel + 1 →
      f.Settles n (propertyInfoWithin f fuel id) (propertyInfoWithin f more id)
        fun t h => f.PropertyAt t id h)
  | _, _, 0, _, _ => ⟨fun _ => .zero, fun _ => .zero, fun _ => .zero, fun _ => .zero⟩
  | 0, _, _ + 1, _, _ => ⟨by omega, by omega, by omega, by omega⟩
  | fuel + 1, more + 1, n + 1, id, hmore => by
    have hmore := Nat.le_of_succ_le_succ hmore
    have inside := fun id => settles_within fuel more n id hmore
    obtain ⟨hclass, -, hfunction, hproperty⟩ := settles_within fuel more (n + 1) id hmore
    refine ⟨fun hn => ?_, fun hn => ?_, fun hn => ?_, fun hn => ?_⟩
    · exact f.settles_class fun member => (inside member).2.1 (by omega)
    · exact f.settles_member (hclass hn).ends (hfunction hn).ends (hproperty hn).ends
    · exact f.settles_function fun c => ((inside c).1 (by omega)).ends
    · exact f.settles_property fun g => ((inside g).2.2.1 (by omega)).ends

/-! ## Requests as a whole -/

variable {more : Nat}

theorem settles_classInfo (hmore : f.bound ≤ more) (id : DeclId) :
    f.Settles (f.symbols.newest.length + 1) (f.classInfo id) (classInfoWithin f more id)
      fun t h => f.ClassAt t id h :=
  (f.settles_within _ more _ id hmore).1 (by unfold bound; omega)

theorem settles_functionInfo (hmore : f.bound ≤ more) (id : DeclId) :
    f.Settles (f.symbols.newest.length + 1) (f.functionInfo id) (functionInfoWithin f more id)
      fun t h => f.FunctionAt t id h :=
  (f.settles_within _ more _ id hmore).2.2.1 (by unfold bound; omega)

theorem settles_propertyInfo (hmore : f.bound ≤ more) (id : DeclId) :
    f.Settles (f.symbols.newest.length + 1) (f.propertyInfo id) (propertyInfoWithin f more id)
      fun t h => f.PropertyAt t id h :=
  (f.settles_within _ more _ id hmore).2.2.2 (by unfold bound; omega)

theorem settles_classInfoForType (ty : Ty) :
    f.Settles (f.symbols.newest.length + 1) (f.classInfoForType ty) (f.classInfoForType ty)
      fun t h => f.ClassForTypeAt t ty h := by
  cases hclass : f.classOfType? ty <;> simp only [classInfoForType, ClassForTypeAt, hclass]
  · exact .getOrCreate (k := .classInfo) fun _ =>
      (f.settles_ofLocation _ _).bind fun _ => .pure fun _ => rfl
  · exact f.settles_classInfo le_rfl _

theorem settles_primaryConstructorInfo (id : DeclId) :
    f.Settles (f.symbols.newest.length + 1) (f.primaryConstructorInfo id)
      (f.primaryConstructorInfo id) fun t h => ∃ s c g, f.symbols.class? id = some (s, c) ∧
        c.primaryConstructor = some g ∧ f.FunctionAt t g h :=
  .require (notA_ne id _) fun ⟨s, c⟩ hid => .require (ne_nestedTooDeep (by simp [toString]))
    fun g hg => (f.settles_functionInfo le_rfl g).imp fun _ _ hat => ⟨s, c, g, hid, hg, hat⟩

theorem settles_executableInfo : ∀ executable : Executable,
    f.Settles (f.symbols.newest.length + 1) (f.executableInfo executable)
      (f.executableInfo executable) fun t h => f.ExecutableAt t executable h
  | .function id => f.settles_functionInfo le_rfl id
  | .initializer _ (some inClass) => f.settles_primaryConstructorInfo inClass
  | .initializer _ none => .fail (ne_nestedTooDeep (by simp [toString]))

theorem variableOwner_ne {executable : Executable} {e : Error}
    (he : f.variableOwner executable = .error e) : e ≠ nestedTooDeep := by
  unfold variableOwner at he
  split at he
  · rename_i id
    unfold functionKey at he
    cases hid : f.symbols.function? id <;> rw [hid] at he <;> cases he
    exact notA_ne id _
  · split at he <;> cases he
    exact ne_nestedTooDeep (by simp [toString])

theorem settles_frameCapture (n : Nat) (executable : Executable) (locals : List VisibleLocal)
    (span : Span) :
    f.Ends n (f.frameCapture executable locals span) (f.frameCapture executable locals span) :=
  .ofExcept (fun _ => f.variableOwner_ne) fun owner _ =>
    (Settles.mapM fun v _ => (f.settles_localInfo n owner.1 owner.2 (.ofVisible v)).wrap _).bind
      fun _ => (f.settles_location n span).wrap _

theorem settles_serve : ∀ r : Request,
    f.Ends (f.symbols.newest.length + 1) (f.serve r) (f.serve r)
  | .location span => (f.settles_location _ span).wrap _
  | .typeInfo ty => (f.settles_typeInfo _ ty).wrap _
  | .classInfo id => (f.settles_classInfo le_rfl id).ends.wrap _
  | .classInfoForType ty => (f.settles_classInfoForType ty).ends.wrap _
  | .functionInfo id => (f.settles_functionInfo le_rfl id).ends.wrap _
  | .executableInfo executable => (f.settles_executableInfo executable).ends.wrap _
  | .propertyInfo id => (f.settles_propertyInfo le_rfl id).ends.wrap _
  | .fieldInfo id => (f.settles_fieldInfo _ id).wrap _
  | .frameCapture executable locals span => (f.settles_frameCapture _ executable locals span).wrap _

/-- What can be asked of a factory. -/
inductive Offers (f : Factory) : {α : Type} → Build Store α → Prop
  | serve (r : Request) : f.Offers (f.serve r)
  | position (span : Span) : f.Offers (f.position span)
  | annotations (uses : List AnnotationUse) : f.Offers (f.annotations uses)
  | parameterInfo (owner : UInt64) (ownerName : String) (index : Nat) (p : ParamHead) :
    f.Offers (f.parameterInfo owner ownerName index p)
  | localInfo (owner : UInt64) (ownerName : String) (v : VariableSite) :
    f.Offers (f.localInfo owner ownerName v)
  | primaryConstructorInfo (id : DeclId) : f.Offers (f.primaryConstructorInfo id)

variable {f} {α : Type} {step : Build Store α}

theorem Offers.ends (h : f.Offers step) : f.Ends (f.symbols.newest.length + 1) step step := by
  cases h with
  | serve r => exact f.settles_serve r
  | position span => exact f.settles_position _ span
  | annotations uses => exact f.settles_annotations _ uses
  | parameterInfo owner ownerName index p => exact f.settles_parameterInfo _ owner ownerName index p
  | localInfo owner ownerName v => exact f.settles_localInfo _ owner ownerName v
  | primaryConstructorInfo id => exact (f.settles_primaryConstructorInfo id).ends

/-- No store has more declarations left to build than there are. -/
theorem Settles.run {x y : Build Store α} {post : Store → α → Prop}
    (h : f.Settles (f.symbols.newest.length + 1) x y post) (s : Store) :
    ∃ r t, x.runOn s = (r, t) ∧ y.runOn s = (r, t) ∧ s.Advances t ∧
      (∀ e, r = .error e → e ≠ nestedTooDeep) ∧ ∀ a, r = .ok a → post t a :=
  h s (Nat.lt_succ_of_le (missing_le_length s))

theorem Offers.advances (h : f.Offers step) (s : Store) : s.Advances (step.runOn s).2 := by
  obtain ⟨r, t, hrun, -, hadv, -⟩ := h.ends.run s
  rwa [hrun]

end

end Factory

/-- **Requests end.** In a module of any declarations, also of several with one identity, and from
any store, what is asked of a factory gives a result or an error, and not the error of builders that
are nested too deep: however many more of them may stand inside each other, the same happens. No
descriptor is left under construction. The chains of parents that builders follow end as well. -/
theorem Factory.requests_end (m : Module) (sources : Source.Provider) (name : String) (s : Store) :
    let f : Factory := ⟨.build m, sources, name⟩
    (∀ {α : Type} (step : Build Store α), f.Offers step →
      (step.runOn s).1 ≠ .error nestedTooDeep ∧ (s.Idle → (step.runOn s).2.Idle)) ∧
    (∀ more ≥ f.bound, ∀ id,
      (classInfoWithin f more id).runOn s = (f.classInfo id).runOn s ∧
      (functionInfoWithin f more id).runOn s = (f.functionInfo id).runOn s ∧
      (propertyInfoWithin f more id).runOn s = (f.propertyInfo id).runOn s) ∧
    ∀ more ≥ f.symbols.newest.length, ∀ start,
      f.symbols.chain more start = f.symbols.chain f.symbols.newest.length start := by
  intro f
  refine ⟨fun step hstep => ?_, fun more hmore id => ⟨?_, ?_, ?_⟩, fun more hmore start => ?_⟩
  · obtain ⟨outcome, t, hrun, -, hadv, herror, -⟩ := hstep.ends.run s
    rw [hrun]
    exact ⟨fun h => herror _ h rfl, hadv.idle⟩
  · obtain ⟨_, _, hrun, hrun', -⟩ := (f.settles_classInfo hmore id).run s
    rw [hrun, hrun']
  · obtain ⟨_, _, hrun, hrun', -⟩ := (f.settles_functionInfo hmore id).run s
    rw [hrun, hrun']
  · obtain ⟨_, _, hrun, hrun', -⟩ := (f.settles_propertyInfo hmore id).run s
    rw [hrun, hrun']
  · exact SymbolTable.chain_build m start hmore

end TraceWeave

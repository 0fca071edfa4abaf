import Mathlib.Data.List.Basic
import TraceWeave.Factory.Declarations

/-! # Descriptors are kept

A step that builds descriptors and succeeds takes no handle back and forgets no source text. So
what a key led to in the middle of a pass it still leads to at the end.

`Store.Keeps` is the order on stores and `Build.Grows` the judgement on a step.
`Factory.grows_within` covers the builders; `Factory.Fetches` adds that a handle is found
afterwards.
-/

namespace TraceWeave

namespace Build

variable {σ α β : Type}

/-- A step that succeeds in two parts. -/
theorem of_bind {step : Build σ α} {next : α → Build σ β} {s t : σ} {b : β}
    (h : (step >>= next).runOn s = (.ok b, t)) :
    ∃ a u, step.runOn s = (.ok a, u) ∧ (next a).runOn u = (.ok b, t) := by
  rcases hs : step.runOn s with ⟨_ | a, u⟩
  · rw [runOn_bind_error hs] at h
    exact nomatch congrArg Prod.fst h
  · rw [runOn_bind_ok hs] at h
    exact ⟨a, u, rfl, h⟩

theorem of_pure {a b : α} {s t : σ} (h : (pure a : Build σ α).runOn s = (.ok b, t)) :
    b = a ∧ t = s := by
  cases h
  exact ⟨rfl, rfl⟩

theorem of_require {value : Option α} {e : Error} {s t : σ} {a : α}
    (h : (require value e : Build σ α).runOn s = (.ok a, t)) : value = some a ∧ t = s := by
  cases value with
  | none => exact nomatch congrArg Prod.fst h
  | some b =>
    cases h
    exact ⟨rfl, rfl⟩

theorem of_ofExcept {r : Except Error α} {s t : σ} {a : α}
    (h : (ofExcept r : Build σ α).runOn s = (.ok a, t)) : r = .ok a ∧ t = s := by
  cases h
  exact ⟨rfl, rfl⟩

/-- A step that is not taken succeeds with nothing. -/
theorem of_onlyIf {condition : Bool} {step : Build σ α} {s t : σ} {a : Option α}
    (h : (onlyIf condition step).runOn s = (.ok a, t)) :
    (condition = false ∧ a = none ∧ t = s) ∨
      ∃ b, condition = true ∧ a = some b ∧ step.runOn s = (.ok b, t) := by
  cases condition with
  | false =>
    obtain ⟨rfl, rfl⟩ := of_pure h
    exact .inl ⟨rfl, rfl, rfl⟩
  | true =>
    rw [onlyIf, if_pos rfl, map_eq_pure_bind] at h
    obtain ⟨b, u, hs, hb⟩ := of_bind h
    obtain ⟨rfl, rfl⟩ := of_pure hb
    exact .inr ⟨b, rfl, rfl, hs⟩

end Build

/-! ## Arenas -/

namespace Arena

variable {k : DescriptorKind} {κ α σ : Type} [BEq κ]

/-- Every key of the first arena leads to the same handle in the second. -/
def Keeps (a b : Arena k κ α) : Prop := ∀ key h, a.find? key = some h → b.find? key = some h

theorem Keeps.refl (a : Arena k κ α) : a.Keeps a := fun _ _ h => h

theorem Keeps.trans {a b c : Arena k κ α} (h : a.Keeps b) (h' : b.Keeps c) : a.Keeps c :=
  fun key x hx => h' key x (h key x hx)

theorem keeps_of_publish {a b : Arena k κ α} {key : κ} {h : Handle k}
    (hp : a.publish key = .ok (h, b)) : a.Keeps b := by
  unfold publish at hp
  split at hp
  · cases hp
    intro key' x hx
    rw [find?, List.lookup_append]
    exact Option.or_eq_some_iff.mpr (.inl hx)
  · cases hp

theorem find?_of_publish [ReflBEq κ] {a b : Arena k κ α} {key : κ} {h : Handle k}
    (hnone : a.find? key = none) (hp : a.publish key = .ok (h, b)) : b.find? key = some h := by
  unfold publish at hp
  split at hp
  · cases hp
    rw [find?, List.lookup_append, show List.lookup key a.index = none from hnone, Option.none_or,
      List.lookup_cons_self]
  · cases hp

omit [BEq κ] in
theorem index_of_settle {a b : Arena k κ α} {h : Handle k} {slot : Slot α}
    (hs : a.settle h slot = .ok b) : b.index = a.index := by
  unfold settle at hs
  split at hs <;> cases hs
  rfl

omit [BEq κ] in
theorem of_store {part : Part σ (Arena k κ α)}
    {step : Arena k κ α → Except Error (Arena k κ α)} {s t : σ} {u : Unit}
    (h : (store part step).runOn s = (.ok u, t)) :
    ∃ b, step (part.get s) = .ok b ∧ t = part.set b s := by
  unfold Build.runOn store at h
  split at h
  · rename_i b hb
    cases h
    exact ⟨b, hb, rfl⟩
  · cases h

variable {part : Part σ (Arena k κ α)} {key : κ} {build : Handle k → Build σ α}

/-- What a request for a key that succeeds has done. -/
theorem of_getOrCreate {s t : σ} {h : Handle k}
    (hs : (getOrCreate part key build).runOn s = (.ok h, t)) :
    ((part.get s).find? key = some h ∧ t = s) ∨
      ∃ a v u b, (part.get s).find? key = none ∧ (part.get s).publish key = .ok (h, a) ∧
        (build h).runOn (part.set a s) = (.ok v, u) ∧
        (part.get u).settle h (.ready v) = .ok b ∧ t = part.set b u := by
  unfold Build.runOn getOrCreate at hs
  split at hs
  · rename_i h' hfind
    obtain ⟨hset, rfl⟩ := Prod.mk.inj hs
    unfold settled at hset
    split at hset <;> cases hset <;> exact .inl ⟨hfind, rfl⟩
  · rename_i hfind
    split at hs
    · cases hs
    · rename_i h' a hpub
      split at hs
      · rename_i v u hbuild
        obtain ⟨_, w, hst, hp⟩ := Build.of_bind hs
        obtain ⟨rfl, rfl⟩ := Build.of_pure hp
        obtain ⟨b, hb, rfl⟩ := of_store hst
        exact .inr ⟨a, v, u, b, hfind, hpub, hbuild, hb, rfl⟩
      · obtain ⟨_, w, hst, hp⟩ := Build.of_bind hs
        cases hp

end Arena

/-! ## Stores -/

namespace Store

/-- Every location, function and source text of the first store is in the second. -/
structure Keeps (s t : Store) : Prop where
  locations : s.locations.Keeps t.locations
  functions : s.functions.Keeps t.functions
  texts : ∀ path lines, s.texts.files.lookup path = some lines →
    t.texts.files.lookup path = some lines

theorem Keeps.refl (s : Store) : s.Keeps s := ⟨.refl _, .refl _, fun _ _ h => h⟩

theorem Keeps.trans {s t u : Store} (h : s.Keeps t) (h' : t.Keeps u) : s.Keeps u :=
  ⟨h.locations.trans h'.locations, h.functions.trans h'.functions,
    fun path lines hl => h'.texts path lines (h.texts path lines hl)⟩

theorem Keeps.of_eq {s t : Store} (hlocations : t.locations = s.locations)
    (hfunctions : t.functions = s.functions) (htexts : t.texts = s.texts) : s.Keeps t := by
  refine ⟨?_, ?_, ?_⟩
  · rw [hlocations]
    exact .refl _
  · rw [hfunctions]
    exact .refl _
  · rw [htexts]
    exact fun _ _ h => h

/-- A part of the store that can grow on its own. -/
structure Growing {k : DescriptorKind} {κ α : Type} [BEq κ] (part : Part Store (Arena k κ α)) :
    Prop where
  get_set : ∀ a s, part.get (part.set a s) = a
  keeps : ∀ s a, (part.get s).Keeps a → s.Keeps (part.set a s)

theorem growing_locations : Growing locationsPart :=
  ⟨fun _ _ => rfl, fun _ _ h => ⟨h, .refl _, fun _ _ h => h⟩⟩

theorem growing_functions : Growing functionsPart :=
  ⟨fun _ _ => rfl, fun _ _ h => ⟨.refl _, h, fun _ _ h => h⟩⟩

theorem growing_types : Growing typesPart := ⟨fun _ _ => rfl, fun _ _ _ => .of_eq rfl rfl rfl⟩

theorem growing_classes : Growing classesPart := ⟨fun _ _ => rfl, fun _ _ _ => .of_eq rfl rfl rfl⟩

theorem growing_properties : Growing propertiesPart := ⟨fun _ _ => rfl, fun _ _ _ => .of_eq rfl rfl rfl⟩

theorem growing_fields : Growing fieldsPart := ⟨fun _ _ => rfl, fun _ _ _ => .of_eq rfl rfl rfl⟩

theorem growing_locals : Growing localsPart := ⟨fun _ _ => rfl, fun _ _ _ => .of_eq rfl rfl rfl⟩

theorem growing_parameters : Growing parametersPart := ⟨fun _ _ => rfl, fun _ _ _ => .of_eq rfl rfl rfl⟩

end Store

/-- A step that keeps what is in the store whenever it succeeds. -/
def Build.Grows {α : Type} (step : Build Store α) : Prop :=
  ∀ s a t, step.runOn s = (.ok a, t) → s.Keeps t

namespace Build.Grows

variable {α β : Type}

theorem pure (a : α) : Grows (Pure.pure a) := by
  intro s b t h
  rw [(of_pure h).2]
  exact .refl s

theorem require (value : Option α) (e : Error) : Grows (Build.require value e) := by
  intro s a t h
  rw [(of_require h).2]
  exact .refl s

theorem fail (e : Error) : Grows (Build.fail e : Build Store α) := by
  intro s a t h
  exact nomatch congrArg Prod.fst h

theorem bind {step : Build Store α} {next : α → Build Store β} (h : Grows step)
    (hnext : ∀ a, Grows (next a)) : Grows (step >>= next) := by
  intro s b t hs
  obtain ⟨a, u, ha, hb⟩ := of_bind hs
  exact (h s a u ha).trans (hnext a u b t hb)

theorem fail_bind (e : Error) (next : α → Build Store β) : Grows (Build.fail e >>= next) := by
  intro s b t h
  obtain ⟨a, u, ha, -⟩ := of_bind h
  exact nomatch congrArg Prod.fst ha

theorem mapM {f : α → Build Store β} (h : ∀ a, Grows (f a)) : ∀ as : List α, Grows (as.mapM f)
  | [] => by
    rw [List.mapM_nil]
    exact .pure []
  | a :: as => by
    rw [List.mapM_cons]
    exact (h a).bind fun _ => (mapM h as).bind fun _ => .pure _

theorem onSome {f : α → Build Store β} (h : ∀ a, Grows (f a)) :
    ∀ value, Grows (Factory.onSome f value)
  | none => .pure none
  | some a => (h a).bind fun _ => .pure _

variable {k : DescriptorKind} {κ : Type} [BEq κ] {part : Part Store (Arena k κ α)} {key : κ}
  {build : Handle k → Build Store α}

/-- A request for a key grows if its builder does. -/
theorem getOrCreate (hpart : Store.Growing part) (hbuild : ∀ h, Grows (build h)) :
    Grows (Arena.getOrCreate part key build) := by
  intro s h t hs
  obtain ⟨-, rfl⟩ | ⟨a, v, u, b, -, hpub, hrun, hsettle, rfl⟩ := Arena.of_getOrCreate hs
  · exact .refl t
  · have hub : (part.get u).Keeps b := by
      intro key' x hx
      rwa [Arena.find?, Arena.index_of_settle hsettle]
    have hsu := (hpart.keeps s a (Arena.keeps_of_publish hpub)).trans (hbuild h _ v u hrun)
    exact hsu.trans (hpart.keeps u b hub)

end Build.Grows

/-- A request for a key keeps what is there, and after it the handle is found. -/
theorem Arena.keeps_and_find?_of_getOrCreate {k : DescriptorKind} {κ α : Type} [BEq κ] [ReflBEq κ]
    {part : Part Store (Arena k κ α)} {key : κ} {build : Handle k → Build Store α}
    (hpart : Store.Growing part) (hkeeps : ∀ s t, s.Keeps t → (part.get s).Keeps (part.get t))
    (hbuild : ∀ h, (build h).Grows) {s t : Store} {h : Handle k}
    (hs : (getOrCreate part key build).runOn s = (.ok h, t)) :
    s.Keeps t ∧ (part.get t).find? key = some h := by
  refine ⟨Build.Grows.getOrCreate hpart hbuild s h t hs, ?_⟩
  obtain ⟨hfind, rfl⟩ | ⟨a, v, u, b, hnone, hpub, hrun, hsettle, rfl⟩ := of_getOrCreate hs
  · exact hfind
  · rw [hpart.get_set, find?, index_of_settle hsettle]
    refine hkeeps _ u (hbuild h _ v u hrun) key h ?_
    rw [hpart.get_set]
    exact find?_of_publish hnone hpub

/-! ## Builders of descriptors -/

namespace Source.Cache

variable {cache : Cache} {provider : Provider} {path : String} {start stop : Int32} {p : Path}
  {found : List String}

/-- Texts that were read stay as they were read. -/
theorem lookup_lines (h : cache.files.lookup p = some found) :
    (cache.lines provider path).2.files.lookup p = some found := by
  unfold lines
  split
  · exact h
  · rw [List.lookup_append]
    exact Option.or_eq_some_iff.mpr (.inl h)

theorem lookup_lines_self (cache : Cache) (provider : Provider) (path : String) :
    (cache.lines provider path).2.files.lookup (Path.ofText path) =
      some (cache.lines provider path).1 := by
  unfold lines
  split
  · assumption
  · rename_i hnone
    rw [List.lookup_append, hnone, Option.none_or, List.lookup_cons_self]

theorem lookup_resolve (h : cache.files.lookup p = some found) :
    (cache.resolve provider path start stop).2.files.lookup p = some found := by
  unfold resolve
  split
  · exact h
  · exact lookup_lines h

end Source.Cache

namespace Factory

open Build Store

variable (f : Factory)

/-- Looking for a position keeps everything and may read a text. -/
theorem of_position {span : Span} {s t : Store} {position : Source.Position}
    (h : (f.position span).runOn s = (.ok position, t)) :
    (position, t.texts) = s.texts.resolve f.sources (f.filePath span.file) span.start span.stop ∧
      t = { s with texts := t.texts } := by
  unfold Build.runOn Factory.position at h
  obtain ⟨hp, rfl⟩ := Prod.mk.inj h
  rw [← Except.ok.inj hp]
  exact ⟨rfl, rfl⟩

theorem grows_position (span : Span) : (f.position span).Grows := by
  intro s position t h
  obtain ⟨htexts, ht⟩ := f.of_position h
  rw [ht]
  refine ⟨.refl _, .refl _, fun path lines hl => ?_⟩
  rw [show t.texts = _ from congrArg Prod.snd htexts]
  exact Source.Cache.lookup_resolve hl

theorem grows_ofLocation (l : SourceLocation) : (ofLocation l).Grows :=
  .getOrCreate growing_locations fun _ => .pure l

theorem grows_location (span : Span) : (f.location span).Grows :=
  (f.grows_position span).bind fun _ => grows_ofLocation _

theorem grows_declLocation (s : Symbol) : (f.declLocation s).Grows := by
  unfold declLocation
  split
  · exact grows_ofLocation _
  · exact grows_ofLocation _
  · exact f.grows_location _
  · exact f.grows_location _

theorem grows_typeInfo (ty : Ty) : (f.typeInfo ty).Grows := by
  refine .getOrCreate growing_types fun _ => ?_
  dsimp only
  split
  · exact (f.grows_declLocation _).bind fun _ => .pure _
  · exact (grows_ofLocation _).bind fun _ => .pure _

mutual

theorem grows_annotationValue : ∀ arg : AnnotationArg, (f.annotationValue arg).Grows
  | .const .null | .const .unit | .const (.boolean _) | .const (.int _) | .const (.long _)
  | .const (.string _) => .pure _
  | .type ty => (f.grows_typeInfo ty).bind fun _ => .pure _
  | .array items => (grows_annotationValues items).bind fun _ => .pure _

theorem grows_annotationValues : ∀ args : List AnnotationArg, (f.annotationValues args).Grows
  | [] => .pure []
  | item :: items =>
    (grows_annotationValue item).bind fun _ => (grows_annotationValues items).bind fun _ => .pure _

end

theorem grows_usageArguments :
    ∀ (as : List AnnotationArgument) (found : NameMap AnnotationValue),
      (f.usageArguments as found).Grows
  | [], _ => .pure _
  | a :: as, _ =>
    (f.grows_annotationValue a.value).bind fun _ => grows_usageArguments as _

theorem grows_addAnnotations : ∀ (uses : List AnnotationUse) (m : AnnotationMap),
    (f.addAnnotations uses m).Grows
  | [], _ => .pure _
  | use :: uses, _ =>
    (f.grows_usageArguments use.arguments []).bind fun _ =>
      (f.grows_location use.span).bind fun _ =>
        (f.grows_typeInfo use.ty).bind fun _ => grows_addAnnotations uses _

theorem grows_annotations (uses : List AnnotationUse) : (f.annotations uses).Grows :=
  f.grows_addAnnotations uses {}

theorem grows_parameterInfo (owner : UInt64) (ownerName : String) (index : Nat) (p : ParamHead) :
    (f.parameterInfo owner ownerName index p).Grows :=
  .getOrCreate growing_parameters fun _ =>
    (f.grows_location _).bind fun _ => (f.grows_typeInfo _).bind fun _ =>
      (f.grows_annotations _).bind fun _ => .pure _

theorem grows_localInfo (owner : UInt64) (ownerName : String) (v : VariableSite) :
    (f.localInfo owner ownerName v).Grows :=
  .getOrCreate growing_locals fun _ =>
    (f.grows_location _).bind fun _ => (f.grows_typeInfo _).bind fun _ =>
      (f.grows_annotations _).bind fun _ => .pure _

theorem grows_fieldInfo (id : DeclId) : (f.fieldInfo id).Grows :=
  (Grows.require _ _).bind fun _ => .getOrCreate growing_fields fun _ =>
    (f.grows_declLocation _).bind fun _ => (f.grows_typeInfo _).bind fun _ =>
      (f.grows_annotations _).bind fun _ => .pure _

/-- A step that keeps what is in the store, and leaves the handle that it gives under the key of a
function. -/
def Fetches (id : DeclId) (step : Build Store (Handle .functionInfo)) : Prop :=
  ∀ s h t, step.runOn s = (.ok h, t) → s.Keeps t ∧
    ∃ sym info, f.symbols.function? id = some (sym, info) ∧
      t.functions.find? (f.functionKeyOf sym info) = some h

variable {f} in
theorem Fetches.grows {id : DeclId} {step : Build Store (Handle .functionInfo)}
    (h : f.Fetches id step) : step.Grows := fun s a t hs => (h s a t hs).1

/-- The builders that call each other, by induction on how many stand inside each other. -/
theorem grows_within : ∀ fuel id, (classInfoWithin f fuel id).Grows ∧
    (memberInfoWithin f fuel id).Grows ∧ f.Fetches id (functionInfoWithin f fuel id) ∧
    (propertyInfoWithin f fuel id).Grows
  | 0, id => by
    refine ⟨.fail _, .fail _, ?_, .fail _⟩
    intro s h t hs
    exact nomatch congrArg Prod.fst hs
  | fuel + 1, id => by
    have ih := grows_within fuel
    refine ⟨?_, ?_, ?_, ?_⟩
    · exact (Grows.require _ _).bind fun _ => .getOrCreate growing_classes fun _ =>
        (Grows.mapM (fun member => (ih member).2.1) _).bind fun _ =>
          (f.grows_declLocation _).bind fun _ => (f.grows_annotations _).bind fun _ => .pure _
    · unfold memberInfoWithin
      split
      · split
        · exact (ih id).1.bind fun _ => .pure _
        · exact .pure _
      · exact (ih id).2.2.1.grows.bind fun _ => .pure _
      · exact (ih id).2.2.2.bind fun _ => .pure _
      · exact .pure _
    · intro s h t hs
      obtain ⟨⟨sym, info⟩, u, hr, hg⟩ := of_bind hs
      obtain ⟨hsym, rfl⟩ := of_require hr
      obtain ⟨hkeeps, hfind⟩ := Arena.keeps_and_find?_of_getOrCreate growing_functions
        (fun _ _ hk => hk.functions) (fun _ =>
          (Grows.mapM (fun p => f.grows_parameterInfo _ _ _ _) _).bind fun _ =>
            (Grows.mapM (fun v => f.grows_localInfo _ _ _) _).bind fun _ =>
              (Grows.onSome (fun c => (ih c).1) _).bind fun _ =>
                (f.grows_declLocation _).bind fun _ => (f.grows_typeInfo _).bind fun _ =>
                  (f.grows_annotations _).bind fun _ => .pure _) hg
      exact ⟨hkeeps, sym, info, hsym, hfind⟩
    · refine (Grows.require _ _).bind fun _ => .getOrCreate growing_properties fun _ => ?_
      dsimp only
      split
      · exact .fail_bind _ _
      · exact (f.grows_declLocation _).bind fun _ =>
          (Grows.onSome (fun g => (ih g).2.2.1.grows) _).bind fun _ =>
            (Grows.onSome (fun g => (ih g).2.2.1.grows) _).bind fun _ =>
              (Grows.onSome f.grows_fieldInfo _).bind fun _ =>
                (f.grows_annotations _).bind fun _ => .pure _

theorem fetches_functionInfo (id : DeclId) : f.Fetches id (f.functionInfo id) :=
  (f.grows_within f.bound id).2.2.1

theorem grows_executableInfo (executable : Executable) : (f.executableInfo executable).Grows := by
  unfold executableInfo
  split
  · exact (f.fetches_functionInfo _).grows
  · exact (Grows.require _ _).bind fun _ => (Grows.require _ _).bind fun _ =>
      (f.fetches_functionInfo _).grows
  · exact .fail _

end Factory

end TraceWeave

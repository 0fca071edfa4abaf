import TraceWeave.Proofs.Factory.Identity
import TraceWeave.Proofs.Factory.Order
import TraceWeave.Proofs.Program.Holding

/-! # Classes and their members

A class descriptor lists the descriptors of its members, and those of its functions and accessors
name the class. Requests may come to this cycle from any of the declarations, so that a descriptor
takes handles of others that are still under construction. When all requests have succeeded, both
directions agree: each descriptor has the content of its key, and the key stands for one declaration.

`Factory.KeysDiffer` says that keys stand for one declaration, `Factory.ListsMembers` is what a
class descriptor has to say. One direction is `Factory.Answered.of_classAt`, the other one
`Factory.Answered.namesClass_of_declares`; `Factory.classes_and_members_agree` has both.
-/

namespace TraceWeave

namespace Decl

def isFunction (d : Decl) : Bool := d.role == .function

def isProperty (d : Decl) : Bool := d.role == .property

def isCompanion : Decl → Bool
  | .classDecl _ info _ => info.isCompanion
  | .function .. | .property .. | .field .. | .initializer .. => false

def getter? : Decl → Option Decl
  | .property _ _ _ getter _ => getter
  | .classDecl .. | .function .. | .field .. | .initializer .. => none

def setter? : Decl → Option Decl
  | .property _ _ _ _ setter => setter
  | .classDecl .. | .function .. | .field .. | .initializer .. => none

/-- Whether a declaration is a member of a class, or an accessor of one of its properties. -/
def Declares (c d : Decl) : Prop :=
  c.role = .classRole ∧
    (d ∈ c.held ∨ ∃ p ∈ c.held, p.getter? = some d ∨ p.setter? = some d)

variable {c d p : Decl}

theorem holdsCode_of_classRole (h : d.role = .classRole) : d.holdsCode = false := by
  cases d <;> first | rfl | cases h

theorem of_accessor (h : p.getter? = some d ∨ p.setter? = some d) :
    p.role = .property ∧ p.holdsCode = false ∧ d ∈ p.held := by
  cases p with
  | property head info backing getter setter =>
    refine ⟨rfl, rfl, ?_⟩
    simp only [held, List.mem_append, Option.mem_toList]
    rcases h with h | h
    · exact .inl (.inr h)
    · exact .inr h
  | classDecl | function | field | initializer => simp [getter?, setter?] at h

theorem symbolKind_of_classRole (h : d.role = .classRole) :
    ∃ info, d.symbolKind = .classSymbol info := by
  cases d with
  | classDecl => exact ⟨_, rfl⟩
  | function | property | field | initializer => cases h

theorem symbolKind_of_property (h : d.role = .property) :
    ∃ info, d.symbolKind = .property info := by
  cases d with
  | property => exact ⟨_, rfl⟩
  | classDecl | function | field | initializer => cases h

end Decl

namespace Factory

/-! ## Keys of declarations -/

/-- The key of the descriptor of a declaration. What has no descriptor goes by its identity. -/
inductive DeclKey where
  | ofClass (name : String)
  | ofFunction (key : FunctionKey)
  | ofProperty (key : PropertyKey)
  | ofField (key : FieldKey)
  | undescribed (id : DeclId)
  deriving DecidableEq

def symbolKey (f : Factory) (s : Symbol) : DeclKey :=
  match s.kind with
  | .classSymbol _ => .ofClass s.fqName
  | .function g => .ofFunction (f.functionKeyOf s g)
  | .property _ => .ofProperty (f.propertyKeyOf s)
  | .field head => .ofField (f.fieldKeyOf s head)
  | .initializer => .undescribed s.id

def declKey (f : Factory) (id : DeclId) : DeclKey :=
  match f.symbols.get? id with
  | some s => f.symbolKey s
  | none => .undescribed id

/-- Whether different declarations of a module have different keys. -/
def KeysDiffer (f : Factory) (m : Module) : Prop := (m.declIds.map f.declKey).Nodup

instance (f : Factory) (m : Module) : Decidable (f.KeysDiffer m) :=
  inferInstanceAs (Decidable (m.declIds.map f.declKey).Nodup)

section

variable {f : Factory} {m : Module} {id id' : DeclId} {s s' : Symbol}

theorem of_class? {c : ClassSymbol} (h : f.symbols.class? id = some (s, c)) :
    f.symbols.get? id = some s ∧ s.kind = .classSymbol c := by
  obtain ⟨found, hfound, h⟩ := Option.bind_eq_some_iff.mp h
  obtain ⟨info, hinfo, h⟩ := Option.bind_eq_some_iff.mp h
  cases h
  unfold Symbol.class? at hinfo
  split at hinfo
  · rename_i hkind
    cases hinfo
    exact ⟨hfound, hkind⟩
  · cases hinfo

theorem kind_of_function? {g : FunctionSymbol} (h : f.symbols.function? id = some (s, g)) :
    f.symbols.get? id = some s ∧ s.kind = .function g := by
  obtain ⟨hfound, hinfo⟩ := of_function? h
  unfold Symbol.function? at hinfo
  split at hinfo
  · rename_i hkind
    cases hinfo
    exact ⟨hfound, hkind⟩
  · cases hinfo

theorem of_property? {p : PropertySymbol} (h : f.symbols.property? id = some (s, p)) :
    f.symbols.get? id = some s ∧ s.kind = .property p := by
  obtain ⟨found, hfound, h⟩ := Option.bind_eq_some_iff.mp h
  obtain ⟨info, hinfo, h⟩ := Option.bind_eq_some_iff.mp h
  cases h
  unfold Symbol.property? at hinfo
  split at hinfo
  · rename_i hkind
    cases hinfo
    exact ⟨hfound, hkind⟩
  · cases hinfo

theorem of_fieldOf? {head : FieldHead} (h : f.symbols.fieldOf? id = some (s, head)) :
    f.symbols.get? id = some s ∧ s.kind = .field head := by
  obtain ⟨found, hfound, h⟩ := Option.bind_eq_some_iff.mp h
  obtain ⟨info, hinfo, h⟩ := Option.bind_eq_some_iff.mp h
  cases h
  unfold Symbol.field? at hinfo
  split at hinfo
  · rename_i hkind
    cases hinfo
    exact ⟨hfound, hkind⟩
  · cases hinfo

theorem mem_declIds_of_get? (hf : f.symbols = .build m) (h : f.symbols.get? id = some s) :
    id ∈ m.declIds := by
  rw [hf] at h
  obtain ⟨hs, rfl⟩ := SymbolTable.mem_of_get? h
  obtain ⟨d, hd, houtline⟩ := List.mem_map.mp
    (m.symbols_of.mem_iff.mp (List.mem_map_of_mem (f := Symbol.outline) hs))
  have hid : d.id = s.id := congrArg (fun o => o.1.id) houtline
  exact hid ▸ List.mem_map_of_mem hd

namespace KeysDiffer

variable (h : f.KeysDiffer m)
include h

theorem ids : m.declIds.Nodup := List.Nodup.of_map _ h

/-- Declarations with one key are the same. -/
theorem id_eq (hf : f.symbols = .build m) (hid : f.symbols.get? id = some s)
    (hid' : f.symbols.get? id' = some s') (hkey : f.symbolKey s = f.symbolKey s') : id = id' := by
  refine List.inj_on_of_nodup_map h (mem_declIds_of_get? hf hid) (mem_declIds_of_get? hf hid') ?_
  rw [declKey, declKey, hid, hid']
  exact hkey

variable (hf : f.symbols = .build m)
include hf

theorem classes {c c' : ClassSymbol} (hid : f.symbols.class? id = some (s, c))
    (hid' : f.symbols.class? id' = some (s', c')) (hname : s.fqName = s'.fqName) : id = id' := by
  obtain ⟨hget, hkind⟩ := of_class? hid
  obtain ⟨hget', hkind'⟩ := of_class? hid'
  refine h.id_eq hf hget hget' ?_
  simp only [symbolKey, hkind, hkind', hname]

theorem functions {g g' : FunctionSymbol} (hid : f.symbols.function? id = some (s, g))
    (hid' : f.symbols.function? id' = some (s', g'))
    (hkey : f.functionKeyOf s g = f.functionKeyOf s' g') : id = id' := by
  obtain ⟨hget, hkind⟩ := kind_of_function? hid
  obtain ⟨hget', hkind'⟩ := kind_of_function? hid'
  refine h.id_eq hf hget hget' ?_
  simp only [symbolKey, hkind, hkind', hkey]

theorem properties {p p' : PropertySymbol} (hid : f.symbols.property? id = some (s, p))
    (hid' : f.symbols.property? id' = some (s', p'))
    (hkey : f.propertyKeyOf s = f.propertyKeyOf s') : id = id' := by
  obtain ⟨hget, hkind⟩ := of_property? hid
  obtain ⟨hget', hkind'⟩ := of_property? hid'
  refine h.id_eq hf hget hget' ?_
  simp only [symbolKey, hkind, hkind', hkey]

end KeysDiffer

end

/-! ## The class that the index finds for a function -/

section

variable {f : Factory} {m : Module} {c d e p : Decl}

theorem kind_of_mem (hf : f.symbols = .build m) (hids : m.declIds.Nodup) (hd : d ∈ m.decls) :
    ∃ s, f.symbols.get? d.id = some s ∧ s.kind = d.symbolKind := by
  obtain ⟨s, hs, -, hkind, -⟩ := SymbolTable.get?_of_decl hids hd
  exact ⟨s, by rw [hf, hs], hkind⟩

theorem symbol_of_held (hf : f.symbols = .build m) (hids : m.declIds.Nodup) (hp : p ∈ m.decls)
    (hcode : p.holdsCode = false) (hd : d ∈ p.held) :
    ∃ s, f.symbols.get? d.id = some s ∧ s.kind = d.symbolKind ∧ s.parent = some p.id := by
  obtain ⟨s, hs, hparent⟩ := SymbolTable.parent_of_held hids hp hcode hd
  obtain ⟨s', hs', hkind⟩ := kind_of_mem hf hids (Module.mem_of_held hp hcode hd)
  rw [hf, hs] at hs'
  cases hs'
  exact ⟨s, by rw [hf, hs], hkind, hparent⟩

theorem id_of_get? {t : SymbolTable} {id : DeclId} {s : Symbol} (h : t.get? id = some s) :
    s.id = id := by
  unfold SymbolTable.get? at h
  simpa using List.find?_some h

/-- An index with a class and a property has two symbols. -/
theorem exists_length_eq_add_two {s s' : Symbol} {c : ClassSymbol} {p : PropertySymbol}
    (hs : s ∈ f.symbols.newest) (hs' : s' ∈ f.symbols.newest) (hclass : s.kind = .classSymbol c)
    (hproperty : s'.kind = .property p) : ∃ n, f.symbols.newest.length = n + 2 := by
  rcases hnewest : f.symbols.newest with _ | ⟨a, _ | ⟨b, rest⟩⟩
  · rw [hnewest] at hs
    cases hs
  · rw [hnewest] at hs hs'
    rw [List.mem_singleton.mp hs] at hclass
    rw [List.mem_singleton.mp hs', hclass] at hproperty
    cases hproperty
  · exact ⟨rest.length, rfl⟩

/-- The class that declares a function is the one that the index finds. -/
theorem declaringClass?_of_declares (hf : f.symbols = .build m) (hids : m.declIds.Nodup)
    (hc : c ∈ m.decls) (h : c.Declares d) : f.declaringClass? d.id = some c.id := by
  obtain ⟨hrole, h⟩ := h
  have hcode := Decl.holdsCode_of_classRole hrole
  obtain ⟨sc, hsc, hkind⟩ := kind_of_mem hf hids hc
  obtain ⟨info, hinfo⟩ := Decl.symbolKind_of_classRole hrole
  have hscmem := List.mem_of_find?_eq_some hsc
  -- the chain ends at the class, however far it may go
  have hfound : ∀ n, declaringOf (f.symbols.chain (n + 1) (some c.id)) = some c.id := by
    intro n
    rw [SymbolTable.chain]
    simp only [hsc, declaringOf, hkind, hinfo, id_of_get? hsc]
  unfold declaringClass? SymbolTable.ancestors
  rcases h with hd | ⟨p, hp, haccessor⟩
  · obtain ⟨s, hs, -, hparent⟩ := symbol_of_held hf hids hc hcode hd
    rw [hs, Option.bind_some, hparent]
    obtain ⟨n, hn⟩ := Nat.exists_eq_succ_of_ne_zero (List.length_pos_of_mem hscmem).ne'
    rw [hn]
    exact hfound n
  · obtain ⟨hprole, hpcode, hheld⟩ := Decl.of_accessor haccessor
    obtain ⟨sp, hsp, hpkind, hpparent⟩ := symbol_of_held hf hids hc hcode hp
    obtain ⟨pinfo, hpinfo⟩ := Decl.symbolKind_of_property hprole
    obtain ⟨s, hs, -, hparent⟩ :=
      symbol_of_held hf hids (Module.mem_of_held hc hcode hp) hpcode hheld
    obtain ⟨n, hn⟩ := exists_length_eq_add_two hscmem (List.mem_of_find?_eq_some hsp)
      (hkind.trans hinfo) (hpkind.trans hpinfo)
    rw [hs, Option.bind_some, hparent, hn, SymbolTable.chain]
    simp only [hsp, declaringOf, hpkind, hpinfo, hpparent]
    exact hfound n

/-- Where the index looks for the class of a declaration: it goes through properties, so the
declaration or a property around it is a member of the class. -/
theorem stands_of_declaringOf (hf : f.symbols = .build m) (hids : m.declIds.Nodup) {id : DeclId} :
    ∀ (fuel : Nat) {e : Decl}, e ∈ m.decls →
      declaringOf (f.symbols.chain fuel ((f.symbols.get? e.id).bind Symbol.parent)) = some id →
      ∃ c ∈ m.decls, c.role = .classRole ∧ c.id = id ∧ ∃ q ∈ c.held,
        q = e ∨ (q.role = .property ∧ ∃ a ∈ q.held, a = e ∨ a.role = .property)
  | 0, _, _, h => nomatch h
  | fuel + 1, e, he, h => by
    obtain ⟨s, hs, -, -, hparent⟩ := SymbolTable.get?_of_decl hids he
    rw [hf, hs, Option.bind_some, ← hf] at h
    rcases hparent with hparent | ⟨p, hp, hparent, hheld⟩
    · rw [hparent] at h
      exact nomatch h
    obtain ⟨sp, hsp, hkind⟩ := kind_of_mem hf hids hp
    rw [hparent, SymbolTable.chain] at h
    simp only [hsp] at h
    cases p with
    | classDecl head info members =>
      simp only [declaringOf, hkind, Decl.symbolKind, id_of_get? hsp, Option.some.injEq] at h
      exact ⟨_, hp, rfl, h, e, hheld rfl, .inl rfl⟩
    | property head info backing getter setter =>
      simp only [declaringOf, hkind, Decl.symbolKind] at h
      rw [show sp.parent = (f.symbols.get? _).bind Symbol.parent by rw [hsp, Option.bind_some]] at h
      obtain ⟨c, hc, hrole, hid, q, hq, hstands⟩ := stands_of_declaringOf hf hids fuel hp h
      refine ⟨c, hc, hrole, hid, q, hq, .inr ?_⟩
      rcases hstands with rfl | ⟨hqrole, a, ha, rfl | harole⟩
      · exact ⟨rfl, e, hheld rfl, .inl rfl⟩
      · exact ⟨hqrole, _, ha, .inr rfl⟩
      · exact ⟨hqrole, a, ha, .inr harole⟩
    | function | field | initializer =>
      simp only [declaringOf, hkind, Decl.symbolKind] at h
      cases h

end

/-! ## Contents of the descriptors -/

section

variable {f : Factory} {m : Module} {asked : Request → Prop} {rs : List Request}
  {as : List Answer} {s : Store} {d : Decl}

/-- Whether a function has a finished descriptor that names a class, or none. -/
def NamesClass (f : Factory) (s : Store) (d : Decl) (x : Handle .functionInfo)
    (c : Option (Handle .classInfo)) : Prop :=
  f.FunctionAt s d.id x ∧ ∃ info, s.functions.get? x = some info ∧ info.declaringClass = c

/-- Whether a property has a finished descriptor, with accessors that name a class. -/
def AccessorsName (f : Factory) (s : Store) (c : Handle .classInfo) (d : Decl)
    (x : Handle .propertyInfo) : Prop :=
  f.PropertyAt s d.id x ∧ ∃ info, s.properties.get? x = some info ∧
    Option.Rel (fun a y => f.NamesClass s a y (some c)) d.getter? info.getter ∧
    Option.Rel (fun a y => f.NamesClass s a y (some c)) d.setter? info.setter

/-- What a class descriptor has to say about the members of the class: all of them in their order,
and in return their descriptors name the class. -/
structure ListsMembers (f : Factory) (s : Store) (members : List Decl) (c : Handle .classInfo)
    (info : ClassInfo) : Prop where
  functions : List.Forall₂ (fun d x => f.NamesClass s d x (some c))
    (members.filter Decl.isFunction) info.functions
  properties : List.Forall₂ (f.AccessorsName s c) (members.filter Decl.isProperty) info.properties
  companions : List.Forall₂ (fun d x => f.ClassAt s d.id x) (members.filter Decl.isCompanion)
    info.companions

theorem rel_of_rel_map {α β γ : Type} {R : β → γ → Prop} {g : α → β} {a : Option α} {c : Option γ}
    (h : Option.Rel R (a.map g) c) : Option.Rel (fun a c => R (g a) c) a c := by
  cases a with
  | none =>
    cases h
    exact .none
  | some a =>
    obtain ⟨hr⟩ := h
    exact .some hr

theorem exists_of_rel_some {α β : Type} {R : α → β → Prop} {a : α} {b : Option β}
    (h : Option.Rel R (some a) b) : ∃ x, b = some x ∧ R a x := by
  cases h with
  | some hr => exact ⟨_, rfl, hr⟩

theorem eq_none_of_rel {α β : Type} {R : α → β → Prop} {b : Option β}
    (h : Option.Rel R none b) : b = none := by
  cases h
  rfl

theorem rel_imp {α β : Type} {R S : α → β → Prop} {a : Option α} {b : Option β}
    (h : Option.Rel R a b) (himp : ∀ x y, a = some x → R x y → S x y) : Option.Rel S a b := by
  cases h with
  | some hr => exact .some (himp _ _ rfl hr)
  | none => exact .none

/-- A member has a handle in the list of its sort, and in no other one. -/
theorem memberAt_picks (hf : f.symbols = .build m) (hids : m.declIds.Nodup) (hd : d ∈ m.decls)
    {x : MemberHandle} (h : f.MemberAt s d.id x) :
    Option.Rel (fun d y => f.FunctionAt s d.id y) (Option.guard Decl.isFunction d) x.function? ∧
    Option.Rel (fun d y => f.PropertyAt s d.id y) (Option.guard Decl.isProperty d) x.property? ∧
    Option.Rel (fun d y => f.ClassAt s d.id y) (Option.guard Decl.isCompanion d) x.companion? := by
  obtain ⟨symbol, hsymbol, hkind⟩ := kind_of_mem hf hids hd
  unfold MemberAt at h
  rw [hsymbol, Option.map_some, hkind] at h
  cases d with
  | function =>
    obtain ⟨y, hy, rfl⟩ := h
    exact ⟨.some hy, .none, .none⟩
  | property =>
    obtain ⟨y, hy, rfl⟩ := h
    exact ⟨.none, .some hy, .none⟩
  | classDecl head info members =>
    by_cases hcompanion : info.isCompanion = true
    · simp only [Decl.symbolKind, hcompanion, if_true] at h
      obtain ⟨y, hy, rfl⟩ := h
      refine ⟨.none, .none, ?_⟩
      rw [Option.guard, Decl.isCompanion, if_pos hcompanion]
      exact .some hy
    · simp only [Decl.symbolKind, hcompanion] at h
      obtain rfl := h
      refine ⟨.none, .none, ?_⟩
      rw [Option.guard, Decl.isCompanion, if_neg hcompanion]
      exact .none
  | field | initializer =>
    obtain rfl := h
    exact ⟨.none, .none, .none⟩

theorem role_of_functionAt (hf : f.symbols = .build m) (hids : m.declIds.Nodup) (hd : d ∈ m.decls)
    {x : Handle .functionInfo} (hat : f.FunctionAt s d.id x) : d.role = .function := by
  obtain ⟨symbol, g, hid, -⟩ := hat
  obtain ⟨hget, hkind⟩ := kind_of_function? hid
  obtain ⟨symbol', hget', hkind'⟩ := kind_of_mem hf hids hd
  cases hget.symm.trans hget'
  rw [hkind] at hkind'
  cases d <;> first | rfl | cases hkind'

theorem role_of_fieldAt (hf : f.symbols = .build m) (hids : m.declIds.Nodup) (hd : d ∈ m.decls)
    {x : Handle .fieldInfo} (hat : f.FieldAt s d.id x) : d.role = .initializer := by
  obtain ⟨symbol, head, hid, -⟩ := hat
  obtain ⟨hget, hkind⟩ := of_fieldOf? hid
  obtain ⟨symbol', hget', hkind'⟩ := kind_of_mem hf hids hd
  cases hget.symm.trans hget'
  rw [hkind] at hkind'
  cases d <;> first | rfl | cases hkind'

namespace Answered

variable (h : f.Answered asked rs as s) (hf : f.symbols = .build m) (hkeys : f.KeysDiffer m)
include h hf hkeys

/-- A class descriptor lists the descriptors of the members. -/
theorem of_classAt {head : DeclHead} {info : ClassHead} {members : List Decl} {x : Handle .classInfo}
    (hbare : ∀ ty, asked (.classInfoForType ty) → f.classOfType? ty ≠ none)
    (hd : .classDecl head info members ∈ m.decls) (hat : f.ClassAt s head.id x) :
    ∃ content, s.classes.get? x = some content ∧
      List.Forall₂ (fun d y => f.FunctionAt s d.id y) (members.filter Decl.isFunction)
        content.functions ∧
      List.Forall₂ (fun d y => f.PropertyAt s d.id y) (members.filter Decl.isProperty)
        content.properties ∧
      List.Forall₂ (fun d y => f.ClassAt s d.id y) (members.filter Decl.isCompanion)
        content.companions := by
  obtain ⟨symbol, c, hid, hfinds⟩ := hat
  obtain ⟨content, hget, hcontent⟩ := h.info hfinds
  refine ⟨content, hget, ?_⟩
  cases hcontent with
  | bare hasked hnone => exact absurd hnone (hbare _ hasked)
  | @declared id' s' c' handles _ _ hid' hname hmembers =>
    obtain rfl := hkeys.classes hf hid hid' hname
    cases hid.symm.trans hid'
    obtain ⟨hget', hkind⟩ := of_class? hid
    obtain ⟨symbol', hsymbol', hkind'⟩ := kind_of_mem hf hkeys.ids hd
    cases hget'.symm.trans hsymbol'
    cases hkind.symm.trans hkind'
    have hpairs : List.Forall₂ (fun d y => d ∈ members ∧ f.MemberAt s d.id y) members handles :=
      (List.forall₂_and_left _ _).mpr ⟨fun _ => id, List.forall₂_map_left_iff.mp hmembers⟩
    have hpicks := fun d y (hmember : d ∈ members ∧ f.MemberAt s d.id y) =>
      memberAt_picks hf hkeys.ids (Module.mem_of_held hd rfl hmember.1) hmember.2
    rw [← List.filterMap_eq_filter, ← List.filterMap_eq_filter, ← List.filterMap_eq_filter]
    exact ⟨List.rel_filterMap (fun d y hy => (hpicks d y hy).1) hpairs,
      List.rel_filterMap (fun d y hy => (hpicks d y hy).2.1) hpairs,
      List.rel_filterMap (fun d y hy => (hpicks d y hy).2.2) hpairs⟩

/-- A function descriptor names the class that the index finds. -/
theorem of_functionAt {id : DeclId} {x : Handle .functionInfo} (hat : f.FunctionAt s id x) :
    ∃ content, s.functions.get? x = some content ∧
      Option.Rel (f.ClassAt s) (f.declaringClass? id) content.declaringClass := by
  obtain ⟨symbol, g, hid, hfinds⟩ := hat
  obtain ⟨content, hget, hcontent⟩ := h.info hfinds
  refine ⟨content, hget, ?_⟩
  obtain ⟨hid', hkey, -, -, hclass, -, -, -⟩ := hcontent
  obtain rfl := hkeys.functions hf hid hid' hkey
  exact hclass

/-- A property descriptor has the descriptors of the accessors and of the backing field. -/
theorem of_propertyAt {head : DeclHead} {info : PropertyHead} {backing getter setter : Option Decl}
    {x : Handle .propertyInfo} (hd : .property head info backing getter setter ∈ m.decls)
    (hat : f.PropertyAt s head.id x) :
    ∃ content, s.properties.get? x = some content ∧
      Option.Rel (fun d y => f.FunctionAt s d.id y) getter content.getter ∧
      Option.Rel (fun d y => f.FunctionAt s d.id y) setter content.setter ∧
      Option.Rel (fun d y => f.FieldAt s d.id y) backing content.backing := by
  obtain ⟨symbol, p, hid, hfinds⟩ := hat
  obtain ⟨content, hget, hcontent⟩ := h.info hfinds
  refine ⟨content, hget, ?_⟩
  obtain ⟨hid', hkey, -, hgetter, hsetter, hbacking, -⟩ := hcontent
  obtain rfl := hkeys.properties hf hid hid' hkey
  cases hid.symm.trans hid'
  obtain ⟨hget', hkind⟩ := of_property? hid
  obtain ⟨symbol', hsymbol', hkind'⟩ := kind_of_mem hf hkeys.ids hd
  cases hget'.symm.trans hsymbol'
  cases hkind.symm.trans hkind'
  exact ⟨rel_of_rel_map hgetter, rel_of_rel_map hsetter, rel_of_rel_map hbacking⟩

/-- A function that a class declares names the class. -/
theorem namesClass_of_declares {c : Decl} {x : Handle .functionInfo} {y : Handle .classInfo}
    (hc : c ∈ m.decls) (hdeclares : c.Declares d) (hclass : f.ClassAt s c.id y)
    (hat : f.FunctionAt s d.id x) : f.NamesClass s d x (some y) := by
  obtain ⟨content, hget, hnamed⟩ := h.of_functionAt hf hkeys hat
  rw [declaringClass?_of_declares hf hkeys.ids hc hdeclares] at hnamed
  obtain ⟨y', hy', symbol', info', hid', hfinds'⟩ := exists_of_rel_some hnamed
  obtain ⟨symbol, info, hid, hfinds⟩ := hclass
  cases hid.symm.trans hid'
  rw [h.sound.handle_unique hfinds' hfinds] at hy'
  exact ⟨hat, content, hget, hy'⟩

/-- The accessors of a property in a class name the class. -/
theorem accessorsName_of_held {c : Decl} {x : Handle .propertyInfo} {y : Handle .classInfo}
    (hc : c ∈ m.decls) (hrole : c.role = .classRole) (hd : d ∈ c.held)
    (hproperty : d.isProperty = true) (hclass : f.ClassAt s c.id y)
    (hat : f.PropertyAt s d.id x) : f.AccessorsName s y d x := by
  have hmem := Module.mem_of_held hc (Decl.holdsCode_of_classRole hrole) hd
  have hname : ∀ a z, d.getter? = some a ∨ d.setter? = some a → f.FunctionAt s a.id z →
      f.NamesClass s a z (some y) := fun a z ha hz =>
    h.namesClass_of_declares hf hkeys hc ⟨hrole, .inr ⟨d, hd, ha⟩⟩ hclass hz
  cases d with
  | property head info backing getter setter =>
    obtain ⟨content, hget, hgetter, hsetter, -⟩ := h.of_propertyAt hf hkeys hmem hat
    exact ⟨hat, content, hget, rel_imp hgetter fun a z ha => hname a z (.inl ha),
      rel_imp hsetter fun a z ha => hname a z (.inr ha)⟩
  | classDecl | function | field | initializer => cases hproperty

/-- The descriptors of the properties of a class exist, so what stands directly in one of them is
its backing field or a function that is an accessor. -/
theorem role_of_held {c q a : Decl} {y : Handle .classInfo}
    (hbare : ∀ ty, asked (.classInfoForType ty) → f.classOfType? ty ≠ none) (hc : c ∈ m.decls)
    (hrole : c.role = .classRole) (hclass : f.ClassAt s c.id y) (hq : q ∈ c.held)
    (hqrole : q.role = .property) (ha : a ∈ q.held) :
    a.role = .initializer ∨ (a.role = .function ∧ (q.getter? = some a ∨ q.setter? = some a)) := by
  have hqmem := Module.mem_of_held hc (Decl.holdsCode_of_classRole hrole) hq
  cases c with
  | classDecl head info members =>
    obtain ⟨content, -, -, hproperties, -⟩ := h.of_classAt hf hkeys hbare hc hclass
    obtain ⟨i, hi, hqi⟩ := List.getElem_of_mem
      (List.mem_filter.mpr ⟨hq, by rw [Decl.isProperty, hqrole]; rfl⟩ :
        q ∈ members.filter Decl.isProperty)
    have hat := hproperties.get hi (hproperties.length_eq ▸ hi)
    simp only [List.get_eq_getElem, hqi] at hat
    cases q with
    | property head info backing getter setter =>
      obtain ⟨content, -, hgetter, hsetter, hbacking⟩ := h.of_propertyAt hf hkeys hqmem hat
      have hamem := Module.mem_of_held hqmem rfl ha
      simp only [Decl.held, List.mem_append, Option.mem_toList] at ha
      rcases ha with (rfl | rfl) | rfl
      · obtain ⟨_, -, hfield⟩ := exists_of_rel_some hbacking
        exact .inl (role_of_fieldAt hf hkeys.ids hamem hfield)
      · obtain ⟨_, -, hfunction⟩ := exists_of_rel_some hgetter
        exact .inr ⟨role_of_functionAt hf hkeys.ids hamem hfunction, .inl rfl⟩
      · obtain ⟨_, -, hfunction⟩ := exists_of_rel_some hsetter
        exact .inr ⟨role_of_functionAt hf hkeys.ids hamem hfunction, .inr rfl⟩
    | classDecl | function | field | initializer => cases hqrole
  | function | property | field | initializer => cases hrole

/-- A function that no class declares names none. -/
theorem namesClass_none {x : Handle .functionInfo}
    (hbare : ∀ ty, asked (.classInfoForType ty) → f.classOfType? ty ≠ none) (hd : d ∈ m.decls)
    (hat : f.FunctionAt s d.id x) (hnone : ∀ c ∈ m.decls, ¬c.Declares d) :
    f.NamesClass s d x none := by
  obtain ⟨content, hget, hnamed⟩ := h.of_functionAt hf hkeys hat
  refine ⟨hat, content, hget, ?_⟩
  cases hdeclaring : f.declaringClass? d.id with
  | none =>
    rw [hdeclaring] at hnamed
    exact eq_none_of_rel hnamed
  | some id =>
    exfalso
    obtain ⟨c, hc, hrole, rfl, q, hq, hstands⟩ :=
      stands_of_declaringOf hf hkeys.ids _ hd hdeclaring
    rw [hdeclaring] at hnamed
    obtain ⟨_, -, hclass⟩ := exists_of_rel_some hnamed
    rcases hstands with rfl | ⟨hqrole, a, ha, hstands⟩
    · exact hnone c hc ⟨hrole, .inl hq⟩
    · have harole := h.role_of_held hf hkeys hbare hc hrole hclass hq hqrole ha
      rcases hstands with rfl | hproperty
      · rcases harole with harole | ⟨-, haccessor⟩
        · rw [role_of_functionAt hf hkeys.ids hd hat] at harole
          cases harole
        · exact hnone c hc ⟨hrole, .inr ⟨q, hq, haccessor⟩⟩
      · rw [hproperty] at harole
        rcases harole with harole | ⟨harole, -⟩ <;> cases harole

end Answered

/-- **Classes and members agree.** When all requests have succeeded, none of which was for the class
of a type without a declaration, a class descriptor lists the functions, properties and companions
of the class, in the order of the members. The descriptors of these functions and of the accessors
name the class. A function with a descriptor that is no member of a class and no accessor in one
names no class; any other one names its class, which has a descriptor then. -/
theorem classes_and_members_agree (hf : f.symbols = .build m) (hkeys : f.KeysDiffer m)
    (hbare : ∀ ty, .classInfoForType ty ∈ rs → f.classOfType? ty ≠ none)
    (hrun : (rs.mapM f.serve).runOn {} = (.ok as, s)) :
    (∀ head info members, .classDecl head info members ∈ m.decls → ∀ c, f.ClassAt s head.id c →
      ∃ content, s.classes.get? c = some content ∧ f.ListsMembers s members c content) ∧
    ∀ d ∈ m.decls, ∀ x, f.FunctionAt s d.id x →
      (∀ c ∈ m.decls, c.Declares d → ∃ y, f.ClassAt s c.id y ∧ f.NamesClass s d x (some y)) ∧
      ((∀ c ∈ m.decls, ¬c.Declares d) → f.NamesClass s d x none) := by
  have h : f.Answered (· ∈ rs) rs as s := answered_of_run (fun _ => id) hrun
  constructor
  · intro head info members hc c hclass
    obtain ⟨content, hget, hfunctions, hproperties, hcompanions⟩ :=
      h.of_classAt hf hkeys hbare hc hclass
    refine ⟨content, hget, ?_, ?_, hcompanions⟩
    · refine ((List.forall₂_and_left _ _).mpr ⟨fun _ => id, hfunctions⟩).imp ?_
      rintro d x ⟨hd, hat⟩
      exact h.namesClass_of_declares hf hkeys hc ⟨rfl, .inl (List.mem_filter.mp hd).1⟩ hclass hat
    · refine ((List.forall₂_and_left _ _).mpr ⟨fun _ => id, hproperties⟩).imp ?_
      rintro d x ⟨hd, hat⟩
      obtain ⟨hd, hproperty⟩ := List.mem_filter.mp hd
      exact h.accessorsName_of_held hf hkeys hc rfl hd hproperty hclass hat
  · intro d hd x hat
    refine ⟨fun c hc hdeclares => ?_, h.namesClass_none hf hkeys hbare hd hat⟩
    obtain ⟨content, -, hnamed⟩ := h.of_functionAt hf hkeys hat
    rw [declaringClass?_of_declares hf hkeys.ids hc hdeclares] at hnamed
    obtain ⟨y, -, hclass⟩ := exists_of_rel_some hnamed
    exact ⟨y, hclass, h.namesClass_of_declares hf hkeys hc hdeclares hclass hat⟩

end

/-! ## A class that is reached from an accessor -/

namespace MembersSample

def head (id : UInt32) : DeclHead := { id := ⟨id⟩, span := ⟨⟨0⟩, id.toInt32, id.toInt32 + 1⟩ }

def function (id : UInt32) (name : String) (kind : FunctionKind) : Decl :=
  .function (head id) { name, kind, returnTy := .unit } [] .absent

def members : List Decl :=
  [function 1 "C" (.constructor true),
    function 2 "f" .plain,
    .property (head 3) { name := "p" } (some (.field (head 4) { name := "p", ty := .int } none))
      (some (function 5 "get" .getter)) none,
    .classDecl (head 6) { name := "K", kind := .object, isCompanion := true }
      [function 7 "h" .plain]]

def outside : Decl := function 8 "g" .plain

def sample : Module where
  name := "members"
  files :=
    [{ id := ⟨0⟩, path := "Main.kt",
       declarations := [.classDecl (head 0) { name := "C" } members, outside] }]

def factory : Factory where
  symbols := .build sample
  sources := .ofTexts [("Main.kt", "class C")]
  moduleName := "members"

/-- The getter leads to the class, and the class to its other members. -/
def requests : List Request := [.functionInfo ⟨5⟩, .classInfo ⟨0⟩, .functionInfo ⟨8⟩]

theorem keysDiffer : factory.KeysDiffer sample := by decide +kernel

theorem not_declares_outside : ∀ c ∈ sample.decls, ¬c.Declares outside := by
  have hheld : ∀ c ∈ sample.decls, ∀ d ∈ c.held, d.id ≠ ⟨8⟩ := by decide
  rintro c hc ⟨hrole, hd | ⟨p, hp, haccessor⟩⟩
  · exact hheld c hc outside hd rfl
  · have hpmem := Module.mem_of_held hc (Decl.holdsCode_of_classRole hrole) hp
    exact hheld p hpmem outside (Decl.of_accessor haccessor).2.2 rfl

/-- The class lists its members, and the function next to it names no class. -/
theorem reached_from_accessor : ∃ as s, (requests.mapM factory.serve).runOn {} = (.ok as, s) ∧
    (∃ c content, factory.ClassAt s ⟨0⟩ c ∧ s.classes.get? c = some content ∧
      factory.ListsMembers s members c content) ∧
    ∃ x, factory.NamesClass s outside x none := by
  have hok : ((requests.mapM factory.serve).runOn {}).1.isOk = true := by decide +kernel
  -- the run is evaluated above, and is only a name from here on
  generalize hrun : (requests.mapM factory.serve).runOn {} = run at hok ⊢
  obtain ⟨result, s⟩ := run
  obtain ⟨as, rfl⟩ := Except.exists_ok hok
  have hbare : ∀ ty, .classInfoForType ty ∈ requests → factory.classOfType? ty ≠ none := by
    simp [requests]
  obtain ⟨hclasses, hfunctions⟩ := classes_and_members_agree rfl keysDiffer hbare hrun
  have hasked : ∀ r ∈ requests, r ∈ requests := fun _ => id
  have hanswers := (answered_of_run hasked hrun).answers
  obtain ⟨_, -, c, hc, -⟩ := exists_of_getElem? hanswers (show requests[1]? = _ from rfl)
  obtain ⟨_, -, x, hx, -⟩ := exists_of_getElem? hanswers (show requests[2]? = _ from rfl)
  have hclass : .classDecl (head 0) { name := "C" } members ∈ sample.decls :=
    List.mem_of_getElem? (show sample.decls[0]? = _ from rfl)
  have houtside : outside ∈ sample.decls :=
    List.mem_of_getElem? (show sample.decls[8]? = _ from rfl)
  obtain ⟨content, hget, hlists⟩ := hclasses _ _ _ hclass c hc
  exact ⟨as, s, rfl, ⟨c, content, hc, hget, hlists⟩, x,
    (hfunctions outside houtside x hx).2 not_declares_outside⟩

end MembersSample

end Factory

end TraceWeave

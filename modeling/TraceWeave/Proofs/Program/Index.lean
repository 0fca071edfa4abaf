import Mathlib.Data.List.Perm.Basic
import TraceWeave.Linkage
import TraceWeave.Proofs.Program.Scoped

/-! # Symbols and declarations

Every declaration of a module has a symbol, and with distinct identities a symbol that is found by
its name is the one that is found by its identity. So a hook is a function, and the host knows it
by the name that it was found by.

`SymbolsOf` relates nodes to symbols, and `Module.symbols` are those of a module.
`SymbolTable.get?_of_mem` finds a symbol by its identity and `SymbolTable.of_lookupFunction?` by
its name; `Interpreter.exists_function_of_symbol` is about running code.
-/

namespace TraceWeave

def Decl.functionHead? : Decl → Option FunctionHead
  | .function _ info _ _ => some info
  | _ => none

/-- What a declaration and its symbol have in common. -/
def Decl.outline (d : Decl) : DeclHead × Option FunctionHead := (d.head, d.functionHead?)

def Symbol.outline (s : Symbol) : DeclHead × Option FunctionHead :=
  (s.head, s.function?.map FunctionSymbol.head)

/-- The symbols of the declarations among nodes, in any order. -/
def SymbolsOf (symbols : List Symbol) (nodes : List Node) : Prop :=
  (symbols.map Symbol.outline).Perm ((declsOf nodes).map Decl.outline)

namespace SymbolsOf

variable {xs ys : List Symbol} {ns ms : List Node}

theorem nil : SymbolsOf [] [] := List.Perm.nil

theorem append (h : SymbolsOf xs ns) (h' : SymbolsOf ys ms) : SymbolsOf (xs ++ ys) (ns ++ ms) := by
  unfold SymbolsOf
  rw [declsOf_append, List.map_append, List.map_append]
  exact List.Perm.append h h'

/-- A declaration comes before those nested in it, its symbol after theirs. -/
theorem decl {s : Symbol} {d : Decl} (h : SymbolsOf xs ns) (hd : s.outline = d.outline) :
    SymbolsOf (xs ++ [s]) (.decl d :: ns) := by
  unfold SymbolsOf
  rw [declsOf_decl, List.map_append, List.map_cons, List.map_cons, List.map_nil, hd]
  exact (List.perm_append_singleton _ _).trans (List.Perm.cons _ h)

end SymbolsOf

mutual

theorem Expr.symbols_of (sc : SymbolScope) : ∀ e : Expr, SymbolsOf (e.symbols sc) e.nodes
  | .setVar _ _ value => value.symbols_of sc
  | .call _ _ receiver _ args => (option_symbols_of sc receiver).append (args_symbols_of sc args)
  | .block _ stmts | .returnable _ _ stmts => stmts_symbols_of sc stmts
  | .ret _ _ value => value.symbols_of sc
  | .when _ branches otherwise =>
    (branches_symbols_of sc branches).append (option_symbols_of sc otherwise)
  | .loop _ condition body => (condition.symbols_of sc).append (body.symbols_of sc)
  | .binary _ _ lhs rhs => (lhs.symbols_of sc).append (rhs.symbols_of sc)
  | .not _ operand => operand.symbols_of sc
  | .concat _ parts => exprs_symbols_of sc parts
  | .lambda _ decl => decl.symbols_of sc
  | .const _ _ | .getVar _ _ | .functionRef _ _ | .propertyRef _ _ | .descriptor _ _
  | .captureFrame _ _ => .nil

theorem option_symbols_of (sc : SymbolScope) : ∀ e : Option Expr,
    SymbolsOf (optionSymbols sc e) (optionNodes e)
  | none => .nil
  | some e => e.symbols_of sc

theorem args_symbols_of (sc : SymbolScope) : ∀ args : List (Option Expr),
    SymbolsOf (argsSymbols sc args) (argsNodes args)
  | [] => .nil
  | none :: args => args_symbols_of sc args
  | some e :: args => (e.symbols_of sc).append (args_symbols_of sc args)

theorem exprs_symbols_of (sc : SymbolScope) : ∀ es : List Expr,
    SymbolsOf (exprsSymbols sc es) (exprsNodes es)
  | [] => .nil
  | e :: es => (e.symbols_of sc).append (exprs_symbols_of sc es)

theorem branches_symbols_of (sc : SymbolScope) : ∀ branches : List (Expr × Expr),
    SymbolsOf (branchesSymbols sc branches) (branchesNodes branches)
  | [] => .nil
  | (condition, result) :: branches =>
    ((condition.symbols_of sc).append (result.symbols_of sc)).append (branches_symbols_of sc branches)

theorem stmts_symbols_of (sc : SymbolScope) : ∀ stmts : List Stmt,
    SymbolsOf (stmtsSymbols sc stmts) (stmtsNodes stmts)
  | [] => .nil
  | stmt :: stmts => (stmt.symbols_of sc).append (stmts_symbols_of sc stmts)

theorem Stmt.symbols_of (sc : SymbolScope) : ∀ stmt : Stmt, SymbolsOf (stmt.symbols sc) stmt.nodes
  | .expr e => e.symbols_of sc
  | .var _ init => option_symbols_of sc init
  | .decl d => d.symbols_of sc

theorem params_symbols_of (sc : SymbolScope) : ∀ params : List Param,
    SymbolsOf (paramsSymbols sc params) (paramsNodes params)
  | [] => .nil
  | ⟨_, default⟩ :: params => (option_symbols_of sc default).append (params_symbols_of sc params)

theorem Body.symbols_of (sc : SymbolScope) : ∀ body : Body, SymbolsOf (body.symbols sc) body.nodes
  | .absent => .nil
  | .block stmts => stmts_symbols_of sc stmts
  | .expression e => e.symbols_of sc

theorem Decl.symbols_of (sc : SymbolScope) : ∀ d : Decl, SymbolsOf (d.symbols sc) d.nodes
  | .classDecl _ _ members => (decls_symbols_of _ members).decl rfl
  | .function _ _ params body => ((params_symbols_of _ params).append (body.symbols_of _)).decl rfl
  | .property _ _ backing getter setter =>
    (((accessor_symbols_of _ backing).append (accessor_symbols_of _ getter)).append
      (accessor_symbols_of _ setter)).decl rfl
  | .field _ _ init => (option_symbols_of _ init).decl rfl
  | .initializer _ body => (stmts_symbols_of _ body).decl rfl

theorem accessor_symbols_of (sc : SymbolScope) : ∀ d : Option Decl,
    SymbolsOf (accessorSymbols sc d) (accessorNodes d)
  | none => .nil
  | some d => d.symbols_of sc

theorem decls_symbols_of (sc : SymbolScope) : ∀ ds : List Decl,
    SymbolsOf (declsSymbols sc ds) (declsNodes ds)
  | [] => .nil
  | d :: ds => (d.symbols_of sc).append (decls_symbols_of sc ds)

end

/-! ## Modules -/

/-- In a list with distinct keys an element is found by its key. -/
theorem find?_of_distinct {α κ : Type} [DecidableEq κ] (key : α → κ) {a : α} :
    ∀ {l : List α}, (l.map key).Nodup → a ∈ l → l.find? (fun b => key b == key a) = some a
  | b :: l, hn, ha => by
    rw [List.map_cons, List.nodup_cons] at hn
    rw [List.find?_cons]
    obtain rfl | ha := List.mem_cons.mp ha
    · simp
    · have hne : key b ≠ key a := fun heq => hn.1 (heq ▸ List.mem_map_of_mem ha)
      rw [beq_false_of_ne hne]
      exact find?_of_distinct key hn.2 ha

namespace Module

/-- The symbols of a file. -/
def symbolsOfFile (external : Bool) (f : SourceFile) : List Symbol :=
  declsSymbols { file := f.id, external, scope := f.package } f.declarations

/-- The symbols of all files, own files first. -/
def symbols (m : Module) : List Symbol :=
  m.files.flatMap (symbolsOfFile false) ++ m.external.flatMap (symbolsOfFile true)

theorem files_symbols_of (external : Bool) : ∀ fs : List SourceFile,
    SymbolsOf (fs.flatMap (symbolsOfFile external)) (fs.flatMap fun f => declsNodes f.declarations)
  | [] => .nil
  | f :: fs => (decls_symbols_of _ f.declarations).append (files_symbols_of external fs)

theorem symbols_of (m : Module) : SymbolsOf m.symbols m.nodes := by
  unfold symbols nodes allFiles
  rw [List.flatMap_append]
  exact (files_symbols_of false m.files).append (files_symbols_of true m.external)

theorem nodup_symbols {m : Module} (h : m.declIds.Nodup) : (m.symbols.map Symbol.id).Nodup := by
  have hperm := m.symbols_of.map fun o => o.1.id
  rw [List.map_map, List.map_map] at hperm
  exact hperm.nodup_iff.mpr h

theorem ownDecl?_of_mem {m : Module} (h : m.declIds.Nodup) {x : ScopeStack × Decl}
    (hx : x ∈ m.ownDecls) : m.ownDecl? x.2.id = some x := by
  rw [declIds, decls_eq, List.map_append, List.map_map] at h
  exact find?_of_distinct (fun x : ScopeStack × Decl => x.2.id) (List.nodup_append.mp h).1 hx

theorem ownDecl?_of_external {m : Module} (h : m.declIds.Nodup) {d : Decl}
    (hd : d ∈ m.external.flatMap fun f => declsOf (declsNodes f.declarations)) :
    m.ownDecl? d.id = none := by
  rw [declIds, decls_eq, List.map_append, List.map_map] at h
  obtain ⟨-, -, hdisjoint⟩ := List.nodup_append.mp h
  refine List.find?_eq_none.mpr fun x hx heq => ?_
  exact hdisjoint x.2.id (List.mem_map_of_mem (f := Decl.id ∘ Prod.snd) hx) d.id
    (List.mem_map_of_mem hd) (beq_iff_eq.mp heq)

end Module

namespace SymbolTable

theorem newest_foldl (external : Bool) : ∀ (fs : List SourceFile) (t : SymbolTable),
    (fs.foldl (addFile external) t).newest =
      (fs.flatMap (Module.symbolsOfFile external)).reverse ++ t.newest
  | [], _ => rfl
  | f :: fs, t => by
    rw [List.foldl_cons, newest_foldl external fs, List.flatMap_cons, List.reverse_append,
      List.append_assoc]
    rfl

theorem newest_build (m : Module) : (build m).newest = m.symbols.reverse := by
  unfold build
  rw [newest_foldl, newest_foldl, List.append_nil, Module.symbols, List.reverse_append]

theorem mem_of_get? {m : Module} {id : DeclId} {s : Symbol} (h : (build m).get? id = some s) :
    s ∈ m.symbols ∧ s.id = id := by
  unfold get? at h
  have hmem := List.mem_of_find?_eq_some h
  rw [newest_build, List.mem_reverse] at hmem
  exact ⟨hmem, by simpa using List.find?_some h⟩

theorem get?_of_mem {m : Module} (h : m.declIds.Nodup) {s : Symbol} (hs : s ∈ m.symbols) :
    (build m).get? s.id = some s := by
  unfold get?
  rw [newest_build]
  refine find?_of_distinct Symbol.id ?_ (List.mem_reverse.mpr hs)
  rw [List.map_reverse]
  exact (List.reverse_perm _).nodup_iff.mpr (Module.nodup_symbols h)

theorem function?_of_get? {t : SymbolTable} {id : DeclId} {s : Symbol} {f : FunctionSymbol}
    (hs : t.get? id = some s) (hf : s.function? = some f) : t.function? id = some (s, f) := by
  rw [function?, hs, Option.bind_eq_bind, Option.bind_some, hf]
  rfl

/-- What the index knows about a function. -/
theorem function?_of_mem {m : Module} (h : m.declIds.Nodup) {head : DeclHead} {info : FunctionHead}
    {params : List Param} {body : Body} (hd : .function head info params body ∈ m.decls) :
    ∃ s f, (build m).function? head.id = some (s, f) ∧ s.head = head ∧ f.head = info := by
  have hmem : (Decl.function head info params body).outline ∈ m.symbols.map Symbol.outline :=
    m.symbols_of.mem_iff.mpr (List.mem_map_of_mem hd)
  obtain ⟨s, hs, houtline⟩ := List.mem_map.mp hmem
  obtain ⟨hhead, hfunction⟩ := Prod.mk.inj houtline
  obtain ⟨f, hf, hinfo⟩ := Option.map_eq_some_iff.mp hfunction
  have hid : s.id = head.id := congrArg DeclHead.id hhead
  rw [← hid]
  exact ⟨s, f, function?_of_get? (get?_of_mem h hs) hf, hhead, hinfo⟩

/-- A function that is found by its name. -/
theorem of_lookupFunction? {m : Module} (h : m.declIds.Nodup) {name : String} {id : DeclId}
    (hid : (build m).lookupFunction? name = some id) :
    ∃ s ∈ m.symbols, s.id = id ∧ s.fqName = name ∧ s.function?.isSome := by
  have hmem := List.mem_of_find?_eq_some hid
  have hfunction := List.find?_some hid
  simp only [lookup, newest_build, List.mem_map, List.mem_reverse, List.mem_filter,
    beq_iff_eq] at hmem
  obtain ⟨s, ⟨hs, hname⟩, rfl⟩ := hmem
  refine ⟨s, hs, rfl, hname, ?_⟩
  simp only [function?, get?_of_mem h hs, Option.bind_eq_bind, Option.bind_some] at hfunction
  cases hf : s.function? with
  | some info => rfl
  | none => simp [hf] at hfunction

end SymbolTable

namespace Interpreter

variable {m : Module}

theorem mem_of_decl? {hosts : HostTable} {id : DeclId} {d : Decl}
    (h : (ofModule m hosts).decl? id = some d) : d ∈ m.decls ∧ d.id = id := by
  unfold decl? ofModule at h
  obtain ⟨l₁, l₂, heq, -⟩ := List.lookup_eq_some_iff.mp h
  have hmem : (id, d) ∈ declIndex m := by
    rw [show declIndex m = _ from heq]
    simp
  rw [declIndex_eq, List.mem_reverse, List.mem_map] at hmem
  obtain ⟨d', hd', hpair⟩ := hmem
  cases hpair
  exact ⟨hd', rfl⟩

theorem lookup_map (ds : List Decl) (id : DeclId) :
    (ds.map fun d => (d.id, d)).lookup id = ds.find? (·.id == id) := by
  induction ds with
  | nil => rfl
  | cons d ds ih =>
    rw [List.map_cons, List.lookup_cons, List.find?_cons, ih, BEq.comm]

theorem decl?_ofModule (m : Module) (hosts : HostTable) (id : DeclId) :
    (ofModule m hosts).decl? id = m.decls.reverse.find? (·.id == id) := by
  unfold decl? ofModule
  rw [declIndex_eq, ← List.map_reverse, lookup_map]

theorem decl?_of_mem (h : m.declIds.Nodup) (hosts : HostTable) {d : Decl} (hd : d ∈ m.decls) :
    (ofModule m hosts).decl? d.id = some d := by
  rw [decl?_ofModule]
  refine find?_of_distinct Decl.id ?_ (List.mem_reverse.mpr hd)
  rw [List.map_reverse]
  exact (List.reverse_perm _).nodup_iff.mpr h

/-- A declaration of a module belongs to an own file or not. -/
theorem ownDecl?_cases (h : m.declIds.Nodup) {hosts : HostTable} {id : DeclId} {d : Decl}
    (hd : (ofModule m hosts).decl? id = some d) :
    (∃ sc, (sc, d) ∈ m.ownDecls ∧ m.ownDecl? id = some (sc, d)) ∨ m.ownDecl? id = none := by
  obtain ⟨hmem, rfl⟩ := mem_of_decl? hd
  rw [Module.decls_eq] at hmem
  obtain hown | hexternal := List.mem_append.mp hmem
  · obtain ⟨x, hx, rfl⟩ := List.mem_map.mp hown
    exact .inl ⟨x.1, hx, Module.ownDecl?_of_mem h hx⟩
  · exact .inr (Module.ownDecl?_of_external h hexternal)

/-- The declaration of a symbol. -/
theorem exists_function_of_symbol (h : m.declIds.Nodup) (hosts : HostTable) {s : Symbol}
    (hs : s ∈ m.symbols) (hfunction : s.function?.isSome) :
    ∃ head info params body,
      (ofModule m hosts).decl? s.id = some (.function head info params body) := by
  have hmem : s.outline ∈ m.symbols.map Symbol.outline := List.mem_map_of_mem hs
  rw [m.symbols_of.mem_iff, List.mem_map] at hmem
  obtain ⟨d, hd, houtline⟩ := hmem
  have hid : d.id = s.id := congrArg (fun o => o.1.id) houtline
  have hfun : d.functionHead?.isSome := by
    rw [show d.functionHead? = _ from congrArg Prod.snd houtline, Symbol.outline, Option.isSome_map]
    exact hfunction
  rw [← hid, decl?_of_mem h hosts hd]
  cases d with
  | function head info params body => exact ⟨head, info, params, body, rfl⟩
  | _ => exact absurd hfun Bool.false_ne_true

theorem hostName_of_symbol (h : m.declIds.Nodup) (hosts : HostTable) {s : Symbol}
    (hs : s ∈ m.symbols) (info : FunctionHead) :
    (ofModule m hosts).hostName s.id info = s.fqName := by
  unfold hostName ofModule
  simp only [SymbolTable.get?_of_mem h hs]

end Interpreter

/-! ## Hooks -/

theorem Linkage.hooks_of_build {t : SymbolTable} {o : Options} {l : Linkage}
    (h : Linkage.build t o = .ok l) : l.hooks = hooksOf t o.tracing.hooks := by
  unfold build at h
  cases hl : addIntrinsics o.intrinsics.markedBy t.entries {} with
  | error e => rw [hl] at h; exact nomatch h
  | ok l' =>
    rw [hl] at h
    cases h
    rfl

theorem Linkage.lookupFunction?_of_hook? {t : SymbolTable} {o : Options} {l : Linkage}
    (h : Linkage.build t o = .ok l) {ty : TraceType} {id : DeclId} (hid : l.hook? ty = some id) :
    t.lookupFunction? (o.tracing.hooks.get ty) = some id := by
  unfold hook? at hid
  rw [hooks_of_build h] at hid
  obtain ⟨l₁, l₂, heq, -⟩ := List.lookup_eq_some_iff.mp hid
  have hmem : (ty, id) ∈ hooksOf t o.tracing.hooks := heq ▸ by simp
  obtain ⟨ty', -, hty⟩ := List.mem_filterMap.mp hmem
  obtain ⟨id', hid', hpair⟩ := Option.map_eq_some_iff.mp hty
  cases hpair
  exact hid'

end TraceWeave

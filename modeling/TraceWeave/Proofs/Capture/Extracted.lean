import Mathlib.Data.List.Forall2
import Mathlib.Data.List.Nodup
import TraceWeave.Pass.CallerCapture
import TraceWeave.Proofs.Program.Accounts
import TraceWeave.Proofs.Program.Index
import TraceWeave.Proofs.Program.References

/-! # What extraction leaves behind

Extraction takes defaults out of functions, and with them whatever is declared inside. Every other
declaration stays. A function that something was taken out of is marked, and what was taken out is
on record under the function and the parameter.

`Decl.stripped` is what a declaration becomes and `CallerCapture.taken?` what is taken out of it.
`CallerCapture.Extracts` relates nodes to what is left of them; it holds of all files
(`CallerCapture.filesExtract_extracts`), by one account for every kind of node
(`CallerCapture.ExtractAccounts`).
-/

namespace TraceWeave

open CallerCapture

/-- A parameter without its default, if that is an intrinsic call. -/
def Param.stripped (l : Linkage) (p : Param) : Param :=
  if (strippedDefault? l p.default).isSome then { p with default := none } else p

/-- A function without the defaults that are intrinsic calls, with a marker that lists one mode for
each parameter. Functions that have no such default or that are marked already stay as they are. -/
def Decl.stripped (env : PassEnv) : Decl → Decl
  | .function head info params body =>
    if isCapturing env head params then
      .function (markedHead env head params) info (params.map (Param.stripped env.linkage)) body
    else .function head info params body
  | d => d

namespace CallerCapture

variable {env : PassEnv} {x y z : Extraction}

/-! ## Records -/

/-- What is taken out of a parameter of a declaration. -/
def taken? (env : PassEnv) : Decl → Nat → Option StrippedCall
  | .function head _ params _, index =>
    if isCapturing env head params then
      (params[index]?.bind fun p => strippedDefault? env.linkage p.default).map Prod.snd
    else none
  | _, _ => none

/-- Records what is taken out of a declaration itself. -/
def recordDecl (env : PassEnv) (x : Extraction) : Decl → Extraction
  | .function head _ params _ =>
    if isCapturing env head params then
      { recordParams env.linkage head.id 0 params x with
        marked := (recordParams env.linkage head.id 0 params x).marked + 1 }
    else x
  | _ => x

/-- Extraction goes through a function after it has recorded what it takes out of it. -/
theorem declExtract_function (head : DeclHead) (info : FunctionHead) (params : List Param)
    (body : Body) (x : Extraction) :
    declExtract env (.function head info params body) x =
      let capturing := isCapturing env head params
      let ps := paramsExtract env capturing params
        (recordDecl env x (.function head info params body))
      let b := bodyExtract env body ps.2
      (.function (if capturing then markedHead env head params else head) info ps.1 b.1, b.2) := by
  rw [declExtract, recordDecl]
  cases isCapturing env head params <;> rfl

theorem lookup_record (x : Extraction) (id : DeclId) (index : Nat) (call : StrippedCall)
    (key : DeclId × Nat) : (x.record id index call).captured.lookup key =
      if key = (id, index) then some call else x.captured.lookup key := by
  rw [Extraction.record, List.lookup_cons]
  split_ifs with hkey
  · rw [beq_iff_eq.mpr hkey]
  · rw [beq_false_of_ne hkey]

theorem lookup_recordParams_of_ne (l : Linkage) {id id' : DeclId} (hne : id' ≠ id) (index' : Nat) :
    ∀ (params : List Param) (index : Nat) (x : Extraction),
      (recordParams l id index params x).captured.lookup (id', index') =
        x.captured.lookup (id', index')
  | [], _, _ => rfl
  | p :: params, index, x => by
    rw [recordParams]
    split
    · rw [lookup_recordParams_of_ne l hne index' params, lookup_record,
        if_neg fun heq => hne (congrArg Prod.fst heq)]
    · exact lookup_recordParams_of_ne l hne index' params _ x

theorem lookup_recordParams_of_lt (l : Linkage) (id : DeclId) :
    ∀ (params : List Param) (index index' : Nat) (x : Extraction), index' < index →
      (recordParams l id index params x).captured.lookup (id, index') =
        x.captured.lookup (id, index')
  | [], _, _, _, _ => rfl
  | p :: params, index, index', x, hlt => by
    rw [recordParams]
    split
    · rw [lookup_recordParams_of_lt l id params _ _ _ (by omega), lookup_record,
        if_neg fun heq => by
          have := congrArg Prod.snd heq
          dsimp only at this
          omega]
    · exact lookup_recordParams_of_lt l id params _ _ x (by omega)

theorem lookup_recordParams (l : Linkage) (id : DeclId) :
    ∀ (params : List Param) (index offset : Nat) (x : Extraction),
      (recordParams l id index params x).captured.lookup (id, index + offset) =
        ((params[offset]?.bind fun p => strippedDefault? l p.default).map Prod.snd).or
          (x.captured.lookup (id, index + offset))
  | [], _, _, _ => rfl
  | p :: params, index, 0, x => by
    rw [recordParams, List.getElem?_cons_zero, Option.bind_some]
    split
    · rename_i hstripped
      rw [lookup_recordParams_of_lt l id params _ _ _ (by omega), lookup_record, hstripped]
      exact if_pos rfl
    · rename_i hstripped
      rw [lookup_recordParams_of_lt l id params _ _ _ (by omega), hstripped]
      rfl
  | p :: params, index, offset + 1, x => by
    have hstep : index + (offset + 1) = index + 1 + offset := by omega
    rw [recordParams, List.getElem?_cons_succ, hstep]
    split
    · rw [lookup_recordParams l id params, lookup_record, if_neg fun heq => by
        have := congrArg Prod.snd heq
        dsimp only at this
        omega]
    · exact lookup_recordParams l id params _ _ x

theorem lookup_recordDecl_of_ne {d : Decl} {id : DeclId} (hne : id ≠ d.id) (index : Nat) :
    (recordDecl env x d).captured.lookup (id, index) = x.captured.lookup (id, index) := by
  cases d with
  | function head info params body =>
    rw [recordDecl]
    split
    · exact lookup_recordParams_of_ne env.linkage hne index params 0 x
    · rfl
  | _ => rfl

theorem lookup_recordDecl (d : Decl) (index : Nat) :
    (recordDecl env x d).captured.lookup (d.id, index) =
      (taken? env d index).or (x.captured.lookup (d.id, index)) := by
  cases d with
  | function head info params body =>
    rw [recordDecl, taken?]
    split
    · have h := lookup_recordParams env.linkage head.id params 0 index x
      rw [Nat.zero_add] at h
      exact h
    · rfl
  | _ => rfl

theorem lookup_recordDecls_of_not_mem {id : DeclId} (index : Nat) :
    ∀ {ds : List Decl} {x : Extraction}, id ∉ ds.map Decl.id →
      (ds.foldl (recordDecl env) x).captured.lookup (id, index) = x.captured.lookup (id, index)
  | [], _, _ => rfl
  | d :: ds, x, hid => by
    rw [List.map_cons, List.mem_cons, not_or] at hid
    rw [List.foldl_cons, lookup_recordDecls_of_not_mem index hid.2, lookup_recordDecl_of_ne hid.1]

/-- What is on record about a declaration among some with distinct identities. -/
theorem lookup_recordDecls {d : Decl} (index : Nat) :
    ∀ {ds : List Decl} {x : Extraction}, (ds.map Decl.id).Nodup → d ∈ ds →
      (ds.foldl (recordDecl env) x).captured.lookup (d.id, index) =
        (taken? env d index).or (x.captured.lookup (d.id, index))
  | d' :: ds, x, hn, hd => by
    rw [List.map_cons, List.nodup_cons] at hn
    rw [List.foldl_cons]
    obtain rfl | hd := List.mem_cons.mp hd
    · rw [lookup_recordDecls_of_not_mem index hn.1, lookup_recordDecl]
    · have hne : d.id ≠ d'.id := fun heq => hn.1 (heq ▸ List.mem_map_of_mem hd)
      rw [lookup_recordDecls index hn.2 hd, lookup_recordDecl_of_ne hne]

/-! ## Accounts of extraction -/

section

variable {A : Account Extraction}

/-- An account that covers extraction: it holds around a node that is no declaration, and for a
declaration if it holds below it from the moment when its own defaults are on record. -/
structure ExtractAccounts (env : PassEnv) (A : Account Extraction) : Prop where
  around : ∀ {n n' : Node} {x y as bs}, n'.husk = n.husk → n.decl? = none → A.Holds x y as bs →
    A.Holds x y (n :: as) (n' :: bs)
  decl : ∀ (d : Decl) x,
    A.Holds (recordDecl env x d) (declExtract env d x).2 (d.stripped env).innerNodes
        (declExtract env d x).1.innerNodes →
      A.Holds x (declExtract env d x).2 d.nodes (declExtract env d x).1.nodes

private theorem optionExtract_given (e : Option Expr) (x : Extraction) :
    (optionExtract env e x).1.map (fun _ => (default : Expr)) = e.map fun _ => default := by
  cases e <;> rfl

private theorem argsExtract_given (args : List (Option Expr)) : ∀ x : Extraction,
    (argsExtract env args x).1.map (·.map fun _ => (default : Expr)) =
      args.map (·.map fun _ => default) := by
  induction args with
  | nil => exact fun _ => rfl
  | cons arg args ih =>
    cases arg with
    | none => exact fun x => congrArg (none :: ·) (ih x)
    | some e => exact fun x => congrArg (some default :: ·) (ih _)

mutual

-- Code is passed over and its declarations are accounted for; that a declaration loses defaults is
-- met in its own case.
theorem exprExtract_accounts (hA : ExtractAccounts env A) : ∀ (e : Expr) (x : Extraction),
    A.Holds x (exprExtract env e x).2 e.nodes (exprExtract env e x).1.nodes
  | .setVar _ _ value, _ => hA.around rfl rfl (exprExtract_accounts hA value _)
  | .call s callee receiver typeArgs args, x => by
    refine hA.around ?_ rfl (A.append (optionExtract_accounts hA receiver _)
      (argsExtract_accounts hA args _))
    rw [Node.husk, Node.husk, Expr.husk, Expr.husk, optionExtract_given, argsExtract_given]
  | .block _ stmts, _ | .returnable _ _ stmts, _ =>
    hA.around rfl rfl (stmtsExtract_accounts hA stmts _)
  | .ret _ _ value, _ => hA.around rfl rfl (exprExtract_accounts hA value _)
  | .when _ branches otherwise, _ => hA.around rfl rfl
    (A.append (branchesExtract_accounts hA branches _) (optionExtract_accounts hA otherwise _))
  | .loop _ condition body, _ => hA.around rfl rfl
    (A.append (exprExtract_accounts hA condition _) (exprExtract_accounts hA body _))
  | .binary _ _ lhs rhs, _ => hA.around rfl rfl
    (A.append (exprExtract_accounts hA lhs _) (exprExtract_accounts hA rhs _))
  | .not _ operand, _ => hA.around rfl rfl (exprExtract_accounts hA operand _)
  | .concat _ parts, _ => hA.around rfl rfl (exprsExtract_accounts hA parts _)
  | .lambda _ decl, _ => hA.around rfl rfl (declExtract_accounts hA decl _)
  | .const _ _, _ | .getVar _ _, _ | .functionRef _ _, _ | .propertyRef _ _, _
  | .descriptor _ _, _ | .captureFrame _ _, _ => hA.around rfl rfl (A.nothing _)

theorem optionExtract_accounts (hA : ExtractAccounts env A) : ∀ (e : Option Expr) (x : Extraction),
    A.Holds x (optionExtract env e x).2 (optionNodes e) (optionNodes (optionExtract env e x).1)
  | none, _ => A.nothing _
  | some e, x => exprExtract_accounts hA e x

theorem argsExtract_accounts (hA : ExtractAccounts env A) : ∀ (args : List (Option Expr))
    (x : Extraction), A.Holds x (argsExtract env args x).2 (argsNodes args)
      (argsNodes (argsExtract env args x).1)
  | [], _ => A.nothing _
  | none :: args, x => argsExtract_accounts hA args x
  | some e :: args, _ =>
    A.append (exprExtract_accounts hA e _) (argsExtract_accounts hA args _)

theorem exprsExtract_accounts (hA : ExtractAccounts env A) : ∀ (es : List Expr) (x : Extraction),
    A.Holds x (exprsExtract env es x).2 (exprsNodes es) (exprsNodes (exprsExtract env es x).1)
  | [], _ => A.nothing _
  | e :: es, _ => A.append (exprExtract_accounts hA e _) (exprsExtract_accounts hA es _)

theorem branchesExtract_accounts (hA : ExtractAccounts env A) : ∀ (branches : List (Expr × Expr))
    (x : Extraction), A.Holds x (branchesExtract env branches x).2 (branchesNodes branches)
      (branchesNodes (branchesExtract env branches x).1)
  | [], _ => A.nothing _
  | (condition, result) :: branches, _ =>
    A.append (A.append (exprExtract_accounts hA condition _) (exprExtract_accounts hA result _))
      (branchesExtract_accounts hA branches _)

theorem stmtsExtract_accounts (hA : ExtractAccounts env A) : ∀ (stmts : List Stmt)
    (x : Extraction), A.Holds x (stmtsExtract env stmts x).2 (stmtsNodes stmts)
      (stmtsNodes (stmtsExtract env stmts x).1)
  | [], _ => A.nothing _
  | stmt :: stmts, _ =>
    A.append (stmtExtract_accounts hA stmt _) (stmtsExtract_accounts hA stmts _)

theorem stmtExtract_accounts (hA : ExtractAccounts env A) : ∀ (stmt : Stmt) (x : Extraction),
    A.Holds x (stmtExtract env stmt x).2 stmt.nodes (stmtExtract env stmt x).1.nodes
  | .expr e, _ => exprExtract_accounts hA e _
  | .var head init, x => A.append (A.var x head) (optionExtract_accounts hA init _)
  | .decl d, _ => declExtract_accounts hA d _

/-- A default that is taken out is not gone through. -/
theorem paramsExtract_accounts (hA : ExtractAccounts env A) (capturing : Bool) :
    ∀ (params : List Param) (x : Extraction),
      A.Holds x (paramsExtract env capturing params x).2
        (paramsNodes (if capturing then params.map (Param.stripped env.linkage) else params))
        (paramsNodes (paramsExtract env capturing params x).1)
  | [], _ => by
    rw [List.map_nil, ite_self]
    exact A.nothing _
  | ⟨head, default⟩ :: params, x => by
    have hrest := paramsExtract_accounts hA capturing params
    rw [paramsExtract]
    split
    · rename_i htaken
      obtain ⟨rfl, hsome⟩ := Bool.and_eq_true_iff.mp htaken
      rw [if_pos rfl, List.map_cons, Param.stripped, if_pos hsome]
      exact A.append (A.param x head) (A.append (A.nothing x) (hrest x))
    · rename_i hkept
      have hparams : (if capturing then (⟨head, default⟩ :: params).map (Param.stripped env.linkage)
          else ⟨head, default⟩ :: params) =
            ⟨head, default⟩ :: if capturing then params.map (Param.stripped env.linkage)
              else params := by
        cases capturing with
        | false => rfl
        | true =>
          rw [if_pos rfl, if_pos rfl, List.map_cons, Param.stripped, if_neg]
          exact fun hsome => hkept (Bool.and_eq_true_iff.mpr ⟨rfl, hsome⟩)
      rw [hparams]
      exact A.append (A.param x head) (A.append (optionExtract_accounts hA default x) (hrest _))

theorem bodyExtract_accounts (hA : ExtractAccounts env A) : ∀ (body : Body) (x : Extraction),
    A.Holds x (bodyExtract env body x).2 body.nodes (bodyExtract env body x).1.nodes
  | .absent, _ => A.nothing _
  | .block stmts, _ => stmtsExtract_accounts hA stmts _
  | .expression e, _ => exprExtract_accounts hA e _

theorem declExtract_accounts (hA : ExtractAccounts env A) : ∀ (d : Decl) (x : Extraction),
    A.Holds x (declExtract env d x).2 d.nodes (declExtract env d x).1.nodes
  | .classDecl head info members, x =>
    hA.decl (.classDecl head info members) x (declsExtract_accounts hA members x)
  | .function head info params body, x => by
    refine hA.decl (.function head info params body) x ?_
    have hinner := A.append
      (paramsExtract_accounts hA (isCapturing env head params) params
        (recordDecl env x (.function head info params body)))
      (bodyExtract_accounts hA body _)
    rw [declExtract_function, Decl.stripped]
    cases hcapturing : isCapturing env head params <;> rw [hcapturing] at hinner <;> exact hinner
  | .property head info backing getter setter, x =>
    hA.decl (.property head info backing getter setter) x
      (A.append (A.append (accessorExtract_accounts hA backing x)
        (accessorExtract_accounts hA getter _)) (accessorExtract_accounts hA setter _))
  | .field head info init, x =>
    hA.decl (.field head info init) x (optionExtract_accounts hA init x)
  | .initializer head body, x =>
    hA.decl (.initializer head body) x (stmtsExtract_accounts hA body x)

theorem accessorExtract_accounts (hA : ExtractAccounts env A) : ∀ (d : Option Decl)
    (x : Extraction), A.Holds x (accessorExtract env d x).2 (accessorNodes d)
      (accessorNodes (accessorExtract env d x).1)
  | none, _ => A.nothing _
  | some d, x => declExtract_accounts hA d x

theorem declsExtract_accounts (hA : ExtractAccounts env A) : ∀ (ds : List Decl) (x : Extraction),
    A.Holds x (declsExtract env ds x).2 (declsNodes ds) (declsNodes (declsExtract env ds x).1)
  | [], _ => A.nothing _
  | d :: ds, _ => A.append (declExtract_accounts hA d _) (declsExtract_accounts hA ds _)

end

theorem filesExtract_accounts (hA : ExtractAccounts env A) : ∀ (fs : List SourceFile)
    (x : Extraction), A.Holds x (filesExtract env fs x).2 (filesNodes fs)
      (filesNodes (filesExtract env fs x).1)
  | [], _ => A.nothing _
  | f :: fs, _ =>
    A.append (declsExtract_accounts hA f.declarations _) (filesExtract_accounts hA fs _)

end

/-! ## Declarations -/

/-- What a declaration becomes. -/
def LeftOf (env : PassEnv) (d' d : Decl) : Prop := ∃ x, d' = (declExtract env d x).1

/-- From some nodes others are left: the declarations among them were among the former ones, in the
same order, and what was taken out of them is on record. -/
def Extracts (env : PassEnv) (x y : Extraction) (before after : List Node) : Prop :=
  ∃ ds, List.Forall₂ (LeftOf env) (declsOf after) ds ∧ ds.Sublist (declsOf before) ∧
    y = ds.foldl (recordDecl env) x

namespace Extracts

variable {ns ns' ms ms' : List Node}

theorem nothing (h : declsOf ns' = []) : Extracts env x x ns ns' := by
  refine ⟨[], ?_, List.nil_sublist _, rfl⟩
  rw [h]
  exact .nil

theorem append (h : Extracts env x y ns ns') (h' : Extracts env y z ms ms') :
    Extracts env x z (ns ++ ms) (ns' ++ ms') := by
  obtain ⟨ds, hleft, hsub, rfl⟩ := h
  obtain ⟨ds', hleft', hsub', rfl⟩ := h'
  refine ⟨ds ++ ds', ?_, ?_, List.foldl_append.symm⟩
  · rw [declsOf_append]
    exact List.rel_append hleft hleft'
  · rw [declsOf_append]
    exact hsub.append hsub'

/-- A node that is no declaration. -/
theorem cons (h : Extracts env x y ns ns') {n n' : Node} (hn : n.decl? = none)
    (hn' : n'.decl? = none) : Extracts env x y (n :: ns) (n' :: ns') := by
  unfold Extracts declsOf
  rw [List.filterMap_cons_none hn, List.filterMap_cons_none hn']
  exact h

theorem decl {d d' : Decl} (h : Extracts env (recordDecl env x d) y ns ns')
    (hd : d' = (declExtract env d x).1) : Extracts env x y (.decl d :: ns) (.decl d' :: ns') := by
  obtain ⟨ds, hleft, hsub, rfl⟩ := h
  exact ⟨d :: ds, .cons ⟨x, hd⟩ hleft, hsub.cons_cons d, rfl⟩

end Extracts

theorem paramsNodes_stripped (l : Linkage) (params : List Param) :
    (paramsNodes (params.map (Param.stripped l))).Sublist (paramsNodes params) := by
  induction params with
  | nil => exact .refl _
  | cons p params ih =>
    obtain ⟨head, default⟩ := p
    rw [List.map_cons, Param.stripped]
    split
    · exact (ih.trans (List.sublist_append_right _ _)).cons_cons _
    · exact (ih.append_left _).cons_cons _

/-- What is left below a declaration when its own defaults are taken out. -/
theorem innerNodes_stripped (env : PassEnv) (d : Decl) :
    (d.stripped env).innerNodes.Sublist d.innerNodes := by
  cases d with
  | function head info params body =>
    rw [Decl.stripped]
    split
    · exact (paramsNodes_stripped env.linkage params).append_right _
    · exact .refl _
  | _ => exact .refl _

variable (env) in
/-- The records that extraction keeps, as an account. -/
def extractions : Account Extraction where
  Holds := Extracts env
  nothing _ := .nothing rfl
  append := .append
  param _ _ := .nothing rfl
  var _ _ := .nothing rfl

theorem extractions_accounts : ExtractAccounts env (extractions env) where
  around hn hplain h := h.cons hplain (Node.decl?_of_husk hn hplain)
  decl d x h := by
    rw [d.nodes_eq_cons, Decl.nodes_eq_cons]
    obtain ⟨ds, hleft, hsub, hrecords⟩ := h
    exact Extracts.decl ⟨ds, hleft, hsub.trans ((innerNodes_stripped env d).filterMap _), hrecords⟩
      rfl

/-- What extraction leaves of files comes from what was there, and it is on record what it took. -/
theorem filesExtract_extracts (env : PassEnv) (fs : List SourceFile) (x : Extraction) :
    Extracts env x (filesExtract env fs x).2 (filesNodes fs) (filesNodes (filesExtract env fs x).1) :=
  filesExtract_accounts extractions_accounts fs x

/-! ## Modules -/

variable {m : Module} {d d' : Decl}

theorem LeftOf.id_eq (h : LeftOf env d' d) : d'.id = d.id := by
  obtain ⟨x, rfl⟩ := h
  cases d with
  | function head info params body =>
    rw [declExtract_function]
    cases isCapturing env head params <;> rfl
  | _ => rfl

theorem map_id_of_leftOf {ds ds' : List Decl} (h : List.Forall₂ (LeftOf env) ds' ds) :
    ds'.map Decl.id = ds.map Decl.id := by
  induction h with
  | nil => rfl
  | cons hd _ ih => rw [List.map_cons, List.map_cons, hd.id_eq, ih]

theorem exists_of_forall₂ {α β : Type} {rel : α → β → Prop} {xs : List α} {ys : List β} {a : α}
    (h : List.Forall₂ rel xs ys) (ha : a ∈ xs) : ∃ b ∈ ys, rel a b := by
  induction h with
  | nil => exact nomatch ha
  | cons hrel _ ih =>
    obtain rfl | ha := List.mem_cons.mp ha
    · exact ⟨_, List.mem_cons_self, hrel⟩
    · obtain ⟨b, hmem, hrel⟩ := ih ha
      exact ⟨b, List.mem_cons_of_mem _ hmem, hrel⟩

theorem decls_eq_append (m : Module) :
    m.decls = declsOf (filesNodes m.files) ++ declsOf (filesNodes m.external) := by
  rw [Module.decls, Module.nodes_eq, declsOf_append]

theorem declIds_eq_append (m : Module) :
    m.declIds = (declsOf (filesNodes m.files)).map Decl.id ++
      (declsOf (filesNodes m.external)).map Decl.id := by
  rw [Module.declIds, decls_eq_append, List.map_append]

/-- Identities stay distinct. -/
theorem nodup_extract (hids : m.declIds.Nodup) (captured : CapturedDefaults) :
    (extract env m captured).1.declIds.Nodup := by
  obtain ⟨ds, hleft, hsub, -⟩ := filesExtract_extracts env m.files { captured }
  refine hids.sublist ?_
  rw [declIds_eq_append, declIds_eq_append]
  have hkept : (declsOf (filesNodes (extract env m captured).1.files)).map Decl.id =
      ds.map Decl.id := map_id_of_leftOf hleft
  rw [hkept]
  exact (hsub.map Decl.id).append (List.Sublist.refl _)

/-- An own declaration whose identity is still there has stayed itself, and what is on record about
it was taken out of it. -/
theorem stays_own (hids : m.declIds.Nodup) (hd : d ∈ declsOf (filesNodes m.files))
    (hstays : d.id ∈ (extract env m []).1.declIds) :
    (∃ d' ∈ (extract env m []).1.decls, LeftOf env d' d) ∧
      ∀ index, (extract env m []).2.captured.lookup (d.id, index) = taken? env d index := by
  obtain ⟨ds, hleft, hsub, hrecords⟩ := filesExtract_extracts env m.files { captured := [] }
  rw [declIds_eq_append] at hids
  obtain ⟨hown, -, hapart⟩ := List.nodup_append.mp hids
  obtain ⟨d', hd', hid⟩ := List.mem_map.mp hstays
  rw [decls_eq_append] at hd'
  obtain hd' | hd' := List.mem_append.mp hd'
  · obtain ⟨d₀, hd₀, hleft₀⟩ := exists_of_forall₂ hleft hd'
    obtain rfl := List.inj_on_of_nodup_map hown (hsub.subset hd₀) hd (hleft₀.id_eq.symm.trans hid)
    refine ⟨⟨d', ?_, hleft₀⟩, fun index => ?_⟩
    · rw [decls_eq_append]
      exact List.mem_append_left _ hd'
    · rw [show (extract env m []).2 = _ from hrecords,
        lookup_recordDecls index (hown.sublist (hsub.map Decl.id)) hd₀]
      exact Option.or_none
  · exact absurd hid.symm (hapart _ (List.mem_map_of_mem hd) _ (List.mem_map_of_mem hd'))

/-- A declaration of another module stays as it is, and nothing is on record about it. -/
theorem stays_external (hids : m.declIds.Nodup) (hd : d ∈ declsOf (filesNodes m.external)) :
    d ∈ (extract env m []).1.decls ∧
      ∀ index, (extract env m []).2.captured.lookup (d.id, index) = none := by
  obtain ⟨ds, -, hsub, hrecords⟩ := filesExtract_extracts env m.files { captured := [] }
  rw [declIds_eq_append] at hids
  refine ⟨?_, fun index => ?_⟩
  · rw [decls_eq_append]
    exact List.mem_append_right _ hd
  · have hoff : d.id ∉ ds.map Decl.id := by
      intro hmem
      obtain ⟨d₀, hd₀, heq⟩ := List.mem_map.mp hmem
      exact (List.nodup_append.mp hids).2.2 _ (List.mem_map_of_mem (hsub.subset hd₀)) _
        (List.mem_map_of_mem hd) heq
    rw [show (extract env m []).2 = _ from hrecords, lookup_recordDecls_of_not_mem index hoff]
    rfl

/-! ## Modes -/

theorem strings?_ofStrings (values : List String) :
    (AnnotationArg.ofStrings values).strings? = some values := by
  change (values.map AnnotationArg.ofString).mapM AnnotationArg.string? = some values
  induction values with
  | nil => rfl
  | cons value values ih => rw [List.map_cons, List.mapM_cons, ih]; rfl

/-- The modes that the marker of a declaration lists. -/
def listedModes? (className : String) (head : DeclHead) : Option (List String) :=
  (AnnotationUse.find? head.annotations className).bind fun use =>
    (use.argument? "modes").bind AnnotationArg.strings?

/-- The marker of a function that something was taken out of lists its modes. -/
theorem listedModes?_markedHead {head : DeclHead} {params : List Param}
    (h : isCapturing env head params) :
    listedModes? env.options.callerCapture.marker (markedHead env head params) =
      some (params.map (mode env.linkage)) := by
  rw [isCapturing, Bool.and_eq_true, Option.isNone_iff_eq_none] at h
  have hfind : AnnotationUse.find? (markedHead env head params).annotations
      env.options.callerCapture.marker =
        some (marker env.options.callerCapture.marker head.span.file
          (params.map (mode env.linkage))) := by
    rw [AnnotationUse.find?, markedHead, List.find?_append,
      show List.find? _ _ = none from h.1, Option.none_or, List.find?_cons]
    simp [marker]
  rw [listedModes?, hfind]
  exact strings?_ofStrings _

variable {env₁ : PassEnv} {m₁ : Module} {head : DeclHead} {info : FunctionHead}
  {params : List Param} {body : Body}

/-- A function with a marker has the modes that the marker lists, if they fit its parameters. -/
theorem modesOf_marked (hids : m₁.declIds.Nodup) (hsymbols : env₁.symbols = SymbolTable.build m₁)
    (hd : .function head info params body ∈ m₁.decls) {modes : List String}
    (hmodes : listedModes? env₁.options.callerCapture.marker head = some modes) :
    modesOf env₁ head.id = .ok (some modes) ∨ ∃ e, modesOf env₁ head.id = .error e := by
  obtain ⟨s, f, hfunction, hhead, -⟩ := SymbolTable.function?_of_mem hids hd
  obtain ⟨use, huse, hlist⟩ := Option.bind_eq_some_iff.mp hmodes
  unfold modesOf
  rw [hsymbols, hfunction]
  dsimp only
  rw [hhead, huse]
  dsimp only
  rw [hlist]
  dsimp only
  split
  · exact .inr ⟨_, rfl⟩
  · exact .inl rfl

/-- A function without a marker has no modes. -/
theorem modesOf_plain (hids : m₁.declIds.Nodup) (hsymbols : env₁.symbols = SymbolTable.build m₁)
    (hd : .function head info params body ∈ m₁.decls)
    (hplain : AnnotationUse.find? head.annotations env₁.options.callerCapture.marker = none) :
    modesOf env₁ head.id = .ok none := by
  obtain ⟨s, f, hfunction, hhead, -⟩ := SymbolTable.function?_of_mem hids hd
  unfold modesOf
  rw [hsymbols, hfunction]
  dsimp only
  rw [hhead, hplain]

end CallerCapture

end TraceWeave

import Mathlib.Data.List.Count
import Mathlib.Data.List.Flatten
import Mathlib.Data.List.Pairwise
import TraceWeave.Proofs.Capture.Gaps
import TraceWeave.Proofs.Pipeline.Identities

/-! # Identities in captured defaults

The arguments of a default may introduce identities: of a lambda, of a local variable, of a block.
Extraction takes such arguments out of the program and keeps them on record. Injection replays them,
as they are, at every call that omits the argument. So identities that were distinct are distinct
after extraction, and after injection exactly if no such default is replayed twice.

* `CallerCapture.extract_idents`: extraction and its records bring in no identity.
* `CallerCapture.inject_idents`: injection brings in what it replays, which is
  `CallerCapture.replayed` of what it fills.
* `CallerCapture.distinct_after_replay_iff`: when identities stay distinct.
-/

namespace TraceWeave.CallerCapture

variable {env env₁ : PassEnv} {m : Module} {captured : CapturedDefaults}

/-! ## What extraction puts on record -/

/-- The identities that the arguments of captured defaults introduce. -/
def capturedIdents (captured : CapturedDefaults) : List Ident :=
  captured.flatMap fun entry => identsOf (argsNodes entry.2.args)

/-- The arguments of a default lie in it. -/
theorem identsOf_args_sublist {l : Linkage} {default : Option Expr} {kind : IntrinsicKind}
    {call : StrippedCall} (h : strippedDefault? l default = some (kind, call)) :
    (identsOf (argsNodes call.args)).Sublist (identsOf (optionNodes default)) := by
  obtain ⟨_, _, _, rfl, -⟩ := strippedDefault?_eq_some.mp h
  rw [optionNodes, Expr.nodes, identsOf_cons, identsOf_append]
  exact (List.sublist_append_right _ _).trans (List.sublist_append_right _ _)

theorem recordParams_idents (l : Linkage) (id : DeclId) :
    ∀ (params : List Param) (index : Nat) (x : Extraction),
      (identsOf (paramsNodes (params.map (Param.stripped l))) ++
          capturedIdents (recordParams l id index params x).captured).Subperm
        (identsOf (paramsNodes params) ++ capturedIdents x.captured)
  | [], _, _ => .refl _
  | ⟨head, default⟩ :: params, index, x => by
    rw [recordParams, List.map_cons, Param.stripped]
    dsimp only
    cases hcall : strippedDefault? l default with
    | some taken =>
      obtain ⟨kind, call⟩ := taken
      have ih := recordParams_idents l id params (index + 1) (x.record id index call)
      have hrecord : capturedIdents (x.record id index call).captured =
          identsOf (argsNodes call.args) ++ capturedIdents x.captured := List.flatMap_cons
      rw [hrecord] at ih
      rw [if_pos Option.isSome_some, paramsNodes, paramsNodes, identsOf_cons, identsOf_cons,
        identsOf_append, identsOf_append, List.append_assoc, List.append_assoc, List.append_assoc,
        List.append_assoc]
      refine (List.subperm_append_left _).mpr (ih.trans ?_)
      exact (List.perm_append_comm_assoc _ _ _).subperm.trans
        ((identsOf_args_sublist hcall).append_right _).subperm
    | none =>
      have ih := recordParams_idents l id params (index + 1) x
      rw [Option.isSome_none, if_neg Bool.false_ne_true, paramsNodes, paramsNodes, identsOf_cons,
        identsOf_cons, identsOf_append, identsOf_append, List.append_assoc, List.append_assoc,
        List.append_assoc, List.append_assoc]
      exact (List.subperm_append_left _).mpr ((List.subperm_append_left _).mpr ih)

/-- What is taken out of a declaration itself is on record. -/
theorem recordDecl_idents (d : Decl) (x : Extraction) :
    (identsOf (d.stripped env).innerNodes ++ capturedIdents (recordDecl env x d).captured).Subperm
      (identsOf d.innerNodes ++ capturedIdents x.captured) := by
  cases d with
  | function head info params body =>
    rw [recordDecl, Decl.stripped]
    split
    · change (identsOf (paramsNodes _ ++ body.nodes) ++ _).Subperm
        (identsOf (paramsNodes params ++ body.nodes) ++ _)
      rw [identsOf_append, identsOf_append, List.append_assoc, List.append_assoc]
      refine (List.perm_append_comm_assoc _ _ _).subperm.trans (.trans ?_
        (List.perm_append_comm_assoc _ _ _).subperm)
      exact (List.subperm_append_left _).mpr (recordParams_idents env.linkage head.id params 0 x)
    · exact .refl _
  | _ => exact .refl _

/-- What is left of nodes and what is newly on record introduce no identity that the nodes did not
introduce, and none more often. -/
def extractedIdents : Account Extraction where
  Holds x y before after := (identsOf after ++ capturedIdents y.captured).Subperm
    (identsOf before ++ capturedIdents x.captured)
  nothing _ := .refl _
  append {x y z as bs cs ds} h h' := by
    rw [identsOf_append, identsOf_append, List.append_assoc, List.append_assoc]
    refine ((List.subperm_append_left _).mpr h').trans ?_
    refine (List.perm_append_comm_assoc _ _ _).subperm.trans ?_
    exact ((List.subperm_append_left _).mpr h).trans (List.perm_append_comm_assoc _ _ _).subperm
  param _ _ := .refl _
  var _ _ := .refl _

theorem extractedIdents_accounts : ExtractAccounts env extractedIdents where
  around hn _ h := by
    change (identsOf (_ :: _) ++ _).Subperm (identsOf (_ :: _) ++ _)
    rw [identsOf_cons, identsOf_cons, Labels.idents.shallow (Node.shell_of_husk hn),
      List.append_assoc, List.append_assoc]
    exact (List.subperm_append_left _).mpr h
  decl d x h := by
    have hid : Labels.idents.label (.decl (declExtract env d x).1) =
        Labels.idents.label (.decl d) := by
      have hleft : (declExtract env d x).1.id = d.id := LeftOf.id_eq ⟨x, rfl⟩
      rw [label_decl, label_decl, hleft]
    rw [d.nodes_eq_cons, Decl.nodes_eq_cons]
    change (identsOf (_ :: _) ++ _).Subperm (identsOf (_ :: _) ++ _)
    rw [identsOf_cons, identsOf_cons, hid, List.append_assoc, List.append_assoc]
    exact (List.subperm_append_left _).mpr (h.trans (recordDecl_idents d x))

/-- Extraction and its records bring in no identity. -/
theorem extract_idents (env : PassEnv) (m : Module) (captured : CapturedDefaults) :
    (identsOf (extract env m captured).1.nodes ++
        capturedIdents (extract env m captured).2.captured).Subperm
      (identsOf m.nodes ++ capturedIdents captured) := by
  have hA : ExtractAccounts env extractedIdents := extractedIdents_accounts
  have hfiles := filesExtract_accounts hA m.files { captured }
  rw [Module.nodes_eq, Module.nodes_eq, identsOf_append, identsOf_append, List.append_assoc,
    List.append_assoc]
  refine (List.perm_append_comm_assoc _ _ _).subperm.trans (.trans ?_
    (List.perm_append_comm_assoc _ _ _).subperm)
  exact (List.subperm_append_left _).mpr hfiles

/-! ## What injection replays -/

/-- The positions of the arguments that filling by modes fills, counted from an index on. -/
def gaps : Nat → List (Option Expr) → List String → List Nat
  | index, arg :: args, mode :: modes =>
    if mode == noCapture || arg.isSome then gaps (index + 1) args modes
    else index :: gaps (index + 1) args modes
  | _, _, _ => []

/-- The parameters that injection fills at a node: those that a call omits and that have a mode. -/
def filledAt (env : PassEnv) : Node → List (DeclId × Nat)
  | .expr (.call _ callee _ _ args) =>
    match modesOf env callee with
    | .ok (some modes) => (gaps 0 (padArgs modes.length args) modes).map (callee, ·)
    | _ => []
  | _ => []

/-- The parameters that injection fills among nodes. -/
def filled (env : PassEnv) (nodes : List Node) : List (DeclId × Nat) := nodes.flatMap (filledAt env)

/-- The identities that the captured default of a parameter brings in. -/
def replayed (captured : CapturedDefaults) (key : DeclId × Nat) : List Ident :=
  (captured.lookup key).elim [] fun call => identsOf (argsNodes call.args)

theorem freshCall_idents {callee : DeclId} {index : Nat} {span : Span} {mode : String} {e : Expr}
    (he : freshCall env captured callee index span mode = .ok e) :
    identsOf e.nodes = replayed captured (callee, index) := by
  unfold freshCall at he
  obtain ⟨kind, -, he⟩ := Except.of_bind he
  obtain ⟨intrinsic, -, he⟩ := Except.of_bind he
  rw [replayed]
  split at he
  · cases he
  · split at he <;> rename_i hlookup <;> cases he <;> rw [hlookup] <;> rfl

section

variable {fresh : Nat → String → Except Error Expr} {brought : Nat → List Ident}

theorem fillArgs_idents
    (hfresh : ∀ index mode e, fresh index mode = .ok e → identsOf e.nodes = brought index) :
    ∀ (args : List (Option Expr)) (index : Nat) (modes : List String),
      (fillArgs fresh index args modes).2.2 = none →
        (identsOf (argsNodes (fillArgs fresh index args modes).1)).Perm
          (identsOf (argsNodes args) ++ (gaps index args modes).flatMap brought)
  | [], _, modes, _ => by
    cases modes <;> exact .of_eq (List.append_nil _).symm
  | _ :: _, _, [], _ => .of_eq (List.append_nil _).symm
  | arg :: args, index, mode :: modes, hfailure => by
    have ih := fillArgs_idents hfresh args (index + 1) modes
    by_cases hkept : mode = noCapture ∨ arg.isSome = true
    · rw [fillArgs_kept hkept] at hfailure ⊢
      rw [gaps, if_pos (by simpa using hkept), argsNodes_cons, argsNodes_cons, identsOf_append,
        identsOf_append, List.append_assoc]
      exact (ih hfailure).append_left _
    · obtain ⟨hmode, harg⟩ := not_or.mp hkept
      obtain rfl := Option.not_isSome_iff_eq_none.mp harg
      cases he : fresh index mode with
      | error err =>
        rw [fillArgs, if_neg (by simpa using hmode), he] at hfailure
        cases hfailure
      | ok e =>
        rw [fillArgs_filled hmode he] at hfailure ⊢
        rw [gaps, if_neg (by simpa using hmode), argsNodes_cons, argsNodes_cons, identsOf_append,
          identsOf_append, List.flatMap_cons, ← hfresh index mode e he]
        exact ((ih hfailure).append_left _).trans (List.perm_append_comm_assoc _ _ _)

end

/-- A call whose gaps are filled introduces what it did before, and what is replayed. -/
theorem injectCall_idents {e : Expr} {st : PassState}
    (hfailure : (injectCall env captured e st).2.failure = none) :
    (identsOf (injectCall env captured e st).1.nodes).Perm
      (identsOf e.nodes ++ (filledAt env (.expr e)).flatMap (replayed captured)) := by
  cases e with
  | call s callee receiver typeArgs args =>
    rw [injectCall, filledAt] at *
    cases hmodes : modesOf env callee with
    | error err =>
      rw [hmodes] at hfailure
      cases hfailure
    | ok modes? =>
      rw [hmodes] at hfailure
      cases modes? with
      | none => exact .of_eq (List.append_nil _).symm
      | some modes =>
        have hfresh : ∀ index mode e, freshCall env captured callee index s.span mode = .ok e →
            identsOf e.nodes = replayed captured (callee, index) := fun _ _ _ => freshCall_idents
        have hargs := fillArgs_idents hfresh (padArgs modes.length args) 0 modes hfailure
        rw [argsNodes_padArgs] at hargs
        dsimp only
        rw [Expr.nodes, Expr.nodes, identsOf_cons, identsOf_cons, identsOf_append, identsOf_append,
          List.flatMap_map, List.append_assoc, List.append_assoc]
        exact (hargs.append_left _).append_left _
  | _ => exact .of_eq (List.append_nil _).symm

/-- Which arguments a call has decides which ones are filled. -/
theorem gaps_map (f : Expr → Expr) : ∀ (index : Nat) (args : List (Option Expr))
    (modes : List String), gaps index (args.map (·.map f)) modes = gaps index args modes
  | _, [], modes => by
    cases modes <;> rfl
  | _, _ :: _, [] => rfl
  | index, arg :: args, mode :: modes => by
    rw [List.map_cons, gaps, gaps, gaps_map f (index + 1) args modes, Option.isSome_map]

theorem filledAt_husk (env : PassEnv) (n : Node) : filledAt env n.husk = filledAt env n := by
  rcases n with d | head | head | e
  · rfl
  · rfl
  · rfl
  · cases e with
    | call s callee receiver typeArgs args =>
      have hpad (count : Nat) : padArgs count (args.map (·.map fun _ => (default : Expr))) =
          (padArgs count args).map (·.map fun _ => default) := by
        rw [padArgs, padArgs, List.map_append, List.map_replicate, List.length_map, Option.map_none]
      rw [Node.husk, Expr.husk, filledAt, filledAt]
      cases modesOf env callee with
      | error err => rfl
      | ok modes? =>
        cases modes? with
        | none => rfl
        | some modes =>
          dsimp only
          rw [hpad, gaps_map]
    | _ => rfl

/-- If there is no failure in the end, nodes introduce what they did before, and what is replayed at
them. -/
def replays (env : PassEnv) (captured : CapturedDefaults) : Account PassState where
  Holds st st' before after := st'.failure = none → st.failure = none ∧
    (identsOf after).Perm (identsOf before ++ (filled env before).flatMap (replayed captured))
  nothing _ h := ⟨h, .refl _⟩
  append {st st' st'' as bs cs ds} h h' hfailure := by
    obtain ⟨hmid, hright⟩ := h' hfailure
    obtain ⟨hst, hleft⟩ := h hmid
    refine ⟨hst, ?_⟩
    rw [filled, List.flatMap_append, List.flatMap_append, identsOf_append, identsOf_append,
      List.append_assoc]
    refine (hleft.append hright).trans ?_
    rw [List.append_assoc]
    exact (List.perm_append_comm_assoc _ _ _).append_left _
  param _ _ h := ⟨h, .refl _⟩
  var _ _ h := ⟨h, .refl _⟩

theorem injector_accounts (env : PassEnv) (captured : CapturedDefaults) :
    (injector env captured).Accounts (replays env captured) where
  onExpr sc place e e' st st' hhusk hinner hfailure := by
    change (PassState.edit (injectCall env captured) e' st').2.failure = none at hfailure
    obtain ⟨hbefore, hstep⟩ := PassState.of_edit hfailure
    obtain ⟨hst, hperm⟩ := hinner hbefore
    rw [hstep] at hfailure
    refine ⟨hst, ?_⟩
    change (identsOf (PassState.edit (injectCall env captured) e' st').1.nodes).Perm _
    have hnode : (Node.expr e').husk = (Node.expr e).husk := congrArg Node.expr hhusk
    -- The husk of a call tells which parameters are to be filled, so what the walk does below the
    -- call changes nothing about that.
    have hfilled : filledAt env (.expr e') = filledAt env (.expr e) := by
      rw [← filledAt_husk, hnode, filledAt_husk]
    rw [hstep]
    refine (injectCall_idents hfailure).trans ?_
    rw [hfilled, e.nodes_eq_cons, e'.nodes_eq_cons, identsOf_cons, identsOf_cons,
      Labels.idents.shallow (Node.shell_of_husk hnode), filled, List.flatMap_cons,
      List.flatMap_append, List.append_assoc, List.append_assoc]
    refine List.Perm.append_left _ ((hperm.append_right _).trans ?_)
    rw [List.append_assoc]
    exact List.perm_append_comm.append_left _
  onDecl sc d st hinner hfailure := by
    have hwalk : d.walk (injector env captured) sc st = d.walkBelow (injector env captured) sc st :=
      d.walk_eq _ sc st
    have hnode : (Node.decl (d.walkBelow (injector env captured) sc st).1).husk =
        (Node.decl d).husk := congrArg Node.decl (d.husk_walkBelow _ sc st)
    rw [hwalk] at hfailure ⊢
    obtain ⟨hst, hperm⟩ := hinner hfailure
    refine ⟨hst, ?_⟩
    rw [d.nodes_eq_cons, Decl.nodes_eq_cons, identsOf_cons, identsOf_cons,
      Labels.idents.shallow (Node.shell_of_husk hnode), List.append_assoc]
    exact hperm.append_left _

/-- Injection that succeeds brings in what it replays and no other identity. -/
theorem inject_idents {store : Store} {n : Nat}
    (h : (inject env captured m store).outcome = .ok n) :
    (identsOf (inject env captured m store).module.nodes).Perm
      (identsOf m.nodes ++ (filled env (filesNodes m.files)).flatMap (replayed captured)) := by
  obtain ⟨-, hperm⟩ := filesWalk_accounts (injector_accounts env captured) m.files
    { ids := m.ids, store } (Module.failure_of_runVisitor h)
  rw [Module.nodes_eq, Module.nodes_eq, identsOf_append, identsOf_append, List.append_assoc]
  refine (hperm.append_right _).trans ?_
  rw [List.append_assoc]
  exact List.perm_append_comm.append_left _

/-! ## How often a default is replayed -/

/-- A call of a function without one of its arguments. -/
def omits (callee : DeclId) (index : Nat) : Node → Bool
  | .expr (.call _ callee' _ _ args) => callee' == callee && args[index]?.join.isNone
  | _ => false

theorem count_gaps_of_lt {i : Nat} : ∀ (index : Nat) (args : List (Option Expr))
    (modes : List String), i < index → (gaps index args modes).count i = 0
  | _, [], modes, _ => by
    cases modes <;> rfl
  | _, _ :: _, [], _ => rfl
  | index, arg :: args, mode :: modes, hlt => by
    have ih := count_gaps_of_lt (index + 1) args modes (Nat.lt_succ_of_lt hlt)
    rw [gaps]
    split
    · exact ih
    · rw [List.count_cons_of_ne (Nat.ne_of_gt hlt), ih]

theorem count_gaps {i : Nat} {mode : String} (hmode : mode ≠ noCapture) :
    ∀ (index : Nat) (args : List (Option Expr)) (modes : List String), modes[i]? = some mode →
      (gaps index (padArgs modes.length args) modes).count (index + i) =
        if args[i]?.join.isNone then 1 else 0 := by
  induction i with
  | zero =>
    intro index args modes hget
    obtain ⟨modes, rfl⟩ : ∃ rest, modes = mode :: rest := by
      cases modes with
      | nil => cases hget
      | cons first modes => exact ⟨modes, by cases hget; rfl⟩
    rw [List.length_cons, padArgs_succ, gaps, Nat.add_zero]
    have hrest := count_gaps_of_lt (index + 1) (padArgs modes.length args.tail) modes
      (Nat.lt_succ_self index)
    cases args[0]?.join with
    | none => rw [if_neg (by simpa using hmode), List.count_cons_self, hrest]; rfl
    | some e => rw [if_pos (by simp), hrest]; rfl
  | succ i ih =>
    intro index args modes hget
    cases modes with
    | nil => cases hget
    | cons first modes =>
      have hrest := ih (index + 1) args.tail modes hget
      rw [List.getElem?_tail, Nat.add_right_comm] at hrest
      rw [List.length_cons, padArgs_succ, gaps, ← Nat.add_assoc]
      split
      · exact hrest
      · rw [List.count_cons_of_ne (by omega), hrest]

section

variable {callee : DeclId} {index : Nat} {modes : List String} {mode : String}

/-- A call that omits an argument which has a mode has it filled, once. -/
theorem count_filledAt (hmodes : modesOf env callee = .ok (some modes))
    (hget : modes[index]? = some mode) (hmode : mode ≠ noCapture) (n : Node) :
    (filledAt env n).count (callee, index) = if omits callee index n then 1 else 0 := by
  rcases n with d | head | head | e
  · rfl
  · rfl
  · rfl
  · cases e with
    | call s callee' receiver typeArgs args =>
      rw [filledAt, omits]
      by_cases hcallee : callee' = callee
      · subst hcallee
        rw [hmodes, beq_self_eq_true, Bool.true_and]
        dsimp only
        rw [List.count_map_of_injective _ (callee', ·) fun _ _ heq => congrArg Prod.snd heq]
        have hcount := count_gaps hmode 0 args modes hget
        rwa [Nat.zero_add] at hcount
      · have hnot : (filledAt env (.expr (.call s callee' receiver typeArgs args))).count
            (callee, index) = 0 := by
          rw [List.count_eq_zero, filledAt]
          split
          · intro hmem
            obtain ⟨i, -, heq⟩ := List.mem_map.mp hmem
            exact hcallee (congrArg Prod.fst heq)
          · exact List.not_mem_nil
        rw [beq_false_of_ne hcallee, Bool.false_and]
        exact hnot
    | _ => rfl

theorem count_filled (hmodes : modesOf env callee = .ok (some modes))
    (hget : modes[index]? = some mode) (hmode : mode ≠ noCapture) (nodes : List Node) :
    (filled env nodes).count (callee, index) = nodes.countP (omits callee index) := by
  induction nodes with
  | nil => rfl
  | cons n nodes ih =>
    rw [filled, List.flatMap_cons, List.count_append, count_filledAt hmodes hget hmode,
      List.countP_cons, Nat.add_comm]
    exact congrArg (· + _) ih

end

/-- A default that is on record is replayed: the marker of its function lists a mode for it. -/
theorem modesOf_captured (hids : m.declIds.Nodup) (hoptions : env₁.options = env.options)
    (hsymbols : env₁.symbols = SymbolTable.build (extract env m []).1) {callee : DeclId}
    {index : Nat} {call : StrippedCall}
    (hcall : (extract env m []).2.captured.lookup (callee, index) = some call) :
    ∃ modes mode, modesOf env₁ callee = .ok (some modes) ∧ modes[index]? = some mode ∧
      mode ≠ noCapture := by
  obtain ⟨ds, hleft, hsub, hrecords⟩ := filesExtract_extracts env m.files { captured := [] }
  -- Extraction visits each declaration once, so no later record overwrites this one.
  have hown : (ds.map Decl.id).Nodup := by
    rw [declIds_eq_append] at hids
    exact (List.nodup_append.mp hids).1.sublist (hsub.map _)
  rw [show (extract env m []).2 = _ from hrecords] at hcall
  by_cases hmem : callee ∈ ds.map Decl.id
  · obtain ⟨d, hd, rfl⟩ := List.mem_map.mp hmem
    rw [lookup_recordDecls index hown hd] at hcall
    replace hcall : taken? env d index = some call := by simpa using hcall
    cases d with
    | function head info params body =>
      rw [taken?] at hcall
      split at hcall
      · rename_i hcapturing
        obtain ⟨⟨kind, call⟩, htaken, -⟩ := Option.map_eq_some_iff.mp hcall
        obtain ⟨p, hp, hdefault⟩ := Option.bind_eq_some_iff.mp htaken
        obtain ⟨d', hd', hleft⟩ := exists_of_forall₂ hleft.flip hd
        obtain ⟨params', body', rfl, hlength⟩ := LeftOf.marked hleft hcapturing
        have hlisted := listedModes?_markedHead hcapturing
        rw [← hoptions] at hlisted
        -- The callee is found in the symbols of the extracted module, and its marker lists the
        -- modes.
        have hmodes := modesOf_listed (nodup_extract hids []) hsymbols
          (Module.mem_decls.mpr (.inl hd')) hlisted (by rw [List.length_map, hlength])
        refine ⟨_, kind.name, hmodes, ?_, ne_noCapture kind.parse_name⟩
        rw [List.getElem?_map, hp, Option.map_some, mode, hdefault]
      · cases hcall
    | _ => cases hcall
  · rw [lookup_recordDecls_of_not_mem index hmem] at hcall
    cases hcall

/-! ## Distinct identities -/

/-- What is attached to keys is distinct, apart from each other and from a list, exactly if no key
that something is attached to stands in the list of keys twice. -/
theorem nodup_append_flatMap_iff {κ α : Type} [BEq κ] [LawfulBEq κ] {base : List α} {f : κ → List α}
    (hbase : base.Nodup) (hf : ∀ k, (f k).Nodup) (hapart : ∀ k, base.Disjoint (f k))
    (hdisjoint : ∀ k k', k ≠ k' → (f k).Disjoint (f k')) (keys : List κ) :
    (base ++ keys.flatMap f).Nodup ↔ ∀ k, f k ≠ [] → keys.count k ≤ 1 := by
  constructor
  · intro hnodup k hk
    by_contra htwice
    -- a key that stands there twice attaches its list twice
    have hpair : (List.replicate 2 k).Sublist keys := List.replicate_sublist_iff.mpr (by omega)
    have htwo := (List.nodup_append.mp hnodup).2.1.sublist (hpair.flatMap f)
    have happend : (List.replicate 2 k).flatMap f = f k ++ f k := by
      simp [List.replicate]
    rw [happend] at htwo
    obtain ⟨a, ha⟩ := List.exists_mem_of_ne_nil _ hk
    exact (List.nodup_append.mp htwo).2.2 a ha a ha rfl
  · intro honce
    refine List.nodup_append'.mpr ⟨hbase, List.nodup_flatMap.mpr ⟨fun k _ => hf k, ?_⟩, ?_⟩
    · rw [List.pairwise_iff_forall_sublist]
      intro k k' hpair
      by_cases hsame : k = k'
      · subst hsame
        have hcount : 2 ≤ keys.count k := List.replicate_sublist_iff.mp hpair
        have hnothing : f k = [] := by
          by_contra hk
          have := honce k hk
          omega
        change (f k).Disjoint (f k)
        rw [hnothing]
        exact List.disjoint_nil_left _
      · exact hdisjoint k k' hsame
    · intro a ha hmem
      obtain ⟨k, -, hk⟩ := List.mem_flatMap.mp hmem
      exact hapart k ha hk

/-- What is replayed is on record, or nothing. -/
theorem replayed_cases (captured : CapturedDefaults) (key : DeclId × Nat) :
    replayed captured key = [] ∨
      ∃ call, (key, call) ∈ captured ∧ replayed captured key = identsOf (argsNodes call.args) := by
  rw [replayed]
  cases hcall : captured.lookup key with
  | none => exact .inl rfl
  | some call =>
    obtain ⟨before, behind, heq, -⟩ := List.lookup_eq_some_iff.mp hcall
    exact .inr ⟨call, by rw [heq]; exact List.mem_append_right _ List.mem_cons_self, rfl⟩

/-- Where the program and the records introduce distinct identities, a replay keeps them distinct
exactly if nothing is replayed twice that introduces any. -/
theorem nodup_replayed_iff {base : List Ident} (h : (base ++ capturedIdents captured).Nodup)
    (keys : List (DeclId × Nat)) : (base ++ keys.flatMap (replayed captured)).Nodup ↔
      ∀ key, replayed captured key ≠ [] → keys.count key ≤ 1 := by
  obtain ⟨hbase, hcaptured, hapart⟩ := List.nodup_append'.mp h
  -- The records of two keys are apart, so identities repeat only where one key is replayed twice.
  obtain ⟨heach, hpairwise⟩ := List.nodup_flatMap.mp hcaptured
  refine nodup_append_flatMap_iff hbase ?_ ?_ ?_ keys
  · intro key
    obtain hnothing | ⟨call, hmem, hcall⟩ := replayed_cases captured key
    · rw [hnothing]
      exact .nil
    · rw [hcall]
      exact heach _ hmem
  · intro key
    obtain hnothing | ⟨call, hmem, hcall⟩ := replayed_cases captured key
    · rw [hnothing]
      exact List.disjoint_nil_right _
    · rw [hcall]
      exact fun i hi hi' => hapart hi (List.mem_flatMap_of_mem hmem hi')
  · intro key key' hne
    obtain hnothing | ⟨call, hmem, hcall⟩ := replayed_cases captured key
    · rw [hnothing]
      exact List.disjoint_nil_left _
    · obtain hnothing | ⟨call', hmem', hcall'⟩ := replayed_cases captured key'
      · rw [hnothing]
        exact List.disjoint_nil_right _
      · rw [hcall, hcall']
        have hsymm : Std.Symm (Function.onFun List.Disjoint
            fun entry : (DeclId × Nat) × StrippedCall => identsOf (argsNodes entry.2.args)) :=
          ⟨fun _ _ hab _ hi hi' => hab hi' hi⟩
        exact hpairwise.forall hmem hmem' fun heq => hne (congrArg Prod.fst heq)

/-- No captured default whose arguments introduce an identity is replayed at two calls. -/
def ReplayedOnce (captured : CapturedDefaults) (nodes : List Node) : Prop :=
  ∀ callee index call, captured.lookup (callee, index) = some call →
    identsOf (argsNodes call.args) ≠ [] → nodes.countP (omits callee index) ≤ 1

/-- In a module with distinct identities, identities stay distinct when defaults are extracted. When
the arguments are injected they stay distinct exactly if no default that introduces an identity in its
arguments is omitted by two calls. -/
theorem distinct_after_replay_iff {sources : Source.Provider} {store : Store} {n : Nat}
    (hids : (identsOf m.nodes).Nodup)
    (hbuild : PassEnv.build env.options sources (extract env m []).1 = .ok env₁)
    (hinject : (inject env₁ (extract env m []).2.captured (extract env m []).1 store).outcome =
      .ok n) :
    (identsOf (extract env m []).1.nodes).Nodup ∧
      ((identsOf (inject env₁ (extract env m []).2.captured (extract env m []).1
          store).module.nodes).Nodup ↔
        ReplayedOnce (extract env m []).2.captured (filesNodes (extract env m []).1.files)) := by
  obtain ⟨hoptions, hsymbols, -⟩ := PassEnv.build_eq_ok hbuild
  have hdecls : m.declIds.Nodup := by
    have hmap := hids.sublist (declIds_sublist_identsOf m.nodes)
    have hcomp : (fun d => Ident.decl (Decl.id d)) = Ident.decl ∘ Decl.id := rfl
    rw [hcomp, ← List.map_map] at hmap
    exact hmap.of_map
  have hextracted := extract_idents env m []
  rw [show capturedIdents [] = [] from rfl, List.append_nil] at hextracted
  -- Extraction moves identities from the program to the records, drops some and makes none.
  have hboth : (identsOf (extract env m []).1.nodes ++
      capturedIdents (extract env m []).2.captured).Nodup := by
    obtain ⟨kept, hkept, hsub⟩ := hextracted
    exact hkept.nodup_iff.mp (hids.sublist hsub)
  refine ⟨(List.nodup_append.mp hboth).1, ?_⟩
  rw [(inject_idents hinject).nodup_iff, nodup_replayed_iff hboth]
  -- A key is replayed once for each call that omits its argument.
  constructor
  · intro honce callee index call hcall hintroduces
    obtain ⟨modes, mode, hmodes, hget, hmode⟩ := modesOf_captured hdecls hoptions hsymbols hcall
    rw [← count_filled hmodes hget hmode]
    refine honce (callee, index) ?_
    rw [replayed, hcall]
    exact hintroduces
  · rintro honce ⟨callee, index⟩ hintroduces
    rw [replayed] at hintroduces
    cases hcall : (extract env m []).2.captured.lookup (callee, index) with
    | none =>
      rw [hcall] at hintroduces
      exact absurd rfl hintroduces
    | some call =>
      rw [hcall] at hintroduces
      obtain ⟨modes, mode, hmodes, hget, hmode⟩ := modesOf_captured hdecls hoptions hsymbols hcall
      rw [count_filled hmodes hget hmode]
      exact honce callee index call hcall hintroduces

/-! ## A local variable in a default -/

namespace Sample

/-- An argument that declares a variable. -/
def declaring : Expr :=
  .block ⟨span 16, classTy⟩ [.var { id := ⟨5⟩, name := "kept", ty := .int, span := span 17 } none]

/-- One more function that lets `log` ask for its caller. -/
def again : Decl :=
  .function { id := ⟨2⟩, span := span 20 } { name := "again", returnTy := .unit } []
    (.block [.expr (.call ⟨span 21, .unit⟩ ⟨1⟩ none [] [])])

/-- A module in which the default is omitted by one call. -/
def loggingOnce : Module := program [] [log [some declaring]] []

/-- A module in which it is omitted by two. -/
def loggingTwice : Module := program [] [log [some declaring], again] []

/-- A module after both passes, in the environments in which they run. -/
def afterReplay (m : Module) : PassResult :=
  inject (envOf (extract (envOf m) m []).1) (extract (envOf m) m []).2.captured
    (extract (envOf m) m []).1 {}

theorem one_replay_keeps_distinct :
    (identsOf loggingOnce.nodes).Nodup ∧
      PassEnv.build {} (fun _ => []) (extract (envOf loggingOnce) loggingOnce []).1 =
        .ok (envOf (extract (envOf loggingOnce) loggingOnce []).1) ∧
      (afterReplay loggingOnce).outcome = .ok 1 ∧
      Ident.var ⟨5⟩ ∈ identsOf (afterReplay loggingOnce).module.nodes ∧
      (identsOf (afterReplay loggingOnce).module.nodes).Nodup := by
  have hids : (identsOf loggingOnce.nodes).Nodup := by decide +kernel
  have honce : ReplayedOnce (extract (envOf loggingOnce) loggingOnce []).2.captured
      (filesNodes (extract (envOf loggingOnce) loggingOnce []).1.files) := by
    intro callee index call hcall _
    obtain ⟨before, behind, heq, -⟩ := List.lookup_eq_some_iff.mp hcall
    have hmem : ((callee, index), call) ∈ [(((⟨1⟩ : DeclId), 0),
        (⟨[], [some declaring]⟩ : StrippedCall))] := by
      change _ ∈ (extract (envOf loggingOnce) loggingOnce []).2.captured
      rw [heq]
      exact List.mem_append_right before List.mem_cons_self
    obtain rfl : callee = ⟨1⟩ := congrArg (·.1.1) (List.mem_singleton.mp hmem)
    obtain rfl : index = 0 := congrArg (·.1.2) (List.mem_singleton.mp hmem)
    decide +kernel
  exact ⟨hids, rfl, rfl, by decide +kernel,
    (distinct_after_replay_iff hids rfl rfl).2.mpr honce⟩

/-- Two replays of one default introduce its variable twice. -/
theorem two_replays_clash :
    (identsOf loggingTwice.nodes).Nodup ∧
      PassEnv.build {} (fun _ => []) loggingTwice = .ok (envOf loggingTwice) ∧
      PassEnv.build {} (fun _ => []) (extract (envOf loggingTwice) loggingTwice []).1 =
        .ok (envOf (extract (envOf loggingTwice) loggingTwice []).1) ∧
      (afterReplay loggingTwice).outcome = .ok 2 ∧
      ¬ (identsOf (afterReplay loggingTwice).module.nodes).Nodup :=
  ⟨by decide +kernel, rfl, rfl, rfl, by decide +kernel⟩

end Sample

end TraceWeave.CallerCapture

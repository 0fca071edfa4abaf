import Mathlib.Data.List.Nodup
import TraceWeave.Proofs.Program.Watching
import TraceWeave.Proofs.Tracing.Instrumented
import TraceWeave.Proofs.Tracing.Sights

/-! # Fresh temporaries

Instrumentation takes the variables that it binds from the allocator of the module, which is behind
all variables in use, and writes the allocator back, also when it fails. So no variable is bound
twice, unless the numbers run out. A read that is put in stands in the block that binds its
temporary, behind the binding.

`Takes` says how many variables nodes bind, and `Instrument.takes_run` says it of a run.
`Instrument.HasRoom` is the bound on numbers, `Instrument.temporaries_are_fresh` the result.
-/

namespace TraceWeave

/-! ## Variables and other identities -/

/-- The variable that an identity is. -/
def Ident.var? : Ident → Option VarId
  | .var v => some v
  | _ => none

/-- The variables that nodes declare. -/
def varsOf (nodes : List Node) : List VarId := (identsOf nodes).filterMap Ident.var?

/-- The identities of declarations and blocks among nodes. -/
def fixedIdentsOf (nodes : List Node) : List Ident :=
  (identsOf nodes).filter fun i => i.var?.isNone

theorem filterMap_var?_map (vs : List VarId) : (vs.map Ident.var).filterMap Ident.var? = vs := by
  rw [List.filterMap_map]
  exact List.filterMap_some

theorem subperm_filterMap {α β : Type} (f : α → Option β) {as bs : List α} (h : as.Subperm bs) :
    (as.filterMap f).Subperm (bs.filterMap f) := by
  obtain ⟨kept, hkept, hsub⟩ := h
  exact ⟨kept.filterMap f, hkept.filterMap f, hsub.filterMap f⟩

/-! ## Numbers that do not run out -/

theorem toNat_succ {a : UInt32} (h : a.toNat + 1 < UInt32.size) : (a + 1).toNat = a.toNat + 1 := by
  rw [UInt32.toNat_add, UInt32.toNat_one]
  exact Nat.mod_eq_of_lt h

namespace IdAllocator

theorem length_vars (n : Nat) : ∀ ids : IdAllocator, (ids.vars n).1.length = n := by
  induction n with
  | zero => exact fun _ => rfl
  | succ n ih => exact fun ids => congrArg (· + 1) (ih _)

/-- As long as the numbers suffice, fresh variables have the next ones. -/
theorem vars_numbered (n : Nat) : ∀ ids : IdAllocator, ids.nextVar.toNat + n < UInt32.size →
    (ids.vars n).2.nextVar.toNat = ids.nextVar.toNat + n ∧
      (ids.vars n).1.map (fun v => v.val.toNat) = List.range' ids.nextVar.toNat n := by
  induction n with
  | zero => exact fun _ _ => ⟨rfl, rfl⟩
  | succ n ih =>
    intro ids hroom
    have hnext : ids.var.2.nextVar.toNat = ids.nextVar.toNat + 1 := toNat_succ (by omega)
    obtain ⟨hlast, hnumbers⟩ := ih ids.var.2 (by omega)
    refine ⟨?_, ?_⟩
    · change (ids.var.2.vars n).2.nextVar.toNat = _
      omega
    · rw [List.range'_succ, ← hnext, ← hnumbers]
      rfl

theorem mem_vars {ids : IdAllocator} {n : Nat} (hroom : ids.nextVar.toNat + n < UInt32.size)
    {v : VarId} (hv : v ∈ (ids.vars n).1) :
    ids.nextVar.toNat ≤ v.val.toNat ∧ v.val.toNat < ids.nextVar.toNat + n := by
  have hnumber := List.mem_map_of_mem (f := fun v : VarId => v.val.toNat) hv
  rwa [(vars_numbered n ids hroom).2, List.mem_range'_1] at hnumber

theorem nodup_vars {ids : IdAllocator} {n : Nat} (hroom : ids.nextVar.toNat + n < UInt32.size) :
    (ids.vars n).1.Nodup := by
  refine List.Nodup.of_map (fun v : VarId => v.val.toNat) ?_
  rw [(vars_numbered n ids hroom).2]
  exact List.nodup_range'

end IdAllocator

/-- Variables in use come before the next number, if they can be counted. -/
theorem Module.lt_nextVar_syncIds {m : Module} {v : VarId} (hv : v ∈ varsOf m.nodes)
    (hcounted : v.val.toNat + 1 < UInt32.size) : v.val.toNat < m.syncIds.ids.nextVar.toNat := by
  obtain ⟨i, hi, hvar⟩ := List.mem_filterMap.mp hv
  cases i with
  | var w =>
    cases hvar
    have hcounts : v.val + 1 ≤ m.syncIds.ids.nextVar := m.within_syncIds (.var v) hi
    have hle := UInt32.le_iff_toNat_le.mp hcounts
    rw [toNat_succ hcounted] at hle
    exact hle
  | _ => cases hvar

/-! ## Variables that are taken -/

/-- A number of variables are taken from an allocator, and nodes introduce and read nothing else
besides what they did. -/
structure Takes (n : Nat) (ids ids' : IdAllocator) (before after : List Node) : Prop where
  next : ids' = (ids.vars n).2
  idents : (identsOf after).Subperm (identsOf before ++ (ids.vars n).1.map .var)
  reads : (readsOf after).Subperm (readsOf before ++ (ids.vars n).1)

namespace Takes

variable {n k : Nat} {ids ids' ids'' : IdAllocator} {as bs cs ds : List Node}

theorem same (ids : IdAllocator) (nodes : List Node) : Takes 0 ids ids nodes nodes where
  next := rfl
  idents := by
    rw [IdAllocator.vars, List.map_nil, List.append_nil]
  reads := by
    rw [IdAllocator.vars, List.append_nil]

private theorem subperm_append {α : Type} {as bs cs ds xs ys : List α}
    (h : bs.Subperm (as ++ xs)) (h' : ds.Subperm (cs ++ ys)) :
    (bs ++ ds).Subperm (as ++ cs ++ (xs ++ ys)) := by
  refine ((List.subperm_append_right _).mpr h).trans
    (((List.subperm_append_left _).mpr h').trans (List.Perm.subperm ?_))
  rw [List.append_assoc, List.append_assoc]
  exact (List.perm_append_comm_assoc _ _ _).append_left _

theorem append (h : Takes n ids ids' as bs) (h' : Takes k ids' ids'' cs ds) :
    Takes (n + k) ids ids'' (as ++ cs) (bs ++ ds) := by
  obtain ⟨rfl, hidents, hreads⟩ := h
  obtain ⟨rfl, hidents', hreads'⟩ := h'
  refine ⟨by rw [IdAllocator.vars_add], ?_, ?_⟩
  · rw [IdAllocator.vars_add, identsOf_append, identsOf_append, List.map_append]
    exact subperm_append hidents hidents'
  · rw [IdAllocator.vars_add, readsOf_append, readsOf_append]
    exact subperm_append hreads hreads'

theorem seq (h : Takes n ids ids' as bs) (h' : Takes k ids' ids'' bs cs) :
    Takes (n + k) ids ids'' as cs := by
  obtain ⟨rfl, hidents, hreads⟩ := h
  obtain ⟨rfl, hidents', hreads'⟩ := h'
  refine ⟨by rw [IdAllocator.vars_add], ?_, ?_⟩
  · rw [IdAllocator.vars_add, List.map_append, ← List.append_assoc]
    exact hidents'.trans ((List.subperm_append_right _).mpr hidents)
  · rw [IdAllocator.vars_add, ← List.append_assoc]
    exact hreads'.trans ((List.subperm_append_right _).mpr hreads)

theorem around {x x' : Node} (hx : x'.husk = x.husk) (h : Takes n ids ids' as bs) :
    Takes n ids ids' (x :: as) (x' :: bs) := by
  obtain ⟨rfl, hidents, hreads⟩ := h
  have hread : readsOf [x'] = readsOf [x] := by
    rw [← readsOf_husks, ← readsOf_husks [x], husks, husks, List.map_singleton, List.map_singleton,
      hx]
  refine ⟨rfl, ?_, ?_⟩
  · rw [identsOf_cons, identsOf_cons, Labels.idents.shallow (Node.shell_of_husk hx),
      List.append_assoc]
    exact (List.subperm_append_left _).mpr hidents
  · rw [← List.singleton_append, ← List.singleton_append (l := as), readsOf_append, readsOf_append,
      hread, List.append_assoc]
    exact (List.subperm_append_left _).mpr hreads

end Takes

/-- How many more variables some nodes declare than others. -/
def boundBy (before after : List Node) : Nat := (varsOf after).length - (varsOf before).length

/-- What is inserted is counted by the variables that come in. -/
theorem Inserts.takes {env : PassEnv} {ids ids' : IdAllocator} {as bs : List Node}
    (h : Inserts env ids ids' as bs) : Takes (boundBy as bs) ids ids' as bs := by
  obtain ⟨n, added, hids, hadded, hperm, -⟩ := h
  have hidents : (identsOf bs).Perm (identsOf as ++ (ids.vars n).1.map .var) := by
    rw [← identsOf_husks bs]
    refine (hperm.flatMap_right _).trans ?_
    change (identsOf (husks as ++ husks added)).Perm _
    rw [identsOf_append, identsOf_husks, identsOf_husks]
    exact hadded.idents.append_left _
  have hreads : (readsOf bs).Perm (readsOf as ++ (ids.vars n).1) := by
    rw [← readsOf_husks bs]
    refine (hperm.filterMap _).trans ?_
    change (readsOf (husks as ++ husks added)).Perm _
    rw [readsOf_append, readsOf_husks, readsOf_husks]
    exact hadded.reads.append_left _
  have hcount : boundBy as bs = n := by
    have hlength := (hidents.filterMap Ident.var?).length_eq
    rw [List.filterMap_append, filterMap_var?_map, List.length_append,
      IdAllocator.length_vars] at hlength
    rw [boundBy, varsOf, varsOf, hlength, Nat.add_sub_cancel_left]
  rw [hcount]
  exact ⟨hids, hidents.subperm, hreads.subperm⟩

namespace Instrument

variable (env : PassEnv)

/-- The instrumentation, with a count of the temporaries that it binds. -/
def counting : Visitor (PassState × Nat) where
  onExpr sc place e st :=
    let (e', st') := (instrumenter env).onExpr sc place e st.1
    (e', st', st.2 + boundBy e.nodes e'.nodes)
  onDecl sc d st :=
    let (d', st') := (instrumenter env).onDecl sc d st.1
    (d', st', st.2 + boundBy d.nodes d'.nodes)

theorem counting_follows : (counting env).Follows Prod.fst (instrumenter env) :=
  ⟨fun _ _ _ _ => rfl, fun _ _ _ => rfl⟩

/-- How many temporaries a run binds. -/
def temporaries (m : Module) (store : Store) : Nat :=
  (filesWalk (counting env) m.files ({ ids := m.ids, store }, 0)).2.2

/-- The account of the temporaries, as many as are counted. -/
def takings : Account (PassState × Nat) where
  Holds s s' before after := ∃ n, s'.2 = s.2 + n ∧ Takes n s.1.ids s'.1.ids before after
  nothing _ := ⟨0, rfl, .same _ _⟩
  append := by
    rintro s s' s'' as bs cs ds ⟨n, hn, h⟩ ⟨k, hk, h'⟩
    exact ⟨n + k, by rw [hk, hn, Nat.add_assoc], h.append h'⟩
  param _ _ := ⟨0, rfl, .same _ _⟩
  var _ _ := ⟨0, rfl, .same _ _⟩

theorem takings_stepwise : takings.Stepwise where
  around hhusk := by
    rintro ⟨n, hn, h⟩
    exact ⟨n, hn, h.around hhusk⟩
  seq := by
    rintro s s' s'' as bs cs ⟨n, hn, h⟩ ⟨k, hk, h'⟩
    exact ⟨n + k, by rw [hk, hn, Nat.add_assoc], h.seq h'⟩

/-- A call that is wrapped takes what it binds, and one that is lost takes nothing. -/
theorem takes_visit (sc : ScopeStack) (place : Place) (e : Expr) (st : PassState) :
    Takes (boundBy e.nodes ((instrumenter env).onExpr sc place e st).1.nodes) st.ids
      ((instrumenter env).onExpr sc place e st).2.ids e.nodes
      ((instrumenter env).onExpr sc place e st).1.nodes := by
  change Takes (boundBy e.nodes (PassState.edit (instrumentCall env sc) e st).1.nodes) st.ids
    (PassState.edit (instrumentCall env sc) e st).2.ids e.nodes
    (PassState.edit (instrumentCall env sc) e st).1.nodes
  unfold PassState.edit
  split
  · have hsame : Inserts env st.ids st.ids e.nodes e.nodes := .same _ _
    exact hsame.takes
  · by_cases hloses : LosesCall env sc e st
    · obtain ⟨hplaceholder, hids, -⟩ := instrumentCall_of_loses hloses
      have hnone : boundBy e.nodes (Lowering.placeholder e).nodes = 0 := Nat.zero_sub _
      rw [hplaceholder, hids, hnone]
      exact ⟨rfl, List.nil_subperm, List.nil_subperm⟩
    · exact (instrumentCall_of_not_loses hloses).1.takes

theorem takes_body (sc : ScopeStack) (d : Decl) (st : PassState) :
    Takes (boundBy d.nodes ((instrumenter env).onDecl sc d st).1.nodes) st.ids
      ((instrumenter env).onDecl sc d st).2.ids d.nodes
      ((instrumenter env).onDecl sc d st).1.nodes := by
  change Takes (boundBy d.nodes (PassState.edit (instrumentBody env sc) d st).1.nodes) st.ids
    (PassState.edit (instrumentBody env sc) d st).2.ids d.nodes
    (PassState.edit (instrumentBody env sc) d st).1.nodes
  unfold PassState.edit
  split
  · have hsame : Inserts env st.ids st.ids d.nodes d.nodes := .same _ _
    exact hsame.takes
  · exact (instrumentBody_inserts env sc d st).takes

theorem counting_accounts : (counting env).Accounts takings :=
  takings_stepwise.accounts (fun sc place e s => ⟨_, rfl, takes_visit env sc place e s.1⟩)
    fun sc d s => ⟨_, rfl, takes_body env sc d s.1⟩

/-- What a run takes, also one that fails. -/
theorem takes_run (m : Module) (store : Store) :
    Takes (temporaries env m store) m.ids (run env m store).module.ids m.nodes
      (run env m store).module.nodes := by
  obtain ⟨n, hn, hfiles⟩ :=
    filesWalk_accounts (counting_accounts env) m.files ({ ids := m.ids, store }, 0)
  have hfollows := filesWalk_follows (counting_follows env) m.files ({ ids := m.ids, store }, 0)
  have htemporaries : temporaries env m store = n := by
    rw [temporaries, hn, Nat.zero_add]
  have hnodes : (run env m store).module.nodes =
      filesNodes (filesWalk (counting env) m.files ({ ids := m.ids, store }, 0)).1 ++
        filesNodes m.external := by
    rw [Module.nodes_eq, run, Module.runVisitor, hfollows]
    rfl
  have hids : (run env m store).module.ids =
      (filesWalk (counting env) m.files ({ ids := m.ids, store }, 0)).2.1.ids := by
    rw [run, Module.runVisitor, hfollows]
    rfl
  rw [htemporaries, hnodes, hids, m.nodes_eq]
  exact hfiles.append (.same _ (filesNodes m.external))

/-- Fewer identities of variables are needed than there are: those in use can be counted, and behind
them there is room for the temporaries. -/
structure HasRoom (m : Module) (store : Store) : Prop where
  counted : ∀ v ∈ varsOf m.nodes, v.val.toNat + 1 < UInt32.size
  room : m.syncIds.ids.nextVar.toNat + temporaries env m.syncIds store < UInt32.size

/-- **Temporaries are fresh.** After a run on a module with distinct variables, failed or not, the
variables are still distinct and the allocator is behind all of them. Declarations and blocks have no
identity that they did not have, and none more often. What is newly read are temporaries, and each of
these reads stands behind the binding in its block. There are no reads that do not stand behind a
binding in their block but those that the module had. -/
theorem temporaries_are_fresh {m : Module} {store : Store} (hvars : (varsOf m.nodes).Nodup)
    (hroom : HasRoom env m store) :
    (varsOf (run env m.syncIds store).module.nodes).Nodup ∧
      (∀ v ∈ varsOf (run env m.syncIds store).module.nodes,
        v.val < (run env m.syncIds store).module.ids.nextVar) ∧
      (fixedIdentsOf (run env m.syncIds store).module.nodes).Subperm (fixedIdentsOf m.nodes) ∧
      (∃ temps : List VarId, temps.Nodup ∧ temps.Disjoint (varsOf m.nodes) ∧
        (varsOf (run env m.syncIds store).module.nodes).Subperm (varsOf m.nodes ++ temps) ∧
        (readsOf (run env m.syncIds store).module.nodes).Subperm (readsOf m.nodes ++ temps)) ∧
      (∀ read ∈ (run env m.syncIds store).module.sights,
        read.1 ∉ readsOf m.nodes → read.1 ∈ read.2) ∧
      (run env m.syncIds store).module.stray.Sublist m.stray := by
  obtain ⟨hnext, hidents, hreads⟩ := takes_run env m.syncIds store
  -- Old variables have numbers below the allocator, new ones the next numbers behind it.
  have hnumbers := (IdAllocator.vars_numbered _ _ hroom.room).1
  rw [← hnext] at hnumbers
  generalize htemps : (m.syncIds.ids.vars (temporaries env m.syncIds store)).1 = temps
    at hidents hreads
  have hbefore : ∀ v ∈ varsOf m.nodes, v.val.toNat < m.syncIds.ids.nextVar.toNat :=
    fun v hv => m.lt_nextVar_syncIds hv (hroom.counted v hv)
  have htaken : ∀ v ∈ temps, m.syncIds.ids.nextVar.toNat ≤ v.val.toNat ∧
      v.val.toNat < m.syncIds.ids.nextVar.toNat + temporaries env m.syncIds store :=
    fun v hv => IdAllocator.mem_vars hroom.room (htemps ▸ hv)
  have hdistinct : temps.Nodup := htemps ▸ IdAllocator.nodup_vars hroom.room
  have hnew : temps.Disjoint (varsOf m.nodes) := by
    intro v hv hold
    have hlt := hbefore v hold
    have hle := (htaken v hv).1
    omega
  have hdeclared : (varsOf (run env m.syncIds store).module.nodes).Subperm
      (varsOf m.nodes ++ temps) := by
    have hvar := subperm_filterMap Ident.var? hidents
    rwa [List.filterMap_append, filterMap_var?_map] at hvar
  have hstray : (run env m.syncIds store).module.stray.Sublist m.stray := run_stray env m.syncIds store
  refine ⟨?_, fun v hv => ?_, ?_, ⟨temps, hdistinct, hnew, hdeclared, hreads⟩,
    fun read hread hnewly => ?_, hstray⟩
  · obtain ⟨vs, hvs, hsub⟩ := hdeclared
    refine hvs.nodup_iff.mp (List.Nodup.sublist hsub ?_)
    exact List.nodup_append'.mpr ⟨hvars, hdistinct, fun v hold hv => hnew hv hold⟩
  · rw [UInt32.lt_iff_toNat_lt, hnumbers]
    obtain hv | hv := List.mem_append.mp (hdeclared.subset hv)
    · have hlt := hbefore v hv
      omega
    · exact (htaken v hv).2
  · -- The new identities are all of variables, so nothing is added among the others.
    have hfixed := hidents.filter fun i => i.var?.isNone
    have hnone : (temps.map Ident.var).filter (fun i => i.var?.isNone) = [] := by
      rw [List.filter_eq_nil_iff]
      intro i hi
      obtain ⟨v, -, rfl⟩ := List.mem_map.mp hi
      exact Bool.false_ne_true
    rwa [List.filter_append, hnone, List.append_nil] at hfixed
  · -- A read that does not see its variable is stray, so the module had it before.
    by_contra hunseen
    have hmem : read.1 ∈ (run env m.syncIds store).module.stray := by
      rw [Module.stray_eq]
      exact List.mem_map_of_mem (List.mem_filter.mpr ⟨hread, decide_eq_true hunseen⟩)
    exact hnewly (Module.stray_subset m (hstray.subset hmem))

end Instrument

namespace Sample

theorem temporaries_in_program :
    Instrument.temporaries (envOf options program) program.syncIds {} = 3 ∧
      (varsOf (Instrument.run (envOf options program) program.syncIds {}).module.nodes).Nodup := by
  have hroom : Instrument.HasRoom (envOf options program) program {} :=
    ⟨by decide +kernel, by decide +kernel⟩
  exact ⟨by decide +kernel, (Instrument.temporaries_are_fresh _ (by decide +kernel) hroom).1⟩

end Sample

end TraceWeave

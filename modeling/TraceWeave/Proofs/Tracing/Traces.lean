import TraceWeave.Proofs.Tracing.Instrumented

/-! # The trace of a run

The events that the hooks were told in the course of a run, and how they nest. A reporter is a watch
that makes some hooks silent and writes their events itself.

`HostTable.trace` are the events, `Brackets.Nested` and `Brackets.Balanced` how they nest, and
`NestedSince` how those since some moment do. `Instrument.Succeeds.told_spoken` and
`Instrument.Succeeds.shown_silenced` say what a tracer shows beside a reporter.
-/

namespace TraceWeave

/-- The events that hooks were told, in order. -/
def HostTable.trace (table : HostTable) (log : List HostCall) : List TraceEvent :=
  log.reverse.filterMap table.event?

/-! ## Nested events -/

/-- Which events open something, and which close it. -/
structure Brackets (κ : Type) where
  opens? : TraceEvent → Option κ
  closes? : TraceEvent → Option κ

namespace Brackets

variable {κ : Type} (b : Brackets κ)

/-- A list of events in which whatever is closed was opened last. If `cut` holds, what is opened
need not be closed. -/
inductive Nested (cut : Prop) : List TraceEvent → Prop
  | nil : Nested cut []
  | other {ev : TraceEvent} : b.opens? ev = none → b.closes? ev = none → Nested cut [ev]
  | append {xs ys : List TraceEvent} : Nested cut xs → Nested cut ys → Nested cut (xs ++ ys)
  | enclosed {ev ev' : TraceEvent} {k : κ} {xs : List TraceEvent} :
    b.opens? ev = some k → b.closes? ev' = some k → Nested cut xs →
      Nested cut ([ev] ++ xs ++ [ev'])
  | unclosed {ev : TraceEvent} {k : κ} {xs : List TraceEvent} :
    cut → b.opens? ev = some k → Nested cut xs → Nested cut ([ev] ++ xs)

/-- A list of events in which everything that is opened is closed in turn. -/
abbrev Balanced : List TraceEvent → Prop := b.Nested False

variable {b}

theorem Nested.count_le (hdistinct : ∀ ev, (b.opens? ev).isSome → b.closes? ev = none) {cut : Prop}
    {events : List TraceEvent} (h : b.Nested cut events) :
    events.countP (b.closes? · |>.isSome) ≤ events.countP (b.opens? · |>.isSome) ∧
      (events.countP (b.closes? · |>.isSome) = events.countP (b.opens? · |>.isSome) →
        b.Balanced events) := by
  induction h with
  | nil => exact ⟨Nat.le_refl _, fun _ => .nil⟩
  | other ho hc => exact ⟨by simp [ho, hc], fun _ => .other ho hc⟩
  | append _ _ ihx ihy =>
    rw [List.countP_append, List.countP_append]
    refine ⟨Nat.add_le_add ihx.1 ihy.1, fun heq => ?_⟩
    have hx := ihx.1
    have hy := ihy.1
    exact .append (ihx.2 (by omega)) (ihy.2 (by omega))
  | @enclosed ev ev' k xs ho hc _ ih =>
    have hev : b.closes? ev = none := hdistinct ev (by rw [ho]; rfl)
    have hev' : b.opens? ev' = none := by
      by_contra hne
      have hsome := hdistinct ev' (Option.isSome_iff_ne_none.mpr hne)
      exact nomatch hsome.symm.trans hc
    simp only [List.countP_append, List.countP_singleton, ho, hc, hev, hev', Option.isSome_some,
      Option.isSome_none, Bool.false_eq_true, if_true, if_false]
    exact ⟨by omega, fun heq => .enclosed ho hc (ih.2 (by omega))⟩
  | @unclosed ev k xs _ ho _ ih =>
    have hev : b.closes? ev = none := hdistinct ev (by rw [ho]; rfl)
    simp only [List.countP_append, List.countP_singleton, ho, hev, Option.isSome_some,
      Option.isSome_none, Bool.false_eq_true, if_true, if_false]
    exact ⟨by omega, fun heq => by omega⟩

end Brackets

/-! ## Logs that grow by nested events -/

/-- The host calls that came after some earlier ones tell nested events. -/
def NestedSince {κ : Type} (b : Brackets κ) (cut : Prop) (table : HostTable)
    (base log : List HostCall) : Prop :=
  ∃ calls, log = calls ++ base ∧ b.Nested cut (table.trace calls)

namespace NestedSince

variable {κ : Type} {b : Brackets κ} {cut : Prop} {table : HostTable}
  {base mid log : List HostCall} {c c' : HostCall} {ev ev' : TraceEvent} {k : κ}

theorem refl (base : List HostCall) : NestedSince b cut table base base := ⟨[], rfl, .nil⟩

theorem trans (h : NestedSince b cut table base mid) (h' : NestedSince b cut table mid log) :
    NestedSince b cut table base log := by
  obtain ⟨calls, rfl, hcalls⟩ := h
  obtain ⟨calls', rfl, hcalls'⟩ := h'
  refine ⟨calls' ++ calls, (List.append_assoc ..).symm, ?_⟩
  rw [HostTable.trace, List.reverse_append, List.filterMap_append]
  exact .append hcalls hcalls'

/-- A host call that neither opens nor closes anything. -/
theorem call (h : NestedSince b cut table base log)
    (hcall : ∀ ev, table.event? c = some ev → b.opens? ev = none ∧ b.closes? ev = none) :
    NestedSince b cut table base (c :: log) := by
  refine h.trans ⟨[c], rfl, ?_⟩
  cases hev : table.event? c with
  | none =>
    rw [HostTable.trace, List.reverse_singleton, List.filterMap_cons_none hev]
    exact .nil
  | some ev =>
    rw [HostTable.trace, List.reverse_singleton, List.filterMap_cons_some hev]
    exact .other (hcall ev hev).1 (hcall ev hev).2

theorem calls (h : NestedSince b cut table base log) {cs : List HostCall}
    (hcalls : ∀ c ∈ cs, ∀ ev, table.event? c = some ev → b.opens? ev = none ∧ b.closes? ev = none) :
    NestedSince b cut table base (cs ++ log) := by
  induction cs with
  | nil => exact h
  | cons c cs ih =>
    exact (ih fun c hc => hcalls c (List.mem_cons_of_mem _ hc)).call
      (hcalls c List.mem_cons_self)

theorem trace_singleton (h : table.event? c = some ev) : table.trace [c] = [ev] := by
  rw [HostTable.trace, List.reverse_singleton, List.filterMap_cons_some h]
  rfl

theorem enclose (hopen : table.event? c = some ev) (hclose : table.event? c' = some ev')
    (hev : b.opens? ev = some k) (hev' : b.closes? ev' = some k)
    (h : NestedSince b cut table (c :: base) log) :
    NestedSince b cut table base (c' :: log) := by
  obtain ⟨calls, rfl, hcalls⟩ := h
  refine ⟨[c'] ++ calls ++ [c], by simp, ?_⟩
  simp only [HostTable.trace, List.reverse_append, List.filterMap_append, ← List.append_assoc]
  rw [← HostTable.trace, ← HostTable.trace, ← HostTable.trace, trace_singleton hopen,
    trace_singleton hclose]
  exact .enclosed hev hev' hcalls

theorem leaveOpen (hcut : cut) (hopen : table.event? c = some ev) (hev : b.opens? ev = some k)
    (h : NestedSince b cut table (c :: base) log) : NestedSince b cut table base log := by
  obtain ⟨calls, rfl, hcalls⟩ := h
  refine ⟨calls ++ [c], by simp, ?_⟩
  simp only [HostTable.trace, List.reverse_append, List.filterMap_append]
  rw [← HostTable.trace, ← HostTable.trace, trace_singleton hopen]
  exact .unclosed hcut hev hcalls

end NestedSince

/-! ## Calls of hooks -/

theorem TraceEvent.traceType_ofCall {ty : TraceType} {args : List Value} {ev : TraceEvent}
    (h : TraceEvent.ofCall ty args = .ok ev) : ev.traceType = ty := by
  cases ty
  all_goals
    simp only [TraceEvent.ofCall, bind, Except.bind, pure, Except.pure] at h
    repeat' split at h
    all_goals cases h
    all_goals rfl

theorem HostTable.event?_call {names : HookNames} (hnames : names.Distinct) (table : HostTable)
    (ev : TraceEvent) : (table.withHooks names).event? (names.call ev) = some ev := by
  unfold HostTable.event? HookNames.call
  simp only [HostTable.lookup_withHooks hnames, TraceEvent.ofCall_args]
  rfl

/-- The type of the hook that the host runs for a function. -/
def Interpreter.hookOf? (p : Interpreter) (id : DeclId) : Option TraceType :=
  match p.decl? id with
  | some (.function _ info _ _) =>
    match p.hosts.lookup (p.hostName id info) with
    | some (.hook ty) => some ty
    | _ => none
  | _ => none

/-- What is called from outside is no hook of some types, and no code calls one either. -/
structure HooksUncalled (m : Module) (hosts : HostTable) (tys : List TraceType) (id : DeclId) :
    Prop where
  start : ∀ ty ∈ tys, (Interpreter.ofModule m hosts).hookOf? id ≠ some ty
  code : ∀ d ∈ m.decls, ∀ call ∈ d.calls, ∀ ty ∈ tys,
    (Interpreter.ofModule m hosts).hookOf? call.2 ≠ some ty

/-- A host call that a function makes which is no hook of some types. -/
theorem event?_of_hookOf? {p : Interpreter} {tys : List TraceType} {id : DeclId}
    (h : ∀ ty ∈ tys, p.hookOf? id ≠ some ty) {name : String} (hname : p.HostedAs id name)
    {args : List Value} {ev : TraceEvent} (hev : p.hosts.event? ⟨name, args⟩ = some ev) :
    ev.traceType ∉ tys := by
  intro hmem
  obtain ⟨head, info, params, body, hd, rfl⟩ := hname
  refine h _ hmem ?_
  unfold Interpreter.hookOf?
  unfold HostTable.event? at hev
  split at hev
  · rename_i ty hlookup
    simp only [hd, hlookup]
    cases hcall : TraceEvent.ofCall ty args with
    | error e =>
      rw [hcall] at hev
      exact nomatch hev
    | ok ev' =>
      rw [hcall] at hev
      cases hev
      rw [TraceEvent.traceType_ofCall hcall]
  · exact nomatch hev

namespace Tracing

/-- The hooks of some types. -/
def isHookOf (env : PassEnv) (tys : List TraceType) (id : DeclId) : Bool :=
  tys.any fun ty => env.linkage.hook? ty == some id

theorem isHookOf_iff {env : PassEnv} {tys : List TraceType} {id : DeclId} :
    isHookOf env tys id ↔ ∃ ty ∈ tys, env.linkage.hook? ty = some id := by
  simp [isHookOf]

end Tracing

namespace Instrument.Succeeds

open Tracing Interpreter

variable {options : Options} {sources : Source.Provider} {m : Module} {store : Store}
  {env : PassEnv} {tys : List TraceType}

/-- A hook belongs to one type. -/
theorem hook_injective (h : Succeeds options sources m store env) {ty ty' : TraceType} {id : DeclId}
    (hid : env.linkage.hook? ty = some id) (hid' : env.linkage.hook? ty' = some id) : ty = ty' :=
  h.names ty ty' ((h.hook [] hid).2 default ▸ (h.hook [] hid').2 default)

theorem hookOf?_eq (h : Succeeds options sources m store env) (hosts : HostTable) {ty : TraceType}
    {id : DeclId} (hid : env.linkage.hook? ty = some id) :
    (ofModule m (hosts.withHooks options.tracing.hooks)).hookOf? id = some ty := by
  obtain ⟨⟨head, info, params, body, hdecl⟩, hname⟩ :=
    h.hook (hosts.withHooks options.tracing.hooks) hid
  have hlookup : (ofModule m (hosts.withHooks options.tracing.hooks)).hosts.lookup
      (options.tracing.hooks.get ty) = some (.hook ty) :=
    HostTable.lookup_withHooks h.names hosts ty
  simp only [hookOf?, hdecl, hname, hlookup]

/-- A function for which the host runs no hook of some types is none. -/
theorem isHookOf_eq_false (h : Succeeds options sources m store env) (hosts : HostTable)
    {id : DeclId}
    (hid : ∀ ty ∈ tys, (ofModule m (hosts.withHooks options.tracing.hooks)).hookOf? id ≠ some ty) :
    isHookOf env tys id = false := by
  refine eq_false_of_ne_true fun htrue => ?_
  obtain ⟨ty, hmem, hhook⟩ := isHookOf_iff.mp htrue
  exact hid ty hmem (h.hookOf?_eq hosts hhook)

variable {w w' : Watch}

/-- What a tracer shows of an event whose hook is silent. -/
theorem shown_silenced (hw : w.silenced = isHookOf env tys) {ev : TraceEvent}
    (hev : ev.traceType ∈ tys) (store : Store) (m : Module) :
    (tracerOf env store m w).shown ev = [] := by
  simp only [tracerOf, hw]
  split
  · rename_i id hid
    rw [if_pos (isHookOf_iff.mpr ⟨_, hev, hid⟩)]
  · rfl

/-- What a tracer shows of an event whose hook is not silent. -/
theorem shown_spoken (h : Succeeds options sources m store env) (hw : w.silenced = isHookOf env tys)
    {ev : TraceEvent} (hev : ev.traceType ∉ tys) (store : Store) (m : Module) :
    (tracerOf env store m w).shown ev =
      if (env.linkage.hook? ev.traceType).isSome then [options.tracing.hooks.call ev] else [] := by
  simp only [tracerOf, hw]
  cases hid : env.linkage.hook? ev.traceType with
  | none => rfl
  | some id =>
    have hspoken : ¬isHookOf env tys id = true := by
      intro htrue
      obtain ⟨ty, hmem, hty⟩ := isHookOf_iff.mp htrue
      exact hev (h.hook_injective hty hid ▸ hmem)
    simp only [if_neg hspoken, h.build_eq.1]
    rfl

/-- Events that are shown by two tracers in the same way. -/
theorem told_eq (h : Succeeds options sources m store env) {tys' : List TraceType}
    (hw : w.silenced = isHookOf env tys) (hw' : w'.silenced = isHookOf env tys')
    {events : List TraceEvent} (hevents : ∀ ev ∈ events, ev.traceType ∉ tys ∧ ev.traceType ∉ tys')
    (store : Store) (m : Module) :
    events.flatMap (tracerOf env store m w').shown = events.flatMap (tracerOf env store m w).shown := by
  refine List.flatMap_congr fun ev hev => ?_
  rw [h.shown_spoken hw (hevents ev hev).1, h.shown_spoken hw' (hevents ev hev).2]

/-- A tracer that silences no hook shows every event that there is a hook for. -/
theorem told_spoken (h : Succeeds options sources m store env) {events : List TraceEvent}
    (hevents : ∀ ev ∈ events, (env.linkage.hook? ev.traceType).isSome) (st : Store) :
    events.flatMap (tracerOf env st m {}).shown = events.map env.options.tracing.hooks.call := by
  have hspoken : ({} : Watch).silenced = isHookOf env [] := rfl
  rw [h.build_eq.1, List.map_eq_flatMap]
  refine List.flatMap_congr fun ev hev => ?_
  rw [h.shown_spoken hspoken List.not_mem_nil, if_pos (hevents ev hev)]

theorem told_silenced (hw : w.silenced = isHookOf env tys) {events : List TraceEvent}
    (hevents : ∀ ev ∈ events, ev.traceType ∈ tys) (store : Store) (m : Module) :
    events.flatMap (tracerOf env store m w).shown = [] :=
  List.flatMap_eq_nil_iff.mpr fun ev hev => shown_silenced hw (hevents ev hev) store m

/-- Events that neither open nor close anything. -/
theorem nestedSince_told (h : Succeeds options sources m store env) {κ : Type} {b : Brackets κ}
    {cut : Prop} {hosts : HostTable} {base log : List HostCall}
    (hlog : NestedSince b cut (hosts.withHooks options.tracing.hooks) base log) (store : Store)
    (m : Module) {events : List TraceEvent}
    (hevents : ∀ ev ∈ events, b.opens? ev = none ∧ b.closes? ev = none) :
    NestedSince b cut (hosts.withHooks options.tracing.hooks) base
      ((events.flatMap (tracerOf env store m w).shown).reverse ++ log) := by
  refine hlog.calls fun c hc ev hev => ?_
  obtain ⟨ev', hmem, hshown⟩ := List.mem_flatMap.mp (List.mem_reverse.mp hc)
  have hcall : c = options.tracing.hooks.call ev' := by
    simp only [tracerOf, h.build_eq.1] at hshown
    split at hshown
    · split at hshown
      · cases hshown
      · exact List.mem_singleton.mp hshown
    · cases hshown
  rw [hcall, HostTable.event?_call h.names] at hev
  exact Option.some.inj hev ▸ hevents ev' hmem

end Instrument.Succeeds

end TraceWeave

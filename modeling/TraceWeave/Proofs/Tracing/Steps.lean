import TraceWeave.Proofs.Descriptor.Growth
import TraceWeave.Proofs.Tracing.Woven

/-! # Steps of the instrumentation

What each step of the instrumentation has done when it succeeds: the hook calls that it has built
tell the events of the plan, as they can be read off any later store.

`PassState.Follows` is the order on states. `Instrument.Prepared` and `Instrument.BodyPrepared`
are what `Instrument.of_prepareCall` and `Instrument.of_prepareBody` give, and
`Instrument.of_wrapCall` says what takes the place of a call.
-/

namespace TraceWeave

/-! ## Handles that were given out -/

namespace Source.Cache

variable {cache : Cache} {provider : Provider} {path : String} {start stop : Int32}

/-- A position stays the same once it was looked for. -/
theorem resolve_of_keeps {later : Cache}
    (h : ∀ p found, (cache.resolve provider path start stop).2.files.lookup p = some found →
      later.files.lookup p = some found) :
    (later.resolve provider path start stop).1 = (cache.resolve provider path start stop).1 := by
  unfold resolve at h ⊢
  split
  · rfl
  · rename_i hneg
    rw [if_neg hneg] at h
    have hfound := h _ _ (cache.lookup_lines_self provider path)
    simp only [lines, hfound]

end Source.Cache

namespace PassEnv

variable {env : PassEnv} {s t store : Store}

/-- The location of a span that was asked for. -/
theorem locationHandle?_of_location {span : Span} {h : Handle .location}
    (hs : (env.factory.location span).runOn s = (.ok h, t)) (ht : t.Keeps store) :
    env.locationHandle? store span = some h := by
  obtain ⟨position, u, hp, hl⟩ := Build.of_bind hs
  obtain ⟨htexts, -⟩ := env.factory.of_position hp
  obtain ⟨hut, hfind⟩ := Arena.keeps_and_find?_of_getOrCreate Store.growing_locations
    (fun _ _ hk => hk.locations) (fun _ => .pure _) hl
  have hposition : (store.texts.resolve env.factory.sources (env.factory.filePath span.file)
      span.start span.stop).1 = position := by
    rw [← show _ = position from (congrArg Prod.fst htexts).symm]
    refine Source.Cache.resolve_of_keeps fun p found hfound => (hut.trans ht).texts p found ?_
    rwa [← show u.texts = _ from congrArg Prod.snd htexts] at hfound
  simp only [locationHandle?, hposition]
  exact ht.locations _ _ hfind

/-- The descriptor of a function that was asked for. -/
theorem functionHandle?_of_functionInfo {id : DeclId} {h : Handle .functionInfo}
    (hs : (env.factory.functionInfo id).runOn s = (.ok h, t)) (ht : t.Keeps store) :
    env.functionHandle? store id = some h := by
  obtain ⟨-, sym, info, hsym, hfind⟩ := env.factory.fetches_functionInfo id s h t hs
  unfold functionHandle?
  rw [hsym]
  exact ht.functions _ _ hfind

/-- The descriptor of an executable that was asked for. -/
theorem executableHandle?_of_executableInfo {executable : Executable} {h : Handle .functionInfo}
    (hs : (env.factory.executableInfo executable).runOn s = (.ok h, t)) (ht : t.Keeps store) :
    env.executableHandle? store executable = some h := by
  cases executable with
  | function id => exact functionHandle?_of_functionInfo hs ht
  | initializer id inClass =>
    cases inClass with
    | none => exact nomatch congrArg Prod.fst hs
    | some c =>
      obtain ⟨⟨sym, info⟩, u, hr, hg⟩ := Build.of_bind hs
      obtain ⟨hclass, rfl⟩ := Build.of_require hr
      obtain ⟨constructor, u, hr', hf⟩ := Build.of_bind hg
      obtain ⟨hprimary, rfl⟩ := Build.of_require hr'
      simp only [executableHandle?, hclass, hprimary, Option.bind_eq_bind, Option.bind_some]
      exact functionHandle?_of_functionInfo hf ht

end PassEnv

/-! ## Hook calls -/

namespace PassState

/-- The second state comes after the first, with no failure in between. -/
structure Follows (st st' : PassState) : Prop where
  failure : st'.failure = st.failure
  store : st.store.Keeps st'.store

theorem Follows.refl (st : PassState) : st.Follows st := ⟨rfl, .refl _⟩

theorem Follows.trans {st st' st'' : PassState} (h : st.Follows st') (h' : st'.Follows st'') :
    st.Follows st'' := ⟨h'.failure.trans h.failure, h.store.trans h'.store⟩

theorem of_onStore {α : Type} {step : Build Store α} {st st' : PassState} {a : α}
    (h : (onStore step).runOn st = (.ok a, st')) :
    step.runOn st.store = (.ok a, st'.store) ∧ st'.failure = st.failure := by
  unfold Build.runOn onStore at h
  obtain ⟨ha, rfl⟩ := Prod.mk.inj h
  exact ⟨Prod.ext ha rfl, rfl⟩

theorem Follows.of_onStore {α : Type} {step : Build Store α} (hstep : step.Grows)
    {st st' : PassState} {a : α} (h : (onStore step).runOn st = (.ok a, st')) : st.Follows st' := by
  obtain ⟨hs, hf⟩ := PassState.of_onStore h
  exact ⟨hf, hstep _ _ _ hs⟩

end PassState

namespace Instrument

open Tracing PassState

variable {env : PassEnv} {st st' : PassState} {x : Expr}

/-- A way to make events about a function at a location. -/
structure SiteEvents (ty : TraceType) (make : Handle .functionInfo → Handle .location → TraceEvent) :
    Prop where
  traceType : ∀ f l, (make f l).traceType = ty
  argExprs : ∀ f l span, (make f l).argExprs span =
    [Lowering.descriptorExpr f.toRef span, Lowering.descriptorExpr l.toRef span]

theorem siteEvents_beforeCall : SiteEvents .beforeCall .beforeCall :=
  ⟨fun _ _ => rfl, fun _ _ _ => rfl⟩

theorem siteEvents_afterCall : SiteEvents .afterCall .afterCall :=
  ⟨fun _ _ => rfl, fun _ _ _ => rfl⟩

theorem siteEvents_suspension : SiteEvents .suspensionPoint .suspension :=
  ⟨fun _ _ => rfl, fun _ _ _ => rfl⟩

/-- A hook call about a function at a location tells the event. -/
theorem of_siteHook {ty : TraceType} {make : Handle .functionInfo → Handle .location → TraceEvent}
    (hmake : SiteEvents ty make) {h : Handle .functionInfo} {span : Span}
    (hs : (siteHook env ty h span).runOn st = (.ok x, st')) :
    st.Follows st' ∧ ∀ store, st'.store.Keeps store →
      ∃ ev, siteEvent? env store make (some h) span = some ev ∧ Tells env ev x := by
  obtain ⟨id, u, hid, hrest⟩ := Build.of_bind hs
  obtain ⟨hhook, rfl⟩ := Build.of_require hid
  obtain ⟨at_, v, hat, hp⟩ := Build.of_bind hrest
  obtain ⟨rfl, rfl⟩ := Build.of_pure hp
  obtain ⟨l, w, hl, hp'⟩ := Build.of_bind hat
  obtain ⟨rfl, rfl⟩ := Build.of_pure hp'
  refine ⟨.of_onStore (env.factory.grows_location span) hl, fun store hstore => ?_⟩
  have hlocation := PassEnv.locationHandle?_of_location (of_onStore hl).1 hstore
  refine ⟨make h l, ?_, id, span, ?_, ?_⟩
  · simp only [siteEvent?, hlocation, Option.bind_eq_bind, Option.bind_some, Option.pure_def]
  · rw [hmake.traceType, hhook]
  · rw [hmake.argExprs]
    rfl

/-- The statement of a hook call that may be there tells the event that may be there. -/
theorem of_onlyIf {active : Bool} {step : Build PassState Expr}
    {event : Store → Option TraceEvent}
    (hstep : ∀ st x st', step.runOn st = (.ok x, st') → st.Follows st' ∧
      ∀ store, st'.store.Keeps store → ∃ ev, event store = some ev ∧ Tells env ev x)
    {x : Option Expr} (hs : (Build.onlyIf active step).runOn st = (.ok x, st')) :
    st.Follows st' ∧ ∀ store, st'.store.Keeps store →
      TellsAll env (if active then event store else none).toList (hookStmts x) ∧
        Backed env active (event store) := by
  obtain ⟨rfl, rfl, rfl⟩ | ⟨x, rfl, rfl, hx⟩ := Build.of_onlyIf hs
  · exact ⟨.refl _, fun _ _ => ⟨.nil, .inactive _ _⟩⟩
  · obtain ⟨hf, htells⟩ := hstep _ _ _ hx
    refine ⟨hf, fun store hstore => ?_⟩
    obtain ⟨ev, hev, hx⟩ := htells store hstore
    rw [if_pos rfl, hev]
    exact ⟨.cons ⟨x, rfl, hx⟩ .nil, fun _ => ⟨ev, rfl, hx.hook⟩⟩

/-! ## Call sites -/

theorem of_suspensionHook {executable : Executable} {span : Span}
    (hs : (suspensionHook env executable span).runOn st = (.ok x, st')) :
    st.Follows st' ∧ ∀ store, st'.store.Keeps store →
      ∃ ev, siteEvent? env store .suspension (env.executableHandle? store executable) span =
        some ev ∧ Tells env ev x := by
  obtain ⟨current, u, hc, hh⟩ := Build.of_bind hs
  obtain ⟨hf, htells⟩ := of_siteHook siteEvents_suspension hh
  refine ⟨(Follows.of_onStore (env.factory.grows_executableInfo executable) hc).trans hf, ?_⟩
  intro store hstore
  rw [PassEnv.executableHandle?_of_executableInfo (of_onStore hc).1 (hf.store.trans hstore)]
  exact htells store hstore

/-- What was prepared for a call: the hook calls before it tell the events of its plan, and the
event after it is about the descriptor that is kept. -/
def Prepared (env : PassEnv) (store : Store) (plan : CallPlan) (site : Site) : Option CallSite → Prop
  | none => plan.before = [] ∧ plan.after = none
  | some c => TellsAll env plan.before c.before ∧ (c.after = true → ¬site.ty.isNothing) ∧
    plan.after = if c.after then siteEvent? env store .afterCall (some c.callee) site.span else none

theorem of_prepareActive {executable : Executable} {site : Site} {callee : DeclId}
    {before suspension after : Bool} {c : CallSite}
    (hs : (prepareActive env executable site callee before suspension after).runOn st =
      (.ok c, st')) :
    st.Follows st' ∧ c.after = after ∧ ∀ store, st'.store.Keeps store →
      env.functionHandle? store callee = some c.callee ∧
      TellsAll env
        ((if before then siteEvent? env store .beforeCall (some c.callee) site.span else none).toList ++
          (if suspension then siteEvent? env store .suspension
            (env.executableHandle? store executable) site.span else none).toList) c.before ∧
      Backed env before (siteEvent? env store .beforeCall (some c.callee) site.span) ∧
      Backed env suspension (siteEvent? env store .suspension
        (env.executableHandle? store executable) site.span) := by
  obtain ⟨info, st₁, hinfo, hs⟩ := Build.of_bind hs
  obtain ⟨beforeHook, st₂, hbefore, hs⟩ := Build.of_bind hs
  obtain ⟨suspensionHook, st₃, hsuspension, hs⟩ := Build.of_bind hs
  obtain ⟨rfl, rfl⟩ := Build.of_pure hs
  have hf₁ := Follows.of_onStore (env.factory.fetches_functionInfo callee).grows hinfo
  obtain ⟨hf₂, htells₂⟩ := of_onlyIf (fun _ _ _ => of_siteHook siteEvents_beforeCall) hbefore
  obtain ⟨hf₃, htells₃⟩ := of_onlyIf (fun _ _ _ => of_suspensionHook) hsuspension
  refine ⟨hf₁.trans (hf₂.trans hf₃), rfl, fun store hstore => ?_⟩
  obtain ⟨hbefore, hbacked⟩ := htells₂ store (hf₃.store.trans hstore)
  obtain ⟨hsuspension, hbacked'⟩ := htells₃ store hstore
  refine ⟨?_, List.rel_append hbefore hsuspension, hbacked, hbacked'⟩
  exact PassEnv.functionHandle?_of_functionInfo (of_onStore hinfo).1
    (hf₂.store.trans (hf₃.store.trans hstore))

theorem of_prepareCall {sc : ScopeStack} {site : Site} {callee : DeclId} {c : Option CallSite}
    (hs : (prepareCall env sc site callee).runOn st = (.ok c, st')) :
    st.Follows st' ∧ ∀ store, st'.store.Keeps store →
      Prepared env store (callPlan env store sc site callee) site c ∧
        ((∀ c', c = some c' → Backed env c'.after
          (siteEvent? env store .afterCall (some c'.callee) site.span)) →
            SiteBacked env store sc site callee) := by
  unfold prepareCall at hs
  -- The four ways to prepare a call: it is exempt, no code is around it, no type is active, or its
  -- hooks are built. The plan takes the same ways.
  cases hexempt : isExempt env callee with
  | true =>
    rw [hexempt, if_pos rfl] at hs
    obtain ⟨rfl, rfl⟩ := Build.of_pure hs
    refine ⟨.refl _, fun store _ => ⟨?_, fun _ hnot => ?_⟩⟩
    · simp only [Prepared, callPlan, hexempt, and_self]
    · cases hexempt.symm.trans hnot
  | false =>
    rw [hexempt, if_neg Bool.false_ne_true] at hs
    obtain ⟨types, u, hok, hrest⟩ := Build.of_bind hs
    obtain ⟨htypes, rfl⟩ := Build.of_ofExcept hok
    cases hexecutable : sc.currentExecutable? with
    | none =>
      simp only [hexecutable] at hrest
      obtain ⟨rfl, rfl⟩ := Build.of_pure hrest
      refine ⟨.refl _, fun store _ => ⟨?_, fun _ _ => ⟨types, htypes, fun _ hex => ?_⟩⟩⟩
      · simp only [Prepared, callPlan, hexempt, htypes, hexecutable, and_self]
      · cases hexecutable.symm.trans hex
    | some executable =>
      simp only [hexecutable] at hrest
      obtain ⟨hidle, rfl, rfl⟩ | ⟨c, -, rfl, hactive⟩ := Build.of_onlyIf hrest
      · simp only [Bool.or_eq_false_iff] at hidle
        obtain ⟨⟨hb, ha⟩, hsu⟩ := hidle
        refine ⟨.refl _, fun store _ => ⟨?_, fun _ _ => ⟨types, htypes, fun _ _ => ?_⟩⟩⟩
        · simp only [Prepared, callPlan, hexempt, htypes, hexecutable, hb, ha, hsu,
            Bool.false_eq_true, if_false, Option.toList_none, List.append_nil, and_self]
        · rw [hb, ha, hsu]
          exact ⟨.inactive _ _, .inactive _ _, .inactive _ _⟩
      · obtain ⟨hf, hafter, hprepared⟩ := of_prepareActive hactive
        refine ⟨hf, fun store hstore => ?_⟩
        obtain ⟨hhandle, htells, hbacked, hbacked'⟩ := hprepared store hstore
        refine ⟨?_, fun hwrap _ => ⟨types, htypes, fun executable' hex => ?_⟩⟩
        · simp only [Prepared, callPlan, hexempt, htypes, hexecutable, hhandle, hafter]
          refine ⟨htells, fun h => ?_, trivial⟩
          simp only [Bool.and_eq_true, Bool.not_eq_true'] at h
          simp only [h.2, Bool.false_eq_true, not_false_eq_true]
        · cases hexecutable.symm.trans hex
          have hafterBacked := hwrap c rfl
          rw [hafter] at hafterBacked
          rw [hhandle]
          exact ⟨hbacked, hbacked', hafterBacked⟩

/-- What takes the place of a call. -/
theorem of_wrapCall (store : Store) {plan : CallPlan} {c : CallSite} {e e' : Expr}
    (hs : (wrapCall env c e).runOn st = (.ok e', st')) :
    st.Follows st' ∧ (st'.store.Keeps store → Prepared env store plan e.site (some c) →
      Surrounds env plan.before plan.after e e' ∧
        Backed env c.after (siteEvent? env store .afterCall (some c.callee) e.span)) := by
  unfold wrapCall at hs
  -- Nothing after the call, an event after a value that is dropped, or one after a value that is
  -- kept in a temporary.
  cases hafter : c.after with
  | false =>
    rw [hafter, if_neg Bool.false_ne_true] at hs
    obtain ⟨rfl, rfl⟩ := Build.of_pure hs
    refine ⟨.refl _, fun _ hprepared => ?_⟩
    obtain ⟨htells, -, hplan⟩ := hprepared
    rw [hplan, hafter]
    exact ⟨.quiet htells, .inactive _ _⟩
  | true =>
    rw [hafter, if_pos rfl] at hs
    obtain ⟨afterHook, st₁, hhook, hrest⟩ := Build.of_bind hs
    obtain ⟨hf, hevent⟩ := of_siteHook siteEvents_afterCall hhook
    by_cases htrivial : e.ty.isTrivial
    · rw [if_pos htrivial] at hrest
      obtain ⟨rfl, rfl⟩ := Build.of_pure hrest
      refine ⟨hf, fun hstore hprepared => ?_⟩
      obtain ⟨htells, hnothing, hplan⟩ := hprepared
      obtain ⟨ev, hev, hx⟩ := hevent store hstore
      rw [hplan, hafter, if_pos rfl, show e.site.span = e.span from rfl, hev]
      exact ⟨.dropped htells hx (Ty.eq_unit htrivial (hnothing hafter)), fun _ => ⟨ev, rfl, hx.hook⟩⟩
    · rw [if_neg htrivial] at hrest
      obtain ⟨st₂, u, hget, hrest⟩ := Build.of_bind hrest
      cases hget
      obtain ⟨_, w, hmodify, hrest⟩ := Build.of_bind hrest
      obtain ⟨rfl, rfl⟩ := Build.of_pure hrest
      cases hmodify
      refine ⟨⟨hf.failure, hf.store⟩, fun hstore hprepared => ?_⟩
      obtain ⟨htells, -, hplan⟩ := hprepared
      obtain ⟨ev, hev, hx⟩ := hevent store hstore
      rw [hplan, hafter, if_pos rfl, show e.site.span = e.span from rfl, hev]
      exact ⟨.kept htells hx htrivial, fun _ => ⟨ev, rfl, hx.hook⟩⟩

/-! ## Bodies -/

/-- A hook call that may be there, for an event that may be there. -/
def TellsOption (env : PassEnv) : Option TraceEvent → Option Expr → Prop := Option.Rel (Tells env)

theorem TellsOption.hookStmts {ev : Option TraceEvent} {x : Option Expr}
    (h : TellsOption env ev x) : TellsAll env ev.toList (hookStmts x) := by
  cases h with
  | none => exact .nil
  | some h => exact .cons ⟨_, rfl, h⟩ .nil

theorem of_bodyHook {ty : TraceType} (make : Handle .functionInfo → TraceEvent)
    (htype : ∀ f, (make f).traceType = ty)
    (hargs : ∀ f span, (make f).argExprs span = [Lowering.descriptorExpr f.toRef span])
    {active : Bool} {h : Handle .functionInfo} {span : Span} {x : Option Expr}
    (hs : (Build.onlyIf active (bodyHook env ty h span)).runOn st = (.ok x, st')) :
    st' = st ∧ TellsOption env (if active then some (make h) else none) x ∧
      Backed env active (some (make h)) := by
  obtain ⟨rfl, rfl, rfl⟩ | ⟨x, rfl, rfl, hx⟩ := Build.of_onlyIf hs
  · exact ⟨rfl, .none, .inactive _ _⟩
  · obtain ⟨id, u, hid, hrest⟩ := Build.of_bind hx
    obtain ⟨hhook, rfl⟩ := Build.of_require hid
    obtain ⟨rfl, rfl⟩ := Build.of_pure hrest
    have htells : Tells env (make h) (Lowering.hookCall id [functionArg h span] span) := by
      refine ⟨id, span, ?_, ?_⟩
      · rw [htype, hhook]
      · rw [hargs]
        rfl
    exact ⟨rfl, .some htells, fun _ => ⟨_, rfl, htells.hook⟩⟩

/-- What was prepared for a body: hook calls for the events that are active. -/
def BodyPrepared (env : PassEnv) (enter leave : Option TraceEvent) : Option BodyHooks → Prop
  | none => enter = none ∧ leave = none
  | some hooks => TellsOption env enter hooks.enter ∧ TellsOption env leave hooks.leave ∧
    (enter.isSome ∨ leave.isSome)

theorem of_prepareBody {sc : ScopeStack} {head : DeclHead} {body : Body} {hooks : Option BodyHooks}
    (hbody : isTraceable head body) (hs : (prepareBody env sc head).runOn st = (.ok hooks, st')) :
    st.Follows st' ∧ ∀ store, st'.store.Keeps store →
      BodyPrepared env (bodyEvent? env store sc head body .functionEnter .enter)
        (bodyEvent? env store sc head body .functionLeave .leave) hooks ∧
      BodyBacked env store sc head body := by
  obtain ⟨around, u, haroundOk, hafter⟩ := Build.of_bind hs
  obtain ⟨haround, rfl⟩ := Build.of_ofExcept haroundOk
  obtain ⟨own, v, hownOk, hhooks⟩ := Build.of_bind hafter
  obtain ⟨hown, rfl⟩ := Build.of_ofExcept hownOk
  have htypes : bodyTypes env sc head = .ok (around.union own) := by
    rw [bodyTypes, haround, hown]
    rfl
  obtain ⟨hidle, rfl, rfl⟩ | ⟨hooks, hactive, rfl, hprepare⟩ := Build.of_onlyIf hhooks
  · simp only [Bool.or_eq_false_iff] at hidle
    refine ⟨.refl _, fun store _ => ⟨?_, fun _ => ⟨_, htypes, ?_⟩⟩⟩
    · simp only [BodyPrepared, bodyEvent?, hbody, htypes, hidle.1, hidle.2, Bool.false_eq_true,
        if_false, and_self]
    · rw [hidle.1, hidle.2]
      exact ⟨.inactive _ _, .inactive _ _⟩
  · obtain ⟨info, st₁, hinfo, hbodyHooks⟩ := Build.of_bind hprepare
    obtain ⟨enter, st₂, henter, hleaveHook⟩ := Build.of_bind hbodyHooks
    obtain ⟨leave, st₃, hleave, hpure⟩ := Build.of_bind hleaveHook
    obtain ⟨rfl, rfl⟩ := Build.of_pure hpure
    obtain ⟨rfl, htells, hbacked⟩ := of_bodyHook .enter (fun _ => rfl) (fun _ _ => rfl) henter
    obtain ⟨rfl, htells', hbacked'⟩ := of_bodyHook .leave (fun _ => rfl) (fun _ _ => rfl) hleave
    refine ⟨.of_onStore (env.factory.fetches_functionInfo head.id).grows hinfo, fun store hstore => ?_⟩
    have hhandle := PassEnv.functionHandle?_of_functionInfo (of_onStore hinfo).1 hstore
    simp only [BodyPrepared, BodyBacked, bodyEvent?, hbody, htypes, hhandle, Option.map_some]
    refine ⟨⟨htells, htells', ?_⟩, fun _ => ⟨_, rfl, hbacked, hbacked'⟩⟩
    rw [Bool.or_eq_true] at hactive
    exact hactive.imp (fun h => by rw [h]; rfl) fun h => by rw [h]; rfl

end Instrument

end TraceWeave

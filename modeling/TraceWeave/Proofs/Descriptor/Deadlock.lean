import Mathlib.Logic.Relation
import Mathlib.Order.WellFounded
import TraceWeave.Proofs.Descriptor.Agreement

/-! # Threads that wait for each other

A thread waits for the builder of another thread, which may wait in turn. Where builders ask only
for keys below their own, in some well-founded order, and for their own, every such chain ends at a
thread that can go on. Where the builders of two keys ask for each other, as those of a class and of
its functions do, two threads that start at different ends wait for each other for ever.

* `Threads.ranked_builders_never_deadlock`: the first, since keys get smaller along a chain
  (`Threads.wanted_descends`).
* `Threads.Sample.cyclic_builders_deadlock`: the second.
-/

namespace TraceWeave.Threads

variable {k : DescriptorKind} {κ α : Type}

/-- A thread has a request that has not returned. -/
def Thread.Busy (x : Thread k κ) : Prop := ¬(x.phase = .running ∧ x.levels = [])

namespace Shared

/-- A thread waits for a slot that another thread is at work on. -/
def WaitsFor (s : Shared k κ α) (t u : Nat) : Prop :=
  ∃ key h, (s.threads t).phase = .waiting key h ∧ s.Owns u h ∧ u ≠ t

/-- There are requests that have not returned, and all their threads wait for threads that wait. -/
def Deadlocked (s : Shared k κ α) : Prop :=
  (∃ t, (s.threads t).Busy) ∧
    ∀ t, (s.threads t).Busy → ∃ u, s.WaitsFor t u ∧ ∃ v, s.WaitsFor u v

end Shared

/-! ## Builders that ask for smaller keys -/

/-- The key that a thread is asking for. -/
def Phase.wanted? : Phase k κ → Option κ
  | .asking key | .waiting key _ => some key
  | .running | .failing _ | .returning _ _ => none

open Relation (TransGen ReflTransGen)

section

variable {r : κ → κ → Prop}

/-- The builders inside each other have smaller and smaller keys, and the innermost one asks for a
smaller key or for its own. -/
structure Thread.Descends (r : κ → κ → Prop) (x : Thread k κ) : Prop where
  levels : x.levels.Pairwise fun inner outer => TransGen r inner.key outer.key
  wanted : ∀ key level outer, x.phase.wanted? = some key → x.levels = level :: outer →
    key = level.key ∨ r key level.key

/-- A thread outside a request for a key has nothing to show for it. -/
theorem Thread.Descends.of_levels {x y : Thread k κ} (hx : x.Descends r)
    (hlevels : (y.levels.map Level.key).Sublist (x.levels.map Level.key))
    (hwanted : y.phase.wanted? = none) : y.Descends r where
  levels := by
    rw [← List.pairwise_map (f := Level.key) (R := TransGen r)]
    exact (List.pairwise_map.mpr hx.levels).sublist hlevels
  wanted key level outer h := nomatch hwanted.symm.trans h

/-- The innermost builder opens another one. -/
theorem Thread.Descends.start {x : Thread k κ} (hx : x.Descends r) {key : κ} {h : Handle k}
    (hphase : x.phase = .asking key) (hnew : ∀ level ∈ x.levels, level.key ≠ key) :
    Thread.Descends r { x with phase := .running, levels := ⟨key, h, []⟩ :: x.levels } where
  levels := by
    refine List.pairwise_cons.mpr ⟨fun level hlevel => ?_, hx.levels⟩
    cases hlevels : x.levels with
    | nil => exact absurd (hlevels ▸ hlevel) List.not_mem_nil
    | cons innermost outer =>
      have hbelow : r key innermost.key := by
        refine (hx.wanted key innermost outer (by rw [hphase]; rfl) hlevels).resolve_left fun heq => ?_
        exact hnew innermost (by rw [hlevels]; exact List.mem_cons_self) heq.symm
      have hchain := hx.levels
      rw [hlevels, List.pairwise_cons] at hchain
      rw [hlevels] at hlevel
      rcases List.mem_cons.mp hlevel with rfl | hlevel
      · exact .single hbelow
      · exact .head hbelow (hchain.1 level hlevel)
  wanted _ _ _ h := nomatch h

variable [BEq κ] [LawfulBEq κ] {code : Code k κ α} {t : Nat} {s s' : Shared k κ α}

theorem Step.descends (hcode : ∀ t key h replies key', code.build t key h replies = .ask key' →
      key' = key ∨ r key' key)
    (hstep : Step code t s s') (hs : s.Agreed) (hr : ∀ u, (s.threads u).Descends r) (u : Nat) :
    (s'.threads u).Descends r := by
  -- A step changes one thread, so only its levels and its phase have to be looked at.
  have hmove : ∀ x : Thread k κ, s'.threads = Function.update s.threads t x → x.Descends r →
      (s'.threads u).Descends r := by
    intro x hthreads hx
    rw [hthreads]
    by_cases heq : u = t
    · rwa [heq, Function.update_self]
    · rw [Function.update_of_ne heq]
      exact hr u
  have hconclude : ∀ (level : Level k κ) outer slot reply, (s.threads t).levels = level :: outer →
      s' = s.conclude t { s.threads t with levels := outer } level slot reply →
      (s'.threads u).Descends r := by
    intro level outer slot reply hlevels heq
    have hthreads : ∃ reply', s'.threads = Function.update s.threads t
        { s.threads t with levels := outer, phase := .returning level.key reply' } := by
      rw [heq, Shared.conclude]
      split <;> exact ⟨_, rfl⟩
    obtain ⟨reply', hthreads⟩ := hthreads
    refine hmove _ hthreads ((hr t).of_levels ?_ rfl)
    rw [hlevels]
    exact (List.sublist_cons_self level outer).map _
  -- The wanted key changes when a builder asks, which is where the order comes in; levels open with
  -- `start` and close at the ends of builders.
  cases hstep with
  | @ask key hphase hask =>
    refine hmove _ rfl ⟨(hr t).levels, fun key' level outer hkey hlevels => ?_⟩
    cases hkey
    exact hcode t level.key level.handle level.replies key (hask level outer hlevels)
  | find hphase =>
    refine hmove _ rfl ⟨(hr t).levels, fun key' level outer hkey hlevels => ?_⟩
    refine (hr t).wanted key' level outer ?_ hlevels
    rw [hphase]
    exact hkey
  | full | resume | giveUp => exact hmove _ rfl ((hr t).of_levels (List.Sublist.refl _) rfl)
  | start hphase hnone hp =>
    refine hmove _ rfl ((hr t).start hphase fun level hlevel heq => ?_)
    -- No level has the key of the new builder: the keys of open builders are in the index, and this
    -- one was not.
    have hindex := (hs.threads t).indexed _ (List.mem_map_of_mem hlevel)
    exact Arena.find?_eq_none_iff.mp hnone (heq ▸ List.mem_map_of_mem hindex)
  | finish hphase hlevels => exact hconclude _ _ _ _ hlevels rfl
  | fail hphase hlevels => exact hconclude _ _ _ _ hlevels rfl
  | deliver =>
    refine hmove _ rfl ((hr t).of_levels ?_ (by rw [Thread.receive_phase]; rfl))
    rw [show ((s.threads t).receive _).levels.map Level.key = _ from
      (s.threads t).map_receive _ fun key _ => key]

theorem run_descends (hcode : ∀ t key h replies key', code.build t key h replies = .ask key' →
      key' = key ∨ r key' key) {schedule : List Nat}
    (hrun : Shared.run code schedule {} = some s) (hfail : s.Unfailing) (u : Nat) :
    (s.threads u).Descends r := by
  have hboth : s.Unfailing → s.Agreed ∧ ∀ u, (s.threads u).Descends r := by
    refine Shared.run_induction (p := fun s => s.Unfailing → s.Agreed ∧ ∀ u, (s.threads u).Descends r)
      (fun t s s' hstep hs hfail => ?_) hrun fun _ => ⟨Shared.agreed_empty, fun u => ⟨.nil, nofun⟩⟩
    obtain ⟨hagreed, hr⟩ := hs fun t key hmem => hfail t key (hstep.log.subset hmem)
    exact ⟨hstep.agreed hagreed hfail, hstep.descends hcode hagreed hr⟩
  exact (hboth hfail).2 u

/-! ## Chains of waiting threads end -/

omit [LawfulBEq κ] in
/-- A thread that waits cannot take a step. -/
theorem Shared.WaitsFor.step?_eq {u : Nat} (h : s.WaitsFor t u) : s.step? code t = none := by
  obtain ⟨key, x, hphase, hown, hne⟩ := h
  have hblocks : s.blocks t x = true := by
    unfold Shared.blocks
    rw [hown.1, hown.2]
    simpa using hne
  unfold Shared.step?
  simp only [hphase, hblocks, if_true]

omit [LawfulBEq κ] in
variable (code) in
/-- A thread with an unfinished request can go on or waits for another one. -/
theorem Shared.Agreed.goes_on_or_waits (hs : s.Agreed) (hbusy : (s.threads t).Busy) :
    (s.step? code t).isSome ∨ ∃ u, s.WaitsFor t u := by
  have hfits := (hs.threads t).phase
  unfold Shared.step?
  cases hphase : (s.threads t).phase with
  | running =>
    cases hlevels : (s.threads t).levels with
    | nil => exact absurd ⟨hphase, hlevels⟩ hbusy
    | cons level outer =>
      refine .inl ?_
      simp only [hphase, hlevels]
      split <;> rfl
  | asking key =>
    refine .inl ?_
    simp only [hphase]
    split
    · rfl
    · split <;> rfl
  | waiting key h =>
    cases hblocks : s.blocks t h with
    | false => exact .inl (by simp [hphase, hblocks])
    | true =>
      refine .inr ?_
      -- A thread is held up by nothing but a slot under construction, which belongs to another
      -- thread.
      unfold Shared.blocks at hblocks
      split at hblocks
      · rename_i hslot
        obtain ⟨hlt, -⟩ := List.getElem?_eq_some_iff.mp hslot
        rw [← hs.owned] at hlt
        have howner : s.owner? h = some _ := List.getElem?_eq_getElem hlt
        refine ⟨_, key, h, hphase, ⟨hslot, howner⟩, fun heq => ?_⟩
        rw [howner, heq] at hblocks
        simp at hblocks
      · exact absurd hblocks Bool.false_ne_true
  | failing e =>
    rw [hphase] at hfits
    exact hfits.elim
  | returning key reply => exact .inl (by simp [hphase])

omit [BEq κ] [LawfulBEq κ] in
/-- Along a chain of waiting threads the keys get smaller. -/
theorem wanted_descends (hs : s.Agreed) (hr : ∀ u, (s.threads u).Descends r) {u : Nat} {key key' : κ}
    {h h' : Handle k} (hphase : (s.threads t).phase = .waiting key h) (hown : s.Owns u h)
    (hphase' : (s.threads u).phase = .waiting key' h') (hother : ¬s.Owns u h') :
    TransGen r key' key := by
  obtain ⟨level, hlevel, hhandle⟩ := List.mem_map.mp (((hs.threads u).opened h).mpr hown)
  have hindex : (key, h) ∈ s.arena.index := by
    have hfits := (hs.threads t).phase
    rwa [hphase] at hfits
  have hindex' : (key', h') ∈ s.arena.index := by
    have hfits := (hs.threads u).phase
    rwa [hphase'] at hfits
  -- The slot that is waited for is that of an open builder for the same key.
  have hkey : level.key = key := by
    have hentry := (hs.threads u).indexed _ (List.mem_map_of_mem hlevel)
    exact congrArg Prod.fst (List.inj_on_of_nodup_map hs.arena.handles hentry hindex hhandle)
  cases hlevels : (s.threads u).levels with
  | nil => exact absurd (hlevels ▸ hlevel) List.not_mem_nil
  | cons innermost outer =>
    have hmem : innermost ∈ (s.threads u).levels := by
      rw [hlevels]
      exact List.mem_cons_self
    have hbelow : r key' innermost.key := by
      refine ((hr u).wanted key' innermost outer (by rw [hphase']; rfl) hlevels).resolve_left
        fun heq => hother ?_
      have hentry := (hs.threads u).indexed _ (List.mem_map_of_mem hmem)
      have hsame : innermost.handle = h' :=
        congrArg Prod.snd (List.inj_on_of_nodup_map hs.arena.keys hentry hindex' heq.symm)
      exact hsame ▸ ((hs.threads u).opened _).mp (List.mem_map_of_mem hmem)
    have hchain := (hr u).levels
    rw [hlevels] at hlevel hchain
    rcases List.mem_cons.mp hlevel with rfl | hlevel
    · exact hkey ▸ .single hbelow
    · exact hkey ▸ .head hbelow ((List.pairwise_cons.mp hchain).1 level hlevel)

omit [BEq κ] [LawfulBEq κ] in
theorem Shared.Agreed.busy_of_owns (hs : s.Agreed) {h : Handle k} (hown : s.Owns t h) :
    (s.threads t).Busy := by
  rintro ⟨-, hlevels⟩
  have hmem := ((hs.threads t).opened h).mpr hown
  rw [hlevels] at hmem
  exact absurd hmem List.not_mem_nil

omit [LawfulBEq κ] in
variable (code) in
/-- Whoever is waited for, somebody further down the chain can go on. -/
theorem exists_going_on (hwf : WellFounded r) (hs : s.Agreed) (hr : ∀ u, (s.threads u).Descends r) :
    ∀ (key : κ) (t u : Nat) (h : Handle k), (s.threads t).phase = .waiting key h → s.Owns u h →
      ∃ v, ReflTransGen s.WaitsFor u v ∧ (s.step? code v).isSome := by
  intro key
  induction key using hwf.transGen.induction with
  | _ key ih =>
    intro t u h hphase hown
    rcases hs.goes_on_or_waits code (hs.busy_of_owns hown) with hstep | ⟨v, hwaits⟩
    · exact ⟨u, .refl, hstep⟩
    · obtain ⟨key', h', hphase', hown', hne⟩ := hwaits
      have hother : ¬s.Owns u h' := fun hmine => hne (Option.some.inj (hown'.2.symm.trans hmine.2))
      have hless := wanted_descends hs hr hphase hown hphase' hother
      obtain ⟨w, hchain, hstep⟩ := ih key' hless u v h' hphase' hown'
      exact ⟨w, .head ⟨key', h', hphase', hown', hne⟩ hchain, hstep⟩

/-- **Builders that ask for smaller keys do not deadlock.** If builders ask, apart from their own
key, only for keys that are below it in a well-founded order, then in every state of every schedule,
as long as no builder has failed, each thread with an unfinished request can go on or waits, perhaps
through others, for a thread that can. So not all of them wait. -/
theorem ranked_builders_never_deadlock (code : Code k κ α) (r : κ → κ → Prop) (hwf : WellFounded r)
    (hcode : ∀ t key h replies key', code.build t key h replies = .ask key' →
      key' = key ∨ r key' key)
    (schedule : List Nat) (s : Shared k κ α) (hrun : Shared.run code schedule {} = some s)
    (hfail : ∀ t key, .gaveUp t key ∉ s.log) :
    (∀ t, (s.threads t).Busy →
      ∃ u, ReflTransGen s.WaitsFor t u ∧ (s.step? code u).isSome) ∧ ¬s.Deadlocked := by
  have hs := Shared.run_agreed hrun hfail
  have hr := run_descends hcode hrun hfail
  have hprogress : ∀ t, (s.threads t).Busy →
      ∃ u, ReflTransGen s.WaitsFor t u ∧ (s.step? code u).isSome := by
    intro t hbusy
    rcases hs.goes_on_or_waits code hbusy with hstep | ⟨u, hwaits⟩
    · exact ⟨t, .refl, hstep⟩
    · obtain ⟨key, h, hphase, hown, -⟩ := id hwaits
      obtain ⟨v, hchain, hstep⟩ := exists_going_on code hwf hs hr key t u h hphase hown
      exact ⟨v, .head hwaits hchain, hstep⟩
  refine ⟨hprogress, fun ⟨⟨t, hbusy⟩, hall⟩ => ?_⟩
  obtain ⟨u, hchain, hstep⟩ := hprogress t hbusy
  -- The thread at the end of the chain has an unfinished request as well.
  have hbusy' : (s.threads u).Busy := by
    cases hchain with
    | refl => exact hbusy
    | tail _ hlast =>
      obtain ⟨_, _, _, hown, _⟩ := hlast
      exact hs.busy_of_owns hown
  obtain ⟨v, hwaits, -⟩ := hall u hbusy'
  rw [hwaits.step?_eq] at hstep
  exact absurd hstep Bool.false_ne_true

end

/-- The key `a` is above all others. -/
def Sample.below (key key' : String) : Prop := key ≠ "a" ∧ key' = "a"

theorem Sample.below_wellFounded : WellFounded Sample.below := by
  refine Subrelation.wf ?_ (measure fun key => if key = "a" then 1 else 0).wf
  rintro key key' ⟨hne, rfl⟩
  simp [InvImage, WellFoundedRelation.rel, hne]

/-- The second thread waits for the first one, which can go on. -/
theorem Sample.racing_threads_go_on :
    ∃ s, Shared.run Sample.racing [0, 0, 0, 1, 1] {} = some s ∧ (s.threads 1).Busy ∧
      s.WaitsFor 1 0 ∧ (∃ u, ReflTransGen s.WaitsFor 1 u ∧ (s.step? Sample.racing u).isSome) ∧
      ¬s.Deadlocked := by
  have hseen : (Shared.run Sample.racing [0, 0, 0, 1, 1] {}).map
      (fun s => (s.log, s.threads 0, s.threads 1)) =
      some ([.started 0 "a" ⟨0⟩], { phase := .asking "b", levels := [⟨"a", ⟨0⟩, []⟩] },
        { phase := .waiting "a" ⟨0⟩ }) := by
    decide +kernel
  obtain ⟨s, hrun, hs⟩ := Option.map_eq_some_iff.mp hseen
  simp only [Prod.mk.injEq] at hs
  obtain ⟨hlog, hfirst, hsecond⟩ := hs
  have hcode : ∀ t key h replies key', Sample.racing.build t key h replies = .ask key' →
      key' = key ∨ Sample.below key' key := by
    intro t key h replies key' hask
    have hmem := mem_of_followScript_ask hask
    by_cases hkey : key = "a"
    · by_cases hkey' : key' = "a"
      · exact .inl (hkey'.trans hkey.symm)
      · exact .inr ⟨hkey', hkey⟩
    · simp [Scripts.get, Sample.nested, List.lookup_cons, beq_eq_false_iff_ne.mpr hkey] at hmem
  obtain ⟨hprogress, hfree⟩ := ranked_builders_never_deadlock Sample.racing Sample.below
    Sample.below_wellFounded hcode _ s hrun (by simp [hlog])
  have hbusy : (s.threads 1).Busy := by simp [Thread.Busy, hsecond]
  have hown : s.Owns 0 ⟨0⟩ :=
    (((Shared.run_agreed hrun (by simp [Shared.Unfailing, hlog])).threads 0).opened _).mp
      (by simp [hfirst])
  exact ⟨s, hrun, hbusy, ⟨"a", ⟨0⟩, by rw [hsecond], hown, by decide⟩, hprogress 1 hbusy, hfree⟩

/-- The builder of a class asks for its function, and that of the function for its class. -/
def Sample.cycle : Scripts :=
  [("class", { asks := [⟨"function", false⟩] }), ("function", { asks := [⟨"class", false⟩] })]

/-- One thread asks for the class and another one for the function. -/
def Sample.bothEnds : Code .location String PlanNode :=
  scripted cycle fun t => if t = 0 then ["class"] else if t = 1 then ["function"] else []

/-- **Builders that ask for each other deadlock.** Each thread starts its builder and then finds the
slot of the other one; neither can take a step any more, and no other thread has one to take. -/
theorem Sample.cyclic_builders_deadlock :
    ∃ s, Shared.run Sample.bothEnds [0, 0, 1, 1, 0, 0, 1, 1] {} = some s ∧
      (∀ t key, .gaveUp t key ∉ s.log) ∧ s.Deadlocked ∧ ∀ t, s.step? Sample.bothEnds t = none := by
  have hseen : (Shared.run Sample.bothEnds [0, 0, 1, 1, 0, 0, 1, 1] {}).map
      (fun s => (s.log, s.threads 0, s.threads 1)) =
      some ([.started 0 "class" ⟨0⟩, .started 1 "function" ⟨1⟩],
        { phase := .waiting "function" ⟨1⟩, levels := [⟨"class", ⟨0⟩, []⟩] },
        { phase := .waiting "class" ⟨0⟩, levels := [⟨"function", ⟨1⟩, []⟩] }) := by
    decide +kernel
  obtain ⟨s, hrun, hs⟩ := Option.map_eq_some_iff.mp hseen
  simp only [Prod.mk.injEq] at hs
  obtain ⟨hlog, hfirst, hsecond⟩ := hs
  have hfail : ∀ t key, .gaveUp t key ∉ s.log := by simp [hlog]
  have hagreed := Shared.run_agreed hrun hfail
  have hwaits : s.WaitsFor 0 1 := by
    refine ⟨"function", ⟨1⟩, by rw [hfirst], ((hagreed.threads 1).opened _).mp ?_, by decide⟩
    simp [hsecond]
  have hwaits' : s.WaitsFor 1 0 := by
    refine ⟨"class", ⟨0⟩, by rw [hsecond], ((hagreed.threads 0).opened _).mp ?_, by decide⟩
    simp [hfirst]
  have hidle : ∀ t, t ≠ 0 → t ≠ 1 → s.threads t = {} := by
    intro t h0 h1
    exact Shared.threads_of_run hrun (by simp [h0, h1])
  refine ⟨s, hrun, hfail, ⟨⟨0, by simp [Thread.Busy, hfirst]⟩, fun t hbusy => ?_⟩, fun t => ?_⟩
  · by_cases h0 : t = 0
    · exact h0 ▸ ⟨1, hwaits, 0, hwaits'⟩
    · by_cases h1 : t = 1
      · exact h1 ▸ ⟨0, hwaits', 1, hwaits⟩
      · exact absurd (by rw [hidle t h0 h1]; exact ⟨rfl, rfl⟩) hbusy
  · by_cases h0 : t = 0
    · exact h0 ▸ hwaits.step?_eq
    · by_cases h1 : t = 1
      · exact h1 ▸ hwaits'.step?_eq
      · unfold Shared.step?
        simp [hidle t h0 h1, Sample.bothEnds, scripted, h0, h1]

end TraceWeave.Threads

import TraceWeave.Proofs.Descriptor.Requests
import TraceWeave.Proofs.Descriptor.Threads

/-! # A thread on its own

While no other thread takes a step, the steps of a request come to the same as the request made at
once. So what is shown for all schedules of a shared arena holds for the arena of one thread too.

`Threads.Mirrors` ties a shared arena to one of a single thread. `Threads.Agrees` is what is
proved of a request by induction on the builders inside each other, and `Threads.alone_request`
what comes of it.
-/

namespace TraceWeave.PlanState

/-- A request and those after it. -/
theorem runOn_askAll_cons {request : String → Build PlanState (Handle .location)} (ask : Ask)
    (asks : List Ask) (p : PlanState) :
    (askAll request (ask :: asks)).runOn p =
      match (request ask.key).runOn p with
      | (.ok h, q) => (((askAll request asks).runOn q).1.map (h :: ·), ((askAll request asks).runOn q).2)
      | (.error e, q) => if ask.optional then (askAll request asks).runOn q else (.error e, q) := by
  rw [askAll]
  rcases hrun : (request ask.key).runOn p with ⟨e | h, q⟩
  · have htolerate : (Build.tolerate ask.optional (request ask.key)).runOn p =
        (if ask.optional then .ok none else .error e, q) := by
      simp only [Build.runOn, Build.tolerate] at hrun ⊢
      rw [hrun]
    cases hoptional : ask.optional with
    | false =>
      rw [hoptional] at htolerate
      exact Build.runOn_bind_error htolerate
    | true =>
      rw [hoptional] at htolerate
      refine (Build.runOn_bind_ok htolerate).trans ?_
      rcases hrest : (askAll request asks).runOn q with ⟨e' | others, u⟩
      · exact (Build.runOn_bind_error hrest).trans hrest.symm
      · exact (Build.runOn_bind_ok hrest).trans hrest.symm
  · have htolerate : (Build.tolerate ask.optional (request ask.key)).runOn p = (.ok (some h), q) := by
      simp only [Build.runOn, Build.tolerate] at hrun ⊢
      rw [hrun]
    refine (Build.runOn_bind_ok htolerate).trans ?_
    rcases hrest : (askAll request asks).runOn q with ⟨e' | others, u⟩
    · exact (Build.runOn_bind_error hrest).trans (by simp only [hrest]; rfl)
    · exact (Build.runOn_bind_ok hrest).trans (by simp only [hrest]; rfl)

/-- How a builder ends after its requests. -/
theorem runOn_build (scripts : Scripts) (request : String → Build PlanState (Handle .location))
    (key : String) (h : Handle .location) (p : PlanState) :
    (build scripts request key h).runOn p =
      (match ((askAll request (scripts.get key).asks).runOn (start key h p)).1 with
        | .ok found =>
          match (scripts.get key).failure with
          | some message => .error (.generic message)
          | none => .ok ⟨key, found⟩
        | .error e => .error e,
      ((askAll request (scripts.get key).asks).runOn (start key h p)).2) := by
  have hstart : (modify (start key h) : Build PlanState Unit).runOn p = (.ok (), start key h p) := rfl
  unfold build
  refine (Build.runOn_bind_ok hstart).trans ?_
  rcases hrun : (askAll request (scripts.get key).asks).runOn (start key h p) with ⟨e | found, q⟩
  · exact Build.runOn_bind_error hrun
  · refine (Build.runOn_bind_ok hrun).trans ?_
    cases (scripts.get key).failure <;> rfl

end TraceWeave.PlanState

namespace TraceWeave.Threads

open PlanState (askAll build requestWithin need missing Steady)

/-! ## Steps of one thread -/

section

variable {k : DescriptorKind} {κ α : Type} [BEq κ] {code : Code k κ α} {t : Nat}
  {s s' u : Shared k κ α}

/-- Any number of steps of one thread, and none of another one. -/
def Alone (code : Code k κ α) (t : Nat) (s s' : Shared k κ α) : Prop :=
  ∃ n, Shared.run code (List.replicate n t) s = some s'

theorem Shared.run_append (schedule schedule' : List Nat) (s : Shared k κ α) :
    run code (schedule ++ schedule') s = (run code schedule s).bind (run code schedule') := by
  induction schedule generalizing s with
  | nil => rfl
  | cons t schedule ih =>
    rw [List.cons_append, run, run, Option.bind_assoc]
    exact Option.bind_congr fun u _ => ih u

theorem Alone.refl (s : Shared k κ α) : Alone code t s s := ⟨0, rfl⟩

theorem Alone.trans (h : Alone code t s s') (h' : Alone code t s' u) : Alone code t s u := by
  obtain ⟨n, hn⟩ := h
  obtain ⟨m, hm⟩ := h'
  refine ⟨n + m, ?_⟩
  rw [List.replicate_add, Shared.run_append, hn]
  exact hm

theorem Alone.head (h : s.step? code t = some s') (h' : Alone code t s' u) : Alone code t s u := by
  obtain ⟨n, hn⟩ := h'
  refine ⟨n + 1, ?_⟩
  rw [List.replicate_succ, Shared.run, h]
  exact hn

theorem Alone.step (h : s.step? code t = some s') : Alone code t s s' := .head h (.refl s')

end

/-- A shared arena looks like one of a single thread. -/
structure Mirrors (t : Nat) (s : Shared .location String PlanNode) (p : PlanState) : Prop where
  arena : s.arena = p.arena
  started : starts s.log = p.log.map fun start => (start.key, start.handle)
  owned : s.owners.length = s.arena.slots.length
  own : ∀ h, s.arena.slot? h = some .building → s.owner? h = some t

section

variable {t : Nat} {s : Shared .location String PlanNode} {p : PlanState} {key : String}
  {h : Handle .location} {a : Arena .location String PlanNode}

theorem Mirrors.move (hs : Mirrors t s p) (x : Thread .location String) : Mirrors t (s.move t x) p :=
  ⟨hs.arena, hs.started, hs.owned, hs.own⟩

theorem Mirrors.not_blocks (hs : Mirrors t s p) (h : Handle .location) : s.blocks t h = false := by
  unfold Shared.blocks
  split
  · rename_i hslot
    simpa using hs.own h hslot
  · rfl

theorem Mirrors.deliver (hs : Mirrors t s p) (reply : Reply .location) (x : Thread .location String) :
    Mirrors t ((s.note (.returned t key reply)).move t x) p :=
  ⟨hs.arena, by simpa [Shared.note, Shared.move, starts] using hs.started, hs.owned, hs.own⟩

theorem Mirrors.start (hs : Mirrors t s p) (hp : p.arena.publish key = .ok (h, a))
    (x : Thread .location String) :
    Mirrors t (({ s with arena := a, owners := s.owners ++ [t] }.note (.started t key h)).move t x)
      (PlanState.start key h { p with arena := a }) := by
  have hslot := Arena.slot?_publish hp
  obtain ⟨hindex, -, rfl⟩ := Arena.of_publish hp
  have hlen : s.owners.length = p.arena.slots.length := by rw [hs.owned, hs.arena]
  refine ⟨rfl, ?_, ?_, fun y hy => ?_⟩
  · simpa [Shared.note, Shared.move, starts, PlanState.start] using hs.started
  · simp [Shared.note, Shared.move, hlen]
  · change (s.owners ++ [t])[y.index.toNat]? = some t
    by_cases heq : y = h
    · rw [heq, hindex, ← hlen, List.getElem?_concat_length]
    · have hold : s.arena.slot? y = some .building := by
        rw [hs.arena]
        exact ((hslot y).symm.trans hy).symm.trans (if_neg heq) |>.symm
      have howner := hs.own y hold
      obtain ⟨hlt, -⟩ := List.getElem?_eq_some_iff.mp howner
      rw [List.getElem?_append_left hlt]
      exact howner

/-- The end of a builder. -/
theorem Mirrors.conclude (hs : Mirrors t s p) {a : Arena .location String PlanNode}
    (ha : a.slots = p.arena.slots) {slot : Slot PlanNode} (hslot : slot ≠ .building)
    (hbuilding : a.slot? h = some .building) {s' : Shared .location String PlanNode}
    (harena : s'.arena = a.put h slot) (howners : s'.owners = s.owners)
    (hstarts : starts s'.log = starts s.log) :
    Mirrors t s' { p with arena := a.put h slot } where
  arena := harena
  started := hstarts.trans hs.started
  owned := by
    have howned := hs.owned
    rw [hs.arena, ← ha] at howned
    rw [howners, harena, howned]
    exact List.length_set.symm
  own y hy := by
    have hput := (Arena.slot?_put hbuilding y).symm.trans (harena ▸ hy)
    split at hput
    · exact absurd (Option.some.inj hput) hslot
    · rw [Shared.owner?, howners]
      refine hs.own y ?_
      rwa [hs.arena, Arena.slot?, ← ha]

end

/-! ## The requests of a builder -/

section

variable {scripts : Scripts} {keys : Nat → List String} {t : Nat}

/-- A request made step by step comes to what the request made at once comes to. -/
def Agrees (scripts : Scripts) (keys : Nat → List String) (t : Nat)
    (request : Build PlanState (Handle .location)) (key : String) (p : PlanState) : Prop :=
  ∀ s : Shared .location String PlanNode, Mirrors t s p → (s.threads t).phase = .asking key →
    ∃ s', Alone (scripted scripts keys) t s s' ∧ Mirrors t s' (request.runOn p).2 ∧
      s'.threads = Function.update s.threads t
        { s.threads t with phase := .returning key (request.runOn p).1 }

/-- The answer to a request reaches the innermost builder. -/
theorem exists_answered {request : Build PlanState (Handle .location)} {key : String} {p : PlanState}
    (hagrees : Agrees scripts keys t request key p) {s : Shared .location String PlanNode}
    (hs : Mirrors t s p) {level : Level .location String} {outer : List (Level .location String)}
    (hphase : (s.threads t).phase = .running) (hlevels : (s.threads t).levels = level :: outer)
    (hask : (scripted scripts keys).build t level.key level.handle level.replies = .ask key) :
    ∃ s', Alone (scripted scripts keys) t s s' ∧ Mirrors t s' (request.runOn p).2 ∧
      s'.threads = Function.update s.threads t { s.threads t with
        levels := { level with replies := level.replies ++ [(request.runOn p).1] } :: outer } := by
  have hfirst : s.step? (scripted scripts keys) t =
      some (s.move t { s.threads t with phase := .asking key }) := by
    unfold Shared.step?
    simp only [hphase, hlevels, hask]
  obtain ⟨s', halone, hmirrors, hthreads⟩ := hagrees (s.move t { s.threads t with phase := .asking key })
    (hs.move _) (by simp [Shared.move])
  have hthreads' : s'.threads = Function.update s.threads t
      { s.threads t with phase := .returning key (request.runOn p).1 } := by
    rw [hthreads]
    simp [Shared.move]
  have hlast : s'.step? (scripted scripts keys) t =
      some ((s'.note (.returned t key (request.runOn p).1)).move t
        ((s'.threads t).receive (request.runOn p).1)) := by
    unfold Shared.step?
    simp only [hthreads', Function.update_self]
  refine ⟨_, .head hfirst (halone.trans (.step hlast)), hmirrors.deliver _ _, ?_⟩
  simp [Shared.move, Shared.note, hthreads', Thread.receive, hlevels, hphase]

theorem alone_askAll {request : String → Build PlanState (Handle .location)}
    (hsteady : ∀ key, Steady (request key)) {n : Nat}
    (hagrees : ∀ key ∈ scripts.asked, ∀ p : PlanState, p.arena.Sound → missing scripts p < n →
      Agrees scripts keys t (request key) key p) :
    ∀ (asks : List Ask) (s : Shared .location String PlanNode) (p : PlanState)
      (level : Level .location String) (outer : List (Level .location String))
      (found : List (Handle .location)),
    (∀ ask ∈ asks, ask.key ∈ scripts.asked) → p.arena.Sound → missing scripts p < n →
    Mirrors t s p → (s.threads t).phase = .running → (s.threads t).levels = level :: outer →
    (∀ more, (scripted scripts keys).build t level.key level.handle (level.replies ++ more) =
      followScript level.key (scripts.get level.key).failure asks more found) →
    ∃ s' replies, Alone (scripted scripts keys) t s s' ∧
      Mirrors t s' ((askAll request asks).runOn p).2 ∧
      s'.threads = Function.update s.threads t
        { s.threads t with levels := { level with replies } :: outer } ∧
      (scripted scripts keys).build t level.key level.handle replies =
        match ((askAll request asks).runOn p).1 with
        | .ok others =>
          followScript level.key (scripts.get level.key).failure [] [] (found ++ others)
        | .error e => .giveUp e
  | [], s, p, level, outer, found, _, _, _, hs, _, hlevels, hfollow => by
    refine ⟨s, level.replies, .refl s, hs, ?_, ?_⟩
    · rw [← hlevels]
      exact (Function.update_eq_self t s.threads).symm
    · have hend := hfollow []
      rw [List.append_nil] at hend
      rw [hend]
      exact congrArg _ (List.append_nil found).symm
  | ask :: asks, s, p, level, outer, found, hasked, hp, hn, hs, hphase, hlevels, hfollow => by
    have hask : (scripted scripts keys).build t level.key level.handle level.replies = .ask ask.key := by
      have hnext := hfollow []
      rwa [List.append_nil] at hnext
    obtain ⟨s₁, halone, hmirrors, hthreads⟩ := exists_answered
      (hagrees ask.key (hasked ask List.mem_cons_self) p hp hn) hs hphase hlevels hask
    obtain ⟨hsound, hext⟩ := hsteady ask.key p hp
    have hmissing : missing scripts ((request ask.key).runOn p).2 < n :=
      Nat.lt_of_le_of_lt (PlanState.missing_le_of_extends hp hsound hext) hn
    have hthread : s₁.threads t = { s.threads t with
        levels := { level with replies := level.replies ++ [((request ask.key).runOn p).1] } :: outer } := by
      rw [hthreads, Function.update_self]
    -- The other requests go on from here with what was found so far.
    have hothers : ∀ found', (∀ more,
        (scripted scripts keys).build t level.key level.handle
          (level.replies ++ [((request ask.key).runOn p).1] ++ more) =
          followScript level.key (scripts.get level.key).failure asks more found') → _ :=
      fun found' => alone_askAll hsteady hagrees asks s₁ ((request ask.key).runOn p).2
        { level with replies := level.replies ++ [((request ask.key).runOn p).1] } outer found'
        (fun x hx => hasked x (List.mem_cons_of_mem _ hx)) hsound hmissing hmirrors
        (by rw [hthread]; exact hphase) (by rw [hthread])
    rw [PlanState.runOn_askAll_cons]
    rcases hrun : (request ask.key).runOn p with ⟨e | h, q⟩ <;>
      simp only [hrun, List.append_assoc, List.singleton_append] at hothers halone hmirrors hthreads ⊢
    · have hnext : ∀ more, _ := fun more => hfollow (.error e :: more)
      simp only [followScript] at hnext
      cases hoptional : ask.optional with
      | false =>
        simp only [hoptional, Bool.false_eq_true, if_false] at hnext ⊢
        exact ⟨s₁, _, halone, hmirrors, hthreads, hnext []⟩
      | true =>
        simp only [hoptional, if_true] at hnext ⊢
        obtain ⟨s', replies, halone', hmirrors', hthreads', hbuild⟩ := hothers found hnext
        refine ⟨s', replies, halone.trans halone', hmirrors', ?_, hbuild⟩
        rw [hthreads', hthreads]
        simp
    · obtain ⟨s', replies, halone', hmirrors', hthreads', hbuild⟩ :=
        hothers (found ++ [h]) fun more => hfollow (.ok h :: more)
      refine ⟨s', replies, halone.trans halone', hmirrors', ?_, ?_⟩
      · rw [hthreads', hthreads]
        simp
      · rw [hbuild]
        cases ((askAll request asks).runOn q).1 <;> simp [Except.map]

/-! ## Requests -/

variable {request : String → Build PlanState (Handle .location)} {key : String} {p : PlanState}

/-- A slot that is there is finished or the thread's own, so there is nothing to wait for. -/
theorem agrees_known (hp : p.arena.Sound) {h : Handle .location} (hfind : p.arena.find? key = some h) :
    Agrees scripts keys t (Arena.getOrCreate PlanState.arenaPart key (build scripts request key)) key
      p := by
  intro s hs hphase
  have hanswer : (Arena.getOrCreate PlanState.arenaPart key (build scripts request key)).runOn p =
      (.ok h, p) := by
    have hsettled : (PlanState.arenaPart.get p).settled h = .ok h := hp.settled_eq hfind
    rw [Arena.runOn_getOrCreate_found hfind, hsettled]
  have hfirst : s.step? (scripted scripts keys) t =
      some (s.move t { s.threads t with phase := .waiting key h }) := by
    unfold Shared.step?
    simp only [hphase, hs.arena, hfind]
  have hsecond : (s.move t { s.threads t with phase := .waiting key h }).step? (scripted scripts keys) t =
      some (s.move t { s.threads t with phase := .returning key (.ok h) }) := by
    have hfree := (hs.move { s.threads t with phase := .waiting key h }).not_blocks h
    have hsettled : s.arena.settled h = .ok h := by
      rw [hs.arena]
      exact hp.settled_eq hfind
    unfold Shared.step?
    simp only [Shared.move, Function.update_self] at hfree ⊢
    simp [hfree, hsettled]
  rw [hanswer]
  exact ⟨_, .head hfirst (.step hsecond), hs.move _, rfl⟩

theorem agrees_full (hfind : p.arena.find? key = none) {e : Error}
    (hpublish : p.arena.publish key = .error e) :
    Agrees scripts keys t (Arena.getOrCreate PlanState.arenaPart key (build scripts request key)) key
      p := by
  intro s hs hphase
  have hanswer : (Arena.getOrCreate PlanState.arenaPart key (build scripts request key)).runOn p =
      (.error e, p) := Arena.runOn_getOrCreate_full hfind hpublish
  have hfirst : s.step? (scripted scripts keys) t =
      some (s.move t { s.threads t with phase := .returning key (.error e) }) := by
    unfold Shared.step?
    simp only [hphase, hs.arena, hfind, hpublish]
  rw [hanswer]
  exact ⟨_, .step hfirst, hs.move _, rfl⟩

/-- A builder starts, and its requests lead it to its end. -/
theorem alone_builder (hsteady : ∀ key, Steady (request key)) (hp : p.arena.Sound)
    (hfind : p.arena.find? key = none) {h : Handle .location} {a : Arena .location String PlanNode}
    (hpublish : p.arena.publish key = .ok (h, a)) {n : Nat}
    (hn : missing scripts (PlanState.start key h { p with arena := a }) < n)
    (hagrees : ∀ key ∈ scripts.asked, ∀ p : PlanState, p.arena.Sound → missing scripts p < n →
      Agrees scripts keys t (request key) key p)
    {s : Shared .location String PlanNode} (hs : Mirrors t s p)
    (hphase : (s.threads t).phase = .asking key) :
    ∃ s' replies, Alone (scripted scripts keys) t s s' ∧
      Mirrors t s' ((build scripts request key h).runOn { p with arena := a }).2 ∧
      s'.threads = Function.update s.threads t { s.threads t with
        phase := .running, levels := ⟨key, h, replies⟩ :: (s.threads t).levels } ∧
      (scripted scripts keys).build t key h replies =
        match ((build scripts request key h).runOn { p with arena := a }).1 with
        | .ok v => .finish v
        | .error e => .giveUp e := by
  have hfirst : s.step? (scripted scripts keys) t =
      some (({ s with arena := a, owners := s.owners ++ [t] }.note (.started t key h)).move t
        { s.threads t with phase := .running, levels := ⟨key, h, []⟩ :: (s.threads t).levels }) := by
    unfold Shared.step?
    simp only [hphase, hs.arena, hfind, hpublish]
  have hstarted := hs.start hpublish
    { s.threads t with phase := .running, levels := ⟨key, h, []⟩ :: (s.threads t).levels }
  obtain ⟨s', replies, halone, hmirrors, hthreads, hend⟩ := alone_askAll hsteady hagrees
    (scripts.get key).asks _ _ ⟨key, h, []⟩ (s.threads t).levels []
    (fun ask hask => PlanState.mem_asked_of_get hask) (hp.publish hfind hpublish) hn hstarted
    (by simp [Shared.move]) (by simp [Shared.move]) (fun more => rfl)
  rw [PlanState.runOn_build]
  refine ⟨s', replies, .head hfirst halone, hmirrors, ?_, hend.trans ?_⟩
  · rw [hthreads]
    simp [Shared.move, Shared.note]
  · cases ((askAll request _).runOn _).1 with
    | error e => rfl
    | ok found => cases hfailure : (scripts.get key).failure <;> simp [followScript]

/-- A builder at its end fills its slot, and its request returns the handle. -/
theorem Mirrors.finish {s : Shared .location String PlanNode} {u : PlanState} (hs : Mirrors t s u)
    {x : Thread .location String} {key : String} {h : Handle .location}
    {replies : List (Reply .location)} {v : PlanNode}
    (hthread : s.threads t =
      { x with phase := .running, levels := ⟨key, h, replies⟩ :: x.levels })
    (hact : (scripted scripts keys).build t key h replies = .finish v)
    (hslot : u.arena.slot? h = some .building) :
    ∃ s', Alone (scripted scripts keys) t s s' ∧
      Mirrors t s' { u with arena := u.arena.put h (.ready v) } ∧
      s'.threads = Function.update s.threads t { x with phase := .returning key (.ok h) } := by
  have hslot' : s.arena.slot? h = some .building := by
    rw [hs.arena]
    exact hslot
  have hstep : s.step? (scripted scripts keys) t =
      some ({ s with arena := s.arena.put h (.ready v) }.move t
        { x with phase := .returning key (.ok h) }) := by
    unfold Shared.step? Shared.conclude
    simp only [hthread, hact, Arena.settle_eq hslot']
  have hended : (.ready v : Slot PlanNode) ≠ .building := nofun
  refine ⟨_, .step hstep, hs.conclude rfl hended hslot ?_ rfl rfl, rfl⟩
  rw [← hs.arena]
  rfl

/-- A builder that fails takes its key out of the index before it fills its slot with the failure. -/
theorem Mirrors.giveUp {s : Shared .location String PlanNode} {u : PlanState} (hs : Mirrors t s u)
    {x : Thread .location String} {key : String} {h : Handle .location}
    {replies : List (Reply .location)} {e : Error}
    (hthread : s.threads t =
      { x with phase := .running, levels := ⟨key, h, replies⟩ :: x.levels })
    (hact : (scripted scripts keys).build t key h replies = .giveUp e)
    (hslot : u.arena.slot? h = some .building) :
    ∃ s', Alone (scripted scripts keys) t s s' ∧
      Mirrors t s' { u with arena := (u.arena.forget key).put h (.failed e.message) } ∧
      s'.threads = Function.update s.threads t { x with phase := .returning key (.error e) } := by
  have hforget : (s.arena.forget key).slot? h = some .building := by
    rw [hs.arena]
    exact hslot
  have hfirst : s.step? (scripted scripts keys) t =
      some (({ s with arena := s.arena.forget key }.note (.gaveUp t key)).move t
        { s.threads t with phase := .failing e }) := by
    unfold Shared.step?
    simp only [hthread, hact]
  have hsecond : (({ s with arena := s.arena.forget key }.note (.gaveUp t key)).move t
      { s.threads t with phase := .failing e }).step? (scripted scripts keys) t =
      some (({ s with arena := (s.arena.forget key).put h (.failed e.message) }.note
        (.gaveUp t key)).move t { x with phase := .returning key (.error e) }) := by
    unfold Shared.step? Shared.conclude
    simp only [Shared.move, Shared.note, hthread, Function.update_self, Function.update_idem,
      Arena.settle_eq hforget]
  have hended : (.failed e.message : Slot PlanNode) ≠ .building := nofun
  have hslots : (u.arena.forget key).slots = u.arena.slots := rfl
  refine ⟨_, .head hfirst (.step hsecond), hs.conclude hslots hended hslot ?_ rfl ?_, rfl⟩
  · rw [← hs.arena]
    rfl
  · simp [Shared.move, Shared.note, starts]

/-- A request whose builder runs. -/
theorem agrees_new (hsteady : ∀ key, Steady (request key)) (hp : p.arena.Sound)
    (hfind : p.arena.find? key = none) {h : Handle .location} {a : Arena .location String PlanNode}
    (hpublish : p.arena.publish key = .ok (h, a)) {n : Nat}
    (hn : missing scripts (PlanState.start key h { p with arena := a }) < n)
    (hagrees : ∀ key ∈ scripts.asked, ∀ p : PlanState, p.arena.Sound → missing scripts p < n →
      Agrees scripts keys t (request key) key p) :
    Agrees scripts keys t (Arena.getOrCreate PlanState.arenaPart key (build scripts request key)) key
      p := by
  intro s hs hphase
  obtain ⟨s', replies, halone, hmirrors, hthreads, hact⟩ :=
    alone_builder hsteady hp hfind hpublish hn hagrees hs hphase
  have hbuilder : ∀ h, Steady (build scripts request key h) := .build scripts hsteady key
  have hthread : s'.threads t = { s.threads t with
      phase := .running, levels := ⟨key, h, replies⟩ :: (s.threads t).levels } := by
    rw [hthreads, Function.update_self]
  rcases hrun : (build scripts request key h).runOn { p with arena := a } with ⟨e | v, u⟩ <;>
    simp only [hrun] at hmirrors hact
  · obtain ⟨-, -, hslot, -⟩ := PlanState.Steady.of_publish hbuilder hp hfind hpublish hrun
    rw [Arena.runOn_getOrCreate_failed hfind hpublish hrun hslot]
    obtain ⟨s'', halone', hmirrors', hthreads'⟩ := hmirrors.giveUp hthread hact hslot
    rw [hthreads, Function.update_idem] at hthreads'
    exact ⟨s'', halone.trans halone', hmirrors', hthreads'⟩
  · obtain ⟨-, -, hslot, -⟩ := PlanState.Steady.of_publish hbuilder hp hfind hpublish hrun
    rw [Arena.runOn_getOrCreate_built hfind hpublish hrun hslot]
    obtain ⟨s'', halone', hmirrors', hthreads'⟩ := hmirrors.finish hthread hact hslot
    rw [hthreads, Function.update_idem] at hthreads'
    exact ⟨s'', halone.trans halone', hmirrors', hthreads'⟩

/-- **A thread on its own makes requests as a whole.** From any state in which no other thread is at
work on a slot, a thread that takes all the steps of a request gets the answer, and leaves the arena
and starts the builders, of the request made at once. -/
theorem alone_request (scripts : Scripts) (keys : Nat → List String) (t : Nat) :
    ∀ {fuel : Nat} {key : String} {p : PlanState}, p.arena.Sound → need scripts key p < fuel →
      Agrees scripts keys t (requestWithin scripts fuel key) key p
  | fuel + 1, key, p, hp, hneed => by
    cases hfind : p.arena.find? key with
    | some h => exact agrees_known hp hfind
    | none =>
      cases hpublish : p.arena.publish key with
      | error e => exact agrees_full hfind hpublish
      | ok published =>
        refine agrees_new (PlanState.steady_requestWithin scripts fuel) hp hfind hpublish
          (PlanState.missing_lt_of_publish hfind hpublish _ hneed) fun key' hkey' q hq hmissing => ?_
        exact alone_request scripts keys t hq (PlanState.need_of_mem hkey' q ▸ hmissing)

end

end TraceWeave.Threads

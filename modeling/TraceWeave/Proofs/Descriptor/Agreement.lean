import TraceWeave.Proofs.Descriptor.Threads

/-! # Threads agree on handles

As long as no builder fails, the index of a shared arena lists the builders in the order of their
start. A slot under construction belongs to an open builder of the thread that took it, and every
other thread that has found the slot waits for it. So threads get one handle for one key, and what
they get is finished unless they are building it themselves.

`Threads.Shared.Agreed` is the invariant, kept by every step as long as no builder fails
(`Threads.Shared.Unfailing`). From it `Threads.Shared.Answers.unique` and
`Threads.threads_agree_on_handles` follow.
-/

namespace TraceWeave.Threads

variable {k : DescriptorKind} {κ α : Type}

namespace Shared

/-- A thread is at work on a slot. -/
def Owns (s : Shared k κ α) (t : Nat) (h : Handle k) : Prop :=
  s.arena.slot? h = some .building ∧ s.owner? h = some t

/-- What requests for a key can answer, now and from now on. -/
def Answers (s : Shared k κ α) (key : κ) (reply : Reply k) : Prop :=
  (∃ h, reply = .ok h ∧ (key, h) ∈ s.arena.index) ∨
    reply = .error Arena.exhausted ∧ key ∉ s.arena.index.map Prod.fst ∧
      Arena.capacity ≤ s.arena.slots.length

/-- A thread may be given a handle: its slot is finished or the thread is at work on it. -/
def Gives (s : Shared k κ α) (t : Nat) (h : Handle k) : Prop :=
  (s.arena.get? h).isSome ∨ s.Owns t h

end Shared

/-- What is known of a thread in each of its phases. -/
def Phase.Fits (s : Shared k κ α) (t : Nat) : Phase k κ → Prop
  | .running | .asking _ => True
  | .waiting key h => (key, h) ∈ s.arena.index
  | .failing _ => False
  | .returning key reply => s.Answers key reply ∧ ∀ h, reply = .ok h → s.Gives t h

/-- What the index says of an open builder. -/
def Level.entry (level : Level k κ) : κ × Handle k := (level.key, level.handle)

/-- The open builders of a thread are those of its slots under construction. -/
structure Thread.Fits (s : Shared k κ α) (t : Nat) (x : Thread k κ) : Prop where
  opened : ∀ h, h ∈ x.levels.map Level.handle ↔ s.Owns t h
  distinct : (x.levels.map Level.handle).Nodup
  indexed : ∀ entry ∈ x.levels.map Level.entry, entry ∈ s.arena.index
  phase : x.phase.Fits s t

/-- The states that threads lead to while no builder fails. -/
structure Shared.Agreed (s : Shared k κ α) : Prop where
  arena : s.arena.Sound
  owned : s.owners.length = s.arena.slots.length
  started : starts s.log = s.arena.index
  returned : ∀ t key reply, .returned t key reply ∈ s.log → s.Answers key reply
  threads : ∀ t, (s.threads t).Fits s t

/-! ## What the steps of a thread leave to others -/

namespace Shared

/-- How the steps of a thread may change what all threads see. -/
structure Yields (t : Nat) (s s' : Shared k κ α) : Prop where
  index : ∀ entry ∈ s.arena.index, entry ∈ s'.arena.index
  ready : ∀ h v, s.arena.slot? h = some (.ready v) → s'.arena.slot? h = some (.ready v)
  others : ∀ u ≠ t, ∀ h, s'.Owns u h ↔ s.Owns u h
  full : Arena.capacity ≤ s.arena.slots.length →
    Arena.capacity ≤ s'.arena.slots.length ∧ s'.arena.index = s.arena.index

variable {t u : Nat} {s s' : Shared k κ α} {key : κ} {h : Handle k} {reply : Reply k}

theorem Yields.of_eq (harena : s'.arena = s.arena) (howners : s'.owners = s.owners) :
    Yields t s s' where
  index := by simp [harena]
  ready := by simp [harena]
  others u _ h := by simp [Owns, owner?, harena, howners]
  full hfull := by simp [harena, hfull]

theorem Answers.mono (hy : Yields t s s') (h : s.Answers key reply) : s'.Answers key reply := by
  obtain ⟨h, rfl, hmem⟩ | ⟨rfl, hnone, hfull⟩ := h
  · exact .inl ⟨h, rfl, hy.index _ hmem⟩
  · obtain ⟨hfull', hindex⟩ := hy.full hfull
    exact .inr ⟨rfl, hindex ▸ hnone, hfull'⟩

theorem Gives.mono (hy : Yields t s s') (hne : u ≠ t) (hgives : s.Gives u h) : s'.Gives u h := by
  rcases hgives with hget | hown
  · obtain ⟨v, hv⟩ := Option.isSome_iff_exists.mp hget
    refine .inl (Option.isSome_iff_exists.mpr ⟨v, ?_⟩)
    exact Arena.get?_eq_some_iff.mpr (hy.ready _ _ (Arena.get?_eq_some_iff.mp hv))
  · exact .inr ((hy.others u hne _).mpr hown)

end Shared

open Shared

variable {t u : Nat} {s s' : Shared k κ α}

theorem Phase.Fits.mono (hy : Yields t s s') (hne : u ≠ t) {phase : Phase k κ}
    (h : phase.Fits s u) : phase.Fits s' u := by
  cases phase with
  | running | asking => trivial
  | waiting key x => exact hy.index _ h
  | failing => exact h
  | returning key reply => exact ⟨h.1.mono hy, fun x hx => (h.2 x hx).mono hy hne⟩

theorem Thread.Fits.mono (hy : Yields t s s') (hne : u ≠ t) {x : Thread k κ} (h : x.Fits s u) :
    x.Fits s' u where
  opened x := (h.opened x).trans (hy.others u hne x).symm
  distinct := h.distinct
  indexed entry hentry := hy.index _ (h.indexed entry hentry)
  phase := h.phase.mono hy hne

/-- A thread that takes a step leaves what the others know in place. -/
theorem Shared.Agreed.advance (hs : s.Agreed) {x : Thread k κ}
    (hthreads : s'.threads = Function.update s.threads t x) (hy : Yields t s s')
    (harena : s'.arena.Sound) (howned : s'.owners.length = s'.arena.slots.length)
    (hstarted : starts s'.log = s'.arena.index)
    (hlog : ∀ u key reply, .returned u key reply ∈ s'.log →
      .returned u key reply ∈ s.log ∨ s'.Answers key reply)
    (hx : x.Fits s' t) : s'.Agreed where
  arena := harena
  owned := howned
  started := hstarted
  returned u key reply hmem := by
    rcases hlog u key reply hmem with hmem | hnew
    · exact (hs.returned u key reply hmem).mono hy
    · exact hnew
  threads u := by
    rw [hthreads]
    by_cases heq : u = t
    · subst heq
      rwa [Function.update_self]
    · rw [Function.update_of_ne heq]
      exact (hs.threads u).mono hy heq

/-- A step inside one thread: only its phase changes. -/
theorem Shared.Agreed.rephase (hs : s.Agreed) {phase : Phase k κ} (hphase : phase.Fits s t) :
    (s.move t { s.threads t with phase }).Agreed := by
  have hx := hs.threads t
  exact hs.advance rfl (.of_eq rfl rfl) hs.arena hs.owned hs.started (fun _ _ _ hmem => .inl hmem)
    ⟨hx.opened, hx.distinct, hx.indexed, hphase⟩

/-! ## Starting a builder -/

section

variable [BEq κ] [LawfulBEq κ] {key : κ} {h : Handle k} {a : Arena k κ α}

omit [BEq κ] [LawfulBEq κ] in
/-- The new slot belongs to the thread that took it; every other slot stays with its thread. -/
theorem Shared.Agreed.owns_publish (hs : s.Agreed) (hp : s.arena.publish key = .ok (h, a))
    (harena : s'.arena = a) (howners : s'.owners = s.owners ++ [t]) (u : Nat) (x : Handle k) :
    s'.Owns u x ↔ x = h ∧ u = t ∨ s.Owns u x := by
  obtain ⟨hindex, -, -⟩ := Arena.of_publish hp
  have hlen : h.index.toNat = s.owners.length := hindex.trans hs.owned.symm
  unfold Owns owner?
  rw [harena, howners, Arena.slot?_publish hp]
  by_cases heq : x = h
  · subst heq
    have hnone : s.owners[x.index.toNat]? = none := List.getElem?_eq_none (Nat.le_of_eq hlen.symm)
    rw [if_pos rfl, hlen, List.getElem?_concat_length, ← hlen, hnone]
    simp [eq_comm]
  · have hne : x.index.toNat ≠ s.owners.length := fun hval =>
      heq (Handle.eq_of_toNat (hval.trans hlen.symm))
    rw [if_neg heq, List.getElem?_append]
    simp only [heq, false_and, false_or]
    split
    · exact Iff.rfl
    · rename_i hge
      have hout : s.arena.slot? x = none :=
        List.getElem?_eq_none (by rw [← hs.owned]; exact Nat.le_of_not_lt hge)
      simp [hout]

theorem Shared.Agreed.start (hs : s.Agreed) (hnone : s.arena.find? key = none)
    (hp : s.arena.publish key = .ok (h, a)) :
    (({ s with arena := a, owners := s.owners ++ [t] }.note (.started t key h)).move t
      { s.threads t with
        phase := .running, levels := ⟨key, h, []⟩ :: (s.threads t).levels }).Agreed := by
  have hx := hs.threads t
  have howns : ∀ u x, Shared.Owns (({ s with
      arena := a, owners := s.owners ++ [t] }.note (.started t key h)).move t
        { s.threads t with phase := .running, levels := ⟨key, h, []⟩ :: (s.threads t).levels }) u x ↔
        x = h ∧ u = t ∨ s.Owns u x := hs.owns_publish hp rfl rfl
  have hslot := Arena.slot?_publish hp
  have hsound := hs.arena.publish hnone hp
  obtain ⟨hindex, hlt, rfl⟩ := Arena.of_publish hp
  -- The slot that is published is the next one, which no handle in use points to.
  have hfresh : s.arena.slot? h = none := by
    rw [Arena.slot?, hindex]
    exact List.getElem?_eq_none (Nat.le_refl _)
  refine hs.advance (t := t) rfl ⟨fun entry => List.mem_append_left _, fun x v hready => ?_,
    fun u hne x => (howns u x).trans ?_, fun hfull => absurd hlt (Nat.not_lt.mpr hfull)⟩
    hsound ?_ ?_ (fun u key' reply hmem => ?_) ⟨fun x => ?_, ?_, fun entry hentry => ?_, trivial⟩
  · refine (hslot x).trans ((if_neg fun heq => ?_).trans hready)
    rw [heq, hfresh] at hready
    cases hready
  · exact or_iff_right fun hnew => hne hnew.2
  · simp [Shared.move, Shared.note, hs.owned]
  · simp [Shared.move, Shared.note, starts, ← hs.started]
  · rcases List.mem_append.mp hmem with hmem | hmem
    · exact .inl hmem
    · cases List.mem_singleton.mp hmem
  · rw [howns, List.map_cons, List.mem_cons, hx.opened]
    simp
  · refine List.nodup_cons.mpr ⟨fun hmem => ?_, hx.distinct⟩
    cases hfresh.symm.trans ((hx.opened h).mp hmem).1
  · rcases List.mem_cons.mp hentry with rfl | hentry
    · exact List.mem_append_right _ List.mem_cons_self
    · exact List.mem_append_left _ (hx.indexed entry hentry)

end

/-! ## Ending a builder -/

section

variable {level : Level k κ} {outer : List (Level k κ)} {value : α}

/-- An open builder can finish its slot. -/
theorem Shared.Agreed.conclude_eq (hs : s.Agreed) (hlevels : (s.threads t).levels = level :: outer)
    (reply : Reply k) :
    s.conclude t { s.threads t with levels := outer } level (.ready value) reply =
      { s with arena := s.arena.put level.handle (.ready value) }.move t
        { s.threads t with levels := outer, phase := .returning level.key reply } := by
  have hown : s.Owns t level.handle := ((hs.threads t).opened _).mp (by simp [hlevels])
  unfold Shared.conclude
  rw [Arena.settle_eq hown.1]

theorem Shared.Agreed.finish (hs : s.Agreed) (hlevels : (s.threads t).levels = level :: outer) :
    (s.conclude t { s.threads t with levels := outer } level (.ready value)
      (.ok level.handle)).Agreed := by
  have hx := hs.threads t
  have hown : s.Owns t level.handle := (hx.opened _).mp (by simp [hlevels])
  have hslot : ∀ x, (s.arena.put level.handle (.ready value)).slot? x = _ := Arena.slot?_put hown.1
  have hindexed := hx.indexed
  rw [hlevels, List.map_cons, List.forall_mem_cons] at hindexed
  have hdistinct := hx.distinct
  rw [hlevels, List.map_cons, List.nodup_cons] at hdistinct
  rw [hs.conclude_eq hlevels]
  -- Exactly the finished slot is no longer under construction.
  have howns : ∀ u x, Shared.Owns ({ s with arena := s.arena.put level.handle (.ready value) }.move t
      { s.threads t with levels := outer, phase := .returning level.key (.ok level.handle) }) u x ↔
        x ≠ level.handle ∧ s.Owns u x := by
    intro u x
    change (s.arena.put level.handle (.ready value)).slot? x = _ ∧ s.owner? x = _ ↔ _
    rw [hslot]
    by_cases heq : x = level.handle
    · simp [heq]
    · simp [heq, Shared.Owns]
  refine hs.advance (t := t) rfl ⟨fun _ => id, fun x v hready => ?_, fun u hne x => (howns u x).trans ?_,
    fun hfull => ⟨by simpa [Shared.move, Arena.put] using hfull, rfl⟩⟩
    (hs.arena.put_ready hown.1 value) (by simpa [Shared.move, Arena.put] using hs.owned) hs.started
    (fun _ _ _ hmem => .inl hmem)
    ⟨fun x => ?_, hdistinct.2, hindexed.2, ?_⟩
  · refine (hslot x).trans ((if_neg fun heq => ?_).trans hready)
    rw [heq, hown.1] at hready
    cases hready
  · refine and_iff_right_of_imp fun howned heq => hne ?_
    rw [heq] at howned
    exact Option.some.inj (howned.2.symm.trans hown.2)
  · rw [howns, ← hx.opened, hlevels, List.map_cons, List.mem_cons]
    constructor
    · exact fun hmem => ⟨fun heq => hdistinct.1 (heq ▸ hmem), .inr hmem⟩
    · rintro ⟨hne, heq | hmem⟩
      · exact absurd heq hne
      · exact hmem
  · refine ⟨.inl ⟨_, rfl, hindexed.1⟩, fun x hx => .inl ?_⟩
    cases hx
    have hget : (s.arena.put level.handle (.ready value)).get? level.handle = some value :=
      Arena.get?_eq_some_iff.mpr ((hslot _).trans (if_pos rfl))
    change ((s.arena.put level.handle (.ready value)).get? level.handle).isSome
    rw [hget, Option.isSome_some]

end

/-! ## Every step and every run -/

section

variable [BEq κ] [LawfulBEq κ] {code : Code k κ α}

omit [BEq κ] [LawfulBEq κ] in
/-- A thread that need not wait for a slot may be given its handle. -/
theorem Shared.Agreed.gives_of_not_blocks (hs : s.Agreed) {key : κ} {h : Handle k}
    (hindex : (key, h) ∈ s.arena.index) (hfree : s.blocks t h = false) : s.Gives t h := by
  obtain ⟨slot, hslot, hlive⟩ := (hs.arena.live h).mp (List.mem_map_of_mem hindex)
  cases slot with
  | building =>
    unfold Shared.blocks at hfree
    rw [hslot] at hfree
    exact .inr ⟨hslot, by simpa using hfree⟩
  | ready v => exact .inl (by rw [Arena.get?_eq_some_iff.mpr hslot, Option.isSome_some])
  | failed => exact absurd hlive Bool.false_ne_true

omit [BEq κ] [LawfulBEq κ] in
/-- An answer changes nothing but the code that gets it. -/
theorem Shared.Agreed.deliver (hs : s.Agreed) {key : κ} {reply : Reply k}
    (hphase : (s.threads t).phase = .returning key reply) :
    ((s.note (.returned t key reply)).move t ((s.threads t).receive reply)).Agreed := by
  have hx := hs.threads t
  have hanswer : s.Answers key reply := by
    have hfits := hx.phase
    rw [hphase] at hfits
    exact hfits.1
  refine hs.advance (t := t) rfl (.of_eq rfl rfl) hs.arena hs.owned ?_ (fun u key' reply' hmem => ?_) ?_
  · simp [Shared.move, Shared.note, starts, ← hs.started]
  · rcases List.mem_append.mp hmem with hmem | hmem
    · exact .inl hmem
    · cases List.mem_singleton.mp hmem
      exact .inr hanswer
  · have hhandles : ((s.threads t).receive reply).levels.map Level.handle = _ :=
      (s.threads t).map_receive reply fun _ h => h
    have hentries : ((s.threads t).receive reply).levels.map Level.entry = _ :=
      (s.threads t).map_receive reply fun key h => (key, h)
    refine ⟨fun x => ?_, hhandles ▸ hx.distinct, hentries ▸ hx.indexed, ?_⟩
    · rw [hhandles]
      exact hx.opened x
    · rw [Thread.receive_phase]
      trivial

/-- Whether no builder has failed so far. -/
def Shared.Unfailing (s : Shared k κ α) : Prop := ∀ t key, .gaveUp t key ∉ s.log

omit [LawfulBEq κ] in
/-- The log only grows. -/
theorem Step.log (hstep : Step code t s s') : s.log <+: s'.log := by
  have hconclude : ∀ (x : Thread k κ) (level : Level k κ) slot reply,
      (s.conclude t x level slot reply).log = s.log := by
    intro x level slot reply
    unfold Shared.conclude
    split <;> rfl
  cases hstep with
  | ask | find | full | resume => exact List.prefix_rfl
  | start | giveUp | deliver => exact List.prefix_append _ _
  | finish | fail => exact (hconclude ..).symm ▸ List.prefix_rfl

theorem Step.agreed (hstep : Step code t s s') (hs : s.Agreed) (hfail : s'.Unfailing) : s'.Agreed := by
  cases hstep with
  | ask => exact hs.rephase trivial
  | find _ hfind => exact hs.rephase ((Arena.find?_eq_some_iff hs.arena.keys).mp hfind)
  | full _ hnone hfull =>
    exact hs.rephase ⟨.inr ⟨rfl, Arena.find?_eq_none_iff.mp hnone, hfull⟩, nofun⟩
  | start _ hnone hp => exact hs.start hnone hp
  | @resume key h hphase hfree =>
    have hindex : (key, h) ∈ s.arena.index := by
      have hfits := (hs.threads t).phase
      rwa [hphase] at hfits
    rw [hs.arena.settled_eq ((Arena.find?_eq_some_iff hs.arena.keys).mpr hindex)]
    refine hs.rephase ⟨.inl ⟨h, rfl, hindex⟩, fun x hx => ?_⟩
    cases hx
    exact hs.gives_of_not_blocks hindex hfree
  | finish _ hlevels => exact hs.finish hlevels
  -- A thread gives up only after a builder has failed, and none does.
  | giveUp => exact absurd (List.mem_append_right _ List.mem_cons_self) (hfail _ _)
  | fail hphase =>
    -- No thread that agrees with the arena is about to hand on a failure.
    have hfits := (hs.threads t).phase
    rw [hphase] at hfits
    exact hfits.elim
  | deliver hphase => exact hs.deliver hphase

omit [BEq κ] [LawfulBEq κ] in
theorem Shared.agreed_empty : ({} : Shared k κ α).Agreed where
  arena := Arena.sound_empty
  owned := rfl
  started := rfl
  returned _ _ _ h := absurd h List.not_mem_nil
  threads _ := ⟨fun h => by simp [Shared.Owns, Arena.slot?], .nil, by simp, trivial⟩

theorem Shared.run_agreed {schedule : List Nat} {s : Shared k κ α}
    (hrun : Shared.run code schedule {} = some s) (hfail : s.Unfailing) : s.Agreed := by
  refine run_induction (p := fun s => s.Unfailing → s.Agreed) (fun t s s' hstep hs hfail => ?_) hrun
    (fun _ => agreed_empty) hfail
  exact hstep.agreed (hs fun t key hmem => hfail t key (hstep.log.subset hmem)) hfail

omit [BEq κ] [LawfulBEq κ] in
/-- All requests for a key answer the same. -/
theorem Shared.Answers.unique (hs : s.arena.Sound) {key : κ} {reply reply' : Reply k}
    (h : s.Answers key reply) (h' : s.Answers key reply') : reply = reply' := by
  obtain ⟨x, rfl, hx⟩ | ⟨rfl, hnone, -⟩ := h <;> obtain ⟨y, rfl, hy⟩ | ⟨rfl, hnone', -⟩ := h'
  · exact congrArg _ (congrArg Prod.snd (List.inj_on_of_nodup_map hs.keys hx hy rfl))
  · exact absurd (List.mem_map_of_mem hx) hnone'
  · exact absurd (List.mem_map_of_mem hy) hnone
  · rfl

/-- **Threads agree on handles.** Whatever the schedule, and whatever threads and builders ask for,
as long as no builder has failed: no key has had more than one builder; all requests for a key that
have returned gave the same handle, or found the arena full; and a request is about to return a
handle only if its slot is finished or its own thread is at work on it, in a builder that is open. -/
theorem threads_agree_on_handles (code : Code k κ α) (schedule : List Nat) (s : Shared k κ α)
    (hrun : Shared.run code schedule {} = some s) (hfail : ∀ t key, .gaveUp t key ∉ s.log) :
    ((starts s.log).map Prod.fst).Nodup ∧
    (∀ t t' key reply reply', .returned t key reply ∈ s.log → .returned t' key reply' ∈ s.log →
      reply = reply' ∧ ((∃ h, reply = .ok h ∧ (key, h) ∈ starts s.log) ∨
        reply = .error Arena.exhausted)) ∧
    ∀ t key h, (s.threads t).phase = .returning key (.ok h) →
      (s.arena.get? h).isSome ∨ s.arena.slot? h = some .building ∧ s.owner? h = some t ∧
        ∃ level ∈ (s.threads t).levels, level.key = key ∧ level.handle = h := by
  have hs := Shared.run_agreed hrun hfail
  refine ⟨hs.started ▸ hs.arena.keys, fun t t' key reply reply' hreply hreply' => ?_,
    fun t key h hphase => ?_⟩
  · have hanswer := hs.returned t key reply hreply
    refine ⟨hanswer.unique hs.arena (hs.returned t' key reply' hreply'), ?_⟩
    rw [hs.started]
    exact hanswer.imp_right And.left
  · have hfits := (hs.threads t).phase
    rw [hphase] at hfits
    refine (hfits.2 h rfl).imp_right fun hown => ⟨hown.1, hown.2, ?_⟩
    obtain ⟨level, hlevel, rfl⟩ := List.mem_map.mp (((hs.threads t).opened h).mpr hown)
    obtain ⟨x, heq, hindex⟩ | ⟨heq, -⟩ := hfits.1
    · cases heq
      have hindex' := (hs.threads t).indexed _ (List.mem_map_of_mem hlevel)
      exact ⟨level, hlevel,
        congrArg Prod.fst (List.inj_on_of_nodup_map hs.arena.handles hindex' hindex rfl), rfl⟩
    · exact nomatch heq

end

/-- A builder that asks for another key and for its own. -/
def Sample.nested : Scripts := [("a", { asks := [⟨"b", false⟩, ⟨"a", false⟩] })]

/-- Two threads ask for one key. -/
def Sample.racing : Code .location String PlanNode :=
  scripted nested fun t => if t < 2 then ["a"] else []

/-- The second thread comes upon the slot before the first one goes on to the other key, and waits
until the builder has ended. -/
def Sample.interleaved : List Nat := [0, 0, 0, 1, 1, 0, 0, 0, 0, 0, 0, 0, 0, 0, 1]

theorem Sample.racing_threads_agree :
    ∃ s, Shared.run Sample.racing Sample.interleaved {} = some s ∧
      s.log = [.started 0 "a" ⟨0⟩, .started 0 "b" ⟨1⟩, .returned 0 "b" (.ok ⟨1⟩),
        .returned 0 "a" (.ok ⟨0⟩), .returned 0 "a" (.ok ⟨0⟩)] ∧
      ((starts s.log).map Prod.fst).Nodup ∧
      (s.threads 1).phase = .returning "a" (.ok ⟨0⟩) ∧
      ((s.arena.get? ⟨0⟩).isSome ∨ s.arena.slot? ⟨0⟩ = some .building ∧ s.owner? ⟨0⟩ = some 1 ∧
        ∃ level ∈ (s.threads 1).levels, level.key = "a" ∧ level.handle = ⟨0⟩) := by
  have hseen : (Shared.run Sample.racing Sample.interleaved {}).map
      (fun s => (s.log, (s.threads 1).phase)) =
      some ([.started 0 "a" ⟨0⟩, .started 0 "b" ⟨1⟩, .returned 0 "b" (.ok ⟨1⟩),
        .returned 0 "a" (.ok ⟨0⟩), .returned 0 "a" (.ok ⟨0⟩)], .returning "a" (.ok ⟨0⟩)) := by
    decide +kernel
  obtain ⟨s, hrun, hs⟩ := Option.map_eq_some_iff.mp hseen
  obtain ⟨hlog, hphase⟩ := Prod.mk.inj hs
  obtain ⟨hnodup, -, hgiven⟩ :=
    threads_agree_on_handles Sample.racing Sample.interleaved s hrun (by simp [hlog])
  exact ⟨s, hrun, hlog, hnodup, hphase, hgiven 1 "a" ⟨0⟩ hphase⟩

end TraceWeave.Threads

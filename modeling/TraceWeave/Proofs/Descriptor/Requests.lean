import Mathlib.Logic.Relation
import TraceWeave.Descriptor.Plan
import TraceWeave.Proofs.Descriptor.Slots

/-! # Requests inside each other

Builders of an arena ask for the keys of other builders, for keys whose builders are still open and
for their own. Whatever they ask for and however they end, a request comes to an end, and what it
leaves behind is a sound arena in which nothing but the builders around it is open.

* `PlanState.Steady`, `PlanState.Answered`: what a step and a request leave behind.
* `PlanState.requestWithin_eq`: a bound above what is needed makes no difference.
* `PlanState.Step.keeps`, `PlanState.requests_keep_arena_sound`: every moment on the way is sound.
-/

namespace TraceWeave.PlanState

/-! ## What one request does -/

/-- What a request for a key answers, and the state it leaves, if its builder leaves sound states. -/
inductive Answered (builder : Handle .location → Build PlanState PlanNode) (key : String)
    (s : PlanState) : Except Error (Handle .location) × PlanState → Prop
  | known {h : Handle .location} : s.arena.find? key = some h → Answered builder key s (.ok h, s)
  | full : s.arena.find? key = none → Answered builder key s (.error Arena.exhausted, s)
  | built {h : Handle .location} {a : Arena .location String PlanNode} {v : PlanNode}
      {u : PlanState} :
    s.arena.find? key = none → s.arena.publish key = .ok (h, a) →
    (builder h).runOn { s with arena := a } = (.ok v, u) →
      Answered builder key s (.ok h, { u with arena := u.arena.put h (.ready v) })
  | failed {h : Handle .location} {a : Arena .location String PlanNode} {e : Error}
      {u : PlanState} :
    s.arena.find? key = none → s.arena.publish key = .ok (h, a) →
    (builder h).runOn { s with arena := a } = (.error e, u) →
      Answered builder key s
        (.error e, { u with arena := (u.arena.forget key).put h (.failed e.message) })

/-- A step that leaves a sound arena with the same slots under construction. -/
def Steady {α : Type} (step : Build PlanState α) : Prop :=
  ∀ s, s.arena.Sound → (step.runOn s).2.arena.Sound ∧ s.arena.Extends (step.runOn s).2.arena

section

variable {builder : Handle .location → Build PlanState PlanNode} {key : String} {s u : PlanState}
  {h : Handle .location} {a : Arena .location String PlanNode}

/-- The slot of a builder is still under construction when the builder ends. -/
theorem Steady.of_publish (hbuilder : ∀ h, Steady (builder h)) (hs : s.arena.Sound)
    (hnone : s.arena.find? key = none) (hp : s.arena.publish key = .ok (h, a))
    {r : Except Error PlanNode} (hrun : (builder h).runOn { s with arena := a } = (r, u)) :
    u.arena.Sound ∧ a.Extends u.arena ∧ u.arena.slot? h = some .building ∧
      (key, h) ∈ u.arena.index := by
  obtain ⟨hsound, hext⟩ := hbuilder h { s with arena := a } (hs.publish hnone hp)
  rw [hrun] at hsound hext
  have hslot : a.slot? h = some .building := by rw [Arena.slot?_publish hp, if_pos rfl]
  refine ⟨hsound, hext, hext.slots _ _ hslot, hext.index _ ?_⟩
  obtain ⟨-, -, rfl⟩ := Arena.of_publish hp
  simp

theorem answered_getOrCreate (hbuilder : ∀ h, Steady (builder h)) (hs : s.arena.Sound) :
    Answered builder key s ((Arena.getOrCreate arenaPart key builder).runOn s) := by
  cases hfind : (arenaPart.get s).find? key with
  | some h =>
    have hsettled : (arenaPart.get s).settled h = .ok h := hs.settled_eq hfind
    rw [Arena.runOn_getOrCreate_found hfind, hsettled]
    exact .known hfind
  | none =>
    cases hp : (arenaPart.get s).publish key with
    | error e =>
      have he : e = Arena.exhausted := by
        unfold Arena.publish at hp
        split at hp <;> cases hp
        rfl
      rw [Arena.runOn_getOrCreate_full hfind hp, he]
      exact .full hfind
    | ok published =>
      obtain ⟨h, a⟩ := published
      rcases hrun : (builder h).runOn (arenaPart.set a s) with ⟨e | v, u⟩
      · obtain ⟨-, -, hslot, -⟩ := Steady.of_publish hbuilder hs hfind hp hrun
        rw [Arena.runOn_getOrCreate_failed hfind hp hrun hslot]
        exact .failed hfind hp hrun
      · obtain ⟨-, -, hslot, -⟩ := Steady.of_publish hbuilder hs hfind hp hrun
        rw [Arena.runOn_getOrCreate_built hfind hp hrun hslot]
        exact .built hfind hp hrun

/-- A request is steady if its builder is. -/
theorem steady_getOrCreate (hbuilder : ∀ h, Steady (builder h)) :
    Steady (Arena.getOrCreate arenaPart key builder) := by
  intro s hs
  have hanswer : Answered builder key s _ := answered_getOrCreate hbuilder hs
  generalize (Arena.getOrCreate arenaPart key builder).runOn s = outcome at hanswer
  cases hanswer with
  | known | full => exact ⟨hs, .refl _⟩
  | @built h a v u hnone hp hrun =>
    obtain ⟨hsound, hext, hslot, -⟩ := Steady.of_publish hbuilder hs hnone hp hrun
    refine ⟨hsound.put_ready hslot v, .of_put hp hext (by simp) rfl fun entry hentry => ?_⟩
    obtain ⟨-, -, rfl⟩ := Arena.of_publish hp
    exact hext.index _ (List.mem_append_left _ hentry)
  | @failed h a e u hnone hp hrun =>
    obtain ⟨hsound, hext, hslot, hkey⟩ := Steady.of_publish hbuilder hs hnone hp hrun
    refine ⟨hsound.put_failed hslot hkey _, .of_put hp hext (by simp) rfl fun entry hentry => ?_⟩
    obtain ⟨-, -, rfl⟩ := Arena.of_publish hp
    refine Arena.mem_forget.mpr ⟨hext.index _ (List.mem_append_left _ hentry), fun heq => ?_⟩
    exact Arena.find?_eq_none_iff.mp hnone (heq ▸ List.mem_map_of_mem hentry)

end

/-! ## Requests inside each other -/

namespace Steady

variable {α β : Type}

theorem pure (a : α) : Steady (Pure.pure a) := fun _ hs => ⟨hs, .refl _⟩

theorem fail (e : Error) : Steady (Build.fail e : Build PlanState α) := fun _ hs => ⟨hs, .refl _⟩

theorem bind {step : Build PlanState α} {next : α → Build PlanState β} (h : Steady step)
    (hnext : ∀ a, Steady (next a)) : Steady (step >>= next) := by
  intro s hs
  obtain ⟨hsound, hext⟩ := h s hs
  rcases hrun : step.runOn s with ⟨e | a, t⟩ <;> rw [hrun] at hsound hext
  · rw [Build.runOn_bind_error hrun]
    exact ⟨hsound, hext⟩
  · rw [Build.runOn_bind_ok hrun]
    exact ⟨(hnext a t hsound).1, hext.trans (hnext a t hsound).2⟩

theorem tolerate {step : Build PlanState α} (h : Steady step) (optional : Bool) :
    Steady (Build.tolerate optional step) := by
  intro s hs
  have hstate : ((Build.tolerate optional step).runOn s).2 = (step.runOn s).2 := by
    unfold Build.tolerate
    rcases hrun : step.runOn s with ⟨e | a, t⟩ <;> simp only [Build.runOn] at hrun ⊢ <;> rw [hrun]
  rw [hstate]
  exact h s hs

/-- Noting the start of a builder does not touch the arena. -/
theorem start (key : String) (h : Handle .location) :
    Steady (modify (PlanState.start key h) : Build PlanState Unit) := fun _ hs => ⟨hs, .refl _⟩

variable {request : String → Build PlanState (Handle .location)}

theorem askAll (hrequest : ∀ key, Steady (request key)) : ∀ asks, Steady (askAll request asks)
  | [] => .pure _
  | ask :: asks =>
    ((hrequest ask.key).tolerate ask.optional).bind fun _ =>
      (askAll hrequest asks).bind fun _ => .pure _

theorem build (scripts : Scripts) (hrequest : ∀ key, Steady (request key)) (key : String)
    (h : Handle .location) : Steady (PlanState.build scripts request key h) := by
  refine (start key h).bind fun _ => (askAll hrequest _).bind fun _ => ?_
  split
  · exact .fail _
  · exact .pure _

end Steady

variable (scripts : Scripts)

theorem steady_requestWithin : ∀ fuel key, Steady (requestWithin scripts fuel key)
  | 0, _ => .fail _
  | fuel + 1, _ => steady_getOrCreate (.build scripts (steady_requestWithin fuel) _)

theorem answered_requestWithin (fuel : Nat) (key : String) {s : PlanState} (hs : s.arena.Sound) :
    Answered (build scripts (requestWithin scripts fuel) key) key s
      ((requestWithin scripts (fuel + 1) key).runOn s) :=
  answered_getOrCreate (.build scripts (steady_requestWithin scripts fuel) key) hs

/-! ## Requests come to an end

A builder that is open has its key in the index, so inside it one key less is left to open another
builder. -/

/-- How many of the keys that builders ask for are not there. -/
def missing (s : PlanState) : Nat :=
  scripts.asked.countP fun key => (s.arena.find? key).isNone

theorem missing_le_length (s : PlanState) : missing scripts s ≤ scripts.asked.length :=
  List.countP_le_length

variable {scripts}

theorem missing_le_of_extends {s t : PlanState} (hs : s.arena.Sound) (ht : t.arena.Sound)
    (h : s.arena.Extends t.arena) : missing scripts t ≤ missing scripts s := by
  refine List.countP_mono_left fun key _ hnone => ?_
  cases hfind : s.arena.find? key with
  | none => rfl
  | some x =>
    rw [h.find? hs ht hfind] at hnone
    exact absurd hnone Bool.false_ne_true

theorem countP_ne_add_le {p : String → Bool} {key : String} (hp : p key) (keys : List String) :
    keys.countP (fun x => p x && x != key) + (if key ∈ keys then 1 else 0) ≤ keys.countP p := by
  induction keys with
  | nil => simp
  | cons x xs ih =>
    by_cases heq : x = key
    · subst heq
      have hle : xs.countP (fun y => p y && y != x) ≤ xs.countP p :=
        List.countP_mono_left fun y _ hy => (Bool.and_eq_true_iff.mp hy).1
      simpa [List.countP_cons, hp] using hle
    · have hne : key ≠ x := fun h => heq h.symm
      simp only [List.countP_cons, bne_iff_ne.mpr heq, Bool.and_true, List.mem_cons, hne, false_or]
      omega

/-- A key that opens a builder is not missing inside of it. -/
theorem missing_of_publish {s : PlanState} {key : String} {h : Handle .location}
    {a : Arena .location String PlanNode} (hnone : s.arena.find? key = none)
    (hp : s.arena.publish key = .ok (h, a)) (log : List BuildStart) :
    missing scripts { arena := a, log } + (if key ∈ scripts.asked then 1 else 0) ≤
      missing scripts s := by
  have hfind : ∀ key', (a.find? key').isNone = ((s.arena.find? key').isNone && key' != key) := by
    intro key'
    obtain ⟨-, -, rfl⟩ := Arena.of_publish hp
    rw [Arena.find?, List.lookup_append, Option.isNone_or, ← Arena.find?]
    by_cases heq : key' = key
    · subst heq
      simp
    · simp [List.lookup_cons, beq_eq_false_iff_ne.mpr heq, heq]
  simp only [missing, hfind]
  exact countP_ne_add_le (by rw [hnone]; rfl) _

/-- Builders ask for keys that are asked for. -/
theorem mem_asked_of_get {key : String} {ask : Ask} (h : ask ∈ (scripts.get key).asks) :
    ask.key ∈ scripts.asked := by
  unfold Scripts.get at h
  cases hlookup : scripts.lookup key with
  | none =>
    rw [hlookup] at h
    exact absurd h List.not_mem_nil
  | some script =>
    rw [hlookup] at h
    obtain ⟨before, after, hsplit, -⟩ := List.lookup_eq_some_iff.mp hlookup
    have hmem : (key, script) ∈ scripts := by
      rw [hsplit]
      simp
    exact List.mem_flatMap.mpr ⟨_, hmem, List.mem_map_of_mem h⟩

variable (scripts) in
/-- How many builders a request may need inside each other. -/
def need (key : String) (s : PlanState) : Nat :=
  missing scripts s + if key ∈ scripts.asked then 0 else 1

theorem need_of_mem {key : String} (h : key ∈ scripts.asked) (s : PlanState) :
    need scripts key s = missing scripts s := by
  rw [need, if_pos h, Nat.add_zero]

/-- Inside a builder less is needed. -/
theorem missing_lt_of_publish {s : PlanState} {key : String} {h : Handle .location}
    {a : Arena .location String PlanNode} (hnone : s.arena.find? key = none)
    (hp : s.arena.publish key = .ok (h, a)) (log : List BuildStart) {fuel : Nat}
    (hfuel : need scripts key s < fuel + 1) : missing scripts { arena := a, log } < fuel := by
  have hle : missing scripts _ + _ ≤ missing scripts s := missing_of_publish hnone hp log
  unfold need at hfuel
  split at hle <;> rename_i hmem
  · rw [if_pos hmem] at hfuel
    omega
  · rw [if_neg hmem] at hfuel
    omega

/-- Requests that agree while few enough keys are missing lead builders to the same end. -/
theorem askAll_congr {request request' : String → Build PlanState (Handle .location)} {n : Nat}
    (hsteady : ∀ key, Steady (request key))
    (hagree : ∀ key ∈ scripts.asked, ∀ s : PlanState, s.arena.Sound → missing scripts s < n →
      (request' key).runOn s = (request key).runOn s) :
    ∀ asks : List Ask, (∀ ask ∈ asks, ask.key ∈ scripts.asked) → ∀ s : PlanState, s.arena.Sound →
      missing scripts s < n → (askAll request' asks).runOn s = (askAll request asks).runOn s
  | [], _, s, _, _ => rfl
  | ask :: asks, hasked, s, hs, hn => by
    have hfirst : (Build.tolerate ask.optional (request' ask.key)).runOn s =
        (Build.tolerate ask.optional (request ask.key)).runOn s := by
      have hrun := hagree ask.key (hasked ask List.mem_cons_self) s hs hn
      simp only [Build.runOn, Build.tolerate] at hrun ⊢
      rw [hrun]
    refine Build.runOn_bind_congr hfirst fun found t ht => ?_
    obtain ⟨hsound, hext⟩ := (hsteady ask.key).tolerate ask.optional s hs
    rw [ht] at hsound hext
    refine Build.runOn_bind_congr ?_ fun _ _ _ => rfl
    exact askAll_congr hsteady hagree asks (fun x hx => hasked x (List.mem_cons_of_mem _ hx)) t
      hsound (Nat.lt_of_le_of_lt (missing_le_of_extends hs hsound hext) hn)

/-- A request depends on its builder only where the builder runs. -/
theorem getOrCreate_congr {builder builder' : Handle .location → Build PlanState PlanNode}
    {key : String} {s : PlanState}
    (h : s.arena.find? key = none → ∀ x a, s.arena.publish key = .ok (x, a) →
      (builder' x).runOn { s with arena := a } = (builder x).runOn { s with arena := a }) :
    (Arena.getOrCreate arenaPart key builder').runOn s =
      (Arena.getOrCreate arenaPart key builder).runOn s := by
  unfold Build.runOn Arena.getOrCreate
  split
  · rfl
  · rename_i hnone
    split
    · rfl
    · rename_i x a hp
      rw [show (builder' x).runOn (arenaPart.set a s) = _ from h hnone x a hp]
      rfl

/-- **Requests come to an end.** A bound on the builders inside each other that is above what is
needed makes no difference. -/
theorem requestWithin_eq : ∀ {fuel : Nat} {key : String} {s : PlanState}, s.arena.Sound →
    need scripts key s < fuel → ∀ more, fuel ≤ more →
      (requestWithin scripts more key).runOn s = (requestWithin scripts fuel key).runOn s
  | fuel + 1, key, s, hs, hneed, more + 1, hmore => by
    refine getOrCreate_congr fun hnone x a hp => ?_
    have hless := fun log => missing_lt_of_publish hnone hp log hneed
    refine Build.runOn_bind_congr rfl fun _ t ht => Build.runOn_bind_congr ?_ fun _ _ _ => rfl
    obtain rfl : t = start key x { s with arena := a } := (congrArg Prod.snd ht).symm
    refine askAll_congr (steady_requestWithin scripts fuel) (fun key hkey u hu hmissing => ?_) _
      (fun ask hask => mem_asked_of_get hask) _ (hs.publish hnone hp) (hless _)
    exact requestWithin_eq hu (need_of_mem hkey u ▸ hmissing) more (Nat.le_of_succ_le_succ hmore)

theorem need_lt (key : String) (s : PlanState) : need scripts key s < scripts.asked.length + 2 := by
  have hle := missing_le_length scripts s
  unfold need
  split <;> omega

/-! ## Why requests fail -/

variable (scripts) in
/-- The reasons for which requests fail: a builder says so, or the arena is full. -/
def Explains (e : Error) : Prop :=
  (∃ key message, (scripts.get key).failure = some message ∧ e = .generic message) ∨
    e = Arena.exhausted

/-- Requests fail together with one of those that are not ignored. -/
theorem askAll_error {request : String → Build PlanState (Handle .location)}
    (hsteady : ∀ key, Steady (request key)) :
    ∀ (asks : List Ask) (s t : PlanState) (e : Error), s.arena.Sound →
      (askAll request asks).runOn s = (.error e, t) →
      ∃ ask ∈ asks, ∃ u v : PlanState, u.arena.Sound ∧ missing scripts u ≤ missing scripts s ∧
        (request ask.key).runOn u = (.error e, v)
  | [], s, t, e, _, h => nomatch congrArg Prod.fst h
  | ask :: asks, s, t, e, hs, h => by
    obtain hfirst | ⟨found, u, hfirst, hothers⟩ := Build.of_bind_error h
    · exact ⟨ask, List.mem_cons_self, s, t, hs, Nat.le_refl _, Build.of_tolerate_error hfirst⟩
    · obtain ⟨hsound, hext⟩ := (hsteady ask.key).tolerate ask.optional s hs
      rw [hfirst] at hsound hext
      obtain hothers | ⟨_, _, _, hpure⟩ := Build.of_bind_error hothers
      · obtain ⟨ask', hmem, u', v, hu', hmissing, hrun⟩ :=
          askAll_error hsteady asks u t e hsound hothers
        exact ⟨ask', List.mem_cons_of_mem _ hmem, u', v, hu',
          Nat.le_trans hmissing (missing_le_of_extends hs hsound hext), hrun⟩
      · exact nomatch congrArg Prod.fst hpure

theorem explains_of_error : ∀ {fuel : Nat} {key : String} {s t : PlanState} {e : Error},
    s.arena.Sound → need scripts key s < fuel →
      (requestWithin scripts fuel key).runOn s = (.error e, t) → Explains scripts e
  | fuel + 1, key, s, t, e, hs, hneed, h => by
    have hanswer := answered_requestWithin scripts fuel key hs
    rw [h] at hanswer
    cases hanswer with
    | full => exact .inr rfl
    | @failed x a _ u hnone hp hrun =>
      obtain hstart | ⟨_, v, hstart, hrest⟩ := Build.of_bind_error hrun
      · exact nomatch congrArg Prod.fst hstart
      obtain rfl : v = start key x { s with arena := a } := (congrArg Prod.snd hstart).symm
      obtain hasks | ⟨found, v, -, hend⟩ := Build.of_bind_error hrest
      · -- One of the requests inside has failed, and less is missing there.
        obtain ⟨ask, hmem, u', v, hu', hmissing, hrun'⟩ := askAll_error
          (steady_requestWithin scripts fuel) _ (start key x { s with arena := a }) u e
          (hs.publish hnone hp) hasks
        have hless := missing_lt_of_publish hnone hp
          (start key x { s with arena := a }).log hneed
        refine explains_of_error hu' ?_ hrun'
        rw [need_of_mem (mem_asked_of_get hmem)]
        exact Nat.lt_of_le_of_lt hmissing hless
      · split at hend
        · rename_i message hmessage
          cases hend
          exact .inl ⟨key, message, hmessage, rfl⟩
        · exact nomatch congrArg Prod.fst hend

/-- The errors of an arena that is not sound have no such reason. -/
theorem Explains.ne_unsound {e : Error} (h : Explains scripts e) :
    e ≠ Arena.settledTwice ∧ ∀ x : Handle .location, e ≠ Arena.unknownSlot x ∧
      ∀ message, e ≠ Arena.failedToBuild x message := by
  obtain ⟨key, message, -, rfl⟩ | rfl := h
  · exact ⟨nofun, fun _ => ⟨nofun, fun _ => nofun⟩⟩
  · refine ⟨by decide, fun x => ⟨fun heq => ?_, fun message heq => ?_⟩⟩
    · unfold Arena.exhausted Arena.unknownSlot at heq
      injection heq with htext
      have hchars := congrArg String.toList htext
      simp [toString] at hchars
    · unfold Arena.exhausted Arena.failedToBuild at heq
      injection heq with htext
      have hcolon : ':' ∈ "descriptor arena exhausted".toList := by
        rw [htext]
        simp [toString]
      exact absurd hcolon (by decide)

/-! ## Any number of requests -/

/-- A state on the way, with the keys and handles of the builders that are open there, the innermost
first. -/
abbrev Moment := List (String × Handle .location) × PlanState

variable (scripts) in
/-- What can happen next: a request is made, by the innermost builder if one is open, a builder
starts, or the innermost builder ends. -/
inductive Step : Moment → Moment → Prop
  | request (opened : List (String × Handle .location)) (s : PlanState) (key : String) :
    Step (opened, s) (opened, ((request scripts key).runOn s).2)
  | start {opened : List (String × Handle .location)} {s : PlanState} {key : String}
      {h : Handle .location} {a : Arena .location String PlanNode} :
    s.arena.find? key = none → s.arena.publish key = .ok (h, a) →
      Step (opened, s) ((key, h) :: opened, start key h { s with arena := a })
  | finish (key : String) (h : Handle .location) (opened : List (String × Handle .location))
      (s : PlanState) (v : PlanNode) :
    Step ((key, h) :: opened, s) (opened, { s with arena := s.arena.put h (.ready v) })
  | giveUp (key : String) (h : Handle .location) (opened : List (String × Handle .location))
      (s : PlanState) (message : String) :
    Step ((key, h) :: opened, s)
      (opened, { s with arena := (s.arena.forget key).put h (.failed message) })

variable (scripts) in
/-- Any number of steps. -/
abbrev Steps : Moment → Moment → Prop := Relation.ReflTransGen (Step scripts)

theorem steady_request (key : String) : Steady (request scripts key) :=
  steady_requestWithin scripts _ key

theorem answered_request (key : String) {s : PlanState} (hs : s.arena.Sound) :
    Answered (build scripts (requestWithin scripts (scripts.asked.length + 1)) key) key s
      ((request scripts key).runOn s) :=
  answered_requestWithin scripts _ key hs

/-- A key that is there is found without a builder. -/
theorem request_eq_of_find? {key : String} {s : PlanState} (hs : s.arena.Sound)
    {h : Handle .location} (hfind : s.arena.find? key = some h) :
    (request scripts key).runOn s = (.ok h, s) := by
  have hanswer : Answered _ key s ((request scripts key).runOn s) := answered_request key hs
  generalize (request scripts key).runOn s = outcome at hanswer
  cases hanswer with
  | known hknown => rw [Option.some.inj (hknown.symm.trans hfind)]
  | full hnone | built hnone | failed hnone => exact nomatch hnone.symm.trans hfind

variable (scripts) in
/-- A request leaves its key in the index if it succeeds, and only then. -/
theorem find?_of_request (key : String) {s : PlanState} (hs : s.arena.Sound) :
    match (request scripts key).runOn s with
    | (.ok h, t) => t.arena.find? key = some h
    | (.error _, t) => t.arena.find? key = none := by
  have hanswer : Answered _ key s ((request scripts key).runOn s) := answered_request key hs
  have hbuilder : ∀ h, Steady (build scripts _ key h) :=
    .build scripts (steady_requestWithin scripts (scripts.asked.length + 1)) key
  generalize (request scripts key).runOn s = outcome at hanswer
  cases hanswer with
  | known hfind => exact hfind
  | full hnone => exact hnone
  | built hnone hp hrun =>
    obtain ⟨hsound, -, hslot, hkey⟩ := Steady.of_publish hbuilder hs hnone hp hrun
    exact (Arena.find?_eq_some_iff (hsound.put_ready hslot _).keys).mpr hkey
  | failed hnone hp hrun =>
    refine Arena.find?_eq_none_iff.mpr fun hmem => ?_
    obtain ⟨entry, hentry, heq⟩ := List.mem_map.mp hmem
    exact (Arena.mem_forget.mp hentry).2 heq

/-- The arena is sound, and the slots under construction are those of the builders that are open. -/
structure Moment.Sound (x : Moment) : Prop where
  arena : x.2.arena.Sound
  building : ∀ h, x.2.arena.slot? h = some .building ↔ h ∈ x.1.map Prod.snd
  indexed : ∀ entry ∈ x.1, entry ∈ x.2.arena.index
  handles : (x.1.map Prod.snd).Nodup

theorem Moment.sound_empty : Moment.Sound ([], {}) where
  arena := Arena.sound_empty
  building h := by simp [Arena.slot?]
  indexed _ h := absurd h List.not_mem_nil
  handles := .nil

/-- The innermost builder can end: its slot is under construction, and no other builder has it. -/
theorem Moment.Sound.innermost {key : String} {h : Handle .location}
    {opened : List (String × Handle .location)} {s : PlanState}
    (hs : Moment.Sound ((key, h) :: opened, s)) :
    s.arena.slot? h = some .building ∧ (key, h) ∈ s.arena.index ∧ h ∉ opened.map Prod.snd :=
  ⟨(hs.building h).mpr List.mem_cons_self, hs.indexed _ List.mem_cons_self,
    (List.nodup_cons.mp hs.handles).1⟩

/-- Once the innermost builder has ended, the others are open. -/
theorem Moment.Sound.close {key : String} {h : Handle .location}
    {opened : List (String × Handle .location)} {s : PlanState}
    (hs : Moment.Sound ((key, h) :: opened, s)) {a : Arena .location String PlanNode}
    {slot : Slot PlanNode} (hslot : slot ≠ .building) (ha : (a.put h slot).Sound)
    (hslots : a.slots = s.arena.slots) (hindex : ∀ entry ∈ opened, entry ∈ a.index) :
    Moment.Sound (opened, { s with arena := a.put h slot }) where
  arena := ha
  building h' := by
    obtain ⟨hbuilding, -, hnew⟩ := hs.innermost
    have hsame : ∀ x, a.slot? x = s.arena.slot? x := fun x => by rw [Arena.slot?, hslots, Arena.slot?]
    have hopened : s.arena.slot? h' = some .building ↔ h' = h ∨ h' ∈ opened.map Prod.snd :=
      (hs.building h').trans List.mem_cons
    change (a.put h slot).slot? h' = _ ↔ h' ∈ opened.map Prod.snd
    rw [Arena.slot?_put ((hsame h).trans hbuilding), hsame]
    by_cases heq : h' = h
    · subst heq
      rw [if_pos rfl]
      exact iff_of_false (fun hsome => hslot (Option.some.inj hsome)) hnew
    · rw [if_neg heq, hopened]
      exact or_iff_right heq
  indexed := hindex
  handles := (List.nodup_cons.mp hs.handles).2

theorem Step.sound {x y : Moment} (hstep : Step scripts x y) (hx : x.Sound) : y.Sound := by
  cases hstep with
  | request opened s key =>
    obtain ⟨hsound, hext⟩ := steady_request key s hx.arena
    exact ⟨hsound, fun h => (hext.building_iff h).trans (hx.building h),
      fun entry hentry => hext.index entry (hx.indexed entry hentry), hx.handles⟩
  | @start opened s key h a hnone hp =>
    have hslot := Arena.slot?_publish hp
    have hnew : h ∉ opened.map Prod.snd := by
      intro hmem
      have hbuilding := (hx.building h).mpr hmem
      obtain ⟨hindex, -, -⟩ := Arena.of_publish hp
      rw [Arena.slot?, hindex, List.getElem?_eq_none (Nat.le_refl _)] at hbuilding
      cases hbuilding
    refine ⟨hx.arena.publish hnone hp, fun h' => ?_, fun entry hentry => ?_,
      List.nodup_cons.mpr ⟨hnew, hx.handles⟩⟩
    · change a.slot? h' = _ ↔ _
      rw [hslot, List.map_cons, List.mem_cons, ← hx.building h']
      by_cases heq : h' = h <;> simp [heq]
    · obtain ⟨-, -, rfl⟩ := Arena.of_publish hp
      obtain rfl | hentry := List.mem_cons.mp hentry
      · exact List.mem_append_right _ List.mem_cons_self
      · exact List.mem_append_left _ (hx.indexed entry hentry)
  | finish key h opened s v =>
    exact hx.close (fun hslot => by cases hslot) (hx.arena.put_ready hx.innermost.1 v) rfl
      fun entry hentry => hx.indexed entry (List.mem_cons_of_mem _ hentry)
  | giveUp key h opened s message =>
    obtain ⟨hbuilding, hkey, hnew⟩ := hx.innermost
    refine hx.close (fun hslot => by cases hslot) (hx.arena.put_failed hbuilding hkey message) rfl
      fun entry hentry => ?_
    have hindex := hx.indexed entry (List.mem_cons_of_mem _ hentry)
    refine Arena.mem_forget.mpr ⟨hindex, fun heq => hnew ?_⟩
    have hsame := List.inj_on_of_nodup_map hx.arena.keys hindex hkey heq
    exact List.mem_map.mpr ⟨entry, hentry, congrArg Prod.snd hsame⟩

/-- Finished descriptors stay, and so do the keys that lead to them. -/
theorem Step.keeps {x y : Moment} (hstep : Step scripts x y) (hx : x.Sound) {h : Handle .location}
    {v : PlanNode} (hget : x.2.arena.get? h = some v) :
    y.2.arena.get? h = some v ∧
      ∀ key, (key, h) ∈ x.2.arena.index → (key, h) ∈ y.2.arena.index := by
  rw [Arena.get?_eq_some_iff] at hget ⊢
  cases hstep with
  | request opened s key =>
    obtain ⟨-, hext⟩ := steady_request key s hx.arena
    exact ⟨hext.slots _ _ hget, fun _ => hext.index _⟩
  | @start opened s key h' a hnone hp =>
    have hslot := Arena.slot?_publish hp
    obtain ⟨hindex, -, rfl⟩ := Arena.of_publish hp
    refine ⟨?_, fun _ => List.mem_append_left _⟩
    refine (hslot h).trans (if_neg fun heq => ?_) |>.trans hget
    rw [Arena.slot?, heq, hindex, List.getElem?_eq_none (Nat.le_refl _)] at hget
    cases hget
  | finish key h' opened s v' =>
    obtain ⟨hbuilding, -, -⟩ := hx.innermost
    refine ⟨(Arena.slot?_put hbuilding h).trans ?_, fun _ => id⟩
    exact (if_neg (Arena.ne_of_ready hget hbuilding)).trans hget
  | giveUp key h' opened s message =>
    obtain ⟨hbuilding, hkey, -⟩ := hx.innermost
    have hne : h ≠ h' := Arena.ne_of_ready hget hbuilding
    have hforget : (s.arena.forget key).slot? h' = some .building := hbuilding
    refine ⟨(Arena.slot?_put hforget h).trans ((if_neg hne).trans hget), fun key' hmem => ?_⟩
    refine Arena.mem_forget.mpr ⟨hmem, fun heq => hne ?_⟩
    exact congrArg Prod.snd (List.inj_on_of_nodup_map hx.arena.keys hmem hkey heq)

theorem Steps.sound {x y : Moment} (hsteps : Steps scripts x y) (hx : x.Sound) : y.Sound := by
  induction hsteps with
  | refl => exact hx
  | tail _ hstep ih => exact hstep.sound ih

theorem Steps.keeps {x y : Moment} (hsteps : Steps scripts x y) (hx : x.Sound)
    {h : Handle .location} {v : PlanNode} (hget : x.2.arena.get? h = some v) :
    y.2.arena.get? h = some v ∧
      ∀ key, (key, h) ∈ x.2.arena.index → (key, h) ∈ y.2.arena.index := by
  induction hsteps with
  | refl => exact ⟨hget, fun _ => id⟩
  | tail hsteps hstep ih =>
    obtain ⟨hget', hindex⟩ := hstep.keeps (Steps.sound hsteps hx) ih.1
    exact ⟨hget', fun key hmem => hindex key (ih.2 key hmem)⟩

/-- **Requests leave a sound arena.** At any moment that requests and builders have led to, more
builders inside each other than are needed make no difference to a request. Unless a builder is open
the keys and the finished descriptors belong to each other, and the descriptor of an open builder is
not there. Descriptors that are finished stay as they are at every later moment, and their keys lead
to them without a builder. A request leaves its key in the index if it succeeds and takes it back if
it fails, and it fails for no other reason than that a builder did or that the arena is full. -/
theorem requests_keep_arena_sound (scripts : Scripts) {opened opened' : List (String × Handle .location)}
    {s s' : PlanState} (hs : Steps scripts ([], {}) (opened, s))
    (hs' : Steps scripts (opened, s) (opened', s')) (key : String) :
    (∀ bound, scripts.asked.length + 2 ≤ bound →
      (requestWithin scripts bound key).runOn s = (request scripts key).runOn s) ∧
    (opened = [] → s.arena.Settled) ∧
    (∀ entry ∈ opened, s.arena.get? entry.2 = none) ∧
    (∀ h v, s.arena.get? h = some v → s'.arena.get? h = some v) ∧
    (∀ h, s.arena.find? key = some h → (s.arena.get? h).isSome →
      (request scripts key).runOn s' = (.ok h, s')) ∧
    (∀ h t, (request scripts key).runOn s = (.ok h, t) → t.arena.find? key = some h) ∧
    ∀ e t, (request scripts key).runOn s = (.error e, t) → t.arena.find? key = none ∧
      Explains scripts e ∧ e ≠ Arena.settledTwice ∧
      ∀ x : Handle .location, e ≠ Arena.unknownSlot x ∧ ∀ m, e ≠ Arena.failedToBuild x m := by
  have hsound := Steps.sound hs Moment.sound_empty
  have hsound' := Steps.sound hs' hsound
  have hkey := find?_of_request scripts key hsound.arena
  refine ⟨fun bound hbound => requestWithin_eq hsound.arena (need_lt key s) bound hbound,
    fun hnone => hsound.arena.settled_of_none_building fun h hslot => ?_, fun entry hopen => ?_,
    fun h v hget => (Steps.keeps hs' hsound hget).1, fun h hfind hready => ?_,
    fun h t hok => ?_, fun e t herror => ?_⟩
  · have hopen := (hsound.building h).mp hslot
    rw [hnone] at hopen
    exact absurd hopen List.not_mem_nil
  · have hslot : s.arena.slot? entry.2 = some .building :=
      (hsound.building _).mpr (List.mem_map_of_mem hopen)
    rw [Arena.get?, show s.arena.slots[entry.2.index.toNat]? = _ from hslot]
    rfl
  · obtain ⟨v, hget⟩ := Option.isSome_iff_exists.mp hready
    refine request_eq_of_find? hsound'.arena ((Arena.find?_eq_some_iff hsound'.arena.keys).mpr ?_)
    exact (Steps.keeps hs' hsound hget).2 key ((Arena.find?_eq_some_iff hsound.arena.keys).mp hfind)
  · simpa only [hok] using hkey
  · have hexplains := explains_of_error hsound.arena (need_lt key s) herror
    exact ⟨by simpa only [herror] using hkey, hexplains, hexplains.ne_unsound⟩

/-- Two builders that ask for each other, one of which lets the failure of a third one pass. -/
def Sample.cycle : Scripts :=
  [("a", { asks := [⟨"b", false⟩] }), ("b", { asks := [⟨"c", true⟩, ⟨"a", false⟩] }),
    ("c", { failure := some "no" })]

/-- The state after a request for `a` and one for `c`, which fails. -/
def Sample.settled : PlanState :=
  ((request cycle "c").runOn ((request cycle "a").runOn {}).2).2

theorem Sample.cycle_settles :
    Sample.settled.arena.Settled ∧
      (request Sample.cycle "b").runOn Sample.settled = (.ok ⟨1⟩, Sample.settled) := by
  have hsteps : Steps Sample.cycle ([], {}) ([], Sample.settled) :=
    .tail (.single (.request [] {} "a")) (.request [] _ "c")
  obtain ⟨-, hsettled, -, -, hkept, -⟩ :=
    requests_keep_arena_sound Sample.cycle hsteps .refl "b"
  exact ⟨hsettled rfl, hkept ⟨1⟩ (by decide +kernel) (by decide +kernel)⟩

end TraceWeave.PlanState

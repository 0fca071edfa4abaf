import Mathlib.Logic.Function.Basic
import TraceWeave.Descriptor.Plan
import TraceWeave.Proofs.Descriptor.Slots

/-! # Threads that share an arena

Any number of threads ask one arena for descriptors. A request is no longer one step: looking a key
up, or taking a slot for it, is one, and so are each request of its builder, the end of the builder
and the answer. Between any two of them other threads may take steps of their own. A thread that
finds the slot of another thread's builder waits until that builder has ended.

`Threads.Shared` is the state and `Threads.Shared.step?` the next step of one thread;
`Threads.Step` says case by case what a step does, and `Threads.Shared.run_induction` carries what
steps keep over a whole schedule.
-/

namespace TraceWeave.Threads

variable {k : DescriptorKind} {κ α : Type}

/-- What a request answers. -/
abbrev Reply (k : DescriptorKind) := Except Error (Handle k)

/-- What a builder does next. -/
inductive Act (κ α : Type) where
  | ask (key : κ)
  | finish (value : α)
  | giveUp (e : Error)
  deriving DecidableEq, Inhabited

/-- What threads do between the steps of the arena. Everything may depend on the thread and on the
answers so far. -/
structure Code (k : DescriptorKind) (κ α : Type) where
  /-- The key that a thread without an open builder asks for next. -/
  next : Nat → List (Reply k) → Option κ
  /-- What the builder of a key does next, given its own handle. -/
  build : Nat → κ → Handle k → List (Reply k) → Act κ α

/-- A builder that is open. -/
structure Level (k : DescriptorKind) (κ : Type) where
  key : κ
  handle : Handle k
  replies : List (Reply k) := []
  deriving DecidableEq, Inhabited

/-- Where a thread is. -/
inductive Phase (k : DescriptorKind) (κ : Type) where
  /-- In its own code or in that of its innermost builder. -/
  | running
  /-- At the start of a request. -/
  | asking (key : κ)
  /-- In a request that has found a slot. -/
  | waiting (key : κ) (h : Handle k)
  /-- After its innermost builder has failed and the key was taken back. -/
  | failing (e : Error)
  /-- At the end of a request. -/
  | returning (key : κ) (reply : Reply k)
  deriving DecidableEq, Inhabited

structure Thread (k : DescriptorKind) (κ : Type) where
  phase : Phase k κ := .running
  /-- The open builders, the innermost first. -/
  levels : List (Level k κ) := []
  replies : List (Reply k) := []
  deriving DecidableEq, Inhabited

/-- Hands an answer to the code that asked. -/
def Thread.receive (x : Thread k κ) (reply : Reply k) : Thread k κ :=
  match x.levels with
  | [] => { x with phase := .running, replies := x.replies ++ [reply] }
  | level :: outer =>
    { x with phase := .running, levels := { level with replies := level.replies ++ [reply] } :: outer }

@[simp] theorem Thread.receive_phase (x : Thread k κ) (reply : Reply k) :
    (x.receive reply).phase = .running := by
  unfold receive
  split <;> rfl

/-- An answer opens and closes no builder. -/
theorem Thread.map_receive {β : Type} (x : Thread k κ) (reply : Reply k) (f : κ → Handle k → β) :
    ((x.receive reply).levels.map fun level => f level.key level.handle) =
      x.levels.map fun level => f level.key level.handle := by
  unfold receive
  split
  · rfl
  · rename_i heq
    rw [heq]
    rfl

/-- What can be told of a run afterwards. -/
inductive Event (k : DescriptorKind) (κ : Type) where
  | started (thread : Nat) (key : κ) (h : Handle k)
  | gaveUp (thread : Nat) (key : κ)
  | returned (thread : Nat) (key : κ) (reply : Reply k)
  deriving DecidableEq, Inhabited

/-- The keys and handles of the builders that were started. -/
def starts (log : List (Event k κ)) : List (κ × Handle k) :=
  log.filterMap fun
    | .started _ key h => some (key, h)
    | _ => none

/-- An arena with the threads that use it. -/
structure Shared (k : DescriptorKind) (κ α : Type) where
  arena : Arena k κ α := {}
  /-- The thread that took each slot. -/
  owners : List Nat := []
  threads : Nat → Thread k κ := fun _ => {}
  log : List (Event k κ) := []
  deriving Inhabited

namespace Shared

/-- The thread whose builder a slot was taken for. -/
def owner? (s : Shared k κ α) (h : Handle k) : Option Nat := s.owners[h.index.toNat]?

/-- Whether a thread has to wait for a slot. -/
def blocks (s : Shared k κ α) (t : Nat) (h : Handle k) : Bool :=
  match s.arena.slot? h with
  | some .building => s.owner? h != some t
  | _ => false

def note (s : Shared k κ α) (event : Event k κ) : Shared k κ α := { s with log := s.log ++ [event] }

/-- Takes a thread to another place of its run. -/
def move (s : Shared k κ α) (t : Nat) (x : Thread k κ) : Shared k κ α :=
  { s with threads := Function.update s.threads t x }

/-- Ends the construction of a slot and the request that it was taken for. -/
def conclude (s : Shared k κ α) (t : Nat) (x : Thread k κ) (level : Level k κ) (slot : Slot α)
    (reply : Reply k) : Shared k κ α :=
  match s.arena.settle level.handle slot with
  | .ok a => { s with arena := a }.move t { x with phase := .returning level.key reply }
  | .error e => s.move t { x with phase := .returning level.key (.error e) }

/-- The next step of a thread, unless it has to wait or has nothing left to do. -/
def step? [BEq κ] (code : Code k κ α) (t : Nat) (s : Shared k κ α) : Option (Shared k κ α) :=
  let x := s.threads t
  match x.phase, x.levels with
  | .running, [] => (code.next t x.replies).map fun key => s.move t { x with phase := .asking key }
  | .running, level :: outer =>
    match code.build t level.key level.handle level.replies with
    | .ask key => some (s.move t { x with phase := .asking key })
    | .finish value =>
      some (s.conclude t { x with levels := outer } level (.ready value) (.ok level.handle))
    | .giveUp e =>
      some (({ s with arena := s.arena.forget level.key }.note (.gaveUp t level.key)).move t
        { x with phase := .failing e })
  | .failing _, [] => none
  | .failing e, level :: outer =>
    some (s.conclude t { x with levels := outer } level (.failed e.message) (.error e))
  | .asking key, _ =>
    match s.arena.find? key with
    | some h => some (s.move t { x with phase := .waiting key h })
    | none =>
      match s.arena.publish key with
      | .error e => some (s.move t { x with phase := .returning key (.error e) })
      | .ok (h, a) =>
        some (({ s with arena := a, owners := s.owners ++ [t] }.note (.started t key h)).move t
          { x with phase := .running, levels := ⟨key, h, []⟩ :: x.levels })
  | .waiting key h, _ =>
    if s.blocks t h then none
    else some (s.move t { x with phase := .returning key (s.arena.settled h) })
  | .returning key reply, _ =>
    some ((s.note (.returned t key reply)).move t (x.receive reply))

/-- Takes one step of each thread of a schedule in turn. -/
def run [BEq κ] (code : Code k κ α) : List Nat → Shared k κ α → Option (Shared k κ α)
  | [], s => some s
  | t :: schedule, s => (s.step? code t).bind (run code schedule)

end Shared

/-! ## What a step does -/

/-- The steps of a thread, case by case. -/
inductive Step [BEq κ] (code : Code k κ α) (t : Nat) (s : Shared k κ α) : Shared k κ α → Prop
  /-- The innermost code makes a request. -/
  | ask {key : κ} : (s.threads t).phase = .running →
    (∀ level outer, (s.threads t).levels = level :: outer →
      code.build t level.key level.handle level.replies = .ask key) →
    Step code t s (s.move t { s.threads t with phase := .asking key })
  /-- The key is there already. -/
  | find {key : κ} {h : Handle k} : (s.threads t).phase = .asking key →
    s.arena.find? key = some h → Step code t s (s.move t { s.threads t with phase := .waiting key h })
  /-- The key is new, and there is no slot for it. -/
  | full {key : κ} : (s.threads t).phase = .asking key → s.arena.find? key = none →
    Arena.capacity ≤ s.arena.slots.length →
    Step code t s (s.move t { s.threads t with phase := .returning key (.error Arena.exhausted) })
  /-- The key is new, and its builder starts. -/
  | start {key : κ} {h : Handle k} {a : Arena k κ α} : (s.threads t).phase = .asking key →
    s.arena.find? key = none → s.arena.publish key = .ok (h, a) →
    Step code t s (({ s with arena := a, owners := s.owners ++ [t] }.note (.started t key h)).move t
      { s.threads t with phase := .running, levels := ⟨key, h, []⟩ :: (s.threads t).levels })
  /-- The slot is not, or no longer, under construction by another thread. -/
  | resume {key : κ} {h : Handle k} : (s.threads t).phase = .waiting key h → s.blocks t h = false →
    Step code t s (s.move t { s.threads t with phase := .returning key (s.arena.settled h) })
  | finish {level : Level k κ} {outer : List (Level k κ)} {value : α} :
    (s.threads t).phase = .running → (s.threads t).levels = level :: outer →
    code.build t level.key level.handle level.replies = .finish value →
    Step code t s
      (s.conclude t { s.threads t with levels := outer } level (.ready value) (.ok level.handle))
  | giveUp {level : Level k κ} {outer : List (Level k κ)} {e : Error} :
    (s.threads t).phase = .running → (s.threads t).levels = level :: outer →
    Step code t s (({ s with arena := s.arena.forget level.key }.note (.gaveUp t level.key)).move t
      { s.threads t with phase := .failing e })
  | fail {level : Level k κ} {outer : List (Level k κ)} {e : Error} :
    (s.threads t).phase = .failing e → (s.threads t).levels = level :: outer →
    Step code t s
      (s.conclude t { s.threads t with levels := outer } level (.failed e.message) (.error e))
  /-- The answer reaches the code that asked. -/
  | deliver {key : κ} {reply : Reply k} : (s.threads t).phase = .returning key reply →
    Step code t s ((s.note (.returned t key reply)).move t ((s.threads t).receive reply))

namespace Shared

variable [BEq κ] {code : Code k κ α} {t : Nat} {s s' : Shared k κ α}

theorem step_of_step? (h : s.step? code t = some s') : Step code t s s' := by
  unfold step? at h
  dsimp only at h
  split at h
  · rename_i hphase hlevels
    obtain ⟨key, -, rfl⟩ := Option.map_eq_some_iff.mp h
    exact .ask hphase fun level outer heq => nomatch hlevels.symm.trans heq
  · rename_i level outer hphase hlevels
    split at h
    · rename_i key hact
      cases h
      refine .ask hphase fun level' outer' heq => ?_
      cases hlevels.symm.trans heq
      exact hact
    · rename_i value hact
      cases h
      exact .finish hphase hlevels hact
    · cases h
      exact .giveUp hphase hlevels
  · cases h
  · rename_i e level outer hphase hlevels
    cases h
    exact .fail hphase hlevels
  · rename_i key hphase
    split at h
    · rename_i x hfind
      cases h
      exact .find hphase hfind
    · rename_i hfind
      split at h
      · rename_i e hp
        cases h
        unfold Arena.publish at hp
        split at hp <;> cases hp
        exact .full hphase hfind (Nat.le_of_not_lt ‹_›)
      · rename_i x a hp
        cases h
        exact .start hphase hfind hp
  · rename_i key x hphase
    split at h
    · cases h
    · rename_i hfree
      cases h
      exact .resume hphase (Bool.eq_false_iff.mpr hfree)
  · rename_i key reply hphase
    cases h
    exact .deliver hphase

/-- A step is the step of one thread. -/
theorem threads_of_step (h : Step code t s s') {u : Nat} (hne : u ≠ t) :
    s'.threads u = s.threads u := by
  cases h with
  | finish | fail =>
    unfold conclude
    split <;> exact Function.update_of_ne hne _ _
  | _ => exact Function.update_of_ne hne _ _

/-- Threads that no turn is given to stay where they are. -/
theorem threads_of_run {u : Nat} : ∀ {schedule : List Nat} {s s' : Shared k κ α},
    run code schedule s = some s' → u ∉ schedule → s'.threads u = s.threads u
  | [], s, s', h, _ => by
    cases h
    rfl
  | t :: schedule, s, s', h, hu => by
    obtain ⟨s₁, hstep, hrun⟩ := Option.bind_eq_some_iff.mp h
    rw [threads_of_run hrun fun hmem => hu (List.mem_cons_of_mem _ hmem)]
    refine threads_of_step (step_of_step? hstep) fun heq => hu ?_
    rw [heq]
    exact List.mem_cons_self

/-- What every step keeps holds after every run. -/
theorem run_induction {p : Shared k κ α → Prop} (hstep : ∀ t s s', Step code t s s' → p s → p s') :
    ∀ {schedule : List Nat} {s s' : Shared k κ α}, run code schedule s = some s' → p s → p s'
  | [], s, s', h, hs => by
    cases h
    exact hs
  | t :: schedule, s, s', h, hs => by
    obtain ⟨u, hu, hrun⟩ := Option.bind_eq_some_iff.mp h
    exact run_induction hstep hrun (hstep t s u (step_of_step? hu) hs)

end Shared

/-! ## Builders given by scripts -/

/-- What is left of a script after some answers: the next request, or how it ends. -/
def followScript (key : String) (failure : Option String) :
    List Ask → List (Reply .location) → List (Handle .location) → Act String PlanNode
  | [], _, found =>
    match failure with
    | some message => .giveUp (.generic message)
    | none => .finish ⟨key, found⟩
  | ask :: _, [], _ => .ask ask.key
  | _ :: asks, .ok h :: replies, found => followScript key failure asks replies (found ++ [h])
  | ask :: asks, .error e :: replies, found =>
    if ask.optional then followScript key failure asks replies found else .giveUp e

/-- Threads that each ask for some keys in turn, with builders given by scripts. -/
def scripted (scripts : Scripts) (keys : Nat → List String) : Code .location String PlanNode where
  next t replies := (keys t)[replies.length]?
  build _ key _ replies :=
    followScript key (scripts.get key).failure (scripts.get key).asks replies []

/-- Scripts make the requests that they list. -/
theorem mem_of_followScript_ask {key key' : String} {failure : Option String} :
    ∀ {asks : List Ask} {replies : List (Reply .location)} {found : List (Handle .location)},
      followScript key failure asks replies found = .ask key' → key' ∈ asks.map Ask.key
  | [], _, _, h => by
    cases failure <;> cases h
  | ask :: asks, [], _, h => by
    cases h
    exact List.mem_cons_self
  | ask :: asks, .ok _ :: replies, _, h => List.mem_cons_of_mem _ (mem_of_followScript_ask h)
  | ask :: asks, .error e :: replies, _, h => by
    rw [followScript] at h
    split at h
    · exact List.mem_cons_of_mem _ (mem_of_followScript_ask h)
    · cases h

end TraceWeave.Threads

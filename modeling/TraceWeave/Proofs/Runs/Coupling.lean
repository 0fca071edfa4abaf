import TraceWeave.Eval.Interpreter
import TraceWeave.Proofs.Runs.Padding

/-! # Runs side by side

`Matches` compares an evaluation with one that starts from the same variables, in an activation
that may be padded with empty scopes. It has a rule for each way in which evaluations are put
together, so that two programs are compared by going through their code once.

1. `Terms` say what is asked of two runs that fail or that are cut short.
2. A postcondition relates the results of two runs that finish, and their host calls.
3. The variables are never related by hand: the second run ends with the padded variables of the
   first one, and the activations below stay as they are.
-/

namespace TraceWeave

/-- A relation between the host calls of two runs. -/
abbrev LogRel := List HostCall → List HostCall → Prop

/-- What is asked of two runs that do not finish. -/
structure Terms where
  /-- The ends of the first run after which nothing is asked of the second; `none` stands for
  being cut short. -/
  excuses : Option Error → Prop
  /-- What the host calls have in common when both runs stop in the same way. -/
  stopped : LogRel

namespace Terms

variable {α β : Type}

/-- Whether the end of the first run excuses the second. -/
def Excuses (t : Terms) : Outcome α → Prop
  | .done _ => False
  | .failed e => t.excuses (some e)
  | .outOfFuel => t.excuses none

/-- Two runs that end in the same way, with results and host calls as `post` asks for. -/
def Agree (t : Terms) (post : α → β → LogRel) : Outcome α → Outcome β → LogRel
  | .done a, .done b => post a b
  | .failed e, .failed e' => fun l k => e = e' ∧ t.stopped l k
  | .outOfFuel, .outOfFuel => t.stopped
  | _, _ => fun _ _ => False

end Terms

/-- From the variables of a frame and host calls that `pre` relates, `x` ends in a frame with as
many scopes, and unless its end is an excuse, `y` ends in the same way from the padded frame. -/
def Matches {α β : Type} (t : Terms) (mask : List Bool) (pre : LogRel) (post : α → β → LogRel)
    (x : Eval α) (y : Eval β) : Prop :=
  ∀ (f : Frame) (rest rest' : List Frame) (l k : List HostCall), f ≠ [] →
    rest.length = rest'.length → pre l k →
    ∃ o g l', x ⟨f :: rest, l⟩ = (o, ⟨g :: rest, l'⟩) ∧ g.length = f.length ∧
      (t.Excuses o ∨ ∃ o' k', y ⟨f.pad mask :: rest', k⟩ = (o', ⟨g.pad mask :: rest', k'⟩) ∧
        t.Agree post o o' l' k')

/-- Calls side by side: neither touches the activations. -/
def CallsMatch {α β : Type} (t : Terms) (pre : LogRel) (post : α → β → LogRel) (x : Eval α)
    (y : Eval β) : Prop :=
  ∀ (fs fs' : List Frame) (l k : List HostCall), fs.length = fs'.length → pre l k →
    ∃ o l', x ⟨fs, l⟩ = (o, ⟨fs, l'⟩) ∧
      (t.Excuses o ∨ ∃ o' k', y ⟨fs', k⟩ = (o', ⟨fs', k'⟩) ∧ t.Agree post o o' l' k')

/-! ## Steps of one run -/

namespace Eval

variable {α β : Type}

theorem andThen_done {step : Eval α} {next : α → Eval β} {m n : Machine} {a : α}
    (h : step m = (.done a, n)) : andThen step next m = next a n := by
  rw [andThen, h]

theorem andThen_failed {step : Eval α} {next : α → Eval β} {m n : Machine} {e : Error}
    (h : step m = (.failed e, n)) : andThen step next m = (.failed e, n) := by
  rw [andThen, h]

theorem andThen_outOfFuel {step : Eval α} {next : α → Eval β} {m n : Machine}
    (h : step m = (.outOfFuel, n)) : andThen step next m = (.outOfFuel, n) := by
  rw [andThen, h]

theorem yield_andThen (a : α) (next : α → Eval β) : andThen (yield a) next = next a := rfl

theorem andThen_assoc {γ : Type} (step : Eval α) (next : α → Eval β) (last : β → Eval γ) :
    andThen (andThen step next) last = andThen step fun a => andThen (next a) last := by
  funext m
  unfold andThen
  rcases step m with ⟨_ | _ | _, n⟩ <;> rfl

/-- Notes host calls, the first one first. -/
def tell (calls : List HostCall) : Eval Unit := fun m =>
  (.done (), { m with log := calls.reverse ++ m.log })

theorem tell_nil : tell [] = yield () := rfl

theorem tell_append (before after : List HostCall) :
    tell (before ++ after) = andThen (tell before) fun _ => tell after := by
  funext m
  simp [tell, andThen]

theorem inScope_eq {step : Eval α} {f g : Frame} {rest : List Frame} {l l' : List HostCall}
    {o : Outcome α} (h : step ⟨([] :: f) :: rest, l⟩ = (o, ⟨g :: rest, l'⟩)) :
    inScope step ⟨f :: rest, l⟩ = (o, ⟨g.popScope :: rest, l'⟩) := by
  rw [inScope]
  simp only [h]

/-- Runs a step in a scope of its own or without one. -/
def inScopeIf (scope : Bool) (step : Eval α) : Eval α := if scope then inScope step else step

theorem inFrame_eq {step : Eval α} {fs gs : List Frame} {l l' : List HostCall} {o : Outcome α}
    (h : step ⟨Frame.start :: fs, l⟩ = (o, ⟨gs, l'⟩)) :
    inFrame step ⟨fs, l⟩ = (o, ⟨gs.tail, l'⟩) := by
  rw [inFrame]
  simp only [h]

/-- A step that notes host calls and gives a result, and that changes no variable outside the
innermost scope. -/
def EndsWith (step : Eval α) (calls : List HostCall) (a : α) : Prop :=
  ∀ s g rest l, ∃ s', step ⟨(s :: g) :: rest, l⟩ = (.done a, ⟨(s' :: g) :: rest, calls.reverse ++ l⟩)

theorem EndsWith.yield (a : α) : EndsWith (Eval.yield a) [] a := fun s _ _ _ => ⟨s, rfl⟩

theorem EndsWith.tell (calls : List HostCall) (a : α) :
    EndsWith (andThen (Eval.tell calls) fun _ => Eval.yield a) calls a :=
  fun s _ _ _ => ⟨s, rfl⟩

theorem EndsWith.andThen {step : Eval α} {next : α → Eval β} {calls calls' : List HostCall} {a : α}
    {b : β} (h : EndsWith step calls a) (hnext : EndsWith (next a) calls' b) :
    EndsWith (Eval.andThen step next) (calls ++ calls') b := by
  intro s g rest l
  obtain ⟨s', hs⟩ := h s g rest l
  obtain ⟨s'', hs'⟩ := hnext s' g rest (calls.reverse ++ l)
  refine ⟨s'', ?_⟩
  rw [andThen_done hs, hs', List.reverse_append, List.append_assoc]

theorem inScope_andThen_eq {step : Eval α} {next : α → Eval β} {f g : Frame} {s : Bindings}
    {rest : List Frame} {l l' calls : List HostCall} {a : α} {b : β}
    (h : step ⟨([] :: f) :: rest, l⟩ = (.done a, ⟨(s :: g) :: rest, l'⟩)) (hg : g ≠ [])
    (hnext : EndsWith (next a) calls b) :
    inScope (andThen step next) ⟨f :: rest, l⟩ = (.done b, ⟨g :: rest, calls.reverse ++ l'⟩) := by
  obtain ⟨s', hnext⟩ := hnext s g rest l'
  rw [inScope_eq ((andThen_done h).trans hnext), Frame.popScope_cons hg]

theorem frame_eq (f : Frame) (rest : List Frame) (l : List HostCall) :
    frame ⟨f :: rest, l⟩ = (.done f, ⟨f :: rest, l⟩) := rfl

theorem declare_eq (var : VarId) (value : Value) (f : Frame) (rest : List Frame)
    (l : List HostCall) :
    declare var value ⟨f :: rest, l⟩ = (.done (), ⟨f.declare var value :: rest, l⟩) := rfl

end Eval

/-! ## Rules -/

namespace Matches

variable {α β γ δ : Type} {t : Terms} {mask : List Bool} {pre pre' : LogRel}
  {post : α → β → LogRel} {x : Eval α} {y : Eval β}

theorem weaken {P : LogRel} {post' : α → β → LogRel} (h : Matches t mask P post x y)
    (hpre : ∀ l k, pre' l k → P l k) (hpost : ∀ a b l k, post a b l k → post' a b l k) :
    Matches t mask pre' post' x y := by
  intro f rest rest' l k hf hlen hl
  obtain ⟨o, g, l', hx, hg, ho⟩ := h f rest rest' l k hf hlen (hpre l k hl)
  refine ⟨o, g, l', hx, hg, ho.imp_right ?_⟩
  rintro ⟨o', k', hy, hag⟩
  refine ⟨o', k', hy, ?_⟩
  cases o <;> cases o' <;> first | exact hpost _ _ _ _ hag | exact hag

theorem post_mono {post' : α → β → LogRel} (h : Matches t mask pre post x y)
    (hpost : ∀ a b l k, post a b l k → post' a b l k) : Matches t mask pre post' x y :=
  h.weaken (fun _ _ hl => hl) hpost

/-- A precondition that says something about more than the host calls. -/
theorem assuming {φ : Prop} (h : φ → Matches t mask pre post x y) :
    Matches t mask (fun l k => φ ∧ pre l k) post x y := by
  intro f rest rest' l k hf hlen hl
  exact h hl.1 f rest rest' l k hf hlen hl.2

/-- Host calls that are fixed from here on. -/
theorem of_logs
    (h : ∀ l k, pre l k → Matches t mask (fun l' k' => l' = l ∧ k' = k) post x y) :
    Matches t mask pre post x y := by
  intro f rest rest' l k hf hlen hl
  exact h l k hl f rest rest' l k hf hlen ⟨rfl, rfl⟩

/-- Runs that cannot be reached match. -/
theorem vacuous (h : ∀ l k, ¬pre l k) : Matches t mask pre post x y := by
  intro f rest rest' l k hf hlen hl
  exact (h l k hl).elim

theorem yield {a : α} {b : β} (h : ∀ l k, pre l k → post a b l k) :
    Matches t mask pre post (Eval.yield a) (Eval.yield b) := by
  intro f rest rest' l k hf hlen hl
  exact ⟨.done a, f, l, rfl, rfl, .inr ⟨.done b, k, rfl, h l k hl⟩⟩

theorem fail (e : Error) (h : ∀ l k, pre l k → t.stopped l k) :
    Matches t mask pre post (Eval.fail e) (Eval.fail e) := by
  intro f rest rest' l k hf hlen hl
  exact ⟨.failed e, f, l, rfl, rfl, .inr ⟨.failed e, k, rfl, rfl, h l k hl⟩⟩

/-- A first run that fails with an excuse matches everything. -/
theorem fail_excused {e : Error} (h : t.excuses (some e)) :
    Matches t mask pre post (Eval.fail e) y := by
  intro f rest rest' l k hf hlen hl
  exact ⟨.failed e, f, l, rfl, rfl, .inl h⟩

theorem ofExcept (r : Except Error α) (h : ∀ l k, pre l k → t.stopped l k) :
    Matches t mask pre (fun a b l k => a = b ∧ pre l k) (Eval.ofExcept r) (Eval.ofExcept r) := by
  cases r with
  | ok a => exact yield fun _ _ hl => ⟨rfl, hl⟩
  | error e => exact fail e h

theorem outOfFuel (h : ∀ l k, pre l k → t.stopped l k) :
    Matches t mask pre post (fun m => (.outOfFuel, m)) (fun m => (.outOfFuel, m)) := by
  intro f rest rest' l k hf hlen hl
  exact ⟨.outOfFuel, f, l, rfl, rfl, .inr ⟨.outOfFuel, k, rfl, h l k hl⟩⟩

theorem andThen {Q : α → β → LogRel} {next : α → Eval γ} {next' : β → Eval δ}
    {last : γ → δ → LogRel} (h : Matches t mask pre Q x y)
    (hnext : ∀ a b, Matches t mask (Q a b) last (next a) (next' b)) :
    Matches t mask pre last (Eval.andThen x next) (Eval.andThen y next') := by
  intro f rest rest' l k hf hlen hl
  obtain ⟨o, g, l', hx, hg, ho⟩ := h f rest rest' l k hf hlen hl
  have hg' : g ≠ [] := by
    rintro rfl
    exact hf (List.length_eq_zero_iff.mp hg.symm)
  -- The first run decides: if it goes on, the second one has a result to go on with, and if it does
  -- not, then neither does the second one, unless it is excused.
  cases o with
  | done a =>
    obtain h | ⟨o', k', hy, hag⟩ := ho
    · exact h.elim
    cases o' with
    | done b =>
      obtain ⟨o, g', l'', hx', hg', ho⟩ := hnext a b g rest rest' l' k' hg' hlen hag
      rw [Eval.andThen_done hx, Eval.andThen_done hy]
      exact ⟨o, g', l'', hx', hg'.trans hg, ho⟩
    | failed e => exact hag.elim
    | outOfFuel => exact hag.elim
  | failed e =>
    refine ⟨.failed e, g, l', Eval.andThen_failed hx, hg, ho.imp_right ?_⟩
    rintro ⟨o', k', hy, hag⟩
    cases o' with
    | done b => exact hag.elim
    | failed e' => exact ⟨.failed e', k', Eval.andThen_failed hy, hag⟩
    | outOfFuel => exact hag.elim
  | outOfFuel =>
    refine ⟨.outOfFuel, g, l', Eval.andThen_outOfFuel hx, hg, ho.imp_right ?_⟩
    rintro ⟨o', k', hy, hag⟩
    cases o' with
    | done b => exact hag.elim
    | failed e' => exact hag.elim
    | outOfFuel => exact ⟨.outOfFuel, k', Eval.andThen_outOfFuel hy, hag⟩

/-! ### Host calls that are noted -/

theorem tell {calls calls' : List HostCall} {post : Unit → Unit → LogRel}
    (h : ∀ l k, pre l k → post () () (calls.reverse ++ l) (calls'.reverse ++ k)) :
    Matches t mask pre post (Eval.tell calls) (Eval.tell calls') := by
  intro f rest rest' l k hf hlen hl
  exact ⟨.done (), f, calls.reverse ++ l, rfl, rfl, .inr ⟨.done (), calls'.reverse ++ k, rfl, h l k hl⟩⟩

/-- Only the first run notes host calls. -/
theorem tell_left {P : LogRel} {calls : List HostCall} (h : Matches t mask P post x y)
    (hpre : ∀ l k, pre l k → P (calls.reverse ++ l) k) :
    Matches t mask pre post (Eval.andThen (Eval.tell calls) fun _ => x) y := by
  rw [show y = Eval.andThen (Eval.tell []) fun _ => y from rfl]
  exact andThen (Q := fun _ _ => P) (tell hpre) fun _ _ => h

/-- Only the second run notes host calls. -/
theorem tell_right {P : LogRel} {calls : List HostCall} (h : Matches t mask P post x y)
    (hpre : ∀ l k, pre l k → P l (calls.reverse ++ k)) :
    Matches t mask pre post x (Eval.andThen (Eval.tell calls) fun _ => y) := by
  rw [show x = Eval.andThen (Eval.tell []) fun _ => x from rfl]
  exact andThen (Q := fun _ _ => P) (tell hpre) fun _ _ => h

/-! ### Scopes and variables -/

/-- The scope of the second run, and of the first one if it has one too. -/
theorem of_scope {scope : Bool} (h : Matches t (scope :: mask) pre post x y) {f : Frame}
    {rest rest' : List Frame} {l k : List HostCall} (hf : f ≠ [])
    (hlen : rest.length = rest'.length) (hl : pre l k) :
    ∃ o g l', Eval.inScopeIf scope x ⟨f :: rest, l⟩ = (o, ⟨g :: rest, l'⟩) ∧ g.length = f.length ∧
      g.pad mask ≠ [] ∧ (t.Excuses o ∨ ∃ o' s k',
        y ⟨([] :: f.pad mask) :: rest', k⟩ = (o', ⟨(s :: g.pad mask) :: rest', k'⟩) ∧
          t.Agree post o o' l' k') := by
  have ne_of_length : ∀ {g : Frame}, g.length = f.length → g ≠ [] := by
    rintro _ hg rfl
    exact hf (List.length_eq_zero_iff.mp hg.symm)
  cases scope with
  | false =>
    obtain ⟨o, g, l', hx, hg, ho⟩ := h f rest rest' l k hf hlen hl
    refine ⟨o, g, l', hx, hg, Frame.pad_ne_nil mask (ne_of_length hg), ho.imp_right ?_⟩
    rintro ⟨o', k', hy, hag⟩
    rw [Frame.pad_false, Frame.pad_false] at hy
    exact ⟨o', [], k', hy, hag⟩
  | true =>
    obtain ⟨o, g, l', hx, hg, ho⟩ := h ([] :: f) rest rest' l k (List.cons_ne_nil _ _) hlen hl
    obtain ⟨s, g, rfl⟩ := List.exists_cons_of_length_eq_add_one hg
    have hg' : g.length = f.length := Nat.succ.inj hg
    refine ⟨o, g, l', ?_, hg', Frame.pad_ne_nil mask (ne_of_length hg'), ho.imp_right ?_⟩
    · rw [Eval.inScopeIf, if_pos rfl, Eval.inScope_eq hx, Frame.popScope_cons (ne_of_length hg')]
    · rintro ⟨o', k', hy, hag⟩
      rw [Frame.pad_true, Frame.pad_true] at hy
      exact ⟨o', s, k', hy, hag⟩

theorem inScope (h : Matches t (true :: mask) pre post x y) :
    Matches t mask pre post (Eval.inScope x) (Eval.inScope y) := by
  intro f rest rest' l k hf hlen hl
  obtain ⟨o, g, l', hx, hg, hne, ho⟩ := h.of_scope hf hlen hl
  refine ⟨o, g, l', hx, hg, ho.imp_right ?_⟩
  rintro ⟨o', s, k', hy, hag⟩
  exact ⟨o', k', by rw [Eval.inScope_eq hy, Frame.popScope_cons hne], hag⟩

/-- Only the second run has a scope of its own. -/
theorem inScope_right (h : Matches t (false :: mask) pre post x y) :
    Matches t mask pre post x (Eval.inScope y) := by
  intro f rest rest' l k hf hlen hl
  obtain ⟨o, g, l', hx, hg, hne, ho⟩ := h.of_scope hf hlen hl
  refine ⟨o, g, l', hx, hg, ho.imp_right ?_⟩
  rintro ⟨o', s, k', hy, hag⟩
  exact ⟨o', k', by rw [Eval.inScope_eq hy, Frame.popScope_cons hne], hag⟩

/-- The second run goes on in its scope, where the first one has left it. -/
theorem inScope_andThen {scope : Bool} {next : α → Eval γ} {next' : β → Eval δ}
    {last : γ → δ → LogRel} (calls : β → List HostCall) (result : β → δ)
    (h : Matches t (scope :: mask) pre post x y)
    (hends : ∀ b, Eval.EndsWith (next' b) (calls b) (result b))
    (hnext : ∀ a b, Matches t mask (post a b) last (next a)
      (Eval.andThen (Eval.tell (calls b)) fun _ => Eval.yield (result b))) :
    Matches t mask pre last (Eval.andThen (Eval.inScopeIf scope x) next)
      (Eval.inScope (Eval.andThen y next')) := by
  intro f rest rest' l k hf hlen hl
  obtain ⟨o, g, l', hx, hg, hne, ho⟩ := h.of_scope hf hlen hl
  cases o with
  | done a =>
    obtain h | ⟨o', s, k', hy, hag⟩ := ho
    · exact h.elim
    cases o' with
    | done b =>
      -- The frame of the first run still has the scopes that it had, so the second run can leave
      -- its own scope from there.
      have hg' : g ≠ [] := by
        rintro rfl
        exact hf (List.length_eq_zero_iff.mp hg.symm)
      obtain ⟨o, g', l'', hn, hlength, ho⟩ := hnext a b g rest rest' l' k' hg' hlen hag
      refine ⟨o, g', l'', (Eval.andThen_done hx).trans hn, hlength.trans hg, ho.imp_right ?_⟩
      rintro ⟨o', k'', htell, hag'⟩
      exact ⟨o', k'', (Eval.inScope_andThen_eq hy hne (hends b)).trans htell, hag'⟩
    | failed e => exact hag.elim
    | outOfFuel => exact hag.elim
  | failed e =>
    refine ⟨.failed e, g, l', Eval.andThen_failed hx, hg, ho.imp_right ?_⟩
    rintro ⟨o', s, k', hy, hag⟩
    cases o' with
    | done b => exact hag.elim
    | failed e' =>
      exact ⟨.failed e', k', by rw [Eval.inScope_eq (Eval.andThen_failed hy),
        Frame.popScope_cons hne], hag⟩
    | outOfFuel => exact hag.elim
  | outOfFuel =>
    refine ⟨.outOfFuel, g, l', Eval.andThen_outOfFuel hx, hg, ho.imp_right ?_⟩
    rintro ⟨o', s, k', hy, hag⟩
    cases o' with
    | done b => exact hag.elim
    | failed e' => exact hag.elim
    | outOfFuel =>
      exact ⟨.outOfFuel, k', by rw [Eval.inScope_eq (Eval.andThen_outOfFuel hy),
        Frame.popScope_cons hne], hag⟩

/-- The second run notes host calls in its scope. -/
theorem inScope_tell {calls : List HostCall} (h : Matches t mask pre' post x (Eval.inScope y))
    (hpre : ∀ l k, pre l k → pre' l (calls.reverse ++ k)) :
    Matches t mask pre post x (Eval.inScope (Eval.andThen (Eval.tell calls) fun _ => y)) := by
  intro f rest rest' l k hf hlen hl
  exact h f rest rest' l (calls.reverse ++ k) hf hlen (hpre l k hl)

theorem declare (var : VarId) (value : Value) :
    Matches t (true :: mask) pre (fun _ _ => pre) (Eval.declare var value)
      (Eval.declare var value) := by
  intro f rest rest' l k hf hlen hl
  obtain ⟨s, f, rfl⟩ := List.exists_cons_of_ne_nil hf
  refine ⟨.done (), Frame.declare var value (s :: f), l, Eval.declare_eq .., ?_, .inr ⟨.done (), k, ?_, hl⟩⟩
  · rw [Frame.length_declare]
  · rw [Frame.pad_true, Eval.declare_eq]
    rfl

end Matches

namespace CallsMatch

variable {α β : Type} {t : Terms} {mask : List Bool} {pre : LogRel} {post : α → β → LogRel}
  {x : Eval α} {y : Eval β}

/-- A call in the code of an activation. -/
theorem inCode (h : CallsMatch t pre post x y) : Matches t mask pre post x y := by
  intro f rest rest' l k hf hlen hl
  obtain ⟨o, l', hx, ho⟩ := h (f :: rest) (f.pad mask :: rest') l k (by simpa using hlen) hl
  exact ⟨o, f, l', hx, rfl, ho⟩

theorem fail (e : Error) (h : ∀ l k, pre l k → t.stopped l k) :
    CallsMatch t pre post (Eval.fail e) (Eval.fail e) := by
  intro fs fs' l k hlen hl
  exact ⟨.failed e, l, rfl, .inr ⟨.failed e, k, rfl, rfl, h l k hl⟩⟩

/-- Activations that start side by side. -/
theorem inFrame (h : Matches t [true] pre post x y) :
    CallsMatch t pre post (Eval.inFrame x) (Eval.inFrame y) := by
  intro fs fs' l k hlen hl
  obtain ⟨o, g, l', hx, -, ho⟩ := h Frame.start fs fs' l k (List.cons_ne_nil _ _) hlen hl
  refine ⟨o, l', Eval.inFrame_eq hx, ho.imp_right ?_⟩
  rintro ⟨o', k', hy, hag⟩
  rw [Frame.pad_one, Frame.pad_one] at hy
  exact ⟨o', k', Eval.inFrame_eq hy, hag⟩

end CallsMatch

end TraceWeave

import TraceWeave.Proofs.Capture.Stripping
import TraceWeave.Proofs.Program.Calls

/-! # Injection next to written arguments

Injection goes in lockstep through a program and through one with some arguments written out. It
fills what the one omits with what the other has written, so both are equal after it, unless it
fails on both.

* `fillArgs_alike`, `injectCall_alike`: one call.
* `Module.Written.inject`: the whole program, by recursion on what is written.
-/

namespace TraceWeave

open CallerCapture

variable {w : Writing} {env : PassEnv}

/-! ## Filling arguments -/

theorem padArgs_cons (n : Nat) (a : Option Expr) (args : List (Option Expr)) :
    padArgs (n + 1) (a :: args) = a :: padArgs n args := by
  rw [padArgs, padArgs, List.length_cons, Nat.add_sub_add_right]
  rfl

theorem padArgs_nil (n : Nat) : padArgs (n + 1) [] = none :: padArgs n [] := rfl

theorem padArgs_zero (args : List (Option Expr)) : padArgs 0 args = args := by
  rw [padArgs, Nat.zero_sub]
  exact List.append_nil args

/-- Arguments from an index on, and the same ones where some that are omitted are written out. -/
def argsFilled (argument : Nat → Expr → Prop) :
    List (Option Expr) → Nat → List (Option Expr) → Prop
  | [] => fun i args' => tailWritten argument args' i
  | none :: args => fun i args' =>
    ∃ a rest, (∀ e, a = some e → argument i e) ∧ argsFilled argument args (i + 1) rest ∧
      args' = a :: rest
  | some e :: args => fun i args' =>
    ∃ rest, argsFilled argument args (i + 1) rest ∧ args' = some e :: rest

theorem tailWritten_nil {argument : Nat → Expr → Prop} :
    ∀ {args : List (Option Expr)} {i : Nat}, (∀ j e, i ≤ j → ¬argument j e) →
      tailWritten argument args i → args = []
  | [], _, _, _ => rfl
  | none :: rest, i, hnone, h => by
    have hrest := tailWritten_nil (fun j e hj => hnone j e (by omega)) h.2.2
    exact absurd (h.1 hrest) Bool.false_ne_true
  | some e :: _, i, hnone, h => absurd (h.2.1 e rfl) (hnone i e (Nat.le_refl i))

theorem argsFilled_eq {argument : Nat → Expr → Prop} :
    ∀ {args args' : List (Option Expr)} {i : Nat}, (∀ j e, i ≤ j → ¬argument j e) →
      argsFilled argument args i args' → args' = args
  | [], _, _, hnone, h => tailWritten_nil hnone h
  | none :: args, _, i, hnone, h => by
    obtain ⟨a, rest, ha, hrest, rfl⟩ := h
    rw [argsFilled_eq (fun j e hj => hnone j e (by omega)) hrest]
    cases a with
    | none => rfl
    | some e => exact absurd (ha e rfl) (hnone i e (Nat.le_refl i))
  | some e :: args, _, i, hnone, h => by
    obtain ⟨rest, hrest, rfl⟩ := h
    rw [argsFilled_eq (fun j e hj => hnone j e (by omega)) hrest]

/-- Outcomes of filling that differ in how much was filled, unless both failed. -/
def FilledAlike (r r' : List (Option Expr) × Nat × Option Error) : Prop :=
  r'.2.2 = r.2.2 ∧ (r.2.2 = none → r'.1 = r.1)

variable {fresh : Nat → String → Except Error Expr} {i : Nat} {mode : String} {modes : List String}
  {args args' : List (Option Expr)}

theorem FilledAlike.same
    (h : FilledAlike (fillArgs fresh (i + 1) args modes) (fillArgs fresh (i + 1) args' modes))
    (a : Option Expr) :
    FilledAlike (fillArgs fresh i (a :: args) (mode :: modes))
      (fillArgs fresh i (a :: args') (mode :: modes)) := by
  unfold FilledAlike fillArgs
  split
  · exact ⟨h.1, fun hnone => congrArg (a :: ·) (h.2 hnone)⟩
  · cases fresh i mode with
    | error e => exact ⟨rfl, nofun⟩
    | ok e => exact ⟨h.1, fun hnone => congrArg (some e :: ·) (h.2 hnone)⟩

/-- What is written for an omitted argument is what it would be filled with. -/
theorem FilledAlike.written {e : Expr}
    (h : FilledAlike (fillArgs fresh (i + 1) args modes) (fillArgs fresh (i + 1) args' modes))
    (hmode : mode ≠ noCapture) (hfresh : fresh i mode = .ok e) :
    FilledAlike (fillArgs fresh i (none :: args) (mode :: modes))
      (fillArgs fresh i (some e :: args') (mode :: modes)) := by
  unfold FilledAlike fillArgs
  have hskip : ¬(mode == noCapture || (none : Option Expr).isSome) = true := by simpa using hmode
  have hwritten : (mode == noCapture || (some e).isSome) = true := by simp
  rw [if_neg hskip, if_pos hwritten, hfresh]
  exact ⟨h.1, fun hnone => congrArg (some e :: ·) (h.2 hnone)⟩

/-- Arguments that are written out in part are filled like the others. -/
theorem fillArgs_alike {argument : Nat → Expr → Prop} {all : List String}
    (hfresh : ∀ i e, argument i e → ∃ mode, all[i]? = some mode ∧ mode ≠ noCapture ∧
      fresh i mode = .ok e) :
    ∀ (modes : List String) (i : Nat) (args args' : List (Option Expr)), all.drop i = modes →
      argsFilled argument args i args' →
        FilledAlike (fillArgs fresh i (padArgs modes.length args) modes)
          (fillArgs fresh i (padArgs modes.length args') modes)
  | [], i, args, args', hall, h => by
    have hnone : ∀ j e, i ≤ j → ¬argument j e := by
      intro j e hj harg
      obtain ⟨mode, hmode, -, -⟩ := hfresh j e harg
      have hlength := List.drop_eq_nil_iff.mp hall
      rw [List.getElem?_eq_none (by omega)] at hmode
      exact nomatch hmode
    rw [argsFilled_eq hnone h]
    exact ⟨rfl, fun _ => rfl⟩
  | mode :: modes, i, args, args', hall, h => by
    have hmode : all[i]? = some mode := by
      rw [← List.head?_drop, hall]
      rfl
    have hrest : all.drop (i + 1) = modes := by
      rw [← List.tail_drop, hall]
      rfl
    -- An argument that one call omits and the other omits too or has written out.
    have hstep : ∀ {a : Option Expr} {xs xs' : List (Option Expr)},
        (∀ e, a = some e → argument i e) → argsFilled argument xs (i + 1) xs' →
          FilledAlike (fillArgs fresh i (none :: padArgs modes.length xs) (mode :: modes))
            (fillArgs fresh i (a :: padArgs modes.length xs') (mode :: modes)) := by
      intro a xs xs' ha hxs
      have ih := fillArgs_alike hfresh modes (i + 1) xs xs' hrest hxs
      cases a with
      | none => exact ih.same none
      | some e =>
        obtain ⟨mode', hmode', hcapture, hok⟩ := hfresh i e (ha e rfl)
        obtain rfl := Option.some.inj (hmode'.symm.trans hmode)
        exact ih.written hcapture hok
    rw [List.length_cons]
    cases args with
    | nil =>
      rw [padArgs_nil]
      cases args' with
      | nil => exact ⟨rfl, fun _ => rfl⟩
      | cons a rest =>
        rw [padArgs_cons]
        exact hstep h.2.1 h.2.2
    | cons b args =>
      cases b with
      | none =>
        obtain ⟨a, rest, ha, hargs, rfl⟩ := h
        rw [padArgs_cons, padArgs_cons]
        exact hstep ha hargs
      | some e =>
        obtain ⟨rest, hargs, rfl⟩ := h
        rw [padArgs_cons, padArgs_cons]
        exact (fillArgs_alike hfresh modes (i + 1) args rest hrest hargs).same (some e)

/-! ## Injection -/

/-- States of a pass that differ in the number of edits only. -/
structure PassState.Agree (st st' : PassState) : Prop where
  ids : st'.ids = st.ids
  store : st'.store = st.store
  bodies : st'.bodies = st.bodies
  failure : st'.failure = st.failure

variable {captured : CapturedDefaults} {α β : Type}

/-- Injection into two pieces of code in lockstep, until it fails on both. -/
abbrev InjectsAlike (rel : α → β → Prop) (f : PassState → α × PassState)
    (g : PassState → β × PassState) : Prop :=
  Lockstep PassState.Agree (fun st => st.failure = none) rel f g

/-- Injection can fill what is written: unless the modes of the callee cannot be told, they list what
a fresh call is made from. A written call has nothing to be filled itself. -/
structure Writing.Fills (w : Writing) (env : PassEnv) (captured : CapturedDefaults) : Prop where
  bare : w.Bare
  complete : ∀ {callee i span e}, w.argument callee i span e → ∀ target, e.callee? = some target →
    modesOf env target = .ok none
  fresh : ∀ {callee i span e}, w.argument callee i span e →
    ∀ modes?, modesOf env callee = .ok modes? → ∃ modes mode, modes? = some modes ∧
      modes[i]? = some mode ∧ mode ≠ noCapture ∧ freshCall env captured callee i span mode = .ok e

theorem injectCall_other {e : Expr} (h : e.callee? = none) (st : PassState) :
    injectCall env captured e st = (e, st) := by
  cases e with
  | call => exact nomatch h
  | _ => rfl

/-- A node that is visited after what stands below it. -/
theorem Lockstep.visit {rel : α → β → Prop} {f : PassState → α × PassState}
    {g : PassState → β × PassState} (h : InjectsAlike rel f g) {f' g' : PassState → Expr × PassState}
    (k : α → Expr) (k' : β → Expr)
    (hstep : ∀ a b st st', rel a b → st.Agree st' →
      (injectCall env captured (k a) st).2.Agree (injectCall env captured (k' b) st').2 ∧
        ((injectCall env captured (k a) st).2.failure = none →
          (injectCall env captured (k a) st).1 = (injectCall env captured (k' b) st').1))
    (hf : ∀ st, f' st = PassState.edit (injectCall env captured) (k (f st).1) (f st).2)
    (hg : ∀ st, g' st = PassState.edit (injectCall env captured) (k' (g st).1) (g st).2) :
    InjectsAlike Eq f' g' := by
  have hleft : ∀ st, (f' st).2.failure = none → (f st).2.failure = none := by
    intro st hnone
    rw [hf] at hnone
    exact (PassState.of_edit hnone).1
  have hboth : ∀ st st', st.Agree st' → (f' st).2.Agree (g' st').2 ∧
      ((f' st).2.failure = none → (f' st).1 = (g' st').1) := by
    intro st st' hagree
    have hbelow := h.states hagree
    cases hfailure : (f st).2.failure with
    | some e =>
      have hfailure' := hbelow.failure.trans hfailure
      have hsome : (f' st).2.failure = some e := by
        rw [hf, PassState.edit_of_some hfailure]
        exact hfailure
      refine ⟨?_, fun hnone => nomatch hsome.symm.trans hnone⟩
      rw [hf, hg, PassState.edit_of_some hfailure, PassState.edit_of_some hfailure']
      exact hbelow
    | none =>
      have hfailure' := hbelow.failure.trans hfailure
      rw [hf, hg, PassState.edit_of_none hfailure, PassState.edit_of_none hfailure']
      exact hstep _ _ _ _ (h.results hagree hfailure) hbelow
  exact ⟨fun ha => (hboth _ _ ha).1, fun hnone => h.handsBack (hleft _ hnone),
    fun ha => (hboth _ _ ha).2⟩

/-- A node that is no call. -/
theorem Lockstep.node {rel : α → β → Prop} {f : PassState → α × PassState}
    {g : PassState → β × PassState} (h : InjectsAlike rel f g) {f' g' : PassState → Expr × PassState}
    (k : α → Expr) (k' : β → Expr) (hk : ∀ a b, rel a b → k a = k' b)
    (hcall : ∀ a, (k a).callee? = none)
    (hf : ∀ st, f' st = PassState.edit (injectCall env captured) (k (f st).1) (f st).2)
    (hg : ∀ st, g' st = PassState.edit (injectCall env captured) (k' (g st).1) (g st).2) :
    InjectsAlike Eq f' g' := by
  refine h.visit k k' (fun a b st st' hrel hagree => ?_) hf hg
  rw [← hk a b hrel, injectCall_other (hcall a), injectCall_other (hcall a)]
  exact ⟨hagree, fun _ => rfl⟩

/-- A call whose arguments are written out in part. -/
theorem injectCall_alike (hw : w.Fills env captured) {s : Site} {callee : DeclId}
    {receiver : Option Expr} {typeArgs : List Ty} {args args' : List (Option Expr)}
    (h : argsFilled (w.argument callee · s.span) args 0 args') {st st' : PassState}
    (hagree : st.Agree st') :
    (injectCall env captured (.call s callee receiver typeArgs args) st).2.Agree
        (injectCall env captured (.call s callee receiver typeArgs args') st').2 ∧
      ((injectCall env captured (.call s callee receiver typeArgs args) st).2.failure = none →
        (injectCall env captured (.call s callee receiver typeArgs args) st).1 =
          (injectCall env captured (.call s callee receiver typeArgs args') st').1) := by
  rw [injectCall, injectCall]
  cases hmodes : modesOf env callee with
  | error e => exact ⟨⟨hagree.ids, hagree.store, hagree.bodies, rfl⟩, nofun⟩
  | ok modes? =>
    cases modes? with
    | none =>
      have hnone : ∀ j e, 0 ≤ j → ¬w.argument callee j s.span e := by
        intro j e _ harg
        obtain ⟨_, _, heq, -⟩ := hw.fresh harg _ hmodes
        exact nomatch heq
      rw [argsFilled_eq hnone h]
      exact ⟨hagree, fun _ => rfl⟩
    | some modes =>
      have hfresh : ∀ i e, w.argument callee i s.span e → ∃ mode, modes[i]? = some mode ∧
          mode ≠ noCapture ∧ freshCall env captured callee i s.span mode = .ok e := by
        intro i e harg
        obtain ⟨_, mode, heq, hmode⟩ := hw.fresh harg _ hmodes
        cases heq
        exact ⟨mode, hmode⟩
      obtain ⟨hfailure, hargs⟩ := fillArgs_alike hfresh modes 0 args args' rfl h
      exact ⟨⟨hagree.ids, hagree.store, hagree.bodies, hfailure⟩,
        fun hnone => congrArg (Expr.call s callee receiver typeArgs) (hargs hnone).symm⟩

theorem walk_leaf {e : Expr} (h : e.isLeaf) (sc : ScopeStack) (place : Place) (st : PassState) :
    e.walk (injector env captured) sc place st = (e, st) := by
  cases e with
  | const | getVar | functionRef | propertyRef | descriptor | captureFrame =>
    rw [Expr.walk, injector]
    exact PassState.edit_self (injectCall_other rfl st)
  | _ => exact absurd h Bool.false_ne_true

theorem argsWalk_leaf (sc : ScopeStack) : ∀ {args : List (Option Expr)},
    (args.all fun a => a.all Expr.isLeaf) = true →
      ∀ st, argsWalk (injector env captured) sc args st = (args, st)
  | [], _, _ => rfl
  | none :: args, h, st => by
    have hrest : (args.all fun a => a.all Expr.isLeaf) = true := h
    rw [argsWalk, argsWalk_leaf sc hrest]
  | some e :: args, h, st => by
    rw [List.all_cons, Bool.and_eq_true] at h
    rw [argsWalk, walk_leaf h.1]
    dsimp only
    rw [argsWalk_leaf sc h.2]

/-- A written argument stays as it is. -/
theorem walk_written (hw : w.Fills env captured) {callee : DeclId} {i : Nat} {span : Span} {e : Expr}
    (h : w.argument callee i span e) (sc : ScopeStack) (place : Place) (st : PassState) :
    e.walk (injector env captured) sc place st = (e, st) := by
  obtain ⟨s, target, typeArgs, args, rfl, hargs⟩ := e.exists_of_isBareCall (hw.bare _ _ _ _ h)
  have hcall : injectCall env captured (.call s target none typeArgs args) st =
      (.call s target none typeArgs args, st) := by
    rw [injectCall, hw.complete h target rfl]
  rw [Expr.walk, optionWalk]
  dsimp only
  rw [argsWalk_leaf sc hargs, injector]
  exact PassState.edit_self hcall

theorem argsWalk_tail (hw : w.Fills env captured) {callee : DeclId} {span : Span} (sc : ScopeStack) :
    ∀ {args : List (Option Expr)} {i : Nat}, tailWritten (w.argument callee · span) args i →
      ∀ st, argsWalk (injector env captured) sc args st = (args, st)
  | [], _, _, _ => rfl
  | none :: args, _, h, st => by
    rw [argsWalk, argsWalk_tail hw sc h.2.2]
  | some e :: args, _, h, st => by
    rw [argsWalk, walk_written hw (h.2.1 e rfl)]
    dsimp only
    rw [argsWalk_tail hw sc h.2.2]

theorem Stmt.Written.after_eq {stmt stmt' : Stmt} (h : stmt.Written w stmt') (sc : ScopeStack) :
    sc.after stmt' = sc.after stmt := by
  cases stmt with
  | expr | var | decl =>
    obtain ⟨_, -, rfl⟩ := h
    rfl

theorem paramsWritten.inFunction_eq {capturing : Bool} {params params' : List Param}
    (h : paramsWritten w capturing params params') (sc : ScopeStack) (id : DeclId) :
    sc.inFunction id params' = sc.inFunction id params := by
  have hheads := congrArg (List.map fun p : ParamSymbol => VisibleLocal.ofParam p.head) h.heads_eq
  rw [List.map_map, List.map_map] at hheads
  exact congrArg (fun locals => sc.push (.ofFunction id locals)) hheads

mutual

-- Both walks are at the same node all along, but for the arguments that only one of them has; those
-- are met in the case of a call.
theorem Expr.Written.inject (hw : w.Fills env captured) : ∀ (e e' : Expr) (sc : ScopeStack)
    (place : Place), e.Written w e' →
      InjectsAlike Eq (e.walk (injector env captured) sc place)
        (e'.walk (injector env captured) sc place)
  | .setVar s var value => by
    rintro _ sc place ⟨_, hvalue, rfl⟩
    exact (hvalue.inject hw _ _ _ _).node (.setVar s var) (.setVar s var)
      (fun _ _ h => congrArg _ h) (fun _ => rfl) (fun _ => rfl) fun _ => rfl
  | .call s callee receiver typeArgs args => by
    rintro _ sc place ⟨_, _, hreceiver, hargs, rfl⟩
    refine ((hreceiver.inject hw _ _ _ _).pair (hargs.inject hw _ _ _ _)).visit
      (fun p => .call s callee p.1 typeArgs p.2) (fun p => .call s callee p.1 typeArgs p.2)
      ?_ (fun _ => rfl) fun _ => rfl
    rintro ⟨r, as⟩ ⟨_, as'⟩ st st' ⟨rfl, hfilled⟩ hagree
    exact injectCall_alike hw hfilled hagree
  | .block s stmts => by
    rintro _ sc place ⟨_, hstmts, rfl⟩
    exact (hstmts.inject hw _ _ _).node (.block s) (.block s) (fun _ _ h => congrArg _ h)
      (fun _ => rfl) (fun _ => rfl) fun _ => rfl
  | .returnable s id stmts => by
    rintro _ sc place ⟨_, hstmts, rfl⟩
    exact (hstmts.inject hw _ _ _).node (.returnable s id) (.returnable s id)
      (fun _ _ h => congrArg _ h) (fun _ => rfl) (fun _ => rfl) fun _ => rfl
  | .ret s target value => by
    rintro _ sc place ⟨_, hvalue, rfl⟩
    exact (hvalue.inject hw _ _ _ _).node (.ret s target) (.ret s target)
      (fun _ _ h => congrArg _ h) (fun _ => rfl) (fun _ => rfl) fun _ => rfl
  | .when s branches otherwise => by
    rintro _ sc place ⟨_, _, hbranches, hotherwise, rfl⟩
    exact ((hbranches.inject hw _ _ _).pair (hotherwise.inject hw _ _ _ _)).node
      (fun p => .when s p.1 p.2) (fun p => .when s p.1 p.2) (fun _ _ h => congrArg₂ _ h.1 h.2)
      (fun _ => rfl) (fun _ => rfl) fun _ => rfl
  | .loop s condition body => by
    rintro _ sc place ⟨_, _, hcondition, hbody, rfl⟩
    exact ((hcondition.inject hw _ _ _ _).pair (hbody.inject hw _ _ _ _)).node
      (fun p => .loop s p.1 p.2) (fun p => .loop s p.1 p.2) (fun _ _ h => congrArg₂ _ h.1 h.2)
      (fun _ => rfl) (fun _ => rfl) fun _ => rfl
  | .binary s op lhs rhs => by
    rintro _ sc place ⟨_, _, hlhs, hrhs, rfl⟩
    exact ((hlhs.inject hw _ _ _ _).pair (hrhs.inject hw _ _ _ _)).node
      (fun p => .binary s op p.1 p.2) (fun p => .binary s op p.1 p.2)
      (fun _ _ h => congrArg₂ _ h.1 h.2) (fun _ => rfl) (fun _ => rfl) fun _ => rfl
  | .not s operand => by
    rintro _ sc place ⟨_, hoperand, rfl⟩
    exact (hoperand.inject hw _ _ _ _).node (.not s) (.not s) (fun _ _ h => congrArg _ h)
      (fun _ => rfl) (fun _ => rfl) fun _ => rfl
  | .concat s parts => by
    rintro _ sc place ⟨_, hparts, rfl⟩
    exact (hparts.inject hw _ _ _).node (.concat s) (.concat s) (fun _ _ h => congrArg _ h)
      (fun _ => rfl) (fun _ => rfl) fun _ => rfl
  | .lambda s decl => by
    rintro _ sc place ⟨_, hdecl, rfl⟩
    exact (hdecl.inject hw _ _ _).node (.lambda s) (.lambda s) (fun _ _ h => congrArg _ h)
      (fun _ => rfl) (fun _ => rfl) fun _ => rfl
  | .const _ _ | .getVar _ _ | .functionRef _ _ | .propertyRef _ _ | .descriptor _ _
  | .captureFrame _ _ => by
    rintro _ sc place rfl
    rw [funext (walk_leaf rfl sc place)]
    exact .yield rfl

theorem optionWritten.inject (hw : w.Fills env captured) : ∀ (e e' : Option Expr)
    (sc : ScopeStack) (place : Place), optionWritten w e e' →
      InjectsAlike Eq (optionWalk (injector env captured) sc place e)
        (optionWalk (injector env captured) sc place e')
  | none => by
    rintro _ sc place rfl
    exact .yield rfl
  | some e => by
    rintro _ sc place ⟨_, he, rfl⟩
    exact (he.inject hw _ _ _ _).map some some fun _ _ h => congrArg some h

theorem argsWritten.inject (hw : w.Fills env captured) {callee : DeclId} {span : Span} :
    ∀ (args args' : List (Option Expr)) (i : Nat) (sc : ScopeStack),
      argsWritten w callee span args i args' →
        InjectsAlike (fun xs xs' => argsFilled (w.argument callee · span) xs i xs')
          (argsWalk (injector env captured) sc args) (argsWalk (injector env captured) sc args')
  | [] => by
    intro args' i sc h
    rw [show argsWalk (injector env captured) sc args' = fun st => (args', st) from
      funext fun st => argsWalk_tail hw sc h st]
    exact .yield h
  | none :: args => by
    rintro _ i sc ⟨a, rest, ha, hrest, rfl⟩
    cases a with
    | none =>
      exact (hrest.inject hw _ _ _ _).map (none :: ·) (none :: ·)
        fun _ xs' h => ⟨none, xs', ha, h, rfl⟩
    | some e =>
      exact (hrest.inject hw _ _ _ _).map (none :: ·) (some e :: ·)
        (fun _ xs' h => ⟨some e, xs', ha, h, rfl⟩) (fun _ => rfl)
        fun st => by rw [argsWalk, walk_written hw (ha e rfl)]
  | some e :: args => by
    rintro _ i sc ⟨_, _, he, hrest, rfl⟩
    refine ((he.inject hw _ _ _ _).pair (hrest.inject hw _ _ _ _)).map (fun p => some p.1 :: p.2)
      (fun p => some p.1 :: p.2) ?_
    rintro ⟨x, xs⟩ ⟨_, xs'⟩ ⟨rfl, hxs⟩
    exact ⟨xs', hxs, rfl⟩

theorem exprsWritten.inject (hw : w.Fills env captured) : ∀ (es es' : List Expr)
    (sc : ScopeStack), exprsWritten w es es' →
      InjectsAlike Eq (exprsWalk (injector env captured) sc es)
        (exprsWalk (injector env captured) sc es')
  | [] => by
    rintro _ sc rfl
    exact .yield rfl
  | e :: es => by
    rintro _ sc ⟨_, _, he, hrest, rfl⟩
    exact ((he.inject hw _ _ _ _).pair (hrest.inject hw _ _ _)).map (fun p => p.1 :: p.2)
      (fun p => p.1 :: p.2) fun _ _ h => congrArg₂ _ h.1 h.2

theorem branchesWritten.inject (hw : w.Fills env captured) :
    ∀ (branches branches' : List (Expr × Expr)) (sc : ScopeStack),
      branchesWritten w branches branches' →
        InjectsAlike Eq (branchesWalk (injector env captured) sc branches)
          (branchesWalk (injector env captured) sc branches')
  | [] => by
    rintro _ sc rfl
    exact .yield rfl
  | (condition, result) :: branches => by
    rintro _ sc ⟨_, _, _, hcondition, hresult, hrest, rfl⟩
    exact (((hcondition.inject hw _ _ _ _).pair (hresult.inject hw _ _ _ _)).pair
      (hrest.inject hw _ _ _)).map (fun p => p.1 :: p.2) (fun p => p.1 :: p.2)
      fun _ _ h => congrArg₂ _ (Prod.ext h.1.1 h.1.2) h.2

theorem stmtsWritten.inject (hw : w.Fills env captured) : ∀ (stmts stmts' : List Stmt)
    (sc : ScopeStack), stmtsWritten w stmts stmts' →
      InjectsAlike Eq (stmtsWalk (injector env captured) sc stmts)
        (stmtsWalk (injector env captured) sc stmts')
  | [] => by
    rintro _ sc rfl
    exact .yield rfl
  | stmt :: stmts => by
    rintro _ sc ⟨stmt', rest, hstmt, hrest, rfl⟩
    have htail := hrest.inject hw _ _ (sc.after stmt)
    exact ((hstmt.inject hw _ _ sc).pair htail).map (fun p => p.1 :: p.2) (fun p => p.1 :: p.2)
      (fun _ _ h => congrArg₂ _ h.1 h.2) (fun _ => rfl)
      fun st => by rw [stmtsWalk, hstmt.after_eq]

theorem Stmt.Written.inject (hw : w.Fills env captured) : ∀ (stmt stmt' : Stmt)
    (sc : ScopeStack), stmt.Written w stmt' →
      InjectsAlike Eq (stmt.walk (injector env captured) sc)
        (stmt'.walk (injector env captured) sc)
  | .expr e => by
    rintro _ sc ⟨_, he, rfl⟩
    exact (he.inject hw _ _ _ _).map .expr .expr fun _ _ h => congrArg _ h
  | .var head init => by
    rintro _ sc ⟨_, hinit, rfl⟩
    exact (hinit.inject hw _ _ _ _).map (.var head) (.var head) fun _ _ h => congrArg _ h
  | .decl d => by
    rintro _ sc ⟨_, hd, rfl⟩
    exact (hd.inject hw _ _ _).map .decl .decl fun _ _ h => congrArg _ h

theorem paramsWritten.inject (hw : w.Fills env captured) {capturing : Bool} :
    ∀ (params params' : List Param) (sc : ScopeStack), paramsWritten w capturing params params' →
      InjectsAlike Eq (paramsWalk (injector env captured) sc params)
        (paramsWalk (injector env captured) sc params')
  | [] => by
    rintro _ sc rfl
    exact .yield rfl
  | ⟨head, default⟩ :: params => by
    rintro _ sc ⟨_, _, hdefault, -, hrest, rfl⟩
    exact ((hdefault.inject hw _ _ _ _).pair (hrest.inject hw _ _ _)).map
      (fun p => ⟨head, p.1⟩ :: p.2) (fun p => ⟨head, p.1⟩ :: p.2)
      fun _ _ h => congrArg₂ (fun d ps => ⟨head, d⟩ :: ps) h.1 h.2

theorem Body.Written.inject (hw : w.Fills env captured) : ∀ (body body' : Body)
    (sc : ScopeStack), body.Written w body' →
      InjectsAlike Eq (body.walk (injector env captured) sc)
        (body'.walk (injector env captured) sc)
  | .absent => by
    rintro _ sc rfl
    exact .yield rfl
  | .block stmts => by
    rintro _ sc ⟨_, hstmts, rfl⟩
    exact (hstmts.inject hw _ _ _).map .block .block fun _ _ h => congrArg _ h
  | .expression e => by
    rintro _ sc ⟨_, he, rfl⟩
    exact (he.inject hw _ _ _ _).map .expression .expression fun _ _ h => congrArg _ h

theorem Decl.Written.inject (hw : w.Fills env captured) : ∀ (d d' : Decl) (sc : ScopeStack),
    d.Written w d' →
      InjectsAlike Eq (d.walk (injector env captured) sc) (d'.walk (injector env captured) sc)
  | .classDecl head info members => by
    rintro _ sc ⟨_, hmembers, rfl⟩
    exact (hmembers.inject hw _ _ _).map (.classDecl head info) (.classDecl head info)
      fun _ _ h => congrArg _ h
  | .function head info params body => by
    rintro _ sc ⟨params', body', hparams, hbody, rfl⟩
    have hparts := (hparams.inject hw _ _ (sc.inFunction head.id params)).pair
      (hbody.inject hw _ _ (sc.inFunction head.id params))
    exact hparts.map (fun p => .function head info p.1 p.2) (fun p => .function head info p.1 p.2)
      (fun _ _ h => congrArg₂ _ h.1 h.2) (fun _ => rfl)
      fun st => by rw [Decl.walk, hparams.inFunction_eq]; rfl
  | .property head info backing getter setter => by
    rintro _ sc ⟨_, _, _, hbacking, hgetter, hsetter, rfl⟩
    exact (((hbacking.inject hw _ _ _).pair (hgetter.inject hw _ _ _)).pair
      (hsetter.inject hw _ _ _)).map (fun p => .property head info p.1.1 p.1.2 p.2)
      (fun p => .property head info p.1.1 p.1.2 p.2)
      fun _ _ h => by rw [h.1.1, h.1.2, h.2]
  | .field head info init => by
    rintro _ sc ⟨_, hinit, rfl⟩
    exact (hinit.inject hw _ _ _ _).map (.field head info) (.field head info)
      fun _ _ h => congrArg _ h
  | .initializer head body => by
    rintro _ sc ⟨_, hbody, rfl⟩
    exact (hbody.inject hw _ _ _).map (.initializer head) (.initializer head)
      fun _ _ h => congrArg _ h

theorem accessorWritten.inject (hw : w.Fills env captured) : ∀ (d d' : Option Decl)
    (sc : ScopeStack), accessorWritten w d d' →
      InjectsAlike Eq (accessorWalk (injector env captured) sc d)
        (accessorWalk (injector env captured) sc d')
  | none => by
    rintro _ sc rfl
    exact .yield rfl
  | some d => by
    rintro _ sc ⟨_, hd, rfl⟩
    exact (hd.inject hw _ _ _).map some some fun _ _ h => congrArg some h

theorem declsWritten.inject (hw : w.Fills env captured) : ∀ (ds ds' : List Decl)
    (sc : ScopeStack), declsWritten w ds ds' →
      InjectsAlike Eq (declsWalk (injector env captured) sc ds)
        (declsWalk (injector env captured) sc ds')
  | [] => by
    rintro _ sc rfl
    exact .yield rfl
  | d :: ds => by
    rintro _ sc ⟨_, _, hd, hrest, rfl⟩
    exact ((hd.inject hw _ _ _).pair (hrest.inject hw _ _ _)).map (fun p => p.1 :: p.2)
      (fun p => p.1 :: p.2) fun _ _ h => congrArg₂ _ h.1 h.2

end

theorem filesWritten.inject (hw : w.Fills env captured) {fs fs' : List SourceFile}
    (h : filesWritten w fs fs') :
    InjectsAlike Eq (filesWalk (injector env captured) fs)
      (filesWalk (injector env captured) fs') := by
  induction h with
  | nil => exact .yield rfl
  | @cons f _ _ _ hf _ ih =>
    obtain ⟨ds', hds, rfl⟩ := hf
    exact ((hds.inject hw _ _ {}).pair ih).map (fun p => { f with declarations := p.1 } :: p.2)
      (fun p => { f with declarations := p.1 } :: p.2)
      fun _ _ h => by rw [h.1, h.2]

/-- Injection fails on both modules with the same error, or it makes them equal. -/
theorem Module.Written.inject (hw : w.Fills env captured) {m m' : Module} (h : m.Written w m')
    (store : Store) :
    (CallerCapture.inject env captured m' store).store =
        (CallerCapture.inject env captured m store).store ∧
      ((∃ e, (CallerCapture.inject env captured m store).outcome = .error e ∧
          (CallerCapture.inject env captured m' store).outcome = .error e) ∨
        (∃ n n', (CallerCapture.inject env captured m store).outcome = .ok n ∧
          (CallerCapture.inject env captured m' store).outcome = .ok n' ∧
          (CallerCapture.inject env captured m' store).module =
            (CallerCapture.inject env captured m store).module)) := by
  obtain ⟨files', hfiles, rfl⟩ := h
  have halike := hfiles.inject hw
  have hstart : PassState.Agree { ids := m.ids, store } { ids := m.ids, store } :=
    ⟨rfl, rfl, rfl, rfl⟩
  have hagree := halike.states hstart
  have hresult := halike.results hstart
  unfold CallerCapture.inject Module.runVisitor
  generalize filesWalk (injector env captured) m.files { ids := m.ids, store } = r at hagree hresult ⊢
  generalize filesWalk (injector env captured) files' { ids := m.ids, store } = r' at hagree hresult ⊢
  refine ⟨hagree.store, ?_⟩
  simp only [PassResult.ofWalk, hagree.failure]
  cases hfailure : r.2.failure with
  | some e => exact .inl ⟨e, rfl, rfl⟩
  | none => exact .inr ⟨_, _, rfl, rfl, by rw [hresult hfailure, hagree.ids]⟩

end TraceWeave

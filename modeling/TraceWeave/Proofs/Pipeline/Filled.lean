import TraceWeave.Proofs.Capture.Filling
import TraceWeave.Proofs.Pipeline.Intrinsics
import TraceWeave.Proofs.Pipeline.Marks

/-! # Filled arguments and replaced calls

When injection has succeeded, every call outside of the intrinsic calls gives all arguments that it
captures: injection finds nothing more to fill. Dispatch leaves the marks that stand outside of the
intrinsic calls and no others.

`CallerCapture.Filled` is said of one call, and `CallerCapture.inject_fillsCalls` of all calls
after injection. `Dispatch.run_marks` is the other half.
-/

namespace TraceWeave

namespace CallerCapture

variable {env : PassEnv} {captured : CapturedDefaults}

/-! ## Arguments -/

/-- Whether no captured argument is omitted. -/
def covers : List String → List Bool → Bool
  | [], _ => true
  | _ :: _, [] => false
  | mode :: modes, given :: rest => (mode == noCapture || given) && covers modes rest

section

variable {fresh : Nat → String → Except Error Expr}

/-- Where filling has met no error, no captured argument is omitted any more. -/
theorem covers_fillArgs : ∀ (modes : List String) (i : Nat) (args : List (Option Expr)),
    (fillArgs fresh i (padArgs modes.length args) modes).2.2 = none →
      covers modes ((fillArgs fresh i (padArgs modes.length args) modes).1.map Option.isSome) = true
  | [], _, _, _ => rfl
  | mode :: modes, i, args, h => by
    -- padded arguments start with an argument of their own or an omitted one
    obtain ⟨a, rest, hpad⟩ : ∃ a rest,
        padArgs (mode :: modes).length args = a :: padArgs modes.length rest := by
      cases args with
      | nil => exact ⟨none, [], padArgs_nil _⟩
      | cons a rest => exact ⟨a, rest, padArgs_cons _ _ _⟩
    rw [hpad] at h ⊢
    rw [fillArgs] at h ⊢
    split at h
    · rename_i hkept
      rw [if_pos hkept]
      exact Bool.and_eq_true_iff.mpr ⟨hkept, covers_fillArgs modes (i + 1) rest h⟩
    · rename_i hfill
      rw [if_neg hfill]
      cases hfresh : fresh i mode with
      | error e =>
        rw [hfresh] at h
        cases h
      | ok e =>
        rw [hfresh] at h
        exact Bool.and_eq_true_iff.mpr
          ⟨Bool.or_true _, covers_fillArgs modes (i + 1) rest h⟩

/-- Where no captured argument is omitted, there is nothing to pad or to fill. -/
theorem fillArgs_of_covers : ∀ (modes : List String) (i : Nat) (args : List (Option Expr)),
    covers modes (args.map Option.isSome) = true →
      fillArgs fresh i (padArgs modes.length args) modes = (args, 0, none)
  | [], i, args, _ => by
    rw [List.length_nil, padArgs_zero]
    cases args <;> rfl
  | mode :: modes, i, arg :: args, h => by
    obtain ⟨hkept, hrest⟩ := Bool.and_eq_true_iff.mp h
    rw [List.length_cons, padArgs_cons, fillArgs, if_pos hkept,
      fillArgs_of_covers modes (i + 1) args hrest]

end

/-! ## Injection -/

/-- A call that gives all arguments it captures. -/
def Filled (env : PassEnv) (f : CallFace) : Prop :=
  ∃ modes?, modesOf env f.callee = .ok modes? ∧ ∀ modes ∈ modes?, covers modes f.given = true

/-- What injection makes of an expression, if it does not fail: it leaves it, or it fills the
arguments of a call. -/
theorem injector_cases {sc : ScopeStack} {place : Place} {e : Expr} {st : PassState}
    (h : ((injector env captured).onExpr sc place e st).2.failure = none) :
    (((injector env captured).onExpr sc place e st).1 = e ∧
      ∀ callee, e.callee? = some callee → modesOf env callee = .ok none) ∨
    ∃ s callee receiver typeArgs args modes, e = .call s callee receiver typeArgs args ∧
      modesOf env callee = .ok (some modes) ∧
      (fillArgs (freshCall env captured callee · s.span ·) 0 (padArgs modes.length args)
        modes).2.2 = none ∧
      ((injector env captured).onExpr sc place e st).1 = .call s callee receiver typeArgs
        (fillArgs (freshCall env captured callee · s.span ·) 0 (padArgs modes.length args)
          modes).1 := by
  have hedit : (injector env captured).onExpr sc place e st = injectCall env captured e st :=
    (PassState.of_edit h).2
  rw [hedit] at h ⊢
  cases e with
  | call s callee receiver typeArgs args =>
    rw [injectCall] at h ⊢
    cases hmodes : modesOf env callee with
    | error err =>
      rw [hmodes] at h
      cases h
    | ok modes? =>
      cases modes? with
      | none =>
        refine .inl ⟨rfl, fun callee' hcallee => ?_⟩
        cases hcallee
        exact hmodes
      | some modes =>
        rw [hmodes] at h
        exact .inr ⟨s, callee, receiver, typeArgs, args, modes, rfl, hmodes, h, rfl⟩
  | _ => exact .inl ⟨rfl, fun _ hcallee => absurd hcallee (Option.some_ne_none _).symm⟩

theorem argsTours_cons (arg : Option Expr) (args : List (Option Expr)) :
    argsTours (arg :: args) = optionTours .operand arg ++ argsTours args := by
  cases arg <;> rfl

theorem argsTours_padArgs (count : Nat) (args : List (Option Expr)) :
    argsTours (padArgs count args) = argsTours args := by
  have hnone : ∀ n, argsTours (List.replicate n none) = [] := fun n => by
    induction n with
    | zero => rfl
    | succ n ih => rw [List.replicate_succ, argsTours, ih]
  unfold padArgs
  generalize count - args.length = n
  induction args with
  | nil => exact hnone n
  | cons arg args ih => rw [List.cons_append, argsTours_cons, argsTours_cons, ih]

theorem isCut_freshCall {cut : Cut} (hcut : ∀ kind id, env.linkage.intrinsicDecl kind = .ok id →
    cut id = true) {callee : DeclId} {i : Nat} {span : Span} {mode : String} {e : Expr}
    (h : freshCall env captured callee i span mode = .ok e) : e.isCut cut = true := by
  unfold freshCall at h
  obtain ⟨kind, -, h⟩ := Except.of_bind h
  obtain ⟨intrinsic, hintrinsic, h⟩ := Except.of_bind h
  split at h
  · cases h
  · split at h <;>
    · cases h
      exact hcut kind intrinsic hintrinsic

/-- An argument and what filling has made of it. -/
inductive FilledArg (fresh : Nat → String → Except Error Expr) : Option Expr → Option Expr → Prop
  | kept (arg : Option Expr) : FilledArg fresh arg arg
  | filled {i : Nat} {mode : String} {e : Expr} (h : fresh i mode = .ok e) :
      FilledArg fresh none (some e)

theorem fillArgs_forall₂ (fresh : Nat → String → Except Error Expr) :
    ∀ (i : Nat) (args : List (Option Expr)) (modes : List String),
      List.Forall₂ (FilledArg fresh) args (fillArgs fresh i args modes).1
  | _, [], _ => by
    unfold fillArgs
    exact .nil
  | _, _ :: _, [] => by
    unfold fillArgs
    exact List.forall₂_same.mpr fun _ _ => .kept _
  | i, arg :: args, mode :: modes => by
    have ih := fillArgs_forall₂ fresh (i + 1) args modes
    rw [fillArgs]
    split
    · exact .cons (.kept _) ih
    · rename_i hfill
      obtain ⟨-, rfl⟩ : mode ≠ noCapture ∧ arg = none := by simpa using hfill
      split
      · exact .cons (.kept _) (List.forall₂_same.mpr fun _ _ => .kept _)
      · rename_i e he
        exact .cons (.filled he) ih

section

variable {fresh : Nat → String → Except Error Expr} {args args' : List (Option Expr)}

/-- Filling with calls that are cut brings in no marks. -/
theorem toursMarks_filled {cut : Cut} (c : Spot)
    (hfresh : ∀ i mode e, fresh i mode = .ok e → e.isCut cut = true)
    (h : List.Forall₂ (FilledArg fresh) args args') :
    toursMarks cut c (argsTours args') = toursMarks cut c (argsTours args) := by
  induction h with
  | nil => rfl
  | cons harg _ ih =>
    rw [argsTours_cons, argsTours_cons, toursMarks_append, toursMarks_append, ih]
    cases harg with
    | kept => rfl
    | @filled i mode e he =>
      change e.marks cut c .operand ++ [] ++ _ = _
      rw [Expr.marks_of_isCut (hfresh i mode e he)]
      rfl

/-- Filling leaves what was there. -/
theorem toursMarks_subset (cut : Cut) (c : Spot) (h : List.Forall₂ (FilledArg fresh) args args') :
    toursMarks cut c (argsTours args) ⊆ toursMarks cut c (argsTours args') := by
  induction h with
  | nil => exact List.Subset.refl _
  | cons harg _ ih =>
    rw [argsTours_cons, argsTours_cons, toursMarks_append, toursMarks_append]
    cases harg with
    | kept => exact List.append_subset.mpr ⟨List.subset_append_left _ _,
        List.subset_append_of_subset_right _ ih⟩
    | filled => exact List.subset_append_of_subset_right _ ih

end

/-- The declarations before are among the marks afterwards. -/
def KeepsDecls (xs ys : List Mark) : Prop := ∀ p, .decl p ∈ xs → .decl p ∈ ys

/-- All declarations afterwards were among the marks before, and all calls are filled. -/
def FillsCalls (env : PassEnv) (xs ys : List Mark) : Prop :=
  ∀ k ∈ ys, (∀ p, k = .decl p → k ∈ xs) ∧ ∀ f, k = .call f → Filled env f

theorem piecewise_keepsDecls : Mark.Piecewise KeepsDecls where
  nil := nofun
  append h h' p hp := by
    obtain hp | hp := List.mem_append.mp hp
    · exact List.mem_append_left _ (h p hp)
    · exact List.mem_append_right _ (h' p hp)
  decl _ _ hp := hp

theorem piecewise_fillsCalls : Mark.Piecewise (FillsCalls env) where
  nil := nofun
  append h h' := List.forall_mem_append.mpr
    ⟨fun k hk => ⟨fun p hp => List.mem_append_left _ ((h k hk).1 p hp), (h k hk).2⟩,
      fun k hk => ⟨fun p hp => List.mem_append_right _ ((h' k hk).1 p hp), (h' k hk).2⟩⟩
  decl p k hk := by
    cases List.mem_singleton.mp hk
    exact ⟨fun _ _ => hk, nofun⟩

/-- Injection leaves every declaration. -/
theorem injector_keepsDecls :
    (injector env captured).Relates KeepsDecls (fun st => st.failure = none) .none .none where
  piecewise := piecewise_keepsDecls
  leaves _ _ _ := rfl
  handsBack _ _ _ _ h := (PassState.of_edit h).1
  visit c place e st xs h hxs := by
    rw [e.isCut_none]
    have hoperands : ∀ {e' : Expr}, KeepsDecls xs (toursMarks .none c e'.operandTours) →
        KeepsDecls (xs ++ (e.callFace? c.scopes place).toList.map .call) (e'.marks .none c place) := by
      intro e' h' p hp
      rw [Expr.marks_of_isCut_eq_false e'.isCut_none]
      obtain hp | hp := List.mem_append.mp hp
      · exact List.mem_append_left _ (h' p hp)
      · obtain ⟨f, -, hf⟩ := List.mem_map.mp hp
        cases hf
    obtain ⟨hsame, -⟩ | ⟨s, callee, receiver, typeArgs, args, modes, rfl, -, -, hfilled⟩ :=
      injector_cases h
    · rw [hsame]
      exact hoperands hxs
    · rw [hfilled]
      refine hoperands fun p hp => ?_
      have hmem := hxs p hp
      rw [Expr.operandTours, toursMarks_append, List.mem_append] at hmem ⊢
      refine hmem.imp_right fun hargs => ?_
      rw [← argsTours_padArgs modes.length args] at hargs
      exact toursMarks_subset .none c (fillArgs_forall₂ _ 0 _ modes) hargs

/-- Injection fills all calls outside of those it fills them with. -/
theorem injector_fillsCalls {cut : Cut}
    (hcut : ∀ kind id, env.linkage.intrinsicDecl kind = .ok id → cut id = true) :
    (injector env captured).Relates (FillsCalls env) (fun st => st.failure = none) .none cut where
  piecewise := piecewise_fillsCalls
  leaves _ _ _ := rfl
  handsBack _ _ _ _ h := (PassState.of_edit h).1
  visit c place e st xs h hxs := by
    rw [e.isCut_none]
    -- the marks of a call are those of its operands and the call itself
    have hown : ∀ {e' : Expr} {ys : List Mark}, FillsCalls env xs (toursMarks cut c e'.operandTours) →
        (∀ f ∈ e'.callFace? c.scopes place, Filled env f) →
          FillsCalls env (xs ++ ys) (e'.marks cut c place) := by
      intro e' ys hoperands hcall
      cases he' : e'.isCut cut with
      | true =>
        rw [Expr.marks_of_isCut he']
        nofun
      | false =>
        rw [Expr.marks_of_isCut_eq_false he']
        refine piecewise_fillsCalls.append hoperands fun k hk => ?_
        obtain ⟨f, hf, rfl⟩ := List.mem_map.mp hk
        refine ⟨nofun, ?_⟩
        rintro _ ⟨⟩
        exact hcall f (Option.mem_toList.mp hf)
    obtain ⟨hsame, hnone⟩ | ⟨s, callee, receiver, typeArgs, args, modes, rfl, hmodes, hok, hfilled⟩ :=
      injector_cases h
    · rw [hsame]
      refine hown hxs fun f hf => ⟨none, ?_, nofun⟩
      cases e with
      | call =>
        cases hf
        exact hnone _ rfl
      | _ => cases hf
    · rw [hfilled]
      refine hown ?_ fun f hf => ?_
      · rw [Expr.operandTours, toursMarks_append] at hxs ⊢
        rwa [toursMarks_filled c (fun _ _ _ => isCut_freshCall hcut) (fillArgs_forall₂ _ 0 _ modes),
          argsTours_padArgs]
      · cases hf
        refine ⟨some modes, hmodes, ?_⟩
        rintro _ ⟨⟩
        exact covers_fillArgs modes 0 args hok

theorem inject_keepsDecls {m : Module} {store : Store} {n : Nat}
    (h : (inject env captured m store).outcome = .ok n) :
    KeepsDecls m.marks (inject env captured m store).module.marks :=
  (filesWalk_marks injector_keepsDecls m.files _ (Module.failure_of_runVisitor h)).2

theorem inject_fillsCalls {cut : Cut}
    (hcut : ∀ kind id, env.linkage.intrinsicDecl kind = .ok id → cut id = true) {m : Module}
    {store : Store} {n : Nat} (h : (inject env captured m store).outcome = .ok n) :
    FillsCalls env m.marks ((inject env captured m store).module.marks cut) :=
  (filesWalk_marks (injector_fillsCalls hcut) m.files _ (Module.failure_of_runVisitor h)).2

end CallerCapture

/-! ## Dispatch -/

namespace Dispatch

variable {registry : Registry} {env : PassEnv}

/-- What dispatch makes of an expression, if it accepts all kinds and does not fail: it replaces an
intrinsic call, and it leaves everything else. -/
theorem dispatcher_cases (haccepts : ∀ kind, env.options.accepts kind = true) {sc : ScopeStack}
    {place : Place} {e : Expr} {st : PassState}
    (h : ((dispatcher registry env).onExpr sc place e st).2.failure = none) :
    (e.isCut env.linkage.isIntrinsic = false ∧
      ((dispatcher registry env).onExpr sc place e st).1 = e) ∨
    (e.isCut env.linkage.isIntrinsic = true ∧ ∃ (resolved : Resolved) (site : Site),
      ((dispatcher registry env).onExpr sc place e st).1 = resolved.toExpr site) := by
  have hedit : (dispatcher registry env).onExpr sc place e st = replaceCall registry env sc e st :=
    (PassState.of_edit h).2
  rw [hedit] at h ⊢
  cases e with
  | call site callee receiver typeArgs args =>
    rw [replaceCall] at h ⊢
    cases hkind : env.linkage.intrinsicKind? callee with
    | none => exact .inl ⟨by rw [Expr.isCut, Linkage.isIntrinsic, hkind]; rfl, rfl⟩
    | some kind =>
      refine .inr ⟨by rw [Expr.isCut, Linkage.isIntrinsic, hkind]; rfl, ?_⟩
      rw [hkind] at h
      simp only [haccepts kind, if_true] at h ⊢
      split at h
      · rename_i resolved _ _
        exact ⟨resolved, site, rfl⟩
      · cases h
  | _ => exact .inl ⟨rfl, rfl⟩

theorem marks_toExpr (resolved : Resolved) (site : Site) (cut : Cut) (c : Spot) (place : Place) :
    (resolved.toExpr site).marks cut c place = [] := by
  cases resolved <;> rfl

/-- What is left has no marks but those outside of the calls that were replaced. -/
theorem dispatcher_relates (haccepts : ∀ kind, env.options.accepts kind = true) :
    (dispatcher registry env).Relates (fun xs ys => ys ⊆ xs) (fun st => st.failure = none)
      env.linkage.isIntrinsic .none where
  piecewise :=
    { nil := List.Subset.refl _
      append := fun h h' => List.append_subset.mpr
        ⟨List.subset_append_of_subset_left _ h, List.subset_append_of_subset_right _ h'⟩
      decl := fun _ => List.Subset.refl _ }
  leaves _ _ _ := rfl
  handsBack _ _ _ _ h := (PassState.of_edit h).1
  visit c place e st xs h hxs := by
    obtain ⟨hcut, hsame⟩ | ⟨hcut, resolved, site, hreplaced⟩ := dispatcher_cases haccepts h
    · rw [hcut, hsame, Expr.marks_of_isCut_eq_false e.isCut_none]
      exact List.append_subset.mpr
        ⟨List.subset_append_of_subset_left _ hxs, List.subset_append_right _ _⟩
    · rw [hreplaced, marks_toExpr]
      exact List.nil_subset _

theorem run_marks (haccepts : ∀ kind, env.options.accepts kind = true) {m : Module} {store : Store}
    {n : Nat} (h : (run registry env m store).outcome = .ok n) :
    (run registry env m store).module.marks ⊆ m.marks env.linkage.isIntrinsic :=
  (filesWalk_marks (dispatcher_relates haccepts) m.files _ (Module.failure_of_runVisitor h)).2

end Dispatch

end TraceWeave

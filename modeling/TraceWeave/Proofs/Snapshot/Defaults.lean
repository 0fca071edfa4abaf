import TraceWeave.Proofs.Dispatch.Requests
import TraceWeave.Proofs.Program.Accounts
import TraceWeave.Proofs.Snapshot.Exactly
import TraceWeave.Proofs.Snapshot.Meaning

/-! # Snapshots in the defaults of parameters

A walk goes through the defaults of a function as it goes through the body, behind all parameters.
A run binds the parameters one after the other, and evaluates a default when only those before it
are bound. So a snapshot in a default lists parameters that are not bound when it is taken, its own
one first of all, and the run fails there.

* `Dispatch.DefaultsReplaced`: what becomes of the snapshot calls in defaults.
* `FrameCapture.missing?`: the parameter at which such a capture fails, if it does.
* `Interpreter.callDefaults_foreseeing`: what is foreseen of captures is what happens.
* `Dispatch.snapshots_in_defaults`: all of it, for modules after dispatch.
-/

namespace TraceWeave

/-! ## Where code of defaults stands for a walk -/

/-- What is found in the defaults of a function, in which a walk sees all parameters. -/
def paramsDefaultSpots {α : Type} (l : Lookout α) (here : Option Standing) (params : List Param) :
    List (Option Standing × α) :=
  params.flatMap fun p => optionSpots l here p.default

def Decl.defaultSpots {α : Type} (l : Lookout α) : Decl → List (Option Standing × α)
  | .function head _ params _ => paramsDefaultSpots l (some (.start head.id params)) params
  | _ => []

section

variable {σ α β : Type} {v : Visitor σ} {good : σ → Prop} {known : Site → FrameCapture → Prop}
  {l : Lookout α} {l' : Lookout β} {R : Option Standing × α → Option Standing × β → Prop}

theorem paramsWalk_carries_defaults (hv : v.Carries good known l l' R) (params : List Param)
    (hc : CapturesKnown known (paramsNodes params)) : ∀ sc here st, sc.Shows here →
      good (paramsWalk v sc params st).2 →
      List.Forall₂ R (paramsDefaultSpots l here params)
        (paramsDefaultSpots l' here (paramsWalk v sc params st).1) := by
  induction params with
  | nil => exact fun _ _ _ _ _ => .nil
  | cons p params ih =>
    obtain ⟨head, default⟩ := p
    intro sc here st hsc h
    have hdefault := paramsWalk_handsBack hv.handsBack params _ _ h
    exact List.rel_append (optionWalk_carries hv default hc.cons.left sc here _ _ hsc hdefault)
      (ih hc.cons.right sc here _ hsc h)

/-- What is found in the defaults of a declaration is carried over. -/
theorem Decl.walk_carries_defaults (hv : v.Carries good known l l' R)
    (hdecl : ∀ sc d st, (v.onDecl sc d st).1 = d) (d : Decl) (hc : CapturesKnown known d.nodes)
    (sc : ScopeStack) (st : σ) (h : good (d.walk v sc st).2) :
    List.Forall₂ R (d.defaultSpots l) ((d.walk v sc st).1.defaultSpots l') := by
  rw [d.walk_eq] at h ⊢
  rw [hdecl]
  have hbelow := hv.handsBack.onDecl _ _ _ h
  cases d with
  | function head info params body =>
    have hparams := body.walk_handsBack hv.handsBack _ _ hbelow
    simp only [walkBelow, defaultSpots, Standing.start_walk]
    exact paramsWalk_carries_defaults hv params hc.cons.left _ _ _ (.inFunction sc head.id params)
      hparams
  | classDecl | property | field | initializer => exact .nil

end

/-! ## What dispatch makes of defaults -/

/-- A declaration of a module without captures has none. -/
theorem Module.capturesKnown_of_mem {m : Module}
    (hm : ∀ site capture, .expr (.captureFrame site capture) ∉ m.nodes) {d : Decl}
    (hd : d ∈ m.decls) : CapturesKnown (fun _ _ => False) d.nodes := by
  have hnone : m.captures = [] := CapturesKnown.eq_nil hm m.locates
  have hspots : d.spots .captures = [] :=
    List.subset_nil.mp (hnone ▸ m.locates.decls d hd)
  have hcaptures : d.nodes.filterMap Node.capture? = [] := by
    rw [← d.locates.captures, hspots]
    rfl
  intro site capture hmem
  exact nomatch List.filterMap_eq_nil_iff.mp hcaptures _ hmem

theorem paramsDefaultSpots_of_no_captures (here : Option Standing) : ∀ params : List Param,
    CapturesKnown (fun _ _ => False) (paramsNodes params) →
      paramsDefaultSpots .captures here params = []
  | [], _ => rfl
  | ⟨_, default⟩ :: params, hc => by
    rw [paramsDefaultSpots, List.flatMap_cons, hc.cons.left.eq_nil (option_locates default here)]
    exact paramsDefaultSpots_of_no_captures here params hc.cons.right

theorem Decl.defaultSpots_of_no_captures {d : Decl}
    (hc : CapturesKnown (fun _ _ => False) d.nodes) : d.defaultSpots .captures = [] := by
  cases d with
  | function head info params body => exact paramsDefaultSpots_of_no_captures _ params hc.cons.left
  | classDecl | property | field | initializer => rfl

namespace Dispatch

variable {env : PassEnv} {m : Module} {store : Store} {n : Nat}

/-- What takes the place of a call declares nothing. -/
theorem declsOf_onExpr {registry : Registry} (sc : ScopeStack) (place : Place) (e : Expr)
    (st : PassState) :
    declsOf ((dispatcher registry env).onExpr sc place e st).1.nodes ⊆ declsOf e.nodes := by
  have hvisited : Visited registry env sc e st ((dispatcher registry env).onExpr sc place e st) :=
    visited
  generalize (dispatcher registry env).onExpr sc place e st = r at hvisited ⊢
  cases hvisited with
  | halted | spared | refused => exact List.Subset.refl _
  | replaced _ call _ resolved =>
    have hnone : declsOf (resolved.toExpr call.site).nodes = [] := by cases resolved <;> rfl
    dsimp only
    rw [hnone]
    exact List.nil_subset _

/-- A function of the dispatched module and the one that it was before. Each snapshot call in its
defaults has become a capture, which lists the variables that the walk sees at the call. -/
def DefaultsReplaced (env : PassEnv) (d d' : Decl) : Prop :=
  d'.husk = d.husk ∧
    List.Forall₂ Replaces (d.defaultSpots (.snapshotCalls env)) (d'.defaultSpots .captures)

theorem defaultsReplaced_of_run (hm : ∀ site capture, .expr (.captureFrame site capture) ∉ m.nodes)
    (h : (run Handlers.defaults env m store).outcome = .ok n) :
    ∀ d' ∈ declsOf (filesNodes (run Handlers.defaults env m store).module.files),
      ∃ d ∈ declsOf (filesNodes m.files), DefaultsReplaced env d d' := by
  have hdecls := (filesWalk_accounts (Visitor.accounts_walkedDecls dispatcher_handsBack
    declsOf_onExpr fun _ _ _ => rfl) m.files { ids := m.ids, store }
    (v := dispatcher Handlers.defaults env)) (Module.failure_of_runVisitor h)
  intro d' hd'
  obtain ⟨d, hd, sc, st, hst, rfl⟩ := hdecls.2 d' hd'
  have hmem : d ∈ m.decls := by
    rw [Module.decls, m.nodes_eq, declsOf_append]
    exact List.mem_append_left _ hd
  refine ⟨d, hd, ?_, ?_⟩
  · rw [d.walk_eq]
    exact d.husk_walkBelow _ _ _
  · exact d.walk_carries_defaults dispatcher_carries (fun _ _ _ => rfl)
      (m.capturesKnown_of_mem hm hmem) sc st hst

/-- All captures in defaults list what the walk sees there. -/
theorem allFine_of_run (hm : ∀ site capture, .expr (.captureFrame site capture) ∉ m.nodes)
    (h : (run Handlers.defaults env m store).outcome = .ok n) :
    ∀ d ∈ (run Handlers.defaults env m store).module.decls,
      AllFine (fun c vars => c.vars = vars) (d.defaultSpots .captures) := by
  intro d' hd'
  rw [Module.decls, Module.nodes_eq, declsOf_append, List.mem_append] at hd'
  obtain hd' | hd' := hd'
  · obtain ⟨d, -, -, hreplaced⟩ := defaultsReplaced_of_run hm h d' hd'
    exact allFine_of_replaces hreplaced
  · have hmem : d' ∈ m.decls := by
      rw [Module.decls, m.nodes_eq, declsOf_append]
      exact List.mem_append_right _ hd'
    rw [Decl.defaultSpots_of_no_captures (m.capturesKnown_of_mem hm hmem)]
    exact fun y hy => absurd hy List.not_mem_nil

end Dispatch

/-! ## Foreseen failures -/

/-- The variables of parameters. -/
def paramVars (params : List Param) : List VarId := params.map fun p => p.head.id

/-- The variable that is not bound when a default comes to a capture, if there is one. The default
belongs to the first one of the parameters `rest`. The parameters before it are bound, and so are
the variables that the capture lists behind all parameters. -/
def FrameCapture.missing? (c : FrameCapture) (before rest : List Param) : Option VarId :=
  (paramVars rest).find? fun v =>
    v ∉ paramVars before ++ c.vars.drop (paramVars (before ++ rest)).length

/-- Foresees what captures in a default come to: the current values of their variables, or the
failure that the first missing one gives. -/
def Observer.foreseeing (alarm : Error) (before rest : List Param) : Observer where
  expr _ e step :=
    match e with
    | .captureFrame s capture =>
      match capture.missing? before rest with
      | some var => Eval.refuseAt s!"captured variable {var.text} is not bound" s.span
      | none => Eval.record alarm capture
    | _ => step

namespace Interpreter

/-- The values of variables of which one is not bound. -/
theorem captureValues_refuses (span : Span) {f : Frame} {var : VarId} {behind : List VarId}
    (hvar : f.find? var = none) : ∀ (entries : List CapturedLocal) (front : List VarId),
      entries.map CapturedLocal.var = front ++ var :: behind → f.Binds front →
        captureValues span f entries =
          Eval.refuseAt s!"captured variable {var.text} is not bound" span
  | [], front, h, _ => by
    have hlength := congrArg List.length h
    simp at hlength
  | entry :: entries, [], h, _ => by
    rw [List.map_cons, List.nil_append, List.cons.injEq] at h
    rw [captureValues, h.1, hvar]
  | entry :: entries, x :: front, h, hfront => by
    rw [List.map_cons, List.cons_append, List.cons.injEq] at h
    obtain ⟨value, hvalue⟩ := Option.isSome_iff_exists.mp (hfront x List.mem_cons_self)
    have ih := captureValues_refuses span hvar entries front h.2
      fun v hv => hfront v (List.mem_cons_of_mem _ hv)
    rw [captureValues, h.1, hvalue, ih]
    rfl

/-- What is known in a default: earlier parameters are bound, and its own one and later ones are
not, although a walk sees them all. -/
def inDefault (before rest : List Param) : Upkeep :=
  .exact (paramVars (before ++ rest)) (paramVars before)

/-- What a capture in a default lists behind the parameters are the variables of blocks of the
default, which are bound with the earlier parameters. -/
theorem of_knows_inDefault {before rest : List Param} {c : FrameCapture} {f : Frame}
    (hf : (inDefault before rest).Knows c.vars f) :
    c.vars = paramVars before ++ (paramVars rest ++
        c.vars.drop (paramVars (before ++ rest)).length) ∧
      f.BindsExactly (paramVars before ++ c.vars.drop (paramVars (before ++ rest)).length) := by
  obtain ⟨locals, hvars, hbinds⟩ := hf
  have hdrop : c.vars.drop (paramVars (before ++ rest)).length = locals := by
    rw [hvars, List.drop_left]
  refine ⟨?_, hdrop ▸ hbinds⟩
  rw [hdrop, hvars, ← List.append_assoc]
  exact congrArg (· ++ locals) List.map_append

/-- A capture that lists a parameter that is not bound yet refuses to run, at the first one. -/
theorem evalCapture_refuses {before rest : List Param} {c : FrameCapture} {var : VarId}
    (hmissing : c.missing? before rest = some var) (s : Site) {f : Frame}
    (hknown : (inDefault before rest).Knows c.vars f) (frames : List Frame) (l : List HostCall) :
    evalCapture s c ⟨f :: frames, l⟩ =
      (Eval.refuseAt s!"captured variable {var.text} is not bound" s.span : Eval Flow)
        ⟨f :: frames, l⟩ := by
  obtain ⟨hvar, front, behind, hrest, hfront⟩ := List.find?_eq_some_iff_append.mp hmissing
  obtain ⟨hlist, hf⟩ := of_knows_inDefault hknown
  have hunbound : f.find? var = none := by
    rw [← Option.not_isSome_iff_eq_none, hf var]
    exact of_decide_eq_true hvar
  have hbound : f.Binds (paramVars before ++ front) := by
    intro v hv
    obtain hv | hv := List.mem_append.mp hv
    · exact (hf v).mpr (List.mem_append_left _ hv)
    · exact (hf v).mpr (by simpa using hfront v hv)
  have hentries : c.entries.map CapturedLocal.var = (paramVars before ++ front) ++ var ::
      (behind ++ c.vars.drop (paramVars (before ++ rest)).length) := by
    rw [show c.entries.map CapturedLocal.var = c.vars from rfl]
    conv_lhs => rw [hlist, hrest]
    simp only [List.append_assoc, List.cons_append]
  rw [evalCapture, Eval.andThen_done (Eval.frame_eq f frames l),
    captureValues_refuses s.span hunbound c.entries _ hentries hbound]
  rfl

/-- A capture that lists what the walk sees comes to what is foreseen. -/
theorem foreseeing_within (alarm : Error) (before rest : List Param) (own : DeclId) (s : Site)
    (c : FrameCapture) (vars : List VarId) (hc : c.vars = vars) :
    Within (inDefault before rest) .expr vars
      ((Observer.foreseeing alarm before rest).expr own (.captureFrame s c) (evalCapture s c))
      (evalCapture s c) := by
  subst hc
  simp only [Observer.foreseeing]
  cases hmissing : c.missing? before rest with
  | none =>
    refine .record (fun f hknown => ?_) alarm s
    obtain ⟨hlist, hf⟩ := of_knows_inDefault hknown
    intro v hv
    rw [hlist, List.mem_append, List.mem_append] at hv
    refine (hf v).mpr ?_
    obtain hv | hv | hv := hv
    · exact List.mem_append_left _ hv
    · by_contra hunbound
      exact List.find?_eq_none.mp hmissing v hv (decide_eq_true hunbound)
    · exact List.mem_append_right _ hv
  | some var =>
    intro f frames l _ hknown
    refine ⟨(evalCapture_refuses hmissing s hknown frames l).symm, fun flow after hdone => ?_⟩
    cases hdone

/-! ## Runs in which defaults are observed -/

/-- Binds parameters to arguments or to their defaults. Each default is run under an observer of its
own, which is given the parameters before it and those from it on. -/
def bindObserved (a : Activation) (inDefault : List Param → List Param → Observer)
    (functionName : String) : List Param → List Param → List (Option Value) → Eval Unit
  | _, [], _ => Eval.yield ()
  | before, p :: ps, args =>
    Eval.andThen (paramValue { a with observer := inDefault before (p :: ps) } functionName p
      args.head?.join) fun v =>
      Eval.andThen (Eval.declare p.head.id v) fun _ =>
        bindObserved a inDefault functionName (before ++ [p]) ps args.tail

/-- The defaults of parameters are run under other observers than the bodies of functions. -/
def runDefaults (p : Interpreter) (inDefault : List Param → List Param → Observer) (rounds : Nat) :
    Nat → DeclId → FunctionHead → List Param → Body → List (Option Value) → Eval Value
  | 0, _, _, _, _, _ => fun m => (.outOfFuel, m)
  | depth + 1, id, info, params, body, args =>
    let a : Activation :=
      { function := id, rounds, observer := p.observer,
        call := p.invoke (p.runDefaults inDefault rounds depth) }
    Eval.andThen (bindObserved a inDefault info.name [] params args) fun _ =>
      Eval.andThen (p.observer.body id (body.eval a)) (leaveFunction id info)

/-- Calls a function with all arguments given, and observes the defaults that are run. -/
def callDefaults (p : Interpreter) (inDefault : List Param → List Param → Observer) (rounds : Nat)
    (id : DeclId) (args : List Value) : Eval Value :=
  p.invoke (p.runDefaults inDefault rounds maxCallDepth) id (args.map some) (p.callSpan id)

theorem within_of_inDefault {α : Type} {before rest : List Param} {x y : Eval α}
    (h : Within (inDefault before rest) .expr (paramVars (before ++ rest)) x y) :
    Within (.exact [] []) .expr (paramVars before) x y := by
  rintro f frames l hf ⟨locals, rfl, hbinds⟩
  refine h f frames l hf ⟨[], (List.append_nil _).symm, ?_⟩
  rw [List.append_nil]
  exact hbinds

/-- Where parameters are bound, exactly those before are bound already. -/
theorem bindObserved_within {α : Type} {fine : FrameCapture → List VarId → Prop} {a b : Activation}
    {observers : List Param → List Param → Observer} (own : DeclId) (name : String)
    {next next' : Eval α} : ∀ (rest before : List Param) (args : List (Option Value)),
      (∀ before' rest', before' ++ rest' = before ++ rest →
        Activation.SameWithin (inDefault before' rest') fine
          { a with observer := observers before' rest' } b) →
      AllFine fine (paramsDefaultSpots .captures (some ⟨own, paramVars (before ++ rest)⟩) rest) →
      Within (.exact [] []) .stmts (paramVars (before ++ rest)) next next' →
      Within (.exact [] []) .stmts (paramVars before)
        (Eval.andThen (bindObserved a observers name before rest args) fun _ => next)
        (Eval.andThen (bindParams b name rest args) fun _ => next')
  | [], before, args, _, _, hnext => by
    rw [List.append_nil] at hnext
    exact hnext
  | p :: rest, before, args, hsame, hfine, hnext => by
    obtain ⟨hdefault, hrest⟩ :
        AllFine fine (optionSpots .captures (some ⟨own, paramVars (before ++ p :: rest)⟩) p.default) ∧
          AllFine fine (paramsDefaultSpots .captures
            (some ⟨own, paramVars (before ++ p :: rest)⟩) rest) := AllFine.append_iff.mp hfine
    rw [bindObserved, bindParams, Eval.andThen_assoc, Eval.andThen_assoc]
    have hvalue : Within (inDefault before (p :: rest)) .expr (paramVars (before ++ p :: rest))
        (paramValue { a with observer := observers before (p :: rest) } name p args.head?.join)
        (paramValue b name p args.head?.join) := by
      unfold paramValue
      split
      · exact .same (.yield _)
      · split
        · rename_i e he
          rw [he] at hdefault
          exact evalOperand_within (hsame before (p :: rest) rfl) e own _ hdefault
        · exact .same (.fail _)
    refine (within_of_inDefault hvalue).andThen fun v => ?_
    rw [Eval.andThen_assoc, Eval.andThen_assoc]
    have happend : before ++ p :: rest = before ++ [p] ++ rest := by
      rw [List.append_assoc, List.singleton_append]
    rw [happend] at hsame hrest hnext
    have ih := bindObserved_within own name rest (before ++ [p]) args.tail hsame hrest hnext
    refine .declare p.head.id v ?_
    rwa [paramVars, List.map_append, List.map_singleton] at ih

theorem runDefaults_within {m : Module}
    (hm : ∀ d ∈ m.decls, AllFine (fun c vars => c.vars = vars) (d.defaultSpots .captures))
    (hosts : HostTable) (alarm : Error) (rounds : Nat) : ∀ depth id head info params body,
      (ofModule m hosts).decl? id = some (.function head info params body) → ∀ args,
      Within (.exact [] []) .stmts []
        ((ofModule m hosts).runDefaults (.foreseeing alarm) rounds depth id info params body args)
        ((ofModule m hosts).runWithin rounds depth id info params body args)
  | 0, _, _, _, _, _, _, _ => .same .outOfFuel
  | depth + 1, id, head, info, params, body, hd, args => by
    have hcall := invoke_same fun id head info params body hd args =>
      (runDefaults_within hm hosts alarm rounds depth id head info params body hd args).inFrame
        Upkeep.exact_start
    have hfine := hm _ (mem_of_decl? hd).1
    refine bindObserved_within head.id info.name params [] args (fun before rest _ => ?_) hfine ?_
    · exact
        { rounds := rfl
          call := hcall
          seen := fun {e vars x y} he h => by
            cases e with
            | captureFrame s c => exact absurd rfl (he s c)
            | _ => exact h
          returned := fun _ _ _ _ _ h => h
          capture := foreseeing_within alarm before rest id }
    · -- bodies are run as they are
      refine Within.of_expr ?_
      have hbody : Activation.SameWithin (.exact [] []) (fun _ _ => True)
          ⟨id, rounds, {}, (ofModule m hosts).invoke
            ((ofModule m hosts).runDefaults (.foreseeing alarm) rounds depth)⟩
          ⟨id, rounds, {}, (ofModule m hosts).invoke ((ofModule m hosts).runWithin rounds depth)⟩ :=
        ⟨rfl, hcall, fun _ h => h, fun _ _ _ _ _ h => h, fun s c _ _ => .evalCapture s c⟩
      exact (body.eval_within hbody id _ fun _ _ _ _ => trivial).andThen
        fun flow => .same (stays_leaveFunction id info flow)

/-- **Foreseen runs.** If captures in defaults list what a walk sees there, what is foreseen of them
is what happens. -/
theorem callDefaults_foreseeing {m : Module}
    (hm : ∀ d ∈ m.decls, AllFine (fun c vars => c.vars = vars) (d.defaultSpots .captures))
    (hosts : HostTable) (alarm : Error) (rounds : Nat) (id : DeclId) (args : List Value) :
    (ofModule m hosts).callDefaults (.foreseeing alarm) rounds id args =
      (ofModule m hosts).callWithin rounds id args := by
  refine (invoke_same (fun id head info params body hd args => ?_) id _ _).eq
  exact (runDefaults_within hm hosts alarm rounds maxCallDepth id head info params body hd args).inFrame
    Upkeep.exact_start

end Interpreter

namespace Dispatch

open Interpreter

/-- **Snapshots in defaults list what is not bound.** In the default of a parameter as in a body,
dispatch puts a capture in the place of every snapshot call, but there the capture lists all
parameters of the function. In every run such a capture fails for the first parameter from its own
one on whose variable is not that of an earlier parameter or of a block around the capture, and
only if there is none it comes to the current values. -/
theorem snapshots_in_defaults {env : PassEnv} {m : Module} {store : Store} {n : Nat}
    (hm : ∀ site capture, .expr (.captureFrame site capture) ∉ m.nodes)
    (hdispatch : (run Handlers.defaults env m store).outcome = .ok n) :
    (∀ d' ∈ declsOf (filesNodes (run Handlers.defaults env m store).module.files),
      ∃ d ∈ declsOf (filesNodes m.files), DefaultsReplaced env d d') ∧
    ∀ hosts alarm rounds id args,
      (ofModule (run Handlers.defaults env m store).module hosts).callDefaults (.foreseeing alarm)
          rounds id args =
        (ofModule (run Handlers.defaults env m store).module hosts).callWithin rounds id args :=
  ⟨defaultsReplaced_of_run hm hdispatch, fun hosts alarm rounds id args =>
    callDefaults_foreseeing (allFine_of_run hm hdispatch) hosts alarm rounds id args⟩

/-! ### A default that takes a snapshot -/

namespace DefaultSample

open TraceWeave.Sample (span)
open Dispatch.Sample (snapshotTy snapshotCall library envOf)

/-- A function whose parameter is a snapshot by default. -/
def taking : Decl :=
  .function { id := ⟨1⟩, span := span 10 } { name := "taking", returnTy := snapshotTy }
    [⟨{ id := ⟨5⟩, name := "at", ty := snapshotTy, span := span 11 },
      some (.block ⟨span 12, snapshotTy⟩ [.expr (snapshotCall 13)])⟩]
    (.expression (.getVar ⟨span 14, snapshotTy⟩ ⟨5⟩))

/-- A function that calls it without an argument. -/
def main : Decl :=
  .function { id := ⟨0⟩, span := span 1 } { name := "main", returnTy := snapshotTy } []
    (.expression (.call ⟨span 2, snapshotTy⟩ ⟨1⟩ none [] []))

def program : Module where
  name := "defaults"
  files := [{ id := ⟨0⟩, path := "Main.kt", declarations := [main, taking] }]
  external := library

def dispatched : PassResult := run Handlers.defaults (envOf program) program {}

def failure : Error := .generic "captured variable v5 is not bound [at #0:13-14]"

end DefaultSample

open DefaultSample in
/-- What is foreseen of the default is the failure for its own parameter. -/
theorem DefaultSample.failure_foreseen :
    (dispatched.module.decls.flatMap (·.defaultSpots .captures)).map (fun y => y.2.2.vars) =
        [[⟨5⟩]] ∧
      ∀ alarm, ((ofModule dispatched.module []).callDefaults (.foreseeing alarm) 1 ⟨0⟩ [] {}).1 =
        .failed failure := by
  have hnone : ∀ site capture, .expr (.captureFrame site capture) ∉ program.nodes :=
    captureFrame_notMem (by decide +kernel)
  have hdispatched : dispatched.outcome.isOk := by decide +kernel
  obtain ⟨n, hn⟩ := Except.exists_ok hdispatched
  obtain ⟨-, hruns⟩ := snapshots_in_defaults hnone hn
  refine ⟨by decide +kernel, fun alarm => ?_⟩
  rw [dispatched, hruns]
  decide +kernel

open DefaultSample in
/-- The only snapshot call is in a default, which is to see no parameter. Its capture lists one, and
the call of the function fails. -/
theorem DefaultSample.default_snapshot_fails :
    (dispatched.module.decls.flatMap (·.defaultSpots .captures)).map (fun y => y.2.2.vars) =
        [[⟨5⟩]] ∧
      ((ofModule dispatched.module []).callWithin 1 ⟨0⟩ [] {}).1 = .failed failure := by
  constructor <;> decide +kernel

end Dispatch

end TraceWeave

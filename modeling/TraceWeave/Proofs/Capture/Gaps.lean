import TraceWeave.Proofs.Capture.Modes
import TraceWeave.Proofs.Pipeline.Filled
import TraceWeave.Proofs.Program.Rebuilding
import TraceWeave.Proofs.Program.Watching

/-! # The gaps that injection fills

Extraction leaves gaps: parameters whose default was an intrinsic call and that a call may omit.
Injection behind it fills the gaps of every call and nothing else, and it does not fail: each marker
lists one mode for each parameter of its function, and the declaration that stands for a mode is a
function. This needs the declarations that intrinsic calls target to stay, so nothing may be declared
inside a default that is taken out, neither in its arguments nor in its receiver.

* `CallerCapture.FillsGaps`, `CallerCapture.Fills`: what becomes of the arguments of a call, and
  of an expression.
* `CallerCapture.Fillable.inject`: where a call can be made for each gap, injection succeeds and
  fills them.
* `CallerCapture.captured_gaps_are_filled`: this is so behind extraction.
-/

namespace TraceWeave

namespace CallerCapture

variable {env env₁ : PassEnv} {m : Module} {captured : CapturedDefaults}

/-! ## Arguments -/

/-- What becomes of an argument of a call at a span, given its parameter, if it has one: an argument
that is given stays, one that is omitted stays omitted, unless its default was taken out. -/
inductive FillsGap (env env₁ : PassEnv) (span : Span) :
    Option Param → Option Expr → Option Expr → Prop
  | given (p? : Option Param) (e : Expr) : FillsGap env env₁ span p? (some e) (some e)
  | omitted {p? : Option Param}
      (h : ∀ p, p? = some p → strippedDefault? env.linkage p.default = none) :
      FillsGap env env₁ span p? none none
  | filled {p : Param} {kind : IntrinsicKind} {call : StrippedCall} {target : DeclId} {s : Symbol}
      {f : FunctionSymbol}
      (default : strippedDefault? env.linkage p.default = some (kind, call))
      (target_eq : env₁.linkage.intrinsicDecl kind = .ok target)
      (function : env₁.symbols.function? target = some (s, f)) :
      FillsGap env env₁ span (some p) none
        (some (.call ⟨span, f.head.returnTy⟩ target none call.typeArgs call.args))

/-- What becomes of the arguments of a call, given the parameters. -/
structure FillsGaps (env env₁ : PassEnv) (span : Span) (params : List Param)
    (args args' : List (Option Expr)) : Prop where
  length : args'.length = max params.length args.length
  gap : ∀ i : Nat, FillsGap env env₁ span params[i]? args[i]?.join args'[i]?.join

section

variable {span : Span} {p : Param} {params : List Param} {args rest : List (Option Expr)}

/-- An argument whose parameter has lost no default stays. -/
theorem FillsGap.kept {p? : Option Param}
    (h : ∀ p, p? = some p → strippedDefault? env.linkage p.default = none) (a : Option Expr) :
    FillsGap env env₁ span p? a a := by
  cases a with
  | none => exact .omitted h
  | some e => exact .given p? e

theorem FillsGaps.nil (args : List (Option Expr)) : FillsGaps env env₁ span [] args args where
  length := by rw [List.length_nil, Nat.zero_max]
  gap i := .kept (fun _ hp => absurd hp (Option.some_ne_none _).symm) _

theorem FillsGaps.cons {b : Option Expr} (h : FillsGap env env₁ span (some p) args[0]?.join b)
    (hrest : FillsGaps env env₁ span params args.tail rest) :
    FillsGaps env env₁ span (p :: params) args (b :: rest) where
  length := by
    rw [List.length_cons, List.length_cons, hrest.length, List.length_tail]
    omega
  gap
    | 0 => h
    | i + 1 => by
      have hgap := hrest.gap i
      rwa [List.getElem?_tail] at hgap

theorem padArgs_succ (n : Nat) (args : List (Option Expr)) :
    padArgs (n + 1) args = args[0]?.join :: padArgs n args.tail := by
  cases args with
  | nil => exact padArgs_nil n
  | cons a args => exact padArgs_cons n a args

section

variable {fresh : Nat → String → Except Error Expr} {index : Nat} {mode : String}
  {modes : List String}

theorem fillArgs_kept {arg : Option Expr} (h : mode = noCapture ∨ arg.isSome = true) :
    fillArgs fresh index (arg :: args) (mode :: modes) =
      (arg :: (fillArgs fresh (index + 1) args modes).1,
        (fillArgs fresh (index + 1) args modes).2) := by
  rw [fillArgs, if_pos (by simpa using h)]

theorem fillArgs_filled {e : Expr} (hmode : mode ≠ noCapture) (he : fresh index mode = .ok e) :
    fillArgs fresh index (none :: args) (mode :: modes) =
      (some e :: (fillArgs fresh (index + 1) args modes).1,
        (fillArgs fresh (index + 1) args modes).2.1 + 1,
        (fillArgs fresh (index + 1) args modes).2.2) := by
  rw [fillArgs, if_neg (by simpa using hmode), he]

end

/-- Filling by the modes of parameters fills the gaps, and does not fail if a call can be made for
each of them. -/
theorem fillArgs_fillsGaps (fresh : Nat → String → Except Error Expr) :
    ∀ (params : List Param) (index : Nat) (args : List (Option Expr)),
      (∀ i p kind call, params[i]? = some p →
        strippedDefault? env.linkage p.default = some (kind, call) →
          ∃ e, fresh (index + i) kind.name = .ok e ∧
            FillsGap env env₁ span (some p) none (some e)) →
        (fillArgs fresh index (padArgs params.length args) (params.map (mode env.linkage))).2.2 =
            none ∧
          FillsGaps env env₁ span params args (fillArgs fresh index (padArgs params.length args)
            (params.map (mode env.linkage))).1
  | [], index, args, _ => by
    have hnil : fillArgs fresh index args [] = (args, 0, none) := by
      cases args <;> rfl
    rw [List.length_nil, padArgs_zero, List.map_nil, hnil]
    exact ⟨rfl, .nil args⟩
  | p :: params, index, args, hfresh => by
    have hrest : ∀ i p' kind call, params[i]? = some p' →
        strippedDefault? env.linkage p'.default = some (kind, call) →
          ∃ e, fresh (index + 1 + i) kind.name = .ok e ∧
            FillsGap env env₁ span (some p') none (some e) := by
      intro i p' kind call hp hcall
      have h := hfresh (i + 1) p' kind call hp hcall
      rwa [← Nat.add_assoc, Nat.add_right_comm] at h
    -- Padding reaches one argument further for each parameter, so the recursion takes the tails of
    -- both lists.
    obtain ⟨hfailure, hgaps⟩ := fillArgs_fillsGaps fresh params (index + 1) args.tail hrest
    rw [List.length_cons, padArgs_succ, List.map_cons]
    -- A parameter without a captured default, an argument that is written, or a gap to fill.
    cases hdefault : strippedDefault? env.linkage p.default with
    | none =>
      rw [fillArgs_kept (.inl (by rw [mode, hdefault]))]
      exact ⟨hfailure, .cons (.kept (fun _ hp => Option.some.inj hp ▸ hdefault) _) hgaps⟩
    | some taken =>
      obtain ⟨kind, call⟩ := taken
      cases hfirst : args[0]?.join with
      | some e =>
        rw [fillArgs_kept (.inr rfl)]
        exact ⟨hfailure, .cons (by rw [hfirst]; exact .given _ e) hgaps⟩
      | none =>
        obtain ⟨e, he, hgap⟩ := hfresh 0 p kind call rfl hdefault
        have hmode : mode env.linkage p = kind.name := by rw [mode, hdefault]
        rw [Nat.add_zero] at he
        rw [hmode, fillArgs_filled (ne_noCapture kind.parse_name) he]
        exact ⟨hfailure, .cons (by rw [hfirst]; exact hgap) hgaps⟩

end

/-! ## Calls -/

/-- A call can be made for every default that was taken out: of the intrinsic that stands for its
kind, with the arguments that the default had. -/
theorem exists_freshCall (h : Capturable env m) (h₁ : Extracted env m captured env₁)
    {head : DeclHead} {info : FunctionHead} {params : List Param} {body : Body}
    (hd : .function head info params body ∈ declsOf (filesNodes m.files))
    (hcapturing : isCapturing env head params = true) {i : Nat} {p : Param} {kind : IntrinsicKind}
    {call : StrippedCall} (hp : params[i]? = some p)
    (hcall : strippedDefault? env.linkage p.default = some (kind, call)) (span : Span) :
    ∃ e, freshCall env₁ (extract env m captured).2.captured head.id i span kind.name = .ok e ∧
      FillsGap env env₁ span (some p) none (some e) := by
  obtain ⟨intrinsic, hkind⟩ : ∃ intrinsic, env₁.linkage.intrinsicKind? intrinsic = some kind := by
    rw [h₁.linkage]
    obtain ⟨-, intrinsic, -, -, hkind⟩ := strippedDefault?_eq_some.mp hcall
    exact ⟨intrinsic, hkind⟩
  obtain ⟨target, htarget⟩ := Linkage.exists_intrinsicDecl h₁.linked hkind
  obtain ⟨s, f, hfunction⟩ := Linkage.exists_function_of_intrinsicDecl
    (nodup_extract h.distinct captured) h₁.linked htarget
  rw [← h₁.symbols] at hfunction
  have hown : ((declsOf (filesNodes m.files)).map Decl.id).Nodup := by
    have hids := h.distinct
    rw [declIds_eq_append] at hids
    exact (List.nodup_append.mp hids).1
  have hrecord : (extract env m captured).2.captured.lookup (head.id, i) = some call := by
    rw [(h.leaves captured).2]
    refine (lookup_recordDecls i hown hd).trans ?_
    rw [taken?, if_pos hcapturing, hp, Option.bind_some, hcall]
    rfl
  refine ⟨_, freshCall_eq kind.parse_name htarget hfunction span, ?_⟩
  rw [hrecord]
  exact .filled hcall htarget hfunction

/-- What becomes of an expression. A call of an own function that something was taken out of has its
gaps filled, everything else stays. -/
inductive Fills (env env₁ : PassEnv) (own : List Decl) : Expr → Expr → Prop
  | call {s : Site} {callee : DeclId} {receiver : Option Expr} {typeArgs : List Ty}
      {args args' : List (Option Expr)} {head : DeclHead} {info : FunctionHead}
      {params : List Param} {body : Body}
      (function : .function head info params body ∈ own) (id : head.id = callee)
      (capturing : isCapturing env head params = true)
      (gaps : FillsGaps env env₁ s.span params args args') :
      Fills env env₁ own (.call s callee receiver typeArgs args)
        (.call s callee receiver typeArgs args')
  | other {e : Expr}
      (plain : ∀ head info params body, .function head info params body ∈ own →
        e.callee? = some head.id → isCapturing env head params = false) :
      Fills env env₁ own e e

/-- What injection relies on: what the called functions are filled by, and that calls can be made for
the gaps. -/
structure Fillable (env env₁ : PassEnv) (own : List Decl) (captured : CapturedDefaults) : Prop where
  modes : ∀ callee,
    (∃ head info params body, .function head info params body ∈ own ∧ head.id = callee ∧
        isCapturing env head params = true ∧
        modesOf env₁ callee = .ok (some (params.map (mode env.linkage)))) ∨
      (∀ head info params body, .function head info params body ∈ own → head.id = callee →
        isCapturing env head params = false) ∧ modesOf env₁ callee = .ok none
  fresh : ∀ head info params body, .function head info params body ∈ own →
    isCapturing env head params = true → ∀ i p kind call, params[i]? = some p →
      strippedDefault? env.linkage p.default = some (kind, call) → ∀ span,
        ∃ e, freshCall env₁ captured head.id i span kind.name = .ok e ∧
          FillsGap env env₁ span (some p) none (some e)

section

variable {own : List Decl}

theorem Fillable.injectCall (h : Fillable env env₁ own captured) (e : Expr) {st : PassState}
    (hst : st.failure = none) :
    Fills env env₁ own e (injectCall env₁ captured e st).1 ∧
      (CallerCapture.injectCall env₁ captured e st).2.failure = none := by
  cases e with
  | call s callee receiver typeArgs args =>
    rw [CallerCapture.injectCall]
    obtain ⟨head, info, params, body, hd, rfl, hcapturing, hmodes⟩ | ⟨hplain, hmodes⟩ :=
      h.modes callee
    · rw [hmodes]
      have hfresh : ∀ i p kind call, params[i]? = some p →
          strippedDefault? env.linkage p.default = some (kind, call) →
            ∃ e, freshCall env₁ captured head.id (0 + i) s.span kind.name = .ok e ∧
              FillsGap env env₁ s.span (some p) none (some e) := by
        intro i p kind call hp hcall
        rw [Nat.zero_add]
        exact h.fresh head info params body hd hcapturing i p kind call hp hcall s.span
      obtain ⟨hfailure, hgaps⟩ :=
        fillArgs_fillsGaps (freshCall env₁ captured head.id · s.span ·) params 0 args hfresh
      rw [← List.length_map (mode env.linkage)] at hfailure hgaps
      exact ⟨.call hd rfl hcapturing hgaps, hfailure⟩
    · rw [hmodes]
      exact ⟨.other fun head info params body hd hid =>
        hplain head info params body hd (Option.some.inj hid).symm, hst⟩
  | _ => exact ⟨.other fun _ _ _ _ _ hid => absurd hid (Option.some_ne_none _).symm, hst⟩

theorem Fillable.upholds (h : Fillable env env₁ own captured) :
    (injector env₁ captured).Upholds fun st => st.failure = none where
  onExpr sc place e st hst := by
    change (PassState.edit (CallerCapture.injectCall env₁ captured) e st).2.failure = none
    rw [PassState.edit_of_none hst]
    exact (h.injectCall e hst).2
  onDecl _ _ _ hst := hst

theorem Fillable.rebuilds (h : Fillable env env₁ own captured) :
    (injector env₁ captured).Rebuilds (fun st => st.failure = none)
      fun _ => Fills env env₁ own where
  handsBack := ⟨fun _ _ _ _ hst => (PassState.of_edit hst).1, fun _ _ _ hst => hst⟩
  onExpr sc place e st hst := by
    obtain ⟨hbefore, hstep⟩ := PassState.of_edit hst
    change Fills env env₁ own e (PassState.edit (CallerCapture.injectCall env₁ captured) e st).1
    rw [hstep]
    exact (h.injectCall e hbefore).1
  onDecl _ _ _ := rfl

/-- Where all gaps can be filled, injection succeeds and fills them. -/
theorem Fillable.inject (h : Fillable env env₁ own captured) (m : Module) (store : Store) :
    (∃ n, (inject env₁ captured m store).outcome = .ok n) ∧
      filesRebuilt (fun _ => Fills env env₁ own) m.files
        (CallerCapture.inject env₁ captured m store).module.files := by
  have hfailure := filesWalk_upholds h.upholds m.files { ids := m.ids, store } rfl
  refine ⟨?_, filesWalk_rebuilds h.rebuilds m.files _ hfailure⟩
  unfold CallerCapture.inject Module.runVisitor PassResult.ofWalk
  dsimp only
  rw [hfailure]
  exact ⟨_, rfl⟩

end

/-- Extraction and injection fill exactly the gaps of the calls in a module. -/
structure FillsExactly (options : Options) (sources : Source.Provider) (env : PassEnv) (m : Module)
    (captured : CapturedDefaults) (store : Store) : Prop where
  /-- Extraction strips the functions of the own files and changes nothing else. -/
  stripped : (extract env m captured).1 =
    { m with files := (filesWalk (stripper env) m.files ()).1 }
  /-- It strips and marks those that have an intrinsic call as a default. -/
  marked : ∀ head info params body,
    .function head info params body ∈ declsOf (filesNodes m.files) →
      (isCapturing env head params = true ↔
        ∃ p ∈ params, (strippedDefault? env.linkage p.default).isSome = true)
  /-- Then there is an environment again, with the same linkage, in which exactly the marked functions
  have modes, one for each parameter. Injection succeeds and fills the gaps of every call. -/
  filled : ∃ env₁, PassEnv.build options sources (extract env m captured).1 = .ok env₁ ∧
    env₁.linkage = env.linkage ∧
    (∀ head info params body, .function head info params body ∈ declsOf (filesNodes m.files) →
      modesOf env₁ head.id = .ok (if isCapturing env head params
        then some (params.map (mode env.linkage)) else none)) ∧
    (∃ n, (inject env₁ (extract env m captured).2.captured (extract env m captured).1
      store).outcome = .ok n) ∧
    filesRebuilt (fun _ => Fills env env₁ (declsOf (filesNodes m.files)))
      (extract env m captured).1.files
      (inject env₁ (extract env m captured).2.captured (extract env m captured).1
        store).module.files

/-- In a module without markers, extraction and injection do not fail, and they fill exactly the gaps
of calls. Linkage finds the same before extraction and after it, so the markers can be read and the
calls be made that injection fills in. -/
theorem captured_gaps_are_filled {options : Options} {sources : Source.Provider}
    (hids : m.declIds.Nodup)
    (hplain : ∀ d ∈ m.decls,
      AnnotationUse.find? d.head.annotations options.callerCapture.marker = none)
    (hnames : options.callerCapture.marker ≠ options.intrinsics.markedBy)
    (hbuild : PassEnv.build options sources m = .ok env)
    (hbare : BareDefaults env.linkage (filesNodes m.files)) (captured : CapturedDefaults)
    (store : Store) : FillsExactly options sources env m captured store := by
  obtain ⟨hoptions, -, hlinked⟩ := PassEnv.build_eq_ok hbuild
  rw [← hoptions] at hnames hplain hlinked
  have hcapturable : Capturable env m := ⟨hids, hplain, hnames, hbare⟩
  -- the module after extraction is linked like the one before
  have hrelinked : Linkage.build (SymbolTable.build (extract env m captured).1) env.options =
      .ok env.linkage := (linkage_extract hnames hbare captured).trans hlinked
  obtain ⟨env₁, hbuild₁⟩ : ∃ env₁,
      PassEnv.build options sources (extract env m captured).1 = .ok env₁ := by
    rw [PassEnv.build, ← hoptions, hrelinked]
    exact ⟨_, rfl⟩
  obtain ⟨hoptions₁, hsymbols₁, hlinked₁⟩ := PassEnv.build_eq_ok hbuild₁
  rw [← hoptions] at hoptions₁ hlinked₁
  have hextracted : Extracted env m captured env₁ := ⟨hoptions₁, hsymbols₁, hlinked₁,
    Except.ok.inj (hlinked₁.symm.trans hrelinked)⟩
  have hfillable : Fillable env env₁ (declsOf (filesNodes m.files))
      (extract env m captured).2.captured := by
    refine ⟨hcapturable.modesOf_cases hextracted, ?_⟩
    intro head info params body hd hcapturing i p kind call hp hcall span
    exact exists_freshCall hcapturable hextracted hd hcapturing hp hcall span
  refine ⟨extract_eq_walk env m captured, ?_, env₁, hbuild₁, hextracted.linkage, ?_,
    hfillable.inject (extract env m captured).1 store⟩
  · intro head info params body hd
    have hunmarked := hplain _ (Module.mem_decls.mpr (.inl hd))
    rw [isCapturing, show AnnotationUse.find? head.annotations _ = none from hunmarked,
      Option.isNone_none, Bool.true_and, List.any_eq_true]
  · intro head info params body hd
    cases hcapturing : isCapturing env head params with
    | true => exact hcapturable.modesOf_marked hextracted hd hcapturing
    | false =>
      refine hcapturable.modesOf_other hextracted fun head' info' params' body' hd' hid => ?_
      cases Module.decl_unique hids (Module.mem_decls.mpr (.inl hd'))
        (Module.mem_decls.mpr (.inl hd)) hid
      exact hcapturing

/-! ## Calls of a small program -/

namespace Sample

/-- A function with a parameter of its own before one that asks for its caller. -/
def report : Decl :=
  .function { id := ⟨1⟩, span := span 10 } { name := "report", returnTy := .unit }
    [⟨{ id := ⟨3⟩, name := "text", ty := .string, span := span 13 },
        some (.ofString (span 14) "")⟩,
      ⟨{ id := ⟨0⟩, name := "caller", ty := functionTy, span := span 11 },
        some (.call ⟨span 12, functionTy⟩ ⟨100⟩ none [] [])⟩,
      ⟨{ id := ⟨4⟩, name := "more", ty := .string, span := span 15 }, none⟩]
    (.block [])

/-- A program that gives the first argument only. -/
def reporting : Module := program [] [report] [some (.ofString (span 3) "seen")]

/-- The second argument is filled in, and one edit is counted. -/
theorem report_is_filled :
    reporting.declIds.Nodup ∧
      PassEnv.build {} (fun _ => []) reporting = .ok (envOf reporting) ∧
      FillsExactly {} (fun _ => []) (envOf reporting) reporting [] {} ∧
      (inject (envOf (extract (envOf reporting) reporting []).1)
        (extract (envOf reporting) reporting []).2.captured (extract (envOf reporting) reporting []).1
        {}).outcome = .ok 1 := by
  have hids : reporting.declIds.Nodup := by decide +kernel
  exact ⟨hids, rfl, captured_gaps_are_filled hids (by decide +kernel) (by decide) rfl
    (by decide +kernel) [] {}, rfl⟩

/-- The intrinsic for the current location, where it is declared inside a function. -/
def localHere : Decl :=
  .function
    { id := ⟨100⟩, span := span 14,
      annotations :=
        [{ className := "spyglass.Intrinsic", span := span 15,
           arguments := [⟨"kind", .ofString "here"⟩] }] }
    { name := "here", returnTy := .ofClass "spyglass.SourceLocation" } [] (.block [])

/-- A function whose default declares the intrinsic that it calls in its receiver. -/
def lostTarget : Decl :=
  .function { id := ⟨1⟩, span := span 10 } { name := "log", returnTy := .unit }
    [⟨{ id := ⟨0⟩, name := "at", ty := .ofClass "spyglass.SourceLocation", span := span 11 },
      some (.call ⟨span 12, .ofClass "spyglass.SourceLocation"⟩ ⟨100⟩
        (some (.block ⟨span 13, .unit⟩ [.decl localHere])) [] [])⟩]
    (.block [])

/-- A module with no other intrinsic. -/
def losing : Module := { program [] [lostTarget] [] with external := [] }

/-- The environment of a module in which the current location is the only intrinsic. -/
def losingEnv : PassEnv where
  options := {}
  symbols := SymbolTable.build losing
  linkage := { intrinsicKinds := [(⟨100⟩, .here)], intrinsicDecls := [(.here, ⟨100⟩)] }
  factory :=
    { symbols := SymbolTable.build losing, sources := fun _ => [], moduleName := "sample" }

/-- Whether nothing is declared inside the arguments of the defaults that are intrinsic calls. -/
def hasBareArguments (l : Linkage) : Decl → Bool
  | .function _ _ params _ => params.all fun p =>
    (strippedDefault? l p.default).all fun taken => (declsOf (argsNodes taken.2.args)).isEmpty
  | _ => true

/-- Bare arguments are not enough: what is declared inside the receiver of a default goes away with
it, too, and injection finds no intrinsic to call. -/
theorem target_in_receiver_is_lost :
    losing.declIds.Nodup ∧
      (∀ d ∈ losing.decls,
        AnnotationUse.find? d.head.annotations losingEnv.options.callerCapture.marker = none) ∧
      (∀ d ∈ losing.decls, hasBareArguments losingEnv.linkage d = true) ∧
      [losingEnv.options.callerCapture.marker, losingEnv.options.intrinsics.markedBy,
        losingEnv.options.tracing.selectedBy].Nodup ∧
      PassEnv.build {} (fun _ => []) losing = .ok losingEnv ∧
      ∃ env₁, PassEnv.build {} (fun _ => []) (extract losingEnv losing []).1 = .ok env₁ ∧
        (inject env₁ (extract losingEnv losing []).2.captured (extract losingEnv losing []).1
          {}).outcome = .error (.linkage "spyglass.here") :=
  ⟨by decide +kernel, by decide +kernel, by decide +kernel, by decide, rfl, _, rfl, rfl⟩

end Sample

end CallerCapture

end TraceWeave

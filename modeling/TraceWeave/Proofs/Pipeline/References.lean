import TraceWeave.Pipeline
import TraceWeave.Proofs.Program.References

/-! # What passes move

Taking defaults out, filling arguments with them and taking trace calls out move code around and
bring in nothing that was not shown before. Running hooks at returns brings in no references but
those of the hook call.

The results are `Body.leaveReturns_keeps`, `Removal.within_run`, `CallerCapture.within_extract`
and `CallerCapture.within_filledCall`, each by recursion on the program.
-/

namespace TraceWeave

/-- Knowledge that does not depend on a state. -/
def Knowledge.fixed {ρ : Type} (L : Labels ρ) (σ : Type) (known : ρ → Prop) : Knowledge σ ρ where
  toLabels := L
  good _ := True
  known _ := known

/-! ## Running a hook at returns -/

section

variable {known : DescriptorRef → Prop} {h : LeaveHook}

theorem LeaveHook.returned_keeps (hcall : RefersTo known h.call.nodes) (target : ReturnTarget)
    (value : Expr) (ids : IdAllocator) :
    (Knowledge.fixed .refs IdAllocator known).Keeps ids (h.returned target value ids).2 value.nodes
      (h.returned target value ids).1.nodes := by
  rintro - hvalue
  change RefersTo known value.nodes at hvalue
  refine ⟨trivial, fun _ hr => hr, ?_⟩
  change RefersTo known _
  unfold LeaveHook.returned LeaveHook.after Lowering.blockWithResult
  split
  · split
    · refine (RefersTo.cons_iff rfl).mpr (hvalue.append (hcall.append ?_))
      exact (RefersTo.cons_iff rfl).mpr .nil
    · refine (RefersTo.cons_iff rfl).mpr (.append ((RefersTo.cons_iff rfl).mpr hvalue) ?_)
      exact hcall.append ((RefersTo.cons_iff rfl).mpr .nil)
  · exact hvalue

mutual

theorem Expr.leaveReturns_keeps (hcall : RefersTo known h.call.nodes) :
    ∀ (e : Expr) (ids : IdAllocator), (Knowledge.fixed .refs IdAllocator known).Keeps ids
      (e.leaveReturns h ids).2 e.nodes (e.leaveReturns h ids).1.nodes
  | .setVar _ _ value, _ => (value.leaveReturns_keeps hcall _).cons
  | .call _ _ receiver _ args, _ =>
    ((optionLeaveReturns_keeps hcall receiver _).append
      (argsLeaveReturns_keeps hcall args _)).cons
  | .block _ stmts, _ => (stmtsLeaveReturns_keeps hcall stmts _).cons
  | .returnable _ _ stmts, _ => (stmtsLeaveReturns_keeps hcall stmts _).cons
  | .ret _ target value, _ =>
    ((value.leaveReturns_keeps hcall _).seq (h.returned_keeps hcall target _ _)).cons
  | .when _ branches otherwise, _ =>
    ((branchesLeaveReturns_keeps hcall branches _).append
      (optionLeaveReturns_keeps hcall otherwise _)).cons
  | .loop _ condition body, _ =>
    ((condition.leaveReturns_keeps hcall _).append (body.leaveReturns_keeps hcall _)).cons
  | .binary _ _ lhs rhs, _ =>
    ((lhs.leaveReturns_keeps hcall _).append (rhs.leaveReturns_keeps hcall _)).cons
  | .not _ operand, _ => (operand.leaveReturns_keeps hcall _).cons
  | .concat _ parts, _ => (exprsLeaveReturns_keeps hcall parts _).cons
  | .lambda _ decl, _ => (decl.leaveReturns_keeps hcall _).cons
  | .const _ _, _ | .getVar _ _, _ | .functionRef _ _, _ | .propertyRef _ _, _
  | .descriptor _ _, _ | .captureFrame _ _, _ => .same

theorem optionLeaveReturns_keeps (hcall : RefersTo known h.call.nodes) :
    ∀ (e : Option Expr) (ids : IdAllocator), (Knowledge.fixed .refs IdAllocator known).Keeps ids
      (optionLeaveReturns h e ids).2 (optionNodes e) (optionNodes (optionLeaveReturns h e ids).1)
  | none, _ => .same
  | some e, ids => e.leaveReturns_keeps hcall ids

theorem argsLeaveReturns_keeps (hcall : RefersTo known h.call.nodes) :
    ∀ (args : List (Option Expr)) (ids : IdAllocator),
      (Knowledge.fixed .refs IdAllocator known).Keeps ids (argsLeaveReturns h args ids).2
        (argsNodes args) (argsNodes (argsLeaveReturns h args ids).1)
  | [], _ => .same
  | none :: args, ids => argsLeaveReturns_keeps hcall args ids
  | some e :: args, _ => (e.leaveReturns_keeps hcall _).append (argsLeaveReturns_keeps hcall args _)

theorem exprsLeaveReturns_keeps (hcall : RefersTo known h.call.nodes) :
    ∀ (es : List Expr) (ids : IdAllocator), (Knowledge.fixed .refs IdAllocator known).Keeps ids
      (exprsLeaveReturns h es ids).2 (exprsNodes es) (exprsNodes (exprsLeaveReturns h es ids).1)
  | [], _ => .same
  | e :: es, _ => (e.leaveReturns_keeps hcall _).append (exprsLeaveReturns_keeps hcall es _)

theorem branchesLeaveReturns_keeps (hcall : RefersTo known h.call.nodes) :
    ∀ (branches : List (Expr × Expr)) (ids : IdAllocator),
      (Knowledge.fixed .refs IdAllocator known).Keeps ids (branchesLeaveReturns h branches ids).2
        (branchesNodes branches) (branchesNodes (branchesLeaveReturns h branches ids).1)
  | [], _ => .same
  | (condition, result) :: branches, _ =>
    ((condition.leaveReturns_keeps hcall _).append (result.leaveReturns_keeps hcall _)).append
      (branchesLeaveReturns_keeps hcall branches _)

theorem stmtsLeaveReturns_keeps (hcall : RefersTo known h.call.nodes) :
    ∀ (stmts : List Stmt) (ids : IdAllocator), (Knowledge.fixed .refs IdAllocator known).Keeps ids
      (stmtsLeaveReturns h stmts ids).2 (stmtsNodes stmts)
      (stmtsNodes (stmtsLeaveReturns h stmts ids).1)
  | [], _ => .same
  | stmt :: stmts, _ =>
    (stmt.leaveReturns_keeps hcall _).append (stmtsLeaveReturns_keeps hcall stmts _)

theorem Stmt.leaveReturns_keeps (hcall : RefersTo known h.call.nodes) :
    ∀ (stmt : Stmt) (ids : IdAllocator), (Knowledge.fixed .refs IdAllocator known).Keeps ids
      (stmt.leaveReturns h ids).2 stmt.nodes (stmt.leaveReturns h ids).1.nodes
  | .expr e, _ => e.leaveReturns_keeps hcall _
  | .var _ init, _ => (optionLeaveReturns_keeps hcall init _).cons
  | .decl d, _ => d.leaveReturns_keeps hcall _

theorem Body.leaveReturns_keeps (hcall : RefersTo known h.call.nodes) :
    ∀ (body : Body) (ids : IdAllocator), (Knowledge.fixed .refs IdAllocator known).Keeps ids
      (body.leaveReturns h ids).2 body.nodes (body.leaveReturns h ids).1.nodes
  | .absent, _ => .same
  | .block stmts, _ => stmtsLeaveReturns_keeps hcall stmts _
  | .expression e, _ => e.leaveReturns_keeps hcall _

theorem Decl.leaveReturns_keeps (hcall : RefersTo known h.call.nodes) :
    ∀ (d : Decl) (ids : IdAllocator), (Knowledge.fixed .refs IdAllocator known).Keeps ids
      (d.leaveReturns h ids).2 d.nodes (d.leaveReturns h ids).1.nodes
  | .function _ _ _ body, ids =>
    (Knowledge.Keeps.same.append (body.leaveReturns_keeps hcall ids)).cons
  | .classDecl _ _ members, _ => (declsLeaveReturns_keeps hcall members _).cons
  | .property _ _ _ _ _, _ | .field _ _ _, _ | .initializer _ _, _ => .same

theorem declsLeaveReturns_keeps (hcall : RefersTo known h.call.nodes) :
    ∀ (ds : List Decl) (ids : IdAllocator), (Knowledge.fixed .refs IdAllocator known).Keeps ids
      (declsLeaveReturns h ds ids).2 (declsNodes ds) (declsNodes (declsLeaveReturns h ds ids).1)
  | [], _ => .same
  | d :: ds, _ => (d.leaveReturns_keeps hcall _).append (declsLeaveReturns_keeps hcall ds _)

end

end

/-! ## Taking calls out -/

namespace Removal

section

variable {ρ : Type} (L : Labels ρ) (known : ρ → Prop) (keys : List CallKey)

/-- What is left of nodes shows nothing new. -/
abbrev Prunes (before after : List Node) : Prop :=
  (Knowledge.fixed L Unit known).Keeps () () before after

mutual

theorem exprPrune_keeps (owner : Option DeclId) : ∀ e : Expr,
    Prunes L known e.nodes (exprPrune keys owner e).1.nodes
  | .setVar _ _ value => (exprPrune_keeps owner value).cons
  | .call _ _ receiver _ args =>
    ((optionPrune_keeps owner receiver).append (argsPrune_keeps owner args)).cons
  | .block _ stmts | .returnable _ _ stmts => (stmtsPrune_keeps owner stmts).cons
  | .ret _ _ value => (exprPrune_keeps owner value).cons
  | .when _ branches otherwise =>
    ((branchesPrune_keeps owner branches).append (optionPrune_keeps owner otherwise)).cons
  | .loop _ condition body =>
    ((exprPrune_keeps owner condition).append (exprPrune_keeps owner body)).cons
  | .binary _ _ lhs rhs =>
    ((exprPrune_keeps owner lhs).append (exprPrune_keeps owner rhs)).cons
  | .not _ operand => (exprPrune_keeps owner operand).cons
  | .concat _ parts => (exprsPrune_keeps owner parts).cons
  | .lambda _ decl => (declPrune_keeps owner decl).cons
  | .const _ _ | .getVar _ _ | .functionRef _ _ | .propertyRef _ _ | .descriptor _ _
  | .captureFrame _ _ => .same

theorem optionPrune_keeps (owner : Option DeclId) : ∀ e : Option Expr,
    Prunes L known (optionNodes e) (optionNodes (optionPrune keys owner e).1)
  | none => .same
  | some e => exprPrune_keeps owner e

theorem argsPrune_keeps (owner : Option DeclId) : ∀ args : List (Option Expr),
    Prunes L known (argsNodes args) (argsNodes (argsPrune keys owner args).1)
  | [] => .same
  | none :: args => argsPrune_keeps owner args
  | some e :: args => (exprPrune_keeps owner e).append (argsPrune_keeps owner args)

theorem exprsPrune_keeps (owner : Option DeclId) : ∀ es : List Expr,
    Prunes L known (exprsNodes es) (exprsNodes (exprsPrune keys owner es).1)
  | [] => .same
  | e :: es => (exprPrune_keeps owner e).append (exprsPrune_keeps owner es)

theorem branchesPrune_keeps (owner : Option DeclId) : ∀ branches : List (Expr × Expr),
    Prunes L known (branchesNodes branches) (branchesNodes (branchesPrune keys owner branches).1)
  | [] => .same
  | (condition, result) :: branches =>
    ((exprPrune_keeps owner condition).append (exprPrune_keeps owner result)).append
      (branchesPrune_keeps owner branches)

theorem stmtsPrune_keeps (owner : Option DeclId) : ∀ stmts : List Stmt,
    Prunes L known (stmtsNodes stmts) (stmtsNodes (stmtsPrune keys owner stmts).1)
  | [] => .same
  | stmt :: stmts => by
    rw [stmtsPrune]
    split
    · exact Knowledge.Keeps.drop.append (stmtsPrune_keeps owner stmts)
    · exact (stmtPrune_keeps owner stmt).append (stmtsPrune_keeps owner stmts)

theorem stmtPrune_keeps (owner : Option DeclId) : ∀ stmt : Stmt,
    Prunes L known stmt.nodes (stmtPrune keys owner stmt).1.nodes
  | .expr e => exprPrune_keeps owner e
  | .var _ init => (optionPrune_keeps owner init).cons
  | .decl d => declPrune_keeps owner d

theorem paramsPrune_keeps (owner : Option DeclId) : ∀ params : List Param,
    Prunes L known (paramsNodes params) (paramsNodes (paramsPrune keys owner params).1)
  | [] => .same
  | ⟨_, default⟩ :: params =>
    ((optionPrune_keeps owner default).append (paramsPrune_keeps owner params)).cons

theorem bodyPrune_keeps (owner : Option DeclId) : ∀ body : Body,
    Prunes L known body.nodes (bodyPrune keys owner body).1.nodes
  | .absent => .same
  | .block stmts => stmtsPrune_keeps owner stmts
  | .expression e => by
    rw [bodyPrune]
    split
    · exact fun _ _ => ⟨trivial, fun _ hr => hr, (Labels.Within.code_iff rfl).mpr .nil⟩
    · exact exprPrune_keeps owner e

theorem declPrune_keeps (owner : Option DeclId) : ∀ d : Decl,
    Prunes L known d.nodes (declPrune keys owner d).1.nodes
  | .classDecl _ _ members => (declsPrune_keeps _ members).cons
  | .function _ _ params body =>
    ((paramsPrune_keeps _ params).append (bodyPrune_keeps _ body)).cons
  | .property _ _ backing getter setter =>
    (((accessorPrune_keeps owner backing).append (accessorPrune_keeps owner getter)).append
      (accessorPrune_keeps owner setter)).cons
  | .field _ _ init => (optionPrune_keeps _ init).cons
  | .initializer _ body => (stmtsPrune_keeps _ body).cons

theorem accessorPrune_keeps (owner : Option DeclId) : ∀ d : Option Decl,
    Prunes L known (accessorNodes d) (accessorNodes (accessorPrune keys owner d).1)
  | none => .same
  | some d => declPrune_keeps owner d

theorem declsPrune_keeps (owner : Option DeclId) : ∀ ds : List Decl,
    Prunes L known (declsNodes ds) (declsNodes (declsPrune keys owner ds).1)
  | [] => .same
  | d :: ds => (declPrune_keeps owner d).append (declsPrune_keeps owner ds)

end

theorem filesPrune_keeps : ∀ fs : List SourceFile,
    Prunes L known (filesNodes fs) (filesNodes (filesPrune keys fs).1)
  | [] => .same
  | f :: fs => (declsPrune_keeps L known keys none f.declarations).append (filesPrune_keeps fs)

end

/-- A module shows nothing new when calls are taken out of it. -/
theorem within_run {ρ : Type} {L : Labels ρ} {known : ρ → Prop} {env : PassEnv} {m m' : Module}
    {removed : Nat} (hrun : run env m = .ok (m', removed)) (hm : L.Within known m.nodes) :
    L.Within known m'.nodes := by
  unfold run at hrun
  cases hsearch : search env m with
  | error e =>
    rw [hsearch] at hrun
    cases hrun
  | ok keys =>
    rw [hsearch] at hrun
    cases hrun
    rw [Module.nodes_eq, Labels.Within.append_iff] at hm ⊢
    exact ⟨(filesPrune_keeps L known keys m.files trivial hm.1).2.2, hm.2⟩

end Removal

/-! ## Taking defaults out -/

namespace CallerCapture

section

variable {ρ : Type} {L : Labels ρ} {known : ρ → Prop}

variable (L known) in
/-- Captured defaults that show known labels only. -/
def CapturedIn (captured : CapturedDefaults) : Prop :=
  ∀ entry ∈ captured, L.Within known (argsNodes entry.2.args)

variable (L known) in
/-- Extraction knows the same labels all along, and so do the defaults it has taken out. -/
def knowledge : Knowledge Extraction ρ where
  toLabels := L
  good x := CapturedIn L known x.captured
  known _ := known

variable (env : PassEnv)

theorem within_of_stripped {l : Linkage} {default : Option Expr} {kind : IntrinsicKind}
    {call : StrippedCall} (h : strippedDefault? l default = some (kind, call))
    (hdefault : L.Within known (optionNodes default)) : L.Within known (argsNodes call.args) := by
  obtain ⟨_, _, _, rfl, -⟩ := strippedDefault?_eq_some.mp h
  exact (Labels.Within.append_iff.mp ((Labels.Within.code_iff rfl).mp hdefault)).2

theorem recordParams_keeps (l : Linkage) (id : DeclId) : ∀ (params : List Param) (index : Nat)
    (x : Extraction), (knowledge L known).Keeps x (recordParams l id index params x)
      (paramsNodes params) (paramsNodes params)
  | [], _, _ => .same
  | ⟨head, default⟩ :: params, index, x => by
    intro hgood hrefs
    obtain ⟨hdefault, hparams⟩ :=
      Labels.Within.append_iff.mp (Labels.Within.cons_iff.mp hrefs).2
    rw [recordParams]
    split
    · rename_i kind call hstripped
      have hrecord : (knowledge L known).good (x.record id index call) := by
        rintro entry (_ | ⟨_, hentry⟩)
        · exact within_of_stripped hstripped hdefault
        · exact hgood entry hentry
      exact ⟨(recordParams_keeps l id params _ _ hrecord hparams).1, fun _ hr => hr, hrefs⟩
    · exact ⟨(recordParams_keeps l id params _ _ hgood hparams).1, fun _ hr => hr, hrefs⟩

variable (L) in
/-- Labels that do not tell a marked function from what it was before. -/
def IgnoresMarkers : Prop := ∀ head params info params' body' params'' body'',
  L.label (.decl (.function (markedHead env head params) info params' body')) =
    L.label (.decl (.function head info params'' body''))

variable {env}

mutual

theorem exprExtract_keeps (hmark : IgnoresMarkers L env) :
    ∀ (e : Expr) (x : Extraction), (knowledge L known).Keeps x (exprExtract env e x).2
      e.nodes (exprExtract env e x).1.nodes
  | .setVar _ _ value, _ => (exprExtract_keeps hmark value _).cons
  | .call _ _ receiver _ args, _ =>
    ((optionExtract_keeps hmark receiver _).append (argsExtract_keeps hmark args _)).cons
  | .block _ stmts, _ | .returnable _ _ stmts, _ => (stmtsExtract_keeps hmark stmts _).cons
  | .ret _ _ value, _ => (exprExtract_keeps hmark value _).cons
  | .when _ branches otherwise, _ =>
    ((branchesExtract_keeps hmark branches _).append (optionExtract_keeps hmark otherwise _)).cons
  | .loop _ condition body, _ =>
    ((exprExtract_keeps hmark condition _).append (exprExtract_keeps hmark body _)).cons
  | .binary _ _ lhs rhs, _ =>
    ((exprExtract_keeps hmark lhs _).append (exprExtract_keeps hmark rhs _)).cons
  | .not _ operand, _ => (exprExtract_keeps hmark operand _).cons
  | .concat _ parts, _ => (exprsExtract_keeps hmark parts _).cons
  | .lambda _ decl, _ => (declExtract_keeps hmark decl _).cons
  | .const _ _, _ | .getVar _ _, _ | .functionRef _ _, _ | .propertyRef _ _, _
  | .descriptor _ _, _ | .captureFrame _ _, _ => .same

theorem optionExtract_keeps (hmark : IgnoresMarkers L env) :
    ∀ (e : Option Expr) (x : Extraction), (knowledge L known).Keeps x (optionExtract env e x).2
      (optionNodes e) (optionNodes (optionExtract env e x).1)
  | none, _ => .same
  | some e, x => exprExtract_keeps hmark e x

theorem argsExtract_keeps (hmark : IgnoresMarkers L env) :
    ∀ (args : List (Option Expr)) (x : Extraction), (knowledge L known).Keeps x
      (argsExtract env args x).2 (argsNodes args) (argsNodes (argsExtract env args x).1)
  | [], _ => .same
  | none :: args, x => argsExtract_keeps hmark args x
  | some e :: args, _ => (exprExtract_keeps hmark e _).append (argsExtract_keeps hmark args _)

theorem exprsExtract_keeps (hmark : IgnoresMarkers L env) :
    ∀ (es : List Expr) (x : Extraction), (knowledge L known).Keeps x (exprsExtract env es x).2
      (exprsNodes es) (exprsNodes (exprsExtract env es x).1)
  | [], _ => .same
  | e :: es, _ => (exprExtract_keeps hmark e _).append (exprsExtract_keeps hmark es _)

theorem branchesExtract_keeps (hmark : IgnoresMarkers L env) :
    ∀ (branches : List (Expr × Expr)) (x : Extraction), (knowledge L known).Keeps x
      (branchesExtract env branches x).2 (branchesNodes branches)
      (branchesNodes (branchesExtract env branches x).1)
  | [], _ => .same
  | (condition, result) :: branches, _ =>
    ((exprExtract_keeps hmark condition _).append (exprExtract_keeps hmark result _)).append
      (branchesExtract_keeps hmark branches _)

theorem stmtsExtract_keeps (hmark : IgnoresMarkers L env) :
    ∀ (stmts : List Stmt) (x : Extraction), (knowledge L known).Keeps x (stmtsExtract env stmts x).2
      (stmtsNodes stmts) (stmtsNodes (stmtsExtract env stmts x).1)
  | [], _ => .same
  | stmt :: stmts, _ => (stmtExtract_keeps hmark stmt _).append (stmtsExtract_keeps hmark stmts _)

theorem stmtExtract_keeps (hmark : IgnoresMarkers L env) :
    ∀ (stmt : Stmt) (x : Extraction), (knowledge L known).Keeps x (stmtExtract env stmt x).2
      stmt.nodes (stmtExtract env stmt x).1.nodes
  | .expr e, _ => exprExtract_keeps hmark e _
  | .var _ init, _ => (optionExtract_keeps hmark init _).cons
  | .decl d, _ => declExtract_keeps hmark d _

theorem paramsExtract_keeps (hmark : IgnoresMarkers L env) (capturing : Bool) :
    ∀ (params : List Param) (x : Extraction), (knowledge L known).Keeps x
      (paramsExtract env capturing params x).2 (paramsNodes params)
      (paramsNodes (paramsExtract env capturing params x).1)
  | [], _ => .same
  | ⟨_, default⟩ :: params, x => by
    rw [paramsExtract]
    split
    · exact (Knowledge.Keeps.drop.append (paramsExtract_keeps hmark capturing params x)).cons
    · exact ((optionExtract_keeps hmark default _).append
        (paramsExtract_keeps hmark capturing params _)).cons

theorem bodyExtract_keeps (hmark : IgnoresMarkers L env) :
    ∀ (body : Body) (x : Extraction), (knowledge L known).Keeps x (bodyExtract env body x).2
      body.nodes (bodyExtract env body x).1.nodes
  | .absent, _ => .same
  | .block stmts, _ => stmtsExtract_keeps hmark stmts _
  | .expression e, _ => exprExtract_keeps hmark e _

theorem declExtract_keeps (hmark : IgnoresMarkers L env) :
    ∀ (d : Decl) (x : Extraction), (knowledge L known).Keeps x (declExtract env d x).2
      d.nodes (declExtract env d x).1.nodes
  | .classDecl _ _ members, _ => (declsExtract_keeps hmark members _).cons
  | .function head _ params body, x => by
    rw [declExtract]
    split
    · -- the count of marked functions is no part of what extraction knows
      have hrecord : (knowledge L known).Keeps x
          { recordParams env.linkage head.id 0 params x with
            marked := (recordParams env.linkage head.id 0 params x).marked + 1 }
          (paramsNodes params) (paramsNodes params) :=
        recordParams_keeps env.linkage head.id params 0 x
      exact ((hrecord.seq (paramsExtract_keeps hmark true params _)).append
        (bodyExtract_keeps hmark body _)).around (hmark ..)
    · exact ((paramsExtract_keeps hmark false params _).append
        (bodyExtract_keeps hmark body _)).cons
  | .property _ _ backing getter setter, _ =>
    (((accessorExtract_keeps hmark backing _).append (accessorExtract_keeps hmark getter _)).append
      (accessorExtract_keeps hmark setter _)).cons
  | .field _ _ init, _ => (optionExtract_keeps hmark init _).cons
  | .initializer _ body, _ => (stmtsExtract_keeps hmark body _).cons

theorem accessorExtract_keeps (hmark : IgnoresMarkers L env) :
    ∀ (d : Option Decl) (x : Extraction), (knowledge L known).Keeps x (accessorExtract env d x).2
      (accessorNodes d) (accessorNodes (accessorExtract env d x).1)
  | none, _ => .same
  | some d, x => declExtract_keeps hmark d x

theorem declsExtract_keeps (hmark : IgnoresMarkers L env) :
    ∀ (ds : List Decl) (x : Extraction), (knowledge L known).Keeps x (declsExtract env ds x).2
      (declsNodes ds) (declsNodes (declsExtract env ds x).1)
  | [], _ => .same
  | d :: ds, _ => (declExtract_keeps hmark d _).append (declsExtract_keeps hmark ds _)

end

theorem filesExtract_keeps (hmark : IgnoresMarkers L env) :
    ∀ (fs : List SourceFile) (x : Extraction), (knowledge L known).Keeps x (filesExtract env fs x).2
      (filesNodes fs) (filesNodes (filesExtract env fs x).1)
  | [], _ => .same
  | f :: fs, _ => (declsExtract_keeps hmark f.declarations _).append (filesExtract_keeps hmark fs _)

/-- A module and the defaults taken out of it show nothing new, apart from markers. -/
theorem within_extract (hmark : IgnoresMarkers L env) {m : Module} {captured : CapturedDefaults}
    (hcaptured : CapturedIn L known captured) (hm : L.Within known m.nodes) :
    L.Within known (extract env m captured).1.nodes ∧
      CapturedIn L known (extract env m captured).2.captured := by
  rw [Module.nodes_eq, Labels.Within.append_iff] at hm
  obtain ⟨hgood, -, hfiles⟩ := filesExtract_keeps hmark m.files { captured } hcaptured hm.1
  rw [Module.nodes_eq, Labels.Within.append_iff]
  exact ⟨⟨hfiles, hm.2⟩, hgood⟩

/-! ## Filling arguments -/

theorem argsNodes_cons (arg : Option Expr) (args : List (Option Expr)) :
    argsNodes (arg :: args) = optionNodes arg ++ argsNodes args := by
  cases arg <;> rfl

theorem within_fillArgs {fresh : Nat → String → Except Error Expr}
    (hfresh : ∀ index mode e, fresh index mode = .ok e → L.Within known e.nodes) :
    ∀ (args : List (Option Expr)) (index : Nat) (modes : List String),
      L.Within known (argsNodes args) →
      L.Within known (argsNodes (fillArgs fresh index args modes).1)
  | [], _, _, hargs => by
    unfold fillArgs
    exact hargs
  | _ :: _, _, [], hargs => by
    unfold fillArgs
    exact hargs
  | arg :: args, index, mode :: modes, hargs => by
    rw [argsNodes_cons, Labels.Within.append_iff] at hargs
    have ih := within_fillArgs hfresh args (index + 1) modes hargs.2
    rw [fillArgs]
    split
    · rw [argsNodes_cons]
      exact hargs.1.append ih
    · split
      · rw [argsNodes_cons]
        exact hargs.1.append hargs.2
      · rename_i e he
        exact (hfresh index mode e he).append ih

theorem argsNodes_padArgs (count : Nat) (args : List (Option Expr)) :
    argsNodes (padArgs count args) = argsNodes args := by
  have hnone : ∀ n, argsNodes (List.replicate n none) = [] := fun n => by
    induction n with
    | zero => rfl
    | succ n ih => rw [List.replicate_succ, argsNodes, ih]
  unfold padArgs
  generalize count - args.length = n
  induction args with
  | nil => exact hnone n
  | cons arg args ih => rw [List.cons_append, argsNodes_cons, argsNodes_cons, ih]

/-- A call whose arguments are filled shows what it showed before and what the new arguments do. -/
theorem within_filledCall {s : Site} {callee : DeclId} {receiver : Option Expr}
    {typeArgs : List Ty} {args : List (Option Expr)} {modes : List String}
    {fresh : Nat → String → Except Error Expr}
    (hcall : L.Within known (Expr.call s callee receiver typeArgs args).nodes)
    (hfresh : ∀ index mode e, fresh index mode = .ok e → L.Within known e.nodes) :
    L.Within known (Expr.call s callee receiver typeArgs
      (fillArgs fresh 0 (padArgs modes.length args) modes).1).nodes := by
  obtain ⟨hreceiver, hargs⟩ := Labels.Within.append_iff.mp ((Labels.Within.code_iff rfl).mp hcall)
  refine (Labels.Within.code_iff rfl).mpr (hreceiver.append ?_)
  refine within_fillArgs hfresh _ 0 modes ?_
  rwa [argsNodes_padArgs]

theorem within_freshCall {captured : CapturedDefaults} (hcaptured : CapturedIn L known captured)
    {callee : DeclId} {index : Nat} {span : Span} {mode : String} {e : Expr}
    (he : freshCall env captured callee index span mode = .ok e) : L.Within known e.nodes := by
  unfold freshCall at he
  obtain ⟨kind, -, he⟩ := Except.of_bind he
  obtain ⟨intrinsic, -, he⟩ := Except.of_bind he
  split at he
  · cases he
  · split at he
    · rename_i stripped hlookup
      cases he
      obtain ⟨_, _, hsplit, -⟩ := List.lookup_eq_some_iff.mp hlookup
      have hmem : ((callee, index), stripped) ∈ captured := by simp [hsplit]
      exact (Labels.Within.code_iff rfl).mpr (Labels.Within.nil.append (hcaptured _ hmem))
    · cases he
      exact (Labels.Within.code_iff rfl).mpr .nil

end

end CallerCapture

end TraceWeave

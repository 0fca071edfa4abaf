import TraceWeave.Proofs.Capture.Written
import TraceWeave.Proofs.Program.Walks

/-! # Extraction next to written arguments

Extraction goes in lockstep through a program and through one with some arguments written out. It
takes the same defaults out of both, and what it leaves behind is related again.

`Module.Written.extract` says it of modules, by recursion on what is written. A marker does not
tell the two apart (`paramsWritten.isCapturing_eq`), and nothing is taken out of a written
argument (`exprExtract_bareCall`).
-/

namespace TraceWeave

variable {w : Writing} {env : PassEnv}

open CallerCapture

theorem exprExtract_leaf {e : Expr} (h : e.isLeaf) (x : Extraction) : exprExtract env e x = (e, x) := by
  cases e with
  | const | getVar | functionRef | propertyRef | descriptor | captureFrame => rfl
  | _ => exact absurd h Bool.false_ne_true

theorem argsExtract_leaf : ∀ {args : List (Option Expr)},
    (args.all fun a => a.all Expr.isLeaf) = true → ∀ x, argsExtract env args x = (args, x)
  | [], _, _ => rfl
  | none :: args, h, x => by
    have hrest : (args.all fun a => a.all Expr.isLeaf) = true := h
    rw [argsExtract, argsExtract_leaf hrest]
  | some e :: args, h, x => by
    rw [List.all_cons, Bool.and_eq_true] at h
    rw [argsExtract, exprExtract_leaf h.1]
    dsimp only
    rw [argsExtract_leaf h.2]

/-- Nothing is taken out of a written argument. -/
theorem exprExtract_bareCall {e : Expr} (h : e.isBareCall) (x : Extraction) :
    exprExtract env e x = (e, x) := by
  obtain ⟨s, callee, typeArgs, args, rfl, hargs⟩ := e.exists_of_isBareCall h
  rw [exprExtract, optionExtract]
  dsimp only
  rw [argsExtract_leaf hargs]

theorem argsExtract_tail (hw : w.Bare) {callee : DeclId} {span : Span} :
    ∀ {args : List (Option Expr)} {i : Nat}, tailWritten (w.argument callee · span) args i →
      ∀ x, argsExtract env args x = (args, x)
  | [], _, _, _ => rfl
  | none :: args, _, h, x => by
    rw [argsExtract, argsExtract_tail hw h.2.2]
  | some e :: args, _, h, x => by
    rw [argsExtract, exprExtract_bareCall (hw _ _ _ _ (h.2.1 e rfl))]
    dsimp only
    rw [argsExtract_tail hw h.2.2]

/-- The defaults that are taken out are those of extraction. -/
structure Writing.Fits (w : Writing) (env : PassEnv) : Prop where
  bare : w.Bare
  capturing : w.capturing = isCapturing env
  linkage : w.linkage = env.linkage

/-- A default that an argument was written into is an intrinsic call if it was one before. -/
theorem optionWritten.kind_eq {d d' : Option Expr} (h : optionWritten w d d') (l : Linkage) :
    (strippedDefault? l d').map Prod.fst = (strippedDefault? l d).map Prod.fst := by
  cases d with
  | none =>
    cases h
    rfl
  | some e =>
    obtain ⟨e', he, rfl⟩ := h
    cases e with
    | call s callee receiver typeArgs args =>
      obtain ⟨_, _, -, -, rfl⟩ := he
      simp only [strippedDefault?, Option.map_map]
      rfl
    | const | getVar | functionRef | propertyRef | descriptor | captureFrame =>
      cases he
      rfl
    | setVar | block | returnable | ret | not | concat | lambda =>
      obtain ⟨_, -, rfl⟩ := he
      rfl
    | when | loop | binary =>
      obtain ⟨_, _, -, -, rfl⟩ := he
      rfl

theorem mode_eq (l : Linkage) (p : Param) :
    mode l p = ((strippedDefault? l p.default).map Prod.fst).elim noCapture IntrinsicKind.name := by
  unfold mode
  cases strippedDefault? l p.default <;> rfl

theorem paramsWritten.kinds_eq {capturing : Bool} (l : Linkage) : ∀ {params params' : List Param},
    paramsWritten w capturing params params' →
      (params'.any fun p => (strippedDefault? l p.default).isSome) =
          params.any (fun p => (strippedDefault? l p.default).isSome) ∧
        params'.map (mode l) = params.map (mode l)
  | [], _, h => by
    cases h
    exact ⟨rfl, rfl⟩
  | ⟨head, default⟩ :: params, _, h => by
    obtain ⟨default', rest, hdefault, -, hrest, rfl⟩ := h
    obtain ⟨hany, hmodes⟩ := paramsWritten.kinds_eq l hrest
    have hkind := hdefault.kind_eq l
    have hsome : (strippedDefault? l default').isSome = (strippedDefault? l default).isSome := by
      rw [← Option.isSome_map, hkind, Option.isSome_map]
    refine ⟨by rw [List.any_cons, List.any_cons, hany, hsome], ?_⟩
    rw [List.map_cons, List.map_cons, hmodes, mode_eq, mode_eq, hkind]

/-- The same functions are marked, and with the same modes. -/
theorem paramsWritten.isCapturing_eq {capturing : Bool} {params params' : List Param}
    (h : paramsWritten w capturing params params') (head : DeclHead) :
    isCapturing env head params' = isCapturing env head params ∧
      markedHead env head params' = markedHead env head params := by
  obtain ⟨hany, hmodes⟩ := h.kinds_eq env.linkage
  exact ⟨by rw [isCapturing, isCapturing, hany], by rw [markedHead, markedHead, hmodes]⟩

theorem paramsWritten.recordParams_eq (id : DeclId) : ∀ {params params' : List Param},
    paramsWritten w true params params' → ∀ (i : Nat) (x : Extraction),
      recordParams w.linkage id i params' x = recordParams w.linkage id i params x
  | [], _, h, _, _ => by
    cases h
    rfl
  | ⟨head, default⟩ :: params, _, h, i, x => by
    obtain ⟨default', rest, -, hkept, hrest, rfl⟩ := h
    rw [recordParams, recordParams]
    dsimp only
    rw [hkept rfl]
    split
    · exact paramsWritten.recordParams_eq id hrest _ _
    · exact paramsWritten.recordParams_eq id hrest _ _

/-- The same defaults are recorded. -/
theorem recordDecl_written (hw : w.Fits env) {head : DeclHead} {info : FunctionHead}
    {params params' : List Param} (h : paramsWritten w (w.capturing head params) params params')
    (body body' : Body) (x : Extraction) :
    recordDecl env x (.function head info params' body') =
      recordDecl env x (.function head info params body) := by
  rw [recordDecl, recordDecl, (h.isCapturing_eq head).1]
  split
  · rename_i hcapturing
    rw [hw.capturing, hcapturing] at h
    rw [← hw.linkage, h.recordParams_eq]
  · rfl

/-- Extraction from two pieces of code in lockstep. -/
abbrev ExtractsAlike {α β : Type} (rel : α → β → Prop) (f : Extraction → α × Extraction)
    (g : Extraction → β × Extraction) : Prop :=
  Lockstep Eq (fun _ => True) rel f g

mutual

-- In lockstep, and nothing is recorded for an argument that was written out, as nothing is declared
-- in it.
theorem Expr.Written.extract (hw : w.Fits env) : ∀ (e e' : Expr), e.Written w e' →
    ExtractsAlike (Expr.Written w.settled) (exprExtract env e) (exprExtract env e')
  | .setVar s var value => by
    rintro _ ⟨_, hvalue, rfl⟩
    exact (hvalue.extract hw _ _).map (.setVar s var) (.setVar s var) fun _ _ h => ⟨_, h, rfl⟩
  | .call s callee receiver typeArgs args => by
    rintro _ ⟨_, _, hreceiver, hargs, rfl⟩
    exact ((hreceiver.extract hw _ _).pair (hargs.extract hw _ _ _)).map
      (fun p => .call s callee p.1 typeArgs p.2) (fun p => .call s callee p.1 typeArgs p.2)
      fun _ _ h => ⟨_, _, h.1, h.2, rfl⟩
  | .block s stmts => by
    rintro _ ⟨_, hstmts, rfl⟩
    exact (hstmts.extract hw _ _).map (.block s) (.block s) fun _ _ h => ⟨_, h, rfl⟩
  | .returnable s id stmts => by
    rintro _ ⟨_, hstmts, rfl⟩
    exact (hstmts.extract hw _ _).map (.returnable s id) (.returnable s id) fun _ _ h => ⟨_, h, rfl⟩
  | .ret s target value => by
    rintro _ ⟨_, hvalue, rfl⟩
    exact (hvalue.extract hw _ _).map (.ret s target) (.ret s target) fun _ _ h => ⟨_, h, rfl⟩
  | .when s branches otherwise => by
    rintro _ ⟨_, _, hbranches, hotherwise, rfl⟩
    exact ((hbranches.extract hw _ _).pair (hotherwise.extract hw _ _)).map (fun p => .when s p.1 p.2)
      (fun p => .when s p.1 p.2) fun _ _ h => ⟨_, _, h.1, h.2, rfl⟩
  | .loop s condition body => by
    rintro _ ⟨_, _, hcondition, hbody, rfl⟩
    exact ((hcondition.extract hw _ _).pair (hbody.extract hw _ _)).map (fun p => .loop s p.1 p.2)
      (fun p => .loop s p.1 p.2) fun _ _ h => ⟨_, _, h.1, h.2, rfl⟩
  | .binary s op lhs rhs => by
    rintro _ ⟨_, _, hlhs, hrhs, rfl⟩
    exact ((hlhs.extract hw _ _).pair (hrhs.extract hw _ _)).map (fun p => .binary s op p.1 p.2)
      (fun p => .binary s op p.1 p.2) fun _ _ h => ⟨_, _, h.1, h.2, rfl⟩
  | .not s operand => by
    rintro _ ⟨_, hoperand, rfl⟩
    exact (hoperand.extract hw _ _).map (.not s) (.not s) fun _ _ h => ⟨_, h, rfl⟩
  | .concat s parts => by
    rintro _ ⟨_, hparts, rfl⟩
    exact (hparts.extract hw _ _).map (.concat s) (.concat s) fun _ _ h => ⟨_, h, rfl⟩
  | .lambda s decl => by
    rintro _ ⟨_, hdecl, rfl⟩
    exact (hdecl.extract hw _ _).map (.lambda s) (.lambda s) fun _ _ h => ⟨_, h, rfl⟩
  | .const _ _ | .getVar _ _ | .functionRef _ _ | .propertyRef _ _ | .descriptor _ _
  | .captureFrame _ _ => by
    rintro _ rfl
    exact .yield rfl

theorem optionWritten.extract (hw : w.Fits env) : ∀ (e e' : Option Expr), optionWritten w e e' →
    ExtractsAlike (optionWritten w.settled) (optionExtract env e) (optionExtract env e')
  | none => by
    rintro _ rfl
    exact .yield rfl
  | some e => by
    rintro _ ⟨_, he, rfl⟩
    exact (he.extract hw _ _).map some some fun _ _ h => ⟨_, h, rfl⟩

theorem argsWritten.extract (hw : w.Fits env) {callee : DeclId} {span : Span} :
    ∀ (args args' : List (Option Expr)) (i : Nat), argsWritten w callee span args i args' →
      ExtractsAlike (fun xs xs' => argsWritten w.settled callee span xs i xs')
        (argsExtract env args) (argsExtract env args')
  | [] => by
    intro args' i h
    rw [show argsExtract env args' = fun x => (args', x) from
      funext fun x => argsExtract_tail hw.bare h x]
    exact .yield h
  | none :: args => by
    rintro _ i ⟨a, rest, ha, hrest, rfl⟩
    cases a with
    | none =>
      exact (hrest.extract hw _ _ _).map (none :: ·) (none :: ·)
        fun _ xs' h => ⟨none, xs', ha, h, rfl⟩
    | some e =>
      have he : ∀ x, exprExtract env e x = (e, x) :=
        exprExtract_bareCall (hw.bare _ _ _ _ (ha e rfl))
      exact (hrest.extract hw _ _ _).map (none :: ·) (some e :: ·)
        (fun _ xs' h => ⟨some e, xs', ha, h, rfl⟩) (fun _ => rfl) fun x => by rw [argsExtract, he]
  | some e :: args => by
    rintro _ i ⟨_, _, he, hrest, rfl⟩
    exact ((he.extract hw _ _).pair (hrest.extract hw _ _ _)).map (fun p => some p.1 :: p.2)
      (fun p => some p.1 :: p.2) fun _ _ h => ⟨_, _, h.1, h.2, rfl⟩

theorem exprsWritten.extract (hw : w.Fits env) : ∀ (es es' : List Expr), exprsWritten w es es' →
    ExtractsAlike (exprsWritten w.settled) (exprsExtract env es) (exprsExtract env es')
  | [] => by
    rintro _ rfl
    exact .yield rfl
  | e :: es => by
    rintro _ ⟨_, _, he, hrest, rfl⟩
    exact ((he.extract hw _ _).pair (hrest.extract hw _ _)).map (fun p => p.1 :: p.2)
      (fun p => p.1 :: p.2) fun _ _ h => ⟨_, _, h.1, h.2, rfl⟩

theorem branchesWritten.extract (hw : w.Fits env) : ∀ (branches branches' : List (Expr × Expr)),
    branchesWritten w branches branches' →
      ExtractsAlike (branchesWritten w.settled) (branchesExtract env branches)
        (branchesExtract env branches')
  | [] => by
    rintro _ rfl
    exact .yield rfl
  | (condition, result) :: branches => by
    rintro _ ⟨_, _, _, hcondition, hresult, hrest, rfl⟩
    exact (((hcondition.extract hw _ _).pair (hresult.extract hw _ _)).pair (hrest.extract hw _ _)).map
      (fun p => p.1 :: p.2) (fun p => p.1 :: p.2) fun _ _ h => ⟨_, _, _, h.1.1, h.1.2, h.2, rfl⟩

theorem stmtsWritten.extract (hw : w.Fits env) : ∀ (stmts stmts' : List Stmt), stmtsWritten w stmts stmts' →
    ExtractsAlike (stmtsWritten w.settled) (stmtsExtract env stmts) (stmtsExtract env stmts')
  | [] => by
    rintro _ rfl
    exact .yield rfl
  | stmt :: stmts => by
    rintro _ ⟨_, _, hstmt, hrest, rfl⟩
    exact ((hstmt.extract hw _ _).pair (hrest.extract hw _ _)).map (fun p => p.1 :: p.2)
      (fun p => p.1 :: p.2) fun _ _ h => ⟨_, _, h.1, h.2, rfl⟩

theorem Stmt.Written.extract (hw : w.Fits env) : ∀ (stmt stmt' : Stmt), stmt.Written w stmt' →
    ExtractsAlike (Stmt.Written w.settled) (stmtExtract env stmt) (stmtExtract env stmt')
  | .expr e => by
    rintro _ ⟨_, he, rfl⟩
    exact (he.extract hw _ _).map .expr .expr fun _ _ h => ⟨_, h, rfl⟩
  | .var head init => by
    rintro _ ⟨_, hinit, rfl⟩
    exact (hinit.extract hw _ _).map (.var head) (.var head) fun _ _ h => ⟨_, h, rfl⟩
  | .decl d => by
    rintro _ ⟨_, hd, rfl⟩
    exact (hd.extract hw _ _).map .decl .decl fun _ _ h => ⟨_, h, rfl⟩

theorem paramsWritten.extract (hw : w.Fits env) (capturing : Bool) : ∀ (params params' : List Param),
    paramsWritten w capturing params params' →
      ExtractsAlike (paramsWritten w.settled false) (paramsExtract env capturing params)
        (paramsExtract env capturing params')
  | [] => by
    rintro _ rfl
    exact .yield rfl
  | ⟨head, default⟩ :: params => by
    rintro _ ⟨default', rest, hdefault, -, hrest, rfl⟩
    have hsome : (strippedDefault? env.linkage default').isSome =
        (strippedDefault? env.linkage default).isSome := by
      rw [← Option.isSome_map, hdefault.kind_eq, Option.isSome_map]
    by_cases htaken : (capturing && (strippedDefault? env.linkage default).isSome) = true
    · have hnone : ∀ d ps, (capturing && (strippedDefault? env.linkage d).isSome) = true →
          paramsExtract env capturing (⟨head, d⟩ :: ps) = fun x =>
            (⟨head, none⟩ :: (paramsExtract env capturing ps x).1,
              (paramsExtract env capturing ps x).2) := by
        intro d ps h
        funext x
        rw [paramsExtract, if_pos h]
      rw [hnone default params htaken, hnone default' rest (by rw [hsome]; exact htaken)]
      exact (hrest.extract hw capturing _ _).map (⟨head, none⟩ :: ·) (⟨head, none⟩ :: ·)
        fun _ _ h => ⟨_, _, rfl, nofun, h, rfl⟩
    · have hkept : ∀ d ps, ¬(capturing && (strippedDefault? env.linkage d).isSome) = true →
          paramsExtract env capturing (⟨head, d⟩ :: ps) = fun x =>
            (⟨head, (optionExtract env d x).1⟩ ::
              (paramsExtract env capturing ps (optionExtract env d x).2).1,
              (paramsExtract env capturing ps (optionExtract env d x).2).2) := by
        intro d ps h
        funext x
        rw [paramsExtract, if_neg h]
      rw [hkept default params htaken, hkept default' rest (by rw [hsome]; exact htaken)]
      exact ((hdefault.extract hw _ _).pair (hrest.extract hw capturing _ _)).map
        (fun p => ⟨head, p.1⟩ :: p.2) (fun p => ⟨head, p.1⟩ :: p.2)
        fun _ _ h => ⟨_, _, h.1, nofun, h.2, rfl⟩

theorem Body.Written.extract (hw : w.Fits env) : ∀ (body body' : Body), body.Written w body' →
    ExtractsAlike (Body.Written w.settled) (bodyExtract env body) (bodyExtract env body')
  | .absent => by
    rintro _ rfl
    exact .yield rfl
  | .block stmts => by
    rintro _ ⟨_, hstmts, rfl⟩
    exact (hstmts.extract hw _ _).map .block .block fun _ _ h => ⟨_, h, rfl⟩
  | .expression e => by
    rintro _ ⟨_, he, rfl⟩
    exact (he.extract hw _ _).map .expression .expression fun _ _ h => ⟨_, h, rfl⟩

theorem Decl.Written.extract (hw : w.Fits env) : ∀ (d d' : Decl), d.Written w d' →
    ExtractsAlike (Decl.Written w.settled) (declExtract env d) (declExtract env d')
  | .classDecl head info members => by
    rintro _ ⟨_, hmembers, rfl⟩
    exact (hmembers.extract hw _ _).map (.classDecl head info) (.classDecl head info)
      fun _ _ h => ⟨_, h, rfl⟩
  | .function head info params body => by
    rintro _ ⟨params', body', hparams, hbody, rfl⟩
    have hcapturing : isCapturing env head params' = isCapturing env head params :=
      (hparams.isCapturing_eq head).1
    have hhead : markedHead env head params' = markedHead env head params :=
      (hparams.isCapturing_eq head).2
    have hrecord : ∀ x x', x = x' → recordDecl env x (.function head info params body) =
        recordDecl env x' (.function head info params' body') := by
      rintro x _ rfl
      exact (recordDecl_written hw hparams body body' x).symm
    have hparts := ((show paramsWritten w (isCapturing env head params) params params' from
      hw.capturing ▸ hparams).extract hw _ _ _).pair (hbody.extract hw _ _)
    refine (hparts.after hrecord fun _ => id).map
      (fun p => .function (if isCapturing env head params then markedHead env head params else head)
        info p.1 p.2)
      (fun p => .function (if isCapturing env head params then markedHead env head params else head)
        info p.1 p.2)
      (fun _ _ h => ⟨_, _, h.1, h.2, rfl⟩) (fun x => declExtract_function head info params body x)
      fun x => ?_
    rw [declExtract_function, hcapturing, hhead]
  | .property head info backing getter setter => by
    rintro _ ⟨_, _, _, hbacking, hgetter, hsetter, rfl⟩
    exact (((hbacking.extract hw _ _).pair (hgetter.extract hw _ _)).pair (hsetter.extract hw _ _)).map
      (fun p => .property head info p.1.1 p.1.2 p.2) (fun p => .property head info p.1.1 p.1.2 p.2)
      fun _ _ h => ⟨_, _, _, h.1.1, h.1.2, h.2, rfl⟩
  | .field head info init => by
    rintro _ ⟨_, hinit, rfl⟩
    exact (hinit.extract hw _ _).map (.field head info) (.field head info) fun _ _ h => ⟨_, h, rfl⟩
  | .initializer head body => by
    rintro _ ⟨_, hbody, rfl⟩
    exact (hbody.extract hw _ _).map (.initializer head) (.initializer head) fun _ _ h => ⟨_, h, rfl⟩

theorem accessorWritten.extract (hw : w.Fits env) : ∀ (d d' : Option Decl), accessorWritten w d d' →
    ExtractsAlike (accessorWritten w.settled) (accessorExtract env d) (accessorExtract env d')
  | none => by
    rintro _ rfl
    exact .yield rfl
  | some d => by
    rintro _ ⟨_, hd, rfl⟩
    exact (hd.extract hw _ _).map some some fun _ _ h => ⟨_, h, rfl⟩

theorem declsWritten.extract (hw : w.Fits env) : ∀ (ds ds' : List Decl), declsWritten w ds ds' →
    ExtractsAlike (declsWritten w.settled) (declsExtract env ds) (declsExtract env ds')
  | [] => by
    rintro _ rfl
    exact .yield rfl
  | d :: ds => by
    rintro _ ⟨_, _, hd, hrest, rfl⟩
    exact ((hd.extract hw _ _).pair (hrest.extract hw _ _)).map (fun p => p.1 :: p.2)
      (fun p => p.1 :: p.2) fun _ _ h => ⟨_, _, h.1, h.2, rfl⟩

end

theorem filesWritten.extract (hw : w.Fits env) {fs fs' : List SourceFile}
    (h : filesWritten w fs fs') :
    ExtractsAlike (filesWritten w.settled) (filesExtract env fs) (filesExtract env fs') := by
  induction h with
  | nil => exact .yield .nil
  | @cons f _ _ _ hf _ ih =>
    obtain ⟨ds', hds, rfl⟩ := hf
    exact ((hds.extract hw _ _).pair ih).map (fun p => { f with declarations := p.1 } :: p.2)
      (fun p => { f with declarations := p.1 } :: p.2) fun _ _ h => .cons ⟨_, h.1, rfl⟩ h.2

/-- The same is taken out of both modules, and what is left of them is related. -/
theorem Module.Written.extract (hw : w.Fits env) {m m' : Module} (h : m.Written w m')
    (captured : CapturedDefaults) :
    (CallerCapture.extract env m' captured).2 = (CallerCapture.extract env m captured).2 ∧
      (CallerCapture.extract env m captured).1.Written w.settled
        (CallerCapture.extract env m' captured).1 := by
  obtain ⟨files', hfiles, rfl⟩ := h
  have halike := hfiles.extract hw
  have hstart : ({ captured } : Extraction) = { captured } := rfl
  exact ⟨(halike.states hstart).symm, _, halike.results hstart trivial, rfl⟩

end TraceWeave

import TraceWeave.Proofs.Capture.Stripping

/-! # Extraction as a walk

Extraction carries records through a program, but what it makes of the program does not depend on
them: it is the walk that strips every function of the defaults that are intrinsic calls, and marks
those that lose one.

`CallerCapture.stripper` is the visitor of this walk, and `CallerCapture.extract_eq_walk` the
equality; each kind of node has its own lemma on the way.
-/

namespace TraceWeave

namespace CallerCapture

variable (env : PassEnv)

/-- Strips the functions of a program one after the other. -/
def stripper : Visitor Unit where
  onDecl _ d st := (d.stripped env, st)

/-- A walk leaves the kind of a default. -/
theorem kind_optionWalk (l : Linkage) (sc : ScopeStack) (place : Place) (e : Option Expr)
    (st : Unit) : (strippedDefault? l (optionWalk (stripper env) sc place e st).1).map Prod.fst =
      (strippedDefault? l e).map Prod.fst := by
  cases e with
  | none => rfl
  | some e =>
    cases e with
    | call s callee receiver typeArgs args =>
      rw [optionWalk, Expr.walk]
      simp only [stripper, strippedDefault?, Option.map_map]
      rfl
    | _ => rfl

theorem kinds_paramsWalk (l : Linkage) (sc : ScopeStack) : ∀ (params : List Param) (st : Unit),
    (paramsWalk (stripper env) sc params st).1.map
        (fun p => (strippedDefault? l p.default).map Prod.fst) =
      params.map fun p => (strippedDefault? l p.default).map Prod.fst
  | [], _ => rfl
  | ⟨_, default⟩ :: params, st =>
    congrArg₂ List.cons (kind_optionWalk env l sc .defaultValue default st)
      (kinds_paramsWalk l sc params _)

variable {env}

/-- The kinds of the defaults decide whether a function is marked. -/
theorem isCapturing_of_kinds {head : DeclHead} {params params' : List Param}
    (h : params'.map (fun p => (strippedDefault? env.linkage p.default).map Prod.fst) =
      params.map fun p => (strippedDefault? env.linkage p.default).map Prod.fst) :
    isCapturing env head params' = isCapturing env head params := by
  have hany := congrArg (List.any · Option.isSome) h
  simp only [List.any_map, Function.comp_def, Option.isSome_map] at hany
  rw [isCapturing, isCapturing, hany]

/-- They decide which modes are listed, too. -/
theorem markedHead_of_kinds {head : DeclHead} {params params' : List Param}
    (h : params'.map (fun p => (strippedDefault? env.linkage p.default).map Prod.fst) =
      params.map fun p => (strippedDefault? env.linkage p.default).map Prod.fst) :
    markedHead env head params' = markedHead env head params := by
  have hmodes := congrArg
    (List.map fun kind? : Option IntrinsicKind => (kind?.map IntrinsicKind.name).getD noCapture) h
  rw [List.map_map, List.map_map] at hmodes
  have hmode : mode env.linkage = (fun kind? : Option IntrinsicKind =>
      (kind?.map IntrinsicKind.name).getD noCapture) ∘
        fun p => (strippedDefault? env.linkage p.default).map Prod.fst := by
    funext p
    rw [Function.comp_apply, mode]
    cases strippedDefault? env.linkage p.default <;> rfl
  rw [markedHead, markedHead, hmode, hmodes]

variable (env)

mutual

-- Both go through the nodes in one order, and `x` never decides what becomes of a node.
theorem exprExtract_walk : ∀ (e : Expr) (x : Extraction) (sc : ScopeStack) (place : Place)
    (st : Unit), (exprExtract env e x).1 = (e.walk (stripper env) sc place st).1
  | .setVar s var value, x, sc, _, st =>
    congrArg (Expr.setVar s var) (exprExtract_walk value x sc .operand st)
  | .call s callee receiver typeArgs args, x, sc, _, st =>
    congrArg₂ (Expr.call s callee · typeArgs ·) (optionExtract_walk receiver x sc .operand st)
      (argsExtract_walk args _ sc _)
  | .block s stmts, x, sc, _, st =>
    congrArg (Expr.block s) (stmtsExtract_walk stmts x (sc.push .ofBody) st)
  | .returnable s id stmts, x, sc, _, st =>
    congrArg (Expr.returnable s id) (stmtsExtract_walk stmts x (sc.push .ofBody) st)
  | .ret s target value, x, sc, _, st =>
    congrArg (Expr.ret s target) (exprExtract_walk value x sc .operand st)
  | .when s branches otherwise, x, sc, _, st =>
    congrArg₂ (Expr.when s) (branchesExtract_walk branches x sc st)
      (optionExtract_walk otherwise _ sc .operand _)
  | .loop s condition body, x, sc, _, st =>
    congrArg₂ (Expr.loop s) (exprExtract_walk condition x sc .operand st)
      (exprExtract_walk body _ sc .operand _)
  | .binary s op lhs rhs, x, sc, _, st =>
    congrArg₂ (Expr.binary s op) (exprExtract_walk lhs x sc .operand st)
      (exprExtract_walk rhs _ sc .operand _)
  | .not s operand, x, sc, _, st =>
    congrArg (Expr.not s) (exprExtract_walk operand x sc .operand st)
  | .concat s parts, x, sc, _, st => congrArg (Expr.concat s) (exprsExtract_walk parts x sc st)
  | .lambda s decl, x, sc, _, st => congrArg (Expr.lambda s) (declExtract_walk decl x sc st)
  | .const _ _, _, _, _, _ => rfl
  | .getVar _ _, _, _, _, _ => rfl
  | .functionRef _ _, _, _, _, _ => rfl
  | .propertyRef _ _, _, _, _, _ => rfl
  | .descriptor _ _, _, _, _, _ => rfl
  | .captureFrame _ _, _, _, _, _ => rfl

theorem optionExtract_walk : ∀ (e : Option Expr) (x : Extraction) (sc : ScopeStack)
    (place : Place) (st : Unit),
      (optionExtract env e x).1 = (optionWalk (stripper env) sc place e st).1
  | none, _, _, _, _ => rfl
  | some e, x, sc, place, st => congrArg some (exprExtract_walk e x sc place st)

theorem argsExtract_walk : ∀ (args : List (Option Expr)) (x : Extraction) (sc : ScopeStack)
    (st : Unit), (argsExtract env args x).1 = (argsWalk (stripper env) sc args st).1
  | [], _, _, _ => rfl
  | none :: args, x, sc, st => congrArg (none :: ·) (argsExtract_walk args x sc st)
  | some e :: args, x, sc, st =>
    congrArg₂ (fun e args => some e :: args) (exprExtract_walk e x sc .operand st)
      (argsExtract_walk args _ sc _)

theorem exprsExtract_walk : ∀ (es : List Expr) (x : Extraction) (sc : ScopeStack) (st : Unit),
    (exprsExtract env es x).1 = (exprsWalk (stripper env) sc es st).1
  | [], _, _, _ => rfl
  | e :: es, x, sc, st =>
    congrArg₂ List.cons (exprExtract_walk e x sc .operand st) (exprsExtract_walk es _ sc _)

theorem branchesExtract_walk : ∀ (branches : List (Expr × Expr)) (x : Extraction)
    (sc : ScopeStack) (st : Unit),
      (branchesExtract env branches x).1 = (branchesWalk (stripper env) sc branches st).1
  | [], _, _, _ => rfl
  | (condition, result) :: branches, x, sc, st =>
    congrArg₂ List.cons (congrArg₂ Prod.mk (exprExtract_walk condition x sc .operand st)
      (exprExtract_walk result _ sc .operand _)) (branchesExtract_walk branches _ sc _)

theorem stmtsExtract_walk : ∀ (stmts : List Stmt) (x : Extraction) (sc : ScopeStack) (st : Unit),
    (stmtsExtract env stmts x).1 = (stmtsWalk (stripper env) sc stmts st).1
  | [], _, _, _ => rfl
  | stmt :: stmts, x, sc, st =>
    congrArg₂ List.cons (stmtExtract_walk stmt x sc st)
      (stmtsExtract_walk stmts _ (sc.after stmt) _)

theorem stmtExtract_walk : ∀ (stmt : Stmt) (x : Extraction) (sc : ScopeStack) (st : Unit),
    (stmtExtract env stmt x).1 = (stmt.walk (stripper env) sc st).1
  | .expr e, x, sc, st => congrArg Stmt.expr (exprExtract_walk e x sc .statement st)
  | .var head init, x, sc, st =>
    congrArg (Stmt.var head) (optionExtract_walk init x sc .initializer st)
  | .decl d, x, sc, st => congrArg Stmt.decl (declExtract_walk d x sc st)

/-- A default that is taken out is gone, whatever the walk made of it. -/
theorem paramsExtract_walk (capturing : Bool) : ∀ (params : List Param) (x : Extraction)
    (sc : ScopeStack) (st : Unit), (paramsExtract env capturing params x).1 =
      (paramsWalk (stripper env) sc params st).1.map
        (if capturing then Param.stripped env.linkage else id)
  | [], _, _, _ => rfl
  | ⟨head, default⟩ :: params, x, sc, st => by
    have hkind := congrArg Option.isSome
      (kind_optionWalk env env.linkage sc .defaultValue default st)
    rw [Option.isSome_map, Option.isSome_map] at hkind
    rw [paramsExtract, paramsWalk, List.map_cons]
    split
    · rename_i htaken
      obtain ⟨rfl, hsome⟩ := Bool.and_eq_true_iff.mp htaken
      refine congrArg₂ List.cons ?_ (paramsExtract_walk true params x sc _)
      rw [if_pos rfl, Param.stripped, if_pos (hkind.trans hsome)]
    · rename_i hkept
      refine congrArg₂ List.cons ?_ (paramsExtract_walk capturing params _ sc _)
      rw [optionExtract_walk default x sc .defaultValue st]
      cases capturing with
      | false => rfl
      | true =>
        rw [if_pos rfl, Param.stripped, if_neg]
        rw [hkind]
        exact fun hsome => hkept (Bool.and_eq_true_iff.mpr ⟨rfl, hsome⟩)

theorem bodyExtract_walk : ∀ (body : Body) (x : Extraction) (sc : ScopeStack) (st : Unit),
    (bodyExtract env body x).1 = (body.walk (stripper env) sc st).1
  | .absent, _, _, _ => rfl
  | .block stmts, x, sc, st =>
    congrArg Body.block (stmtsExtract_walk stmts x (sc.push .ofBody) st)
  | .expression e, x, sc, st =>
    congrArg Body.expression (exprExtract_walk e x sc .expressionBody st)

theorem declExtract_walk : ∀ (d : Decl) (x : Extraction) (sc : ScopeStack) (st : Unit),
    (declExtract env d x).1 = (d.walk (stripper env) sc st).1
  | .classDecl head info members, x, sc, st =>
    congrArg (Decl.classDecl head info)
      (declsExtract_walk members x (sc.push (.ofClass head.id)) st)
  | .function head info params body, x, sc, st => by
    have hkinds := kinds_paramsWalk env env.linkage (sc.inFunction head.id params) params st
    rw [declExtract_function]
    dsimp only
    rw [paramsExtract_walk _ params _ (sc.inFunction head.id params) st,
      bodyExtract_walk body _ (sc.inFunction head.id params) st]
    change _ = Decl.stripped env (.function head info
      (paramsWalk (stripper env) (sc.inFunction head.id params) params st).1
      (body.walk (stripper env) (sc.inFunction head.id params) st).1)
    rw [Decl.stripped, isCapturing_of_kinds hkinds, markedHead_of_kinds hkinds]
    cases isCapturing env head params with
    | true => rfl
    | false => exact congrArg (Decl.function head info · _) (List.map_id _)
  | .property head info backing getter setter, x, sc, st => by
    rw [declExtract]
    dsimp only
    rw [accessorExtract_walk backing x sc st, accessorExtract_walk getter _ sc st,
      accessorExtract_walk setter _ sc st]
    rfl
  | .field head info init, x, sc, st =>
    congrArg (Decl.field head info)
      (optionExtract_walk init x (sc.push (.ofInitializer head.id)) .initializer st)
  | .initializer head body, x, sc, st =>
    congrArg (Decl.initializer head)
      (stmtsExtract_walk body x ((sc.push (.ofInitializer head.id)).push .ofBody) st)

theorem accessorExtract_walk : ∀ (d : Option Decl) (x : Extraction) (sc : ScopeStack) (st : Unit),
    (accessorExtract env d x).1 = (accessorWalk (stripper env) sc d st).1
  | none, _, _, _ => rfl
  | some d, x, sc, st => congrArg some (declExtract_walk d x sc st)

theorem declsExtract_walk : ∀ (ds : List Decl) (x : Extraction) (sc : ScopeStack) (st : Unit),
    (declsExtract env ds x).1 = (declsWalk (stripper env) sc ds st).1
  | [], _, _, _ => rfl
  | d :: ds, x, sc, st =>
    congrArg₂ List.cons (declExtract_walk d x sc st) (declsExtract_walk ds _ sc _)

end

theorem filesExtract_walk : ∀ (fs : List SourceFile) (x : Extraction) (st : Unit),
    (filesExtract env fs x).1 = (filesWalk (stripper env) fs st).1
  | [], _, _ => rfl
  | f :: fs, x, st =>
    congrArg₂ (fun declarations fs => ({ f with declarations } : SourceFile) :: fs)
      (declsExtract_walk env f.declarations x {} st) (filesExtract_walk fs _ _)

/-- Extraction strips the functions of the own files. -/
theorem extract_eq_walk (m : Module) (captured : CapturedDefaults) :
    (extract env m captured).1 = { m with files := (filesWalk (stripper env) m.files ()).1 } :=
  congrArg (fun files => ({ m with files } : Module)) (filesExtract_walk env m.files _ ())

end CallerCapture

end TraceWeave

import TraceWeave.Proofs.Removal.Activity
import TraceWeave.Proofs.Removal.Without

/-! # Every call is accounted for

A program without what goes away has the calls that it had before, up to those that stand in what
was taken out. A call is told apart by its face and by what the trace passes read off the
declarations around it, so one that stays is as active as it was.

A `Stance` is a call as the trace passes see it. `Sheds` relates visits before and after, by
recursion on the program, and `filesWithout_leaves` says it of files.
-/

namespace TraceWeave

/-- A call as the trace passes see it, among the declarations that it stands in. -/
abbrev Stance : Type := CallFace × List DeclSign

/-- The visits in an expression, its own behind them. -/
def Expr.visits (sc : ScopeStack) (around : List Decl) (place : Place) (e : Expr) : List Visit :=
  (Tour.visit place e e.operandTours).visits sc around

namespace Visit

def stance? (x : Visit) : Option Stance := x.callFace?.map (·, x.signs)

/-- The calls in a visited expression, itself included. -/
def stances (x : Visit) : List Stance :=
  (x.expr.visits x.scopes x.around x.place).filterMap stance?

/-- What goes away are calls where they can be taken out, whatever stands in them. -/
structure Selects (gone : Visit → Bool) : Prop where
  congr : ∀ {x y : Visit}, x.stance? = y.stance? → gone x = gone y
  isCall : ∀ {x : Visit}, gone x = true → x.stance?.isSome
  place : ∀ {x : Visit}, gone x = true → Removal.isRemovable x.place = true

namespace Selects

variable {gone : Visit → Bool} {x : Visit}

theorem fixed (h : Selects gone) (hx : Removal.isRemovable x.place = false) : gone x = false :=
  Bool.eq_false_iff.mpr fun hgone => Bool.false_ne_true (hx.symm.trans (h.place hgone))

theorem quiet (h : Selects gone) (hx : x.stance? = none) : gone x = false :=
  Bool.eq_false_iff.mpr fun hgone => by
    have hsome := h.isCall hgone
    rw [hx] at hsome
    cases hsome

end Selects

end Visit

open Visit

/-- Visits after some were taken out: each call before is still there or stands in what was taken
out, and all that goes away was taken out. -/
structure Sheds (gone : Visit → Bool) (before after removed : List Visit) : Prop where
  calls : (after.filterMap stance? ++ removed.flatMap stances).Perm (before.filterMap stance?)
  stays : ∀ x ∈ after, gone x = false
  taken : ∀ x ∈ removed, gone x = true ∧ x ∈ before

namespace Sheds

variable {gone : Visit → Bool} {xs ys rs xs' ys' rs' : List Visit} {sc : ScopeStack}
  {around around' : List Decl} {place : Place} {e e' : Expr}

theorem nothing : Sheds gone [] [] [] := ⟨.refl _, nofun, nofun⟩

theorem append (h : Sheds gone xs ys rs) (h' : Sheds gone xs' ys' rs') :
    Sheds gone (xs ++ xs') (ys ++ ys') (rs ++ rs') := by
  refine ⟨?_, List.forall_mem_append.mpr ⟨h.stays, h'.stays⟩, List.forall_mem_append.mpr
    ⟨fun x hx => (h.taken x hx).imp_right (List.mem_append_left _),
      fun x hx => (h'.taken x hx).imp_right (List.mem_append_right _)⟩⟩
  rw [List.filterMap_append, List.filterMap_append, List.flatMap_append, List.append_assoc]
  -- the calls that stay come before those that were taken out, from both parts
  refine ((List.perm_append_comm_assoc _ _ _).append_left _).trans ?_
  rw [← List.append_assoc]
  exact h.calls.append h'.calls

theorem single (h : Sheds gone xs ys rs) : Sheds gone (xs ++ []) (ys ++ []) rs := by
  rwa [List.append_nil, List.append_nil]

theorem beside {ts ts' us us' : List Tour}
    (h : Sheds gone (toursVisits sc around ts) (toursVisits sc around' us) rs)
    (h' : Sheds gone (toursVisits sc around ts') (toursVisits sc around' us') rs') :
    Sheds gone (toursVisits sc around (ts ++ ts')) (toursVisits sc around' (us ++ us'))
      (rs ++ rs') := by
  rw [toursVisits_append, toursVisits_append]
  exact h.append h'

theorem besideDecls {ts ts' us us' : List DeclTour}
    (h : Sheds gone (declToursVisits sc around ts) (declToursVisits sc around' us) rs)
    (h' : Sheds gone (declToursVisits sc around ts') (declToursVisits sc around' us') rs') :
    Sheds gone (declToursVisits sc around (ts ++ ts')) (declToursVisits sc around' (us ++ us'))
      (rs ++ rs') := by
  rw [declToursVisits_append, declToursVisits_append]
  exact h.append h'

/-- An expression that stays is the call that it was, if it was one. -/
theorem visit (hg : Selects gone) (hsigns : around'.map Decl.sign = around.map Decl.sign)
    (he : gone ⟨sc, around, place, e⟩ = false)
    (h : Sheds gone (toursVisits sc around e.operandTours)
      (toursVisits sc around' e'.operandTours) rs)
    (hface : e'.callFace? sc place = e.callFace? sc place := by rfl) :
    Sheds gone (e.visits sc around place) (e'.visits sc around' place) rs := by
  have hsame : (⟨sc, around', place, e'⟩ : Visit).stance? = stance? ⟨sc, around, place, e⟩ := by
    rw [stance?, stance?, callFace?, callFace?, signs, signs, hface, hsigns]
  have hself : Sheds gone [⟨sc, around, place, e⟩] [⟨sc, around', place, e'⟩] [] := by
    refine ⟨?_, ?_, fun _ hx => absurd hx List.not_mem_nil⟩
    · rw [List.filterMap_cons, List.filterMap_cons, hsame]
      exact .of_eq (List.append_nil _)
    · intro x hx
      rw [List.mem_singleton.mp hx, hg.congr hsame, he]
  have happend := h.append hself
  rwa [List.append_nil] at happend

/-- An expression that is taken out, with all that stands in it. -/
theorem take (h : gone ⟨sc, around, place, e⟩ = true) :
    Sheds gone (e.visits sc around place) [] [⟨sc, around, place, e⟩] := by
  refine ⟨?_, nofun, fun x hx => ?_⟩
  · rw [List.flatMap_singleton]
    exact .refl _
  · rw [List.mem_singleton.mp hx]
    exact ⟨h, List.mem_append_right _ List.mem_cons_self⟩

/-- A constant in the place of an expression that is taken out. -/
theorem blank (hg : Selects gone) (h : gone ⟨sc, around, place, e⟩ = true)
    (he' : ∀ sc place, e'.callFace? sc place = none) (hnone : e'.operandTours = []) :
    Sheds gone (e.visits sc around place) (e'.visits sc around' place)
      [⟨sc, around, place, e⟩] := by
  have hself : (⟨sc, around', place, e'⟩ : Visit).stance? = none := by
    rw [stance?, callFace?, he', Option.map_none]
  have hvisits : e'.visits sc around' place = [⟨sc, around', place, e'⟩] := by
    rw [Expr.visits, Tour.visits, hnone]
    rfl
  obtain ⟨hcalls, -, htaken⟩ := take h
  refine ⟨?_, ?_, htaken⟩
  · rwa [hvisits, List.filterMap_cons, hself]
  · intro x hx
    rw [hvisits] at hx
    rw [List.mem_singleton.mp hx, hg.quiet hself]

end Sheds

/-! ## What is kept -/

theorem argsWithout_isSome (gone : Visit → Bool) (sc : ScopeStack) (around : List Decl)
    (args : List (Option Expr)) :
    (argsWithout gone sc around args).1.map Option.isSome = args.map Option.isSome := by
  induction args with
  | nil => rfl
  | cons arg args ih =>
    cases arg with
    | none => exact congrArg (false :: ·) ih
    | some => exact congrArg (true :: ·) ih

theorem paramsWithout_heads (gone : Visit → Bool) (sc : ScopeStack) (around : List Decl)
    (params : List Param) :
    (paramsWithout gone sc around params).1.map Param.head = params.map Param.head := by
  induction params with
  | nil => rfl
  | cons p params ih =>
    cases p
    exact congrArg (_ :: ·) ih

/-- A function has the scopes that its parameters name. -/
theorem ScopeStack.inFunction_congr (sc : ScopeStack) (id : DeclId) {params params' : List Param}
    (h : params'.map Param.head = params.map Param.head) :
    sc.inFunction id params' = sc.inFunction id params := by
  have hlocals := congrArg (List.map VisibleLocal.ofParam) h
  rw [List.map_map, List.map_map] at hlocals
  exact congrArg (fun locals => sc.push (.ofFunction id locals)) hlocals

/-- A declaration is seen as before without what goes away in it. -/
theorem Decl.signs_without (gone : Visit → Bool) (d : Decl) (sc : ScopeStack)
    {around around' : List Decl} (h : around'.map Decl.sign = around.map Decl.sign) :
    ((d.without gone sc around).1 :: around').map Decl.sign = (d :: around).map Decl.sign := by
  refine congrArg₂ List.cons ?_ h
  cases d <;> rfl

variable {gone : Visit → Bool}

mutual

-- What stands around a node may have lost calls as well, so the two sides have different
-- declarations around them, which look the same to the trace passes.
theorem Expr.without_leaves (hg : Selects gone) : ∀ (e : Expr) (sc : ScopeStack)
    {around around' : List Decl} (place : Place), around'.map Decl.sign = around.map Decl.sign →
      gone ⟨sc, around, place, e⟩ = false →
        Sheds gone (e.visits sc around place)
          ((e.without gone sc around).1.visits sc around' place) (e.without gone sc around).2
  | .setVar _ _ value => fun sc _ _ _ hs he =>
    (value.without_leaves hg sc .operand hs (hg.fixed rfl)).single.visit hg hs he
  | .call s callee receiver _ args => fun sc around _ place hs he =>
    ((optionWithout_leaves hg receiver sc .operand hs rfl).beside
      (argsWithout_leaves hg args sc hs)).visit hg hs he
      (congrArg (fun given => some (CallFace.mk sc place s.span callee given))
        (argsWithout_isSome gone sc around args))
  | .block _ stmts => fun _ _ _ _ hs he =>
    (stmtsWithout_leaves hg stmts _ hs).single.visit hg hs he
  | .returnable _ _ stmts => fun _ _ _ _ hs he =>
    (stmtsWithout_leaves hg stmts _ hs).single.visit hg hs he
  | .ret _ _ value => fun sc _ _ _ hs he =>
    (value.without_leaves hg sc .operand hs (hg.fixed rfl)).single.visit hg hs he
  | .when _ branches otherwise => fun sc _ _ _ hs he =>
    ((branchesWithout_leaves hg branches sc hs).beside
      (optionWithout_leaves hg otherwise sc .operand hs rfl)).visit hg hs he
  | .loop _ condition body => fun sc _ _ _ hs he =>
    ((condition.without_leaves hg sc .operand hs (hg.fixed rfl)).append
      (body.without_leaves hg sc .operand hs (hg.fixed rfl)).single).visit hg hs he
  | .binary _ _ lhs rhs => fun sc _ _ _ hs he =>
    ((lhs.without_leaves hg sc .operand hs (hg.fixed rfl)).append
      (rhs.without_leaves hg sc .operand hs (hg.fixed rfl)).single).visit hg hs he
  | .not _ operand => fun sc _ _ _ hs he =>
    (operand.without_leaves hg sc .operand hs (hg.fixed rfl)).single.visit hg hs he
  | .concat _ parts => fun sc _ _ _ hs he => (exprsWithout_leaves hg parts sc hs).visit hg hs he
  | .lambda _ decl => fun sc _ _ _ hs he => (decl.without_leaves hg sc hs).single.visit hg hs he
  | .const _ _ | .getVar _ _ | .functionRef _ _ | .propertyRef _ _ | .descriptor _ _
  | .captureFrame _ _ => fun _ _ _ _ hs he => Sheds.nothing.visit hg hs he

theorem optionWithout_leaves (hg : Selects gone) : ∀ (e : Option Expr) (sc : ScopeStack)
    {around around' : List Decl} (place : Place), around'.map Decl.sign = around.map Decl.sign →
      Removal.isRemovable place = false →
        Sheds gone (toursVisits sc around (optionTours place e))
          (toursVisits sc around' (optionTours place (optionWithout gone sc around e).1))
          (optionWithout gone sc around e).2
  | none => fun _ _ _ _ _ _ => .nothing
  | some e => fun sc _ _ place hs hplace =>
    (e.without_leaves hg sc place hs (hg.fixed hplace)).single

theorem argsWithout_leaves (hg : Selects gone) : ∀ (args : List (Option Expr)) (sc : ScopeStack)
    {around around' : List Decl}, around'.map Decl.sign = around.map Decl.sign →
      Sheds gone (toursVisits sc around (argsTours args))
        (toursVisits sc around' (argsTours (argsWithout gone sc around args).1))
        (argsWithout gone sc around args).2
  | [] => fun _ _ _ _ => .nothing
  | none :: args => fun sc _ _ hs => argsWithout_leaves hg args sc hs
  | some e :: args => fun sc _ _ hs =>
    (e.without_leaves hg sc .operand hs (hg.fixed rfl)).append (argsWithout_leaves hg args sc hs)

theorem exprsWithout_leaves (hg : Selects gone) : ∀ (es : List Expr) (sc : ScopeStack)
    {around around' : List Decl}, around'.map Decl.sign = around.map Decl.sign →
      Sheds gone (toursVisits sc around (exprsTours es))
        (toursVisits sc around' (exprsTours (exprsWithout gone sc around es).1))
        (exprsWithout gone sc around es).2
  | [] => fun _ _ _ _ => .nothing
  | e :: es => fun sc _ _ hs =>
    (e.without_leaves hg sc .operand hs (hg.fixed rfl)).append (exprsWithout_leaves hg es sc hs)

theorem branchesWithout_leaves (hg : Selects gone) : ∀ (branches : List (Expr × Expr))
    (sc : ScopeStack) {around around' : List Decl}, around'.map Decl.sign = around.map Decl.sign →
      Sheds gone (toursVisits sc around (branchesTours branches))
        (toursVisits sc around' (branchesTours (branchesWithout gone sc around branches).1))
        (branchesWithout gone sc around branches).2
  | [] => fun _ _ _ _ => .nothing
  | (condition, result) :: branches => fun sc _ _ hs => by
    have hbranch := (condition.without_leaves hg sc .operand hs (hg.fixed rfl)).append
      ((result.without_leaves hg sc .operand hs (hg.fixed rfl)).append
        (branchesWithout_leaves hg branches sc hs))
    rwa [← List.append_assoc (Expr.without gone sc _ condition).2] at hbranch

theorem stmtsWithout_leaves (hg : Selects gone) : ∀ (stmts : List Stmt) (sc : ScopeStack)
    {around around' : List Decl}, around'.map Decl.sign = around.map Decl.sign →
      Sheds gone (itemsVisits sc around (stmtsItems stmts))
        (itemsVisits sc around' (stmtsItems (stmtsWithout gone sc around stmts).1))
        (stmtsWithout gone sc around stmts).2
  | [] => fun _ _ _ _ => .nothing
  | .expr e :: stmts => fun sc around _ hs => by
    have hrest := stmtsWithout_leaves hg stmts sc hs
    rw [stmtsWithout]
    cases hgone : gone ⟨sc, around, .statement, e⟩ with
    | true => exact (Sheds.take hgone).append hrest
    | false => exact (e.without_leaves hg sc .statement hs hgone).append hrest
  | .var head none :: stmts => fun sc _ _ hs =>
    stmtsWithout_leaves hg stmts (sc.declare (.ofVar head)) hs
  | .var head (some e) :: stmts => fun sc _ _ hs =>
    (e.without_leaves hg sc .initializer hs (hg.fixed rfl)).append
      (stmtsWithout_leaves hg stmts (sc.declare (.ofVar head)) hs)
  | .decl d :: stmts => fun sc _ _ hs =>
    (d.without_leaves hg sc hs).append (stmtsWithout_leaves hg stmts sc hs)

theorem paramsWithout_leaves (hg : Selects gone) : ∀ (params : List Param) (sc : ScopeStack)
    {around around' : List Decl}, around'.map Decl.sign = around.map Decl.sign →
      Sheds gone (toursVisits sc around (paramsTours params))
        (toursVisits sc around' (paramsTours (paramsWithout gone sc around params).1))
        (paramsWithout gone sc around params).2
  | [] => fun _ _ _ _ => .nothing
  | ⟨_, default⟩ :: params => fun sc _ _ hs =>
    (optionWithout_leaves hg default sc .defaultValue hs rfl).beside
      (paramsWithout_leaves hg params sc hs)

theorem Body.without_leaves (hg : Selects gone) : ∀ (body : Body) (sc : ScopeStack)
    {around around' : List Decl}, around'.map Decl.sign = around.map Decl.sign →
      Sheds gone (toursVisits sc around body.tours)
        (toursVisits sc around' (body.without gone sc around).1.tours)
        (body.without gone sc around).2
  | .absent => fun _ _ _ _ => .nothing
  | .block stmts => fun _ _ _ hs => (stmtsWithout_leaves hg stmts _ hs).single
  | .expression e => fun sc around _ hs => by
    rw [Body.without]
    cases hgone : gone ⟨sc, around, .expressionBody, e⟩ with
    | true => exact (Sheds.blank hg hgone (fun _ _ => rfl) rfl).single
    | false => exact (e.without_leaves hg sc .expressionBody hs hgone).single

theorem Decl.without_leaves (hg : Selects gone) : ∀ (d : Decl) (sc : ScopeStack)
    {around around' : List Decl}, around'.map Decl.sign = around.map Decl.sign →
      Sheds gone (d.tour.visits sc around) ((d.without gone sc around).1.tour.visits sc around')
        (d.without gone sc around).2
  | .classDecl head info members => fun sc _ _ hs =>
    declsWithout_leaves hg members _ ((Decl.classDecl head info members).signs_without gone sc hs)
  | .function head info params body => fun sc around around' hs => by
    let d : Decl := .function head info params body
    let d' : Decl := (d.without gone sc around).1
    have hs' : (d' :: around').map Decl.sign = (d :: around).map Decl.sign :=
      d.signs_without gone sc hs
    have hentering : sc.entering d' = sc.entering d :=
      sc.inFunction_congr head.id (paramsWithout_heads gone _ _ params)
    change Sheds gone _ (toursVisits (sc.entering d') (d' :: around') _) _
    rw [hentering]
    exact (paramsWithout_leaves hg params _ hs').beside (body.without_leaves hg _ hs')
  | .property head info backing getter setter => fun sc _ _ hs => by
    have hs' := (Decl.property head info backing getter setter).signs_without gone sc hs
    exact ((accessorWithout_leaves hg backing sc hs').besideDecls
      (accessorWithout_leaves hg getter sc hs')).besideDecls
        (accessorWithout_leaves hg setter sc hs')
  | .field head info init => fun sc _ _ hs =>
    optionWithout_leaves hg init _ .initializer
      ((Decl.field head info init).signs_without gone sc hs) rfl
  | .initializer head body => fun sc _ _ hs =>
    (stmtsWithout_leaves hg body _ ((Decl.initializer head body).signs_without gone sc hs)).single

theorem accessorWithout_leaves (hg : Selects gone) : ∀ (d : Option Decl) (sc : ScopeStack)
    {around around' : List Decl}, around'.map Decl.sign = around.map Decl.sign →
      Sheds gone (declToursVisits sc around (accessorTours d))
        (declToursVisits sc around' (accessorTours (accessorWithout gone sc around d).1))
        (accessorWithout gone sc around d).2
  | none => fun _ _ _ _ => .nothing
  | some d => fun sc _ _ hs => (d.without_leaves hg sc hs).single

theorem declsWithout_leaves (hg : Selects gone) : ∀ (ds : List Decl) (sc : ScopeStack)
    {around around' : List Decl}, around'.map Decl.sign = around.map Decl.sign →
      Sheds gone (declToursVisits sc around (declsTours ds))
        (declToursVisits sc around' (declsTours (declsWithout gone sc around ds).1))
        (declsWithout gone sc around ds).2
  | [] => fun _ _ _ _ => .nothing
  | d :: ds => fun sc _ _ hs => (d.without_leaves hg sc hs).append (declsWithout_leaves hg ds sc hs)

end

/-- The calls of a program without what goes away. -/
theorem filesWithout_leaves (hg : Selects gone) : ∀ fs : List SourceFile,
    Sheds gone (fs.flatMap fun f => declToursVisits {} [] (declsTours f.declarations))
      ((filesWithout gone fs).1.flatMap fun f => declToursVisits {} [] (declsTours f.declarations))
      (filesWithout gone fs).2
  | [] => .nothing
  | f :: fs => (declsWithout_leaves hg f.declarations {} rfl).append (filesWithout_leaves hg fs)

end TraceWeave

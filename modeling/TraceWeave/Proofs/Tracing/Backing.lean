import TraceWeave.Proofs.Program.Calls
import TraceWeave.Proofs.Tracing.Instrumented

/-! # What is told can be told

In a program that was instrumented, every event that is active at a call site or in a body has its
descriptors and its hook.

An event that is `Tracing.Backed` can be told. `Instrument.Succeeds.siteBacked` says it of call
sites and `Instrument.Succeeds.bodyBacked` of bodies.
-/

namespace TraceWeave

open Tracing

section

variable {env : PassEnv} {store : Store} {sc₀ : ScopeStack}

mutual

theorem Expr.calls_backed : ∀ (e : Expr) ⦃sc lv e'⦄, sc₀.SameContext sc →
    e.Woven env store sc lv e' → CallsOnly (SiteBacked env store sc₀) e.calls
  | .const _ _ | .getVar _ _ | .functionRef _ _ | .propertyRef _ _ | .lambda _ _
  | .descriptor _ _ | .captureFrame _ _ => fun _ _ _ _ _ _ hc => nomatch hc
  | .setVar _ _ value => by
    rintro sc lv _ hsc ⟨value', hv, -⟩
    exact value.calls_backed hsc hv
  | .call s callee receiver typeArgs args => by
    rintro sc lv _ hsc ⟨receiver', args', hr, ha, hbacked, -⟩
    rw [Expr.calls, CallsOnly.cons_iff, CallsOnly.append_iff]
    exact ⟨hsc.siteBacked_eq env store ▸ hbacked, option_calls_backed receiver hsc hr,
      args_calls_backed args hsc ha⟩
  | .block _ stmts => by
    rintro sc lv _ hsc ⟨stmts', hs, -⟩
    exact stmts_calls_backed stmts hsc.block hs
  | .returnable _ _ stmts => by
    rintro sc lv _ hsc ⟨stmts', hs, -⟩
    exact stmts_calls_backed stmts hsc.block hs
  | .ret _ _ value => by
    rintro sc lv _ hsc ⟨value', value'', hv, -⟩
    exact value.calls_backed hsc hv
  | .when _ branches otherwise => by
    rintro sc lv _ hsc ⟨branches', otherwise', hb, ho, -⟩
    rw [Expr.calls, CallsOnly.append_iff]
    exact ⟨branches_calls_backed branches hsc hb, option_calls_backed otherwise hsc ho⟩
  | .loop _ condition body => by
    rintro sc lv _ hsc ⟨condition', body', hc, hb, -⟩
    rw [Expr.calls, CallsOnly.append_iff]
    exact ⟨condition.calls_backed hsc hc, body.calls_backed hsc hb⟩
  | .binary _ _ lhs rhs => by
    rintro sc lv _ hsc ⟨lhs', rhs', hl, hr, -⟩
    rw [Expr.calls, CallsOnly.append_iff]
    exact ⟨lhs.calls_backed hsc hl, rhs.calls_backed hsc hr⟩
  | .not _ operand => by
    rintro sc lv _ hsc ⟨operand', ho, -⟩
    exact operand.calls_backed hsc ho
  | .concat _ parts => by
    rintro sc lv _ hsc ⟨parts', hp, -⟩
    exact exprs_calls_backed parts hsc hp

theorem option_calls_backed : ∀ (e : Option Expr) ⦃sc lv e'⦄, sc₀.SameContext sc →
    optionWoven env store sc lv e e' → CallsOnly (SiteBacked env store sc₀) (optionCalls e)
  | none => fun _ _ _ _ _ _ hc => nomatch hc
  | some e => by
    rintro sc lv _ hsc ⟨x, he, -⟩
    exact e.calls_backed hsc he

theorem args_calls_backed : ∀ (args : List (Option Expr)) ⦃sc lv args'⦄, sc₀.SameContext sc →
    argsWoven env store sc lv args args' → CallsOnly (SiteBacked env store sc₀) (argsCalls args)
  | [] => fun _ _ _ _ _ _ hc => nomatch hc
  | none :: args => by
    rintro sc lv _ hsc ⟨rest, ha, -⟩
    exact args_calls_backed args hsc ha
  | some e :: args => by
    rintro sc lv _ hsc ⟨x, rest, he, ha, -⟩
    rw [argsCalls, CallsOnly.append_iff]
    exact ⟨e.calls_backed hsc he, args_calls_backed args hsc ha⟩

theorem exprs_calls_backed : ∀ (es : List Expr) ⦃sc lv es'⦄, sc₀.SameContext sc →
    exprsWoven env store sc lv es es' → CallsOnly (SiteBacked env store sc₀) (exprsCalls es)
  | [] => fun _ _ _ _ _ _ hc => nomatch hc
  | e :: es => by
    rintro sc lv _ hsc ⟨x, rest, he, hes, -⟩
    rw [exprsCalls, CallsOnly.append_iff]
    exact ⟨e.calls_backed hsc he, exprs_calls_backed es hsc hes⟩

theorem branches_calls_backed : ∀ (branches : List (Expr × Expr)) ⦃sc lv branches'⦄,
    sc₀.SameContext sc → branchesWoven env store sc lv branches branches' →
      CallsOnly (SiteBacked env store sc₀) (branchesCalls branches)
  | [] => fun _ _ _ _ _ _ hc => nomatch hc
  | (condition, result) :: branches => by
    rintro sc lv _ hsc ⟨x, y, rest, hc, hr, hb, -⟩
    rw [branchesCalls, CallsOnly.append_iff, CallsOnly.append_iff]
    exact ⟨⟨condition.calls_backed hsc hc, result.calls_backed hsc hr⟩,
      branches_calls_backed branches hsc hb⟩

theorem stmts_calls_backed : ∀ (stmts : List Stmt) ⦃sc lv stmts'⦄, sc₀.SameContext sc →
    stmtsWoven env store sc lv stmts stmts' → CallsOnly (SiteBacked env store sc₀) (stmtsCalls stmts)
  | [] => fun _ _ _ _ _ _ hc => nomatch hc
  | stmt :: stmts => by
    rintro sc lv _ hsc ⟨x, rest, hx, hs, -⟩
    rw [stmtsCalls, CallsOnly.append_iff]
    exact ⟨stmt.calls_backed hsc hx, stmts_calls_backed stmts (hsc.after stmt) hs⟩

theorem Stmt.calls_backed : ∀ (stmt : Stmt) ⦃sc lv stmt'⦄, sc₀.SameContext sc →
    stmt.Woven env store sc lv stmt' → CallsOnly (SiteBacked env store sc₀) stmt.calls
  | .expr e => by
    rintro sc lv _ hsc ⟨x, he, -⟩
    exact e.calls_backed hsc he
  | .var _ init => by
    rintro sc lv _ hsc ⟨init', hi, -⟩
    exact option_calls_backed init hsc hi
  | .decl _ => fun _ _ _ _ _ _ hc => nomatch hc

end

theorem params_calls_backed (params : List Param) : ∀ ⦃params'⦄,
    paramsWoven env store sc₀ params params' →
      CallsOnly (SiteBacked env store sc₀) (paramsCalls params) := by
  induction params with
  | nil => exact fun _ _ _ hc => absurd hc List.not_mem_nil
  | cons p params ih =>
    obtain ⟨head, default⟩ := p
    rintro _ ⟨default', rest, hd, hp, -⟩
    rw [paramsCalls, CallsOnly.append_iff]
    exact ⟨option_calls_backed default (.refl sc₀) hd, ih hp⟩

theorem Body.calls_backed (body : Body) {lv : Leaves} {body' : Body}
    (h : body.Woven env store sc₀ lv body') : CallsOnly (SiteBacked env store sc₀) body.calls := by
  cases body with
  | absent => exact fun _ hc => nomatch hc
  | block stmts =>
    obtain ⟨stmts', hs, -⟩ := h
    exact stmts_calls_backed stmts (ScopeStack.SameContext.refl sc₀).block hs
  | expression e =>
    obtain ⟨x, he, -⟩ := h
    exact e.calls_backed (.refl sc₀) he

end

namespace Instrument.Succeeds

variable {options : Options} {sources : Source.Provider} {m : Module} {store : Store}
  {env : PassEnv}

/-- Declarations of own files are woven. -/
theorem own_woven (h : Succeeds options sources m store env) {x : ScopeStack × Decl}
    (hx : x ∈ m.ownDecls) : ∃ d', x.2.Woven env (run env m store).store x.1 d' := by
  have hall := h.woven.ownDecls
  generalize m.ownDecls = xs, (run env m store).module.files.flatMap _ = ds at hall hx
  induction hall with
  | nil => exact nomatch hx
  | @cons x' d' _ _ hd _ ih =>
    obtain rfl | hx := List.mem_cons.mp hx
    · exact ⟨d', hd⟩
    · exact ih hx

theorem bodyBacked (h : Succeeds options sources m store env) {sc : ScopeStack} {head : DeclHead}
    {info : FunctionHead} {params : List Param} {body : Body}
    (hx : (sc, Decl.function head info params body) ∈ m.ownDecls) :
    BodyBacked env (run env m store).store sc head body := by
  obtain ⟨d', -, -, -, -, -, hbacked, -⟩ := h.own_woven hx
  exact hbacked

theorem siteBacked (h : Succeeds options sources m store env) {sc : ScopeStack} {head : DeclHead}
    {info : FunctionHead} {params : List Param} {body : Body}
    (hx : (sc, Decl.function head info params body) ∈ m.ownDecls) :
    CallsOnly (SiteBacked env (run env m store).store (sc.inFunction head.id params))
      (Decl.function head info params body).calls := by
  obtain ⟨d', params', body', -, hparams, hbody, -⟩ := h.own_woven hx
  exact CallsOnly.append_iff.mpr ⟨params_calls_backed params hparams, body.calls_backed hbody⟩

end Instrument.Succeeds

end TraceWeave

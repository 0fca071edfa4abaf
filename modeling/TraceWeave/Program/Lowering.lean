import TraceWeave.Program.Tree

/-! # Code that passes build

Temporaries, calls of hooks, references to descriptors and blocks with a value.

`Lowering.temporary` declares a variable for a value, `Lowering.hookCall` calls a hook,
`Lowering.descriptorExpr` refers to a descriptor, and `Lowering.blockWithResult` runs statements
before and after a value is computed.
-/

namespace TraceWeave

namespace DescriptorRef

/-- The static type of a reference: the runtime class of its kind. -/
def runtimeTy (r : DescriptorRef) : Ty := .ofClass r.kind.runtimeClass

end DescriptorRef

namespace Lowering

/-- Binds an expression to a fresh temporary. The result reads the temporary, and the statement
that binds it must run first. -/
def temporary (e : Expr) (ids : IdAllocator) : Expr × Stmt × IdAllocator :=
  let (var, ids) := ids.var
  let span := e.span.toSynthetic
  let head : VarHead :=
    { id := var, name := s!"tmp${var.val}", ty := e.ty, span, origin := .synthetic }
  (.getVar ⟨span, e.ty⟩ var, .var head (some e), ids)

/-- A call of a hook, which has no value. -/
def hookCall (hook : DeclId) (args : List Expr) (span : Span) : Expr :=
  .call ⟨span.toSynthetic, .unit⟩ hook none [] (args.map some)

/-- A reference to a descriptor. -/
def descriptorExpr (r : DescriptorRef) (span : Span) : Expr := .descriptor ⟨span, r.runtimeTy⟩ r

/-- A block that ends with its value. -/
def blockWithResult (stmts : List Stmt) (result : Expr) (span : Span) : Expr :=
  .block ⟨span, result.ty⟩ (stmts ++ [.expr result])

/-- What stands in the place of an expression that was moved away. -/
def placeholder (e : Expr) : Expr := .unit e.span.toSynthetic

end Lowering

end TraceWeave

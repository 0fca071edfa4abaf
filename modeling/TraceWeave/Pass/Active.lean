import TraceWeave.Pass.Basic

/-! # Active trace types

The types that are active at a point: those that are active everywhere, and those that the
annotations of the classes and functions around the point select.

`activeTypes` is the union of the set that is active everywhere with `declaredTypes`, what the
declarations around the point select; one annotation selects `tracedTypes`.
-/

namespace TraceWeave

/-- The types that one use of the selecting annotation names; all, if it names none. -/
def tracedTypes (use : AnnotationUse) : Except Error TraceSet :=
  match use.argument? "types" with
  | none => .ok .full
  | some types =>
    match types.strings? with
    | none =>
      .error (.config s!"`types` of `{use.className}` must be an array of trace type names")
    | some names => (names.mapM TraceType.parse).map .ofList

/-- Adds the types of uses one after the other. -/
def addTraced : List AnnotationUse → TraceSet → Except Error TraceSet
  | [], set => .ok set
  | use :: uses, set =>
    match tracedTypes use with
    | .ok types => addTraced uses (set.union types)
    | .error e => .error e

/-- The types that the annotations of a declaration select. -/
def declaredTypes (o : Options) (annotations : List AnnotationUse) : Except Error TraceSet :=
  addTraced (AnnotationUse.ofClass annotations o.tracing.selectedBy) .empty

/-- Adds the types that declarations select, one after the other. -/
def addDeclared (o : Options) (t : SymbolTable) :
    List DeclId → TraceSet → Except Error TraceSet
  | [], set => .ok set
  | id :: ids, set =>
    match t.get? id with
    | none => addDeclared o t ids set
    | some s =>
      match declaredTypes o s.head.annotations with
      | .ok types => addDeclared o t ids (set.union types)
      | .error e => .error e

/-- The types that are active at a point. -/
def activeTypes (env : PassEnv) (sc : ScopeStack) : Except Error TraceSet :=
  addDeclared env.options env.symbols sc.declarations env.options.tracing.defaultSet

end TraceWeave

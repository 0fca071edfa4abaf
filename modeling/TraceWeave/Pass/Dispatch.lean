import TraceWeave.Pass.Basic
import TraceWeave.Program.Lowering

/-! # Intrinsic dispatch

Every call of an accepted intrinsic is replaced by what the handler of its kind resolves it to, at
the place of the call. A result of another shape than the kind promises never enters the program.

`Dispatch.run` is the pass and `Dispatch.replaceCall` its step. A `Handler` sees an
`IntrinsicCall` and gives a `Resolved`; `Dispatch.resolve` compares its shape with the one that
the kind promises.
-/

namespace TraceWeave

/-- What an intrinsic call is resolved to. -/
inductive Resolved where
  | descriptor (ref : DescriptorRef)
  | snapshot (capture : FrameCapture)
  | int (value : Int32)
  | string (value : String)
  deriving DecidableEq, Inhabited

namespace Resolved

/-- The shape of a result; descriptors that no intrinsic promises have none. -/
def shape? : Resolved → Option ResultShape
  | .descriptor ⟨.location, _⟩ => some .location
  | .descriptor ⟨.typeInfo, _⟩ => some .type
  | .descriptor ⟨.classInfo, _⟩ => some .classInfo
  | .descriptor ⟨.functionInfo, _⟩ => some .function
  | .descriptor ⟨.propertyInfo, _⟩ => some .property
  | .descriptor _ => none
  | .snapshot _ => some .snapshot
  | .int _ => some .int
  | .string _ => some .string

/-- The name of the shape of a result, or of its kind of descriptor. -/
def shapeName (r : Resolved) : String :=
  match r.shape? with
  | some shape => shape.name
  | none =>
    match r with
    | .descriptor ref => ref.kind.name
    | _ => ""

def hasShape (r : Resolved) (shape : ResultShape) : Bool := r.shape? == some shape

/-- The expression that takes the place of a call. Constants have their own types. -/
def toExpr (r : Resolved) (site : Site) : Expr :=
  match r with
  | .descriptor ref => .descriptor site ref
  | .snapshot capture => .captureFrame site capture
  | .int value => .ofInt site.span value
  | .string value => .ofString site.span value

end Resolved

/-- An intrinsic call that is to be resolved. -/
structure IntrinsicCall where
  kind : IntrinsicKind
  site : Site
  callee : DeclId
  receiver : Option Expr
  typeArgs : List Ty
  args : List (Option Expr)
  deriving Inhabited

namespace IntrinsicCall

def span (c : IntrinsicCall) : Span := c.site.span

/-- The first argument, if one was given. -/
def argument? (c : IntrinsicCall) : Option Expr := c.args.head?.join

end IntrinsicCall

/-- Resolves a call at a place. -/
abbrev Handler := IntrinsicCall → ScopeStack → PassEnv → Build Store Resolved

/-- The handlers by kind. -/
abbrev Registry := IntrinsicKind → Option Handler

namespace Dispatch

/-- What a call of an accepted intrinsic is resolved to. -/
def resolve (registry : Registry) (env : PassEnv) (sc : ScopeStack) (call : IntrinsicCall) :
    Build Store Resolved := do
  let handler ← Build.require (registry call.kind)
    (.invalidState s!"no handler registered for `{call.kind.name}`")
  let resolved ← handler call sc env
  if resolved.hasShape call.kind.shape then return resolved
  else
    Build.fail (.shapeMismatch call.kind.name call.kind.shape.name resolved.shapeName)

/-- Replaces an accepted intrinsic call. -/
def replaceCall (registry : Registry) (env : PassEnv) (sc : ScopeStack) (e : Expr)
    (st : PassState) : Expr × PassState :=
  match e with
  | .call site callee receiver typeArgs args =>
    match env.linkage.intrinsicKind? callee with
    | none => (e, st)
    | some kind =>
      if env.options.accepts kind then
        let call : IntrinsicCall := { kind, site, callee, receiver, typeArgs, args }
        match (PassState.onStore (resolve registry env sc call)).runOn st with
        | (.ok resolved, st) => (resolved.toExpr site, { st with edits := st.edits + 1 })
        | (.error err, st) => (e, st.fail err)
      else (e, st)
  | e => (e, st)

/-- Replaces all accepted intrinsic calls. -/
def dispatcher (registry : Registry) (env : PassEnv) : Visitor PassState where
  onExpr sc _ := PassState.edit (replaceCall registry env sc)

def run (registry : Registry) (env : PassEnv) (m : Module) (store : Store) : PassResult :=
  m.runVisitor (dispatcher registry env) store

end Dispatch

end TraceWeave

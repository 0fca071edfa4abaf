import TraceWeave.Span

/-! # Errors

Everything that a transformation or an evaluation can report, with its wording and its code.

`Error.message` is the wording, `Error.code` the stable code of the kind of error, and
`Error.span?` the place in the program, for the errors that have one.
-/

namespace TraceWeave

/-- A reported failure. -/
inductive Error where
  /-- A declaration of the runtime library is missing. -/
  | linkage (symbol : String)
  /-- An intrinsic was used where nothing of its scope encloses it. -/
  | notInScope (intrinsic scope : String) (span : Span)
  | invalidIntrinsicArgument (intrinsic message : String) (span : Span)
  /-- An intrinsic resolved to something other than what its kind promises. -/
  | shapeMismatch (intrinsic expected found : String)
  /-- A caller-capture marker lists a wrong number of modes. -/
  | modeListMismatch (function : String) (modes params : Nat)
  /-- A trace call stands where it cannot be taken out. -/
  | unsupportedContainer (callee container : String) (span : Span)
  | invalidState (detail : String)
  | config (detail : String)
  | generic (detail : String)
  deriving DecidableEq, Repr, Inhabited

namespace Error

/-- The wording of an error. -/
def message : Error → String
  | .linkage symbol =>
    s!"unresolved runtime symbol `{symbol}`; is the spyglass runtime on the compilation classpath?"
  | .notInScope intrinsic scope span =>
    s!"`{intrinsic}` used outside of any {scope} at {span.text}"
  | .invalidIntrinsicArgument intrinsic detail span =>
    s!"invalid argument for `{intrinsic}` at {span.text}: {detail}"
  | .shapeMismatch intrinsic expected found =>
    s!"intrinsic `{intrinsic}` resolved to a {found} but must produce a {expected}"
  | .modeListMismatch function modes params =>
    s!"caller-capture marker on `{function}` lists {modes} modes for {params} parameters"
  | .unsupportedContainer callee container span =>
    s!"cannot remove trace call `{callee}` from {container} at {span.text}"
  | .invalidState detail => s!"invalid state: {detail}"
  | .config detail => s!"configuration error: {detail}"
  | .generic detail => s!"Generic error: {detail}"

/-- The span that an error points at. -/
def span? : Error → Option Span
  | .notInScope _ _ span | .invalidIntrinsicArgument _ _ span | .unsupportedContainer _ _ span =>
    some span
  | _ => none

/-- The stable code of an error. -/
def code : Error → String
  | .linkage _ => "spyglass::linkage"
  | .notInScope _ _ _ => "spyglass::not_in_scope"
  | .invalidIntrinsicArgument _ _ _ => "spyglass::intrinsic_argument"
  | .shapeMismatch _ _ _ => "spyglass::shape_mismatch"
  | .modeListMismatch _ _ _ => "spyglass::mode_list"
  | .unsupportedContainer _ _ _ => "spyglass::unsupported_container"
  | .invalidState _ => "spyglass::invalid_state"
  | .config _ => "spyglass::config"
  | .generic _ => "spyglass::generic"

end Error

end TraceWeave

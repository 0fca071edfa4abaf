import TraceWeave.Error

/-! # Diagnostics

What a run reports to its user, one line each.

`Diagnostic.ofError` makes a report of an error, `Diagnostic.text` writes it on one line.
-/

namespace TraceWeave

inductive Severity where
  | info | warning | error
  deriving DecidableEq, Repr, Inhabited

namespace Severity

def name : Severity → String
  | .info => "info"
  | .warning => "warning"
  | .error => "error"

end Severity

/-- One report, with the place and the code it is known by. -/
structure Diagnostic where
  severity : Severity
  message : String
  span : Option Span := none
  /-- The resolved `file:line:column` of the span. -/
  location : Option String := none
  code : Option String := none
  deriving DecidableEq, Repr, Inhabited

namespace Diagnostic

def ofError (e : Error) : Diagnostic :=
  { severity := .error, message := e.message, span := e.span?, code := some e.code }

/-- One line: severity, code, message, place. -/
def text (d : Diagnostic) : String :=
  let code := match d.code with
    | some code => s!"[{code}]"
    | none => ""
  let place := match d.location with
    | some location => s!" (at {location})"
    | none => ""
  s!"{d.severity.name}{code}: {d.message}{place}"

/-- Whether some report of a list is an error. -/
def hasErrors (ds : List Diagnostic) : Bool := ds.any (·.severity == .error)

end Diagnostic

end TraceWeave

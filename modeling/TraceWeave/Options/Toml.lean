import TraceWeave.Options.Codec
import TraceWeave.Toml.Parser

/-! # Options in TOML

The form in which options are kept in a file.

`Options.ofToml` reads the document and then the JSON that it stands for.
-/

namespace TraceWeave.Options

/-- The options that a TOML text holds. -/
def ofToml (text : String) : Except Error Options :=
  match Toml.parse? text with
  | none => .error (.config "the options are not valid TOML")
  | some j =>
    match Options.ofJson? .toml j with
    | some o => .ok o
    | none => .error (.config "an option has a wrong type")

end TraceWeave.Options

import TraceWeave.Command.Arguments
import TraceWeave.Json.Parser
import TraceWeave.Json.Printer
import TraceWeave.Options.Toml
import TraceWeave.Pipeline
import TraceWeave.Program.Codec.Decode
import TraceWeave.Program.Codec.Encode
import TraceWeave.Program.Render

/-! # Running the command line

What the program prints for its arguments, given the files it can read and the variables of its
environment.

`run` goes from a `World` to the `Report` of what is printed where and with which exit code; its
parts are `transform` and `symbols`, one for each command, and every `Failure` has its message and
kind. `inputFiles` and `sourceFiles` list what must be read beforehand.
-/

namespace TraceWeave.Command

/-- What the program can see of the world. -/
structure World where
  /-- The text of the file that a path names. -/
  file? : String → Option String
  /-- The value of an environment variable. -/
  setting? : String → Option String

/-- Why a command failed. -/
inductive Failure where
  /-- The module file is missing or holds no module. -/
  | invalidInput (detail : String)
  /-- The transformation failed. -/
  | transform (error : Error)
  deriving DecidableEq, Repr, Inhabited

namespace Failure

def message : Failure → String
  | .invalidInput detail => s!"Invalid input: {detail}"
  | .transform e => e.message

/-- The short name of a failure: the code of an error, or the class of a bad input. -/
def kind : Failure → String
  | .invalidInput _ => "Invalid input"
  | .transform e => e.code

end Failure

/-- What a run of the program leaves behind. -/
structure Report where
  exit : Nat
  stdout : String := ""
  failure : Option Failure := none
  diagnostics : List Diagnostic := []
  deriving Inhabited

/-- How deep the brackets of a module file may nest. -/
def moduleDepth : Nat := 127

/-- The module in a file, with its identities brought up to date. -/
def loadModule (w : World) (path : String) : Except Failure Module :=
  match w.file? path with
  | none => .error (.invalidInput s!"Input file does not exist: {path}")
  | some text =>
    match (Json.parse? moduleDepth text).bind (Module.ofJson? .text) with
    | some m => .ok m.syncIds
    | none => .error (.invalidInput s!"{path}: not a module")

/-- Whether the value of a variable turns a switch on. -/
def isOn (value : String) : Bool :=
  !(["", "0", "false", "FALSE", "False"].contains (Text.trimBlank value))

def switch (w : World) (name : String) : Bool := (w.setting? name).any isOn

/-- The options of the environment: some variables turn passes off. -/
def withSwitches (w : World) (o : Options) : Options :=
  let o := if switch w "SPYGLASS_DISABLE_TRACING" then o.withoutTracing else o
  if switch w "SPYGLASS_DISABLE_INTRINSICS" then o.withoutIntrinsics else o

/-- The options in a file, or the default ones. -/
def loadOptions (w : World) : Option String → Except Error Options
  | none => .ok (withSwitches w {})
  | some path =>
    match w.file? path with
    | none => .error (.config s!"cannot read {path}")
    | some text => (Options.ofToml text).map (withSwitches w)

/-- The directory of source files: the given one, or the one that holds the module. -/
def sourceRoot (input : String) (sources : Option String) : String :=
  match sources with
  | some root => root
  | none => ((Source.Path.ofText input).parent?.map Source.Path.text).getD ""

/-- The source files below a directory. -/
def sourcesBelow (w : World) (root : String) : Source.Provider := fun path =>
  match w.file? (Source.Path.joinText root path) with
  | some text => Text.lines text
  | none => []

/-- A transformed module in a form. -/
def emit (args : TransformArgs) (m : Module) : String :=
  match args.emit with
  | some .json => m.toJson.pretty
  | _ => m.render { showTypes := args.showTypes, nameOf := (SymbolTable.build m).nameOf }

def failed (f : Failure) (diagnostics : List Diagnostic) : Report :=
  { exit := 1, failure := some f, diagnostics }

def transform (w : World) (input : String) (args : TransformArgs) : Report :=
  match loadModule w input with
  | .error f => failed f []
  | .ok m =>
    match loadOptions w args.config with
    | .error e => failed (.transform e) []
    | .ok options =>
      let sources := sourcesBelow w (sourceRoot input args.sources)
      match Pipeline.run { options, sources } m {} with
      | (.ok _, after) => { exit := 0, stdout := emit args after.module }
      | (.error e, after) =>
        failed (.transform e) [Pipeline.diagnose sources after.store.texts after.module e]

/-- The word for the kind of a declaration. -/
def kindWord : SymbolKind → String
  | .classSymbol _ => "class"
  | .function _ => "fun"
  | .property _ => "property"
  | .field _ => "field"
  | .initializer => "init"

/-- A word, filled up with blanks to a width. -/
def padRight (width : Nat) (word : String) : String := word.pushn ' ' (width - word.length)

/-- The line about a declaration: kind, qualified name and origin. -/
def symbolLine (s : Symbol) : String :=
  s!"{padRight 8 (kindWord s.kind)} {s.fqName} {s.head.origin.name}\n"

def symbols (w : World) (input : String) (args : SymbolsArgs) : Report :=
  match loadModule w input with
  | .error f => failed f []
  | .ok m =>
    let listed := (SymbolTable.build m).entries.filter fun s => args.all || !s.external
    { exit := 0, stdout := String.join (listed.map symbolLine) }

/-- What the program prints when it is asked for its version. -/
def versionText : String := "sg 0.1.0\n"

/-- Runs the program on its arguments. -/
def run (w : World) (args : List String) : Report :=
  match readArguments args {} with
  | .ok (.transform input args) => transform w input args
  | .ok (.symbols input args) => symbols w input args
  | .error .version => { exit := 0, stdout := versionText }
  | .error .help => { exit := 0 }
  | .error .usage => { exit := 2 }

/-- The files that a run on these arguments may read before it looks at source files. -/
def inputFiles : Job → List String
  | .transform input args => input :: args.config.toList
  | .symbols input _ => [input]

/-- The source files that a run on these arguments may read. -/
def sourceFiles (w : World) : Job → List String
  | .symbols _ _ => []
  | .transform input args =>
    match loadModule w input with
    | .error _ => []
    | .ok m =>
      let root := sourceRoot input args.sources
      m.allFiles.map fun f => Source.Path.joinText root f.path

end TraceWeave.Command

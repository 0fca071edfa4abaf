/-! # Command-line arguments

The arguments are read from left to right. A request for the version or for help ends the reading;
so does the first argument that cannot be understood. The logging options can stand before and
after the name of the command, each at most once at either place.

A `Grammar` says which options take a value and what each option does to the state of the reading;
`readAll` reads by a grammar, and `readArguments` gives the `Job` to do, or the `Stop` that ends
the reading.
-/

namespace TraceWeave.Command

inductive LogLevel where
  | error | warn | info | debug | trace
  deriving DecidableEq, Repr, Inhabited

inductive LogFormat where
  | pretty | json
  deriving DecidableEq, Repr, Inhabited

/-- The forms in which a transformed module is printed. -/
inductive EmitFormat where
  | pretty | json
  deriving DecidableEq, Repr, Inhabited

def logLevel? : String → Option LogLevel
  | "error" => some .error
  | "warn" => some .warn
  | "info" => some .info
  | "debug" => some .debug
  | "trace" => some .trace
  | _ => none

def logFormat? : String → Option LogFormat
  | "pretty" => some .pretty
  | "json" => some .json
  | _ => none

def emitFormat? : String → Option EmitFormat
  | "pretty" => some .pretty
  | "json" => some .json
  | _ => none

/-- A path argument, which is not empty. -/
def path? (text : String) : Option String := if text.isEmpty then none else some text

/-- The logging options at one place. -/
structure Logging where
  verbose : Nat := 0
  quiet : Bool := false
  level : Option LogLevel := none
  format : Option LogFormat := none
  deriving DecidableEq, Repr, Inhabited

structure TransformArgs where
  input : Option String := none
  config : Option String := none
  sources : Option String := none
  emit : Option EmitFormat := none
  showTypes : Bool := false
  deriving DecidableEq, Repr, Inhabited

structure SymbolsArgs where
  input : Option String := none
  /-- Whether declarations of dependencies are listed too. -/
  all : Bool := false
  deriving DecidableEq, Repr, Inhabited

/-- Why arguments ask for nothing to be run. -/
inductive Stop where
  | version
  | help
  /-- The arguments cannot be understood. -/
  | usage
  deriving DecidableEq, Repr, Inhabited

/-- An option that takes a value, as given: the value may be part of the argument. -/
structure OptionUse where
  name : String
  attached : Option String
  deriving DecidableEq, Repr, Inhabited

/-- What a place understands: names of options with and without a value, and single letters. -/
structure Grammar (α : Type) where
  /-- Whether an option takes a value. -/
  takesValue : String → Bool
  /-- An option with its value. -/
  onValue : String → String → α → Except Stop α
  onFlag : String → α → Except Stop α
  onLetter : Char → α → Except Stop α
  /-- An argument that is no option. -/
  onPositional : String → α → Except Stop α

/-- Sets a value that must not be there yet. -/
def setOnce {α β : Type} (old : Option β) (new : Option β) (set : β → α) : Except Stop α :=
  match old, new with
  | none, some b => .ok (set b)
  | _, _ => .error .usage

/-- Sets a flag that must not be set yet. -/
def raiseOnce {α : Type} (old : Bool) (set : α) : Except Stop α :=
  if old then .error .usage else .ok set

namespace Logging

def takesValue (name : String) : Bool := name = "log" || name = "log-format"

def onValue (name value : String) (l : Logging) : Except Stop Logging :=
  match name with
  | "log" => setOnce l.level (logLevel? value) fun level => { l with level := some level }
  | "log-format" =>
    setOnce l.format (logFormat? value) fun format => { l with format := some format }
  | _ => .error .usage

def onFlag (name : String) (l : Logging) : Except Stop Logging :=
  match name with
  | "verbose" => .ok { l with verbose := l.verbose + 1 }
  | "quiet" => raiseOnce l.quiet { l with quiet := true }
  | "help" => .error .help
  | _ => .error .usage

def onLetter (c : Char) (l : Logging) : Except Stop Logging :=
  if c = 'v' then l.onFlag "verbose"
  else if c = 'q' then l.onFlag "quiet"
  else if c = 'h' then l.onFlag "help"
  else .error .usage

end Logging

/-- The parts of an option behind its two hyphens. -/
def splitOption (cs : List Char) : OptionUse :=
  let name := String.ofList (cs.takeWhile (· ≠ '='))
  match cs.dropWhile (· ≠ '=') with
  | [] => ⟨name, none⟩
  | _ :: value => ⟨name, some (String.ofList value)⟩

/-- Letters one after the other. -/
def onLetters {α : Type} (g : Grammar α) : List Char → α → Except Stop α
  | [], a => .ok a
  | c :: cs, a =>
    match g.onLetter c a with
    | .ok a => onLetters g cs a
    | .error stop => .error stop

/-- Whether an argument is an option rather than a value: it starts with a hyphen and is not a
hyphen alone. -/
def isOption (arg : String) : Bool :=
  match arg.toList with
  | '-' :: _ :: _ => true
  | _ => false

/-- An option, and whether the next argument is its value. -/
def onOption {α : Type} (g : Grammar α) (use : OptionUse) (next : Option String) (a : α) :
    Except Stop (α × Bool) :=
  if g.takesValue use.name then
    match use.attached, next with
    | some value, _ => do return (← g.onValue use.name value a, false)
    | none, some value =>
      if isOption value then .error .usage
      else do return (← g.onValue use.name value a, true)
    | none, none => .error .usage
  else if use.attached.isSome then .error .usage
  else do return (← g.onFlag use.name a, false)

/-- The arguments at a place that ends with the last argument. Behind `--` there are no options. -/
def readAll {α : Type} (g : Grammar α) : List String → α → Except Stop α
  | [], a => .ok a
  | arg :: args, a =>
    match arg.toList with
    | ['-', '-'] => args.foldlM (fun a arg => g.onPositional arg a) a
    | '-' :: '-' :: cs =>
      match onOption g (splitOption cs) args.head? a, args with
      | .ok (a, true), _ :: rest => readAll g rest a
      | .ok (a, _), rest => readAll g rest a
      | .error stop, _ => .error stop
    | '-' :: c :: cs => do readAll g args (← onLetters g (c :: cs) a)
    | _ => do readAll g args (← g.onPositional arg a)

/-- What the arguments of `transform` have been so far. -/
structure TransformState where
  args : TransformArgs := {}
  logging : Logging := {}
  deriving Inhabited

/-- The arguments of `transform`. -/
def transformGrammar : Grammar TransformState where
  takesValue name :=
    name = "config" || name = "sources" || name = "emit" || Logging.takesValue name
  onValue name value s :=
    match name with
    | "config" =>
      setOnce s.args.config (path? value) fun p =>
        { s with args := { s.args with config := some p } }
    | "sources" =>
      setOnce s.args.sources (path? value) fun p =>
        { s with args := { s.args with sources := some p } }
    | "emit" =>
      setOnce s.args.emit (emitFormat? value) fun f =>
        { s with args := { s.args with emit := some f } }
    | _ => do return { s with logging := ← s.logging.onValue name value }
  onFlag name s :=
    if name = "show-types" then
      raiseOnce s.args.showTypes { s with args := { s.args with showTypes := true } }
    else do return { s with logging := ← s.logging.onFlag name }
  onLetter c s := do return { s with logging := ← s.logging.onLetter c }
  onPositional arg s :=
    setOnce s.args.input (path? arg) fun p => { s with args := { s.args with input := some p } }

/-- What the arguments of `symbols` have been so far. -/
structure SymbolsState where
  args : SymbolsArgs := {}
  logging : Logging := {}
  deriving Inhabited

/-- The arguments of `symbols`. -/
def symbolsGrammar : Grammar SymbolsState where
  takesValue := Logging.takesValue
  onValue name value s := do return { s with logging := ← s.logging.onValue name value }
  onFlag name s :=
    if name = "all" then raiseOnce s.args.all { s with args := { s.args with all := true } }
    else do return { s with logging := ← s.logging.onFlag name }
  onLetter c s := do return { s with logging := ← s.logging.onLetter c }
  onPositional arg s :=
    setOnce s.args.input (path? arg) fun p => { s with args := { s.args with input := some p } }

/-- What is to be run. -/
inductive Job where
  | transform (input : String) (args : TransformArgs)
  | symbols (input : String) (args : SymbolsArgs)
  deriving DecidableEq, Repr, Inhabited

/-- Help on the whole program or on one command. -/
def readHelp : List String → Stop
  | [] | ["transform"] | ["symbols"] | ["help"] => .help
  | _ => .usage

/-- The command of a name with its arguments. -/
def readCommand (name : String) (args : List String) : Except Stop Job :=
  match name with
  | "transform" => do
    let s ← readAll transformGrammar args {}
    match s.args.input with
    | some input => .ok (.transform input s.args)
    | none => .error .usage
  | "symbols" => do
    let s ← readAll symbolsGrammar args {}
    match s.args.input with
    | some input => .ok (.symbols input s.args)
    | none => .error .usage
  | "help" => .error (readHelp args)
  | _ => .error .usage

/-- Letters before the name of the command, where `V` asks for the version. -/
def topGrammar : Grammar Logging where
  takesValue := Logging.takesValue
  onValue := Logging.onValue
  onFlag name l := if name = "version" then .error .version else l.onFlag name
  onLetter c l := if c = 'V' then .error .version else l.onLetter c
  onPositional _ _ := .error .usage

/-- The arguments of the program: logging options, the name of a command and its arguments. -/
def readArguments : List String → Logging → Except Stop Job
  | [], _ => .error .usage
  | arg :: args, l =>
    match arg.toList with
    | ['-', '-'] => .error .usage
    | '-' :: '-' :: cs =>
      match onOption topGrammar (splitOption cs) args.head? l, args with
      | .ok (l, true), _ :: rest => readArguments rest l
      | .ok (l, _), rest => readArguments rest l
      | .error stop, _ => .error stop
    | '-' :: c :: cs => do readArguments args (← onLetters topGrammar (c :: cs) l)
    | _ => readCommand arg args

end TraceWeave.Command

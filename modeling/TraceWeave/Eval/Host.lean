import TraceWeave.Eval.Value
import TraceWeave.Options.Basic

/-! # Host functions and trace events

Functions without code are provided by the host, by qualified name. The trace hooks are host
functions too: what they were called with is the trace of a run.

`TraceEvent.ofCall` reads the event off the arguments of a hook. A `HostTable` gives the `Host`
behind each qualified name; `HostTable.withHooks` adds the hooks, and `HostTable.event?` picks the
events out of the calls that a run has made.
-/

namespace TraceWeave

/-- What a trace hook was told. -/
inductive TraceEvent where
  | enter (function : Handle .functionInfo)
  | leave (function : Handle .functionInfo)
  | beforeCall (callee : Handle .functionInfo) (location : Handle .location)
  | afterCall (callee : Handle .functionInfo) (location : Handle .location)
  | suspension (function : Handle .functionInfo) (location : Handle .location)
  | spanEnter (name : String)
  | spanLeave (name : String)
  | event (name : String)
  deriving DecidableEq, Repr, Inhabited

namespace TraceEvent

def traceType : TraceEvent → TraceType
  | .enter _ => .functionEnter
  | .leave _ => .functionLeave
  | .beforeCall _ _ => .beforeCall
  | .afterCall _ _ => .afterCall
  | .suspension _ _ => .suspensionPoint
  | .spanEnter _ => .spanEnter
  | .spanLeave _ => .spanLeave
  | .event _ => .event

/-- The function descriptor among the arguments of a hook. -/
def functionAt (args : List Value) (index : Nat) : Except Error (Handle .functionInfo) :=
  match args[index]? with
  | some (.descriptor ⟨.functionInfo, i⟩) => .ok ⟨i⟩
  | _ => .error (.generic s!"trace hook argument {index} must be a function descriptor")

/-- The location among the arguments of a hook. -/
def locationAt (args : List Value) (index : Nat) : Except Error (Handle .location) :=
  match args[index]? with
  | some (.descriptor ⟨.location, i⟩) => .ok ⟨i⟩
  | _ => .error (.generic s!"trace hook argument {index} must be a source location")

/-- The name that a hook was given. -/
def nameOf : List Value → Except Error String
  | .string name :: _ => .ok name
  | _ => .error (.generic "trace hook expects a name")

/-- What a hook call tells. -/
def ofCall (ty : TraceType) (args : List Value) : Except Error TraceEvent :=
  match ty with
  | .functionEnter => return .enter (← functionAt args 0)
  | .functionLeave => return .leave (← functionAt args 0)
  | .beforeCall => return .beforeCall (← functionAt args 0) (← locationAt args 1)
  | .afterCall => return .afterCall (← functionAt args 0) (← locationAt args 1)
  | .suspensionPoint => return .suspension (← functionAt args 0) (← locationAt args 1)
  | .spanEnter => return .spanEnter (← nameOf args)
  | .spanLeave => return .spanLeave (← nameOf args)
  | .event => return .event (← nameOf args)

end TraceEvent

/-- A function that the host provides. -/
inductive Host where
  /-- A trace hook of a type. -/
  | hook (ty : TraceType)
  /-- Takes any arguments and prints them. -/
  | print
  | compute (run : List Value → Except Error Value)

namespace Host

instance : Inhabited Host := ⟨.print⟩

/-- The result of calling a host function. -/
def run : Host → List Value → Except Error Value
  | .hook ty, args => (TraceEvent.ofCall ty args).map fun _ => .unit
  | .print, _ => .ok .unit
  | .compute f, args => f args

end Host

/-- A call of a host function. -/
structure HostCall where
  name : String
  args : List Value
  deriving DecidableEq, Inhabited

/-- The host functions by qualified name; the latest registration comes first. -/
abbrev HostTable := List (String × Host)

namespace HostTable

/-- Registers a host function for the hook of every type. -/
def withHooks (table : HostTable) (names : HookNames) : HostTable :=
  TraceType.all.foldl (fun table ty => (names.get ty, .hook ty) :: table) table

/-- The trace event that a host call was. -/
def event? (table : HostTable) (call : HostCall) : Option TraceEvent :=
  match table.lookup call.name with
  | some (.hook ty) => (TraceEvent.ofCall ty call.args).toOption
  | _ => none

/-- The line that a host call printed. -/
def printed? (table : HostTable) (call : HostCall) : Option String :=
  match table.lookup call.name with
  | some .print => some (" ".intercalate (call.args.map Value.text))
  | _ => none

end HostTable

end TraceWeave

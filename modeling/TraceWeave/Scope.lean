import TraceWeave.Error
import TraceWeave.Program.Tree

/-! # Scopes

The declarations and blocks around a point of a program, and the variables that can be seen from
it.

A `ScopeStack` is a stack of `ScopeFrame`s. `ScopeStack.visibleLocals` gives the variables that
can be seen from its top, `ScopeStack.currentFunction?`, `ScopeStack.currentClass?` and
`ScopeStack.currentExecutable?` the innermost declaration of a kind.
-/

namespace TraceWeave

/-- A variable or parameter that can be seen. -/
structure VisibleLocal where
  var : VarId
  name : String
  ty : Ty
  span : Span
  mutable : Bool
  deriving DecidableEq, Inhabited

namespace VisibleLocal

def ofParam (p : ParamHead) : VisibleLocal := ⟨p.id, p.name, p.ty, p.span, false⟩

def ofVar (v : VarHead) : VisibleLocal := ⟨v.id, v.name, v.ty, v.span, v.mutable⟩

end VisibleLocal

inductive FrameKind where
  | classFrame
  | function
  /-- An anonymous block of a class, or the initial value of a field. -/
  | initializer
  /-- A block of code. -/
  | body
  deriving DecidableEq, Repr, Inhabited

/-- One level of nesting. -/
structure ScopeFrame where
  kind : FrameKind
  decl : Option DeclId := none
  locals : List VisibleLocal := []
  deriving DecidableEq, Inhabited

namespace ScopeFrame

def ofClass (id : DeclId) : ScopeFrame := { kind := .classFrame, decl := some id }

/-- A function; its parameters can be seen from all of it. -/
def ofFunction (id : DeclId) (params : List VisibleLocal) : ScopeFrame :=
  { kind := .function, decl := some id, locals := params }

def ofInitializer (id : DeclId) : ScopeFrame := { kind := .initializer, decl := some id }

def ofBody : ScopeFrame := { kind := .body }

/-- Whether code of the frame runs on its own. -/
def isExecutable (f : ScopeFrame) : Bool := f.kind == .function || f.kind == .initializer

end ScopeFrame

/-- The innermost scope that runs code and can hold temporaries. -/
inductive Executable where
  | function (id : DeclId)
  /-- An initializer, and the class whose construction runs it. -/
  | initializer (id : DeclId) (inClass : Option DeclId)
  deriving DecidableEq, Repr, Inhabited

/-- The frames around a point, innermost first. -/
structure ScopeStack where
  frames : List ScopeFrame := []
  deriving DecidableEq, Inhabited

namespace ScopeStack

def push (s : ScopeStack) (f : ScopeFrame) : ScopeStack := ⟨f :: s.frames⟩

def pop (s : ScopeStack) : ScopeStack := ⟨s.frames.tail⟩

def depth (s : ScopeStack) : Nat := s.frames.length

/-- Keeps the outermost frames, at most `depth` of them. -/
def truncate (s : ScopeStack) (depth : Nat) : ScopeStack :=
  ⟨s.frames.drop (s.frames.length - depth)⟩

/-- The declaration of the first class frame, looking outwards. -/
def classOf (frames : List ScopeFrame) : Option DeclId :=
  (frames.find? (·.kind == .classFrame)).bind ScopeFrame.decl

def currentClass? (s : ScopeStack) : Option DeclId := classOf s.frames

/-- The innermost function or initializer. A class in between means that there is none. -/
def executableOf : List ScopeFrame → Option Executable
  | [] => none
  | f :: fs =>
    match f.kind with
    | .body => executableOf fs
    | .function => f.decl.map .function
    | .initializer => f.decl.map fun id => .initializer id (classOf fs)
    | .classFrame => none

def currentExecutable? (s : ScopeStack) : Option Executable := executableOf s.frames

/-- The innermost function, unless a class or an initializer stands in between. -/
def currentFunction? (s : ScopeStack) : Option DeclId :=
  match s.currentExecutable? with
  | some (.function id) => some id
  | _ => none

/-- The innermost initializer, unless a class or a function stands in between. -/
def currentInitializer? (s : ScopeStack) : Option DeclId :=
  match s.currentExecutable? with
  | some (.initializer id _) => some id
  | _ => none

def requireExecutable (s : ScopeStack) : Except Error Executable :=
  match s.currentExecutable? with
  | some e => .ok e
  | none => .error (.invalidState "not inside any function or initializer")

/-- The innermost declaration of any kind. -/
def innermostDecl? (s : ScopeStack) : Option DeclId := s.frames.findSome? ScopeFrame.decl

/-- The classes and functions around the point, outermost first. -/
def declarations (s : ScopeStack) : List DeclId :=
  ((s.frames.filter fun f => f.kind == .classFrame || f.kind == .function).filterMap
    ScopeFrame.decl).reverse

/-- Makes a variable visible in the innermost frame. -/
def declare (s : ScopeStack) (v : VisibleLocal) : ScopeStack :=
  match s.frames with
  | [] => s
  | f :: fs => ⟨{ f with locals := f.locals ++ [v] } :: fs⟩

/-- The frames up to the innermost executable one, innermost first; none if there is none. -/
def executableFrames : List ScopeFrame → Option (List ScopeFrame)
  | [] => none
  | f :: fs => if f.isExecutable then some [f] else (executableFrames fs).map (f :: ·)

/-- The parameters and variables of the innermost executable, in the order of declaration. -/
def visibleLocals (s : ScopeStack) : List VisibleLocal :=
  ((executableFrames s.frames).getD []).reverse.flatMap ScopeFrame.locals

end ScopeStack

end TraceWeave

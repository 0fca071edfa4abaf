import TraceWeave.Pass.Dispatch

/-! # Handlers of the intrinsics

What each kind of intrinsic call stands for.

`Handlers.ofKind` has one handler for each kind, and `Handlers.defaults` is the registry of all of
them.
-/

namespace TraceWeave.Handlers

/-- The error for a call that nothing of its scope encloses. -/
def notInScope (c : IntrinsicCall) (scope : String) : Error :=
  .notInScope c.kind.name scope c.span

/-- The error for arguments that a kind cannot take. -/
def invalidArgument (c : IntrinsicCall) (message : String) : Error :=
  .invalidIntrinsicArgument c.kind.name message c.span

def ofHandle {k : DescriptorKind} (h : Handle k) : Resolved := .descriptor h.toRef

/-- The function or initializer around a call. -/
def executable (c : IntrinsicCall) (sc : ScopeStack) : Build Store Executable :=
  Build.require sc.currentExecutable? (notInScope c "function")

/-- The class around a call. -/
def enclosingClass (c : IntrinsicCall) (sc : ScopeStack) : Build Store DeclId :=
  Build.require sc.currentClass? (notInScope c "class")

/-- The single type argument of a call, which a type parameter cannot be. -/
def typeArgument (c : IntrinsicCall) : Except Error Ty :=
  match c.typeArgs with
  | [.typeParameter name] =>
    .error (invalidArgument c s!"type parameter `{name}` cannot be resolved at compile time")
  | [ty] => .ok ty
  | args =>
    .error (invalidArgument c s!"expected one type argument, found {args.length}")

/-- The function that the argument of a call refers to. -/
def functionReference (c : IntrinsicCall) : Except Error DeclId :=
  match c.argument? with
  | some (.functionRef _ id) => .ok id
  | _ => .error (invalidArgument c "argument must be a function reference")

/-- The property that the argument of a call refers to. -/
def propertyReference (c : IntrinsicCall) : Except Error DeclId :=
  match c.argument? with
  | some (.propertyRef _ id) => .ok id
  | _ => .error (invalidArgument c "argument must be a property reference")

def functionHash (h : Handle .functionInfo) : Build Store Resolved := do
  let info ← Build.ofExcept ((← get).functions.resolve h)
  return .int info.structuralHash

def classHash (h : Handle .classInfo) : Build Store Resolved := do
  let info ← Build.ofExcept ((← get).classes.resolve h)
  return .int info.structuralHash

def here : Handler := fun c _ env => do return ofHandle (← env.factory.location c.span)

def currentFile : Handler := fun c _ env => pure (.string (env.factory.filePath c.span.file))

def currentLine : Handler := fun c _ env => do
  let position ← env.factory.position c.span
  return .int (Int32.ofInt position.line)

def currentFunction : Handler := fun c sc env => do
  return ofHandle (← env.factory.executableInfo (← executable c sc))

def currentFunctionHash : Handler := fun c sc env => do
  functionHash (← env.factory.executableInfo (← executable c sc))

def currentClass : Handler := fun c sc env => do
  return ofHandle (← env.factory.classInfo (← enclosingClass c sc))

def currentClassHash : Handler := fun c sc env => do
  classHash (← env.factory.classInfo (← enclosingClass c sc))

def classOf : Handler := fun c _ env => do
  return ofHandle (← env.factory.classInfoForType (← Build.ofExcept (typeArgument c)))

def classOfHash : Handler := fun c _ env => do
  classHash (← env.factory.classInfoForType (← Build.ofExcept (typeArgument c)))

def typeOf : Handler := fun c _ env => do
  return ofHandle (← env.factory.typeInfo (← Build.ofExcept (typeArgument c)))

def functionOf : Handler := fun c _ env => do
  return ofHandle (← env.factory.functionInfo (← Build.ofExcept (functionReference c)))

def functionOfHash : Handler := fun c _ env => do
  let id ← Build.ofExcept (functionReference c)
  let key ← Build.ofExcept (env.factory.functionKey id)
  return .int (foldHash key.hash)

def propertyOf : Handler := fun c _ env => do
  return ofHandle (← env.factory.propertyInfo (← Build.ofExcept (propertyReference c)))

def frameSnapshot : Handler := fun c sc env => do
  let executable ← executable c sc
  return .snapshot (← env.factory.frameCapture executable sc.visibleLocals c.span)

/-- The handler of every kind. -/
def ofKind : IntrinsicKind → Handler
  | .here => here
  | .currentFile => currentFile
  | .currentLine => currentLine
  | .currentFunction => currentFunction
  | .currentFunctionHash => currentFunctionHash
  | .currentClass => currentClass
  | .currentClassHash => currentClassHash
  | .classOf => classOf
  | .classOfHash => classOfHash
  | .typeOf => typeOf
  | .functionOf => functionOf
  | .functionOfHash => functionOfHash
  | .propertyOf => propertyOf
  | .frameSnapshot => frameSnapshot

/-- The registry that has a handler for every kind. -/
def defaults : Registry := fun kind => some (ofKind kind)

end TraceWeave.Handlers

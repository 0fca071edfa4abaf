import TraceWeave.Error

/-! # Intrinsics

The calls that are replaced at compile time: their kinds, what each kind must be replaced with,
and the runtime declarations that stand for it.

`IntrinsicKind` lists the kinds, `IntrinsicKind.spec` what is fixed for each, in particular the
`ResultShape` of the replacement. `IntrinsicKind.parse` reads a kind by its name or its symbol,
and every kind is read back from its name (`IntrinsicKind.parse_name`).
-/

namespace TraceWeave

/-- What a resolved intrinsic call is replaced with. -/
inductive ResultShape where
  | location | type | classInfo | function | property | snapshot | int | string
  deriving DecidableEq, Repr, Inhabited

namespace ResultShape

def name : ResultShape → String
  | .location => "source location"
  | .type => "type descriptor"
  | .classInfo => "class descriptor"
  | .function => "function descriptor"
  | .property => "property descriptor"
  | .snapshot => "frame snapshot"
  | .int => "integer"
  | .string => "string"

end ResultShape

/-- The kinds of intrinsic call. -/
inductive IntrinsicKind where
  | here | currentFile | currentLine | currentFunction | currentFunctionHash | currentClass
  | currentClassHash | classOf | classOfHash | typeOf | functionOf | functionOfHash | propertyOf
  | frameSnapshot
  deriving DecidableEq, Repr, Inhabited

/-- The catalog entry of a kind. -/
structure IntrinsicSpec where
  kind : IntrinsicKind
  name : String
  /-- The runtime declaration that a synthesized call targets. -/
  symbol : String
  aliases : List String
  shape : ResultShape
  deriving DecidableEq, Repr, Inhabited

namespace IntrinsicKind

/-- All kinds, in catalog order. -/
def all : List IntrinsicKind :=
  [.here, .currentFile, .currentLine, .currentFunction, .currentFunctionHash, .currentClass,
    .currentClassHash, .classOf, .classOfHash, .typeOf, .functionOf, .functionOfHash, .propertyOf,
    .frameSnapshot]

def spec : IntrinsicKind → IntrinsicSpec
  | .here => ⟨.here, "here", "spyglass.here", ["spyglass.sourceLocation"], .location⟩
  | .currentFile => ⟨.currentFile, "current-file", "spyglass.currentFile", [], .string⟩
  | .currentLine => ⟨.currentLine, "current-line", "spyglass.currentLine", [], .int⟩
  | .currentFunction =>
    ⟨.currentFunction, "current-function", "spyglass.currentFunction", ["spyglass.thisFunction"],
      .function⟩
  | .currentFunctionHash =>
    ⟨.currentFunctionHash, "current-function-hash", "spyglass.currentFunctionHash", [], .int⟩
  | .currentClass =>
    ⟨.currentClass, "current-class", "spyglass.currentClass", ["spyglass.thisClass"], .classInfo⟩
  | .currentClassHash =>
    ⟨.currentClassHash, "current-class-hash", "spyglass.currentClassHash", [], .int⟩
  | .classOf => ⟨.classOf, "class-of", "spyglass.classOf", [], .classInfo⟩
  | .classOfHash => ⟨.classOfHash, "class-of-hash", "spyglass.classHashOf", [], .int⟩
  | .typeOf => ⟨.typeOf, "type-of", "spyglass.typeOf", [], .type⟩
  | .functionOf => ⟨.functionOf, "function-of", "spyglass.functionOf", [], .function⟩
  | .functionOfHash => ⟨.functionOfHash, "function-of-hash", "spyglass.functionHashOf", [], .int⟩
  | .propertyOf => ⟨.propertyOf, "property-of", "spyglass.propertyOf", [], .property⟩
  | .frameSnapshot =>
    ⟨.frameSnapshot, "frame-snapshot", "spyglass.frameSnapshot", ["spyglass.captureFrame"],
      .snapshot⟩

def name (kind : IntrinsicKind) : String := kind.spec.name

def shape (kind : IntrinsicKind) : ResultShape := kind.spec.shape

/-- The kind with this catalog name. -/
def ofName? (text : String) : Option IntrinsicKind := all.find? (·.name == text)

/-- The kind that a runtime declaration of this qualified name stands for. -/
def ofSymbol? (symbol : String) : Option IntrinsicKind :=
  all.find? fun kind => kind.spec.symbol == symbol || kind.spec.aliases.contains symbol

def parse (text : String) : Except Error IntrinsicKind :=
  match ofName? text with
  | some kind => .ok kind
  | none => .error (.config s!"unknown intrinsic kind `{text}`")

theorem mem_all (kind : IntrinsicKind) : kind ∈ all := by cases kind <;> decide

theorem ofName?_name (kind : IntrinsicKind) : ofName? kind.name = some kind := by
  cases kind <;> decide

theorem parse_name (kind : IntrinsicKind) : parse kind.name = .ok kind := by
  rw [parse, ofName?_name]

end IntrinsicKind

end TraceWeave

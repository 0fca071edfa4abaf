import TraceWeave.Json.Codec
import TraceWeave.Program.Tree

/-! # JSON form of types, constants and annotations

Everything of a program that holds no code.

For each type a pair such as `Ty.toJson` and `Ty.ofJson?`, or `FrameCapture.toJson` and
`FrameCapture.ofJson?`; choices without data are written by their names, as in `Visibility.name`.
-/

namespace TraceWeave

open Json (required withDefault record? variant? bare? data? choice? list? ofVariant)

namespace Span

def toJson (s : Span) : Json :=
  .obj [("file", Json.ofUInt32 s.file.val), ("start", Json.ofInt32 s.start),
    ("end", Json.ofInt32 s.stop)]

def ofJson? (j : Json) : Option Span := do
  let fields ← record? ["file", "start", "end"] j
  some {
    file := ⟨← required fields "file" Json.uint32?⟩
    start := ← required fields "start" Json.int32?
    stop := ← required fields "end" Json.int32? }

end Span

namespace Ty

mutual

def toJson : Ty → Json
  | .unit => .str "Unit"
  | .nothing => .str "Nothing"
  | .boolean => .str "Boolean"
  | .int => .str "Int"
  | .long => .str "Long"
  | .string => .str "String"
  | .any => .str "Any"
  | .classTy fqName args nullable =>
    ofVariant "Class"
      (.obj [("fq_name", .str fqName), ("args", .arr (toJsons args)), ("nullable", .bool nullable)])
  | .typeParameter name => ofVariant "TypeParameter" (.str name)
  | .function params ret isSuspend =>
    ofVariant "Function"
      (.obj [("params", .arr (toJsons params)), ("ret", toJson ret),
        ("is_suspend", .bool isSuspend)])

def toJsons : List Ty → List Json
  | [] => []
  | ty :: tys => toJson ty :: toJsons tys

end

/-- Reads a type of at most `fuel` nested parts. -/
def read? : Nat → Json → Option Ty
  | 0, _ => none
  | fuel + 1, j => do
    let (name, data) ← variant? j
    match name with
    | "Unit" => bare? .unit data
    | "Nothing" => bare? .nothing data
    | "Boolean" => bare? .boolean data
    | "Int" => bare? .int data
    | "Long" => bare? .long data
    | "String" => bare? .string data
    | "Any" => bare? .any data
    | "Class" =>
      let fields ← data? (record? ["fq_name", "args", "nullable"]) data
      some (.classTy (← required fields "fq_name" Json.str?)
        (← withDefault fields "args" [] (list? (read? fuel)))
        (← withDefault fields "nullable" false Json.bool?))
    | "TypeParameter" => (data? Json.str? data).map .typeParameter
    | "Function" =>
      let fields ← data? (record? ["params", "ret", "is_suspend"]) data
      some (.function (← required fields "params" (list? (read? fuel)))
        (← required fields "ret" (read? fuel))
        (← withDefault fields "is_suspend" false Json.bool?))
    | _ => none

def ofJson? (j : Json) : Option Ty := read? (j.depth + 1) j

end Ty

namespace Const

def toJson : Const → Json
  | .null => .str "Null"
  | .unit => .str "Unit"
  | .boolean b => ofVariant "Boolean" (.bool b)
  | .int n => ofVariant "Int" (Json.ofInt32 n)
  | .long n => ofVariant "Long" (Json.ofInt64 n)
  | .string s => ofVariant "String" (.str s)

def ofJson? (j : Json) : Option Const := do
  let (name, data) ← variant? j
  match name with
  | "Null" => bare? .null data
  | "Unit" => bare? .unit data
  | "Boolean" => (data? Json.bool? data).map .boolean
  | "Int" => (data? Json.int32? data).map .int
  | "Long" => (data? Json.int64? data).map .long
  | "String" => (data? Json.str? data).map .string
  | _ => none

end Const

namespace AnnotationArg

mutual

def toJson : AnnotationArg → Json
  | .const value => ofVariant "Const" value.toJson
  | .type ty => ofVariant "Type" ty.toJson
  | .array items => ofVariant "Array" (.arr (toJsons items))

def toJsons : List AnnotationArg → List Json
  | [] => []
  | item :: items => toJson item :: toJsons items

end

/-- Reads an argument of at most `fuel` nested arrays. -/
def read? : Nat → Json → Option AnnotationArg
  | 0, _ => none
  | fuel + 1, j => do
    let (name, data) ← variant? j
    match name with
    | "Const" => (data? Const.ofJson? data).map .const
    | "Type" => (data? Ty.ofJson? data).map .type
    | "Array" => (data? (list? (read? fuel)) data).map .array
    | _ => none

def ofJson? (j : Json) : Option AnnotationArg := read? (j.depth + 1) j

end AnnotationArg

namespace AnnotationArgument

def toJson (a : AnnotationArgument) : Json :=
  .obj [("name", .str a.name), ("value", a.value.toJson)]

def ofJson? (j : Json) : Option AnnotationArgument := do
  let fields ← record? ["name", "value"] j
  some {
    name := ← required fields "name" Json.str?
    value := ← required fields "value" AnnotationArg.ofJson? }

end AnnotationArgument

namespace AnnotationUse

def toJson (a : AnnotationUse) : Json :=
  .obj [("class", .str a.className), ("span", a.span.toJson),
    ("arguments", Json.ofList AnnotationArgument.toJson a.arguments)]

def ofJson? (j : Json) : Option AnnotationUse := do
  let fields ← record? ["class", "span", "arguments"] j
  some {
    className := ← required fields "class" Json.str?
    span := ← required fields "span" Span.ofJson?
    arguments := ← withDefault fields "arguments" [] (list? AnnotationArgument.ofJson?) }

end AnnotationUse

namespace Origin

def name : Origin → String
  | .source => "Source"
  | .synthetic => "Synthetic"
  | .fakeOverride => "FakeOverride"
  | .library => "Library"

def ofJson? : Json → Option Origin :=
  choice? ([.source, .synthetic, .fakeOverride, .library].map fun o => (name o, o))

end Origin

namespace Visibility

def name : Visibility → String
  | .isPublic => "Public"
  | .isProtected => "Protected"
  | .isInternal => "Internal"
  | .isPrivate => "Private"
  | .isLocal => "Local"

def ofJson? : Json → Option Visibility :=
  choice? ([.isPublic, .isProtected, .isInternal, .isPrivate, .isLocal].map fun v => (name v, v))

end Visibility

namespace Modality

def name : Modality → String
  | .isFinal => "Final"
  | .isOpen => "Open"
  | .isAbstract => "Abstract"
  | .isSealed => "Sealed"

def ofJson? : Json → Option Modality :=
  choice? ([.isFinal, .isOpen, .isAbstract, .isSealed].map fun m => (name m, m))

end Modality

namespace ClassKind

def name : ClassKind → String
  | .plain => "Class"
  | .interface => "Interface"
  | .object => "Object"
  | .anonymousObject => "AnonymousObject"

def ofJson? : Json → Option ClassKind :=
  choice? ([.plain, .interface, .object, .anonymousObject].map fun k => (name k, k))

end ClassKind

namespace StructuralKind

def name : StructuralKind → String
  | .enum => "Enum"
  | .data => "Data"
  | .value => "Value"
  | .annotationClass => "Annotation"

def ofJson? : Json → Option StructuralKind :=
  choice? ([.enum, .data, .value, .annotationClass].map fun k => (name k, k))

end StructuralKind

namespace FunctionKind

def toJson : FunctionKind → Json
  | .plain => .str "Function"
  | .constructor primary => ofVariant "Constructor" (.obj [("primary", .bool primary)])
  | .getter => .str "Getter"
  | .setter => .str "Setter"
  | .lambda => .str "Lambda"

def ofJson? (format : Json.Format) (j : Json) : Option FunctionKind := do
  let (name, data) ← variant? j
  match name with
  | "Function" => bare? .plain data
  | "Constructor" =>
    let fields ← data? (Json.variantFields? format ["primary"]) data
    some (.constructor (← required fields "primary" Json.bool?))
  | "Getter" => bare? .getter data
  | "Setter" => bare? .setter data
  | "Lambda" => bare? .lambda data
  | _ => none

end FunctionKind

namespace BinOp

def name : BinOp → String
  | .add => "Add"
  | .sub => "Sub"
  | .mul => "Mul"
  | .div => "Div"
  | .rem => "Rem"
  | .eq => "Eq"
  | .ne => "Ne"
  | .lt => "Lt"
  | .le => "Le"
  | .gt => "Gt"
  | .ge => "Ge"
  | .and => "And"
  | .or => "Or"

def ofJson? : Json → Option BinOp :=
  choice? ([.add, .sub, .mul, .div, .rem, .eq, .ne, .lt, .le, .gt, .ge, .and, .or].map
    fun op => (name op, op))

end BinOp

namespace ReturnTarget

def toJson : ReturnTarget → Json
  | .function id => ofVariant "Function" (Json.ofUInt32 id.val)
  | .block id => ofVariant "Block" (Json.ofUInt32 id.val)

def ofJson? (j : Json) : Option ReturnTarget := do
  let (name, data) ← variant? j
  match name with
  | "Function" => (data? Json.uint32? data).map fun n => .function ⟨n⟩
  | "Block" => (data? Json.uint32? data).map fun n => .block ⟨n⟩
  | _ => none

end ReturnTarget

namespace DescriptorKind

/-- The variant that a reference of a kind is written as. -/
def variantName : DescriptorKind → String
  | .location => "Location"
  | .typeInfo => "Type"
  | .classInfo => "Class"
  | .functionInfo => "Function"
  | .propertyInfo => "Property"
  | .fieldInfo => "Field"
  | .localInfo => "Local"
  | .parameterInfo => "Parameter"

def all : List DescriptorKind :=
  [.location, .typeInfo, .classInfo, .functionInfo, .propertyInfo, .fieldInfo, .localInfo,
    .parameterInfo]

end DescriptorKind

namespace Handle

def toJson {k : DescriptorKind} (h : Handle k) : Json := Json.ofUInt32 h.index

def ofJson? {k : DescriptorKind} (j : Json) : Option (Handle k) := (Json.uint32? j).map (⟨·⟩)

end Handle

namespace DescriptorRef

def toJson (r : DescriptorRef) : Json := ofVariant r.kind.variantName (Json.ofUInt32 r.index)

def ofJson? (j : Json) : Option DescriptorRef := do
  let (name, data) ← variant? j
  let kind ← DescriptorKind.all.find? (·.variantName == name)
  let index ← data? Json.uint32? data
  some ⟨kind, index⟩

end DescriptorRef

namespace CapturedLocal

def toJson (c : CapturedLocal) : Json :=
  .obj [("local", c.info.toJson), ("var", Json.ofUInt32 c.var.val)]

def ofJson? (j : Json) : Option CapturedLocal := do
  let fields ← record? ["local", "var"] j
  some {
    info := ← required fields "local" Handle.ofJson?
    var := ⟨← required fields "var" Json.uint32?⟩ }

end CapturedLocal

namespace FrameCapture

def toJson (c : FrameCapture) : Json :=
  .obj [("location", c.location.toJson), ("entries", Json.ofList CapturedLocal.toJson c.entries)]

def ofJson? (j : Json) : Option FrameCapture := do
  let fields ← record? ["location", "entries"] j
  some {
    location := ← required fields "location" Handle.ofJson?
    entries := ← required fields "entries" (list? CapturedLocal.ofJson?) }

end FrameCapture

end TraceWeave

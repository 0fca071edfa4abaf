import TraceWeave.Descriptor.Store
import TraceWeave.Program.Codec.Encode

/-! # JSON form of descriptors

A store is written as one list for each kind of descriptor, with handles as numbers. Hashes of 64
bits are written as decimal strings, since JSON readers may not keep all their digits.

`Store.toJson` writes a store, by one function of fields for each kind of descriptor.
`Json.ofUInt64` and `Json.uint64?` are the decimal strings, `AnnotationValue.toJson` and
`AnnotationValue.ofJson` the values inside annotations.
-/

namespace TraceWeave

open Json (Fault ofVariant ofNullable)
open Json.Fault (unlessForm unlessContent)

/-- A 64-bit number as a decimal string. -/
def Json.ofUInt64 (n : UInt64) : Json := .str (toString n.toNat)

/-- The number that a list of decimal digits stands for. -/
def Json.decimalValue (digits : List Char) : Nat :=
  digits.foldl (fun n c => n * 10 + (c.toNat - '0'.toNat)) 0

/-- The decimal digits of a number, which may have a plus before them. -/
def Json.unsignedDigits : List Char → List Char
  | '+' :: cs => cs
  | cs => cs

/-- A 64-bit number, written as a decimal string. -/
def Json.uint64? (j : Json) : Option UInt64 := do
  let digits := Json.unsignedDigits (← j.str?).toList
  if digits.isEmpty || !digits.all Char.isDigit then none
  else if Json.decimalValue digits < UInt64.size then some (UInt64.ofNat (Json.decimalValue digits))
  else none

namespace AnnotationValue

mutual

def toJson : AnnotationValue → Json
  | .null => .str "Null"
  | .boolean b => ofVariant "Boolean" (.bool b)
  | .int n => ofVariant "Int" (Json.ofInt32 n)
  | .long n => ofVariant "Long" (Json.ofInt64 n)
  | .string s => ofVariant "String" (.str s)
  | .type h => ofVariant "Type" h.toJson
  | .list items => ofVariant "List" (.arr (toJsons items))

def toJsons : List AnnotationValue → List Json
  | [] => []
  | item :: items => toJson item :: toJsons items

end

/-- The value of a variant with data, where `nested` reads the values inside it. -/
def readVariant (nested : Json → Except Fault AnnotationValue) (name : String) (data : Json) :
    Except Fault AnnotationValue :=
  match name with
  | "Boolean" => (unlessForm data.bool?).map .boolean
  | "Int" => (unlessContent data.int32?).map .int
  | "Long" => (unlessContent data.int64?).map .long
  | "String" => (unlessForm data.str?).map .string
  | "Type" => (unlessContent (Handle.ofJson? data)).map .type
  | "List" => do return .list (← (← unlessForm data.items?).mapM nested)
  | _ => .error .form

/-- Reads a value of at most `fuel` nested lists. -/
def read : Nat → Json → Except Fault AnnotationValue
  | 0, _ => .error .form
  | _ + 1, .str "Null" => .ok .null
  | fuel + 1, .obj [(name, data)] => readVariant (read fuel) name data
  | _ + 1, _ => .error .form

def ofJson (j : Json) : Except Fault AnnotationValue := read (j.depth + 1) j

end AnnotationValue

namespace AnnotationUsage

def toJson (u : AnnotationUsage) : Json :=
  .obj [("location", u.location.toJson), ("annotation", u.annotationType.toJson),
    ("arguments", .obj (u.arguments.map fun (name, v) =>
      (name, .obj [("value", v.toJson), ("depth", .int v.depth)])))]

end AnnotationUsage

namespace AnnotationMap

def toJson (m : AnnotationMap) : Json :=
  Json.ofList (fun (ty, usages) =>
    .obj [("type", Handle.toJson ty), ("usages", Json.ofList AnnotationUsage.toJson usages)])
    m.entries

end AnnotationMap

namespace FunctionKey

def toJson (k : FunctionKey) : Json :=
  .obj [("qualified_name", .str k.qualifiedName), ("return_type", k.returnType.toJson),
    ("parameter_types", Json.ofList Ty.toJson k.parameterTypes),
    ("enclosing", Json.ofUInt64 k.enclosing), ("hash", Json.ofUInt64 k.hash)]

end FunctionKey

/-- A list of handles. -/
def Json.ofHandles {k : DescriptorKind} (hs : List (Handle k)) : Json :=
  Json.ofList Handle.toJson hs

namespace Store

def locationFields (l : SourceLocation) : List (String × Json) :=
  [("module", .str l.moduleName), ("file", .str l.file), ("line", .int l.position.line),
    ("column", .int l.position.column), ("text", .str l.text)]

def typeFields (i : TypeInfo) : List (String × Json) :=
  [("handle", i.ty.toJson), ("qualified_name", .str i.qualifiedName),
    ("simple_name", .str i.simpleName), ("location", i.location.toJson)]

def classFields (i : ClassInfo) : List (String × Json) :=
  [("location", i.location.toJson), ("qualified_name", .str i.qualifiedName),
    ("simple_name", .str i.simpleName), ("type_parameters", Json.ofNames i.typeParameters),
    ("companions", Json.ofHandles i.companions), ("functions", Json.ofHandles i.functions),
    ("properties", Json.ofHandles i.properties), ("is_interface", .bool i.isInterface),
    ("is_object", .bool i.isObject), ("is_companion", .bool i.isCompanion),
    ("visibility", .str i.visibility.name), ("modality", .str i.modality.name),
    ("structural_kind", ofNullable (fun k => .str (StructuralKind.name k)) i.structuralKind),
    ("annotations", i.annotations.toJson), ("structural_hash", Json.ofInt32 i.structuralHash)]

def functionFields (i : FunctionInfo) : List (String × Json) :=
  [("key", i.key.toJson), ("location", i.location.toJson),
    ("qualified_name", .str i.qualifiedName), ("simple_name", .str i.simpleName),
    ("type_parameters", Json.ofNames i.typeParameters), ("return_type", i.returnType.toJson),
    ("parameters", Json.ofHandles i.parameters), ("visibility", .str i.visibility.name),
    ("modality", .str i.modality.name), ("locals", Json.ofHandles i.locals),
    ("is_expect", .bool i.isExpect), ("is_suspend", .bool i.isSuspend),
    ("declaring_class", ofNullable Handle.toJson i.declaringClass),
    ("annotations", i.annotations.toJson), ("structural_hash", Json.ofInt32 i.structuralHash)]

def propertyFields (s : Store) (i : PropertyInfo) : List (String × Json) :=
  [("enclosing", Json.ofUInt64 i.key.enclosing), ("location", i.location.toJson),
    ("qualified_name", .str i.qualifiedName), ("simple_name", .str i.simpleName),
    ("mutable", .bool i.mutable), ("visibility", .str i.visibility.name),
    ("modality", .str i.modality.name), ("getter", ofNullable Handle.toJson i.getter),
    ("setter", ofNullable Handle.toJson i.setter),
    ("backing_field", ofNullable Handle.toJson i.backing),
    ("annotations", i.annotations.toJson), ("ty", ofNullable Handle.toJson (i.ty? s))]

def fieldFields (i : FieldInfo) : List (String × Json) :=
  [("location", i.location.toJson), ("qualified_name", .str i.qualifiedName),
    ("simple_name", .str i.simpleName), ("ty", i.ty.toJson), ("is_static", .bool i.isStatic),
    ("is_external", .bool i.isExternal), ("is_final", .bool i.isFinal),
    ("annotations", i.annotations.toJson)]

def localFields (i : LocalInfo) : List (String × Json) :=
  [("location", i.location.toJson), ("qualified_name", .str i.qualifiedName),
    ("simple_name", .str i.simpleName), ("ty", i.ty.toJson), ("mutable", .bool i.mutable),
    ("annotations", i.annotations.toJson)]

def parameterFields (i : ParameterInfo) : List (String × Json) :=
  [("location", i.location.toJson), ("qualified_name", .str i.qualifiedName),
    ("simple_name", .str i.simpleName), ("ty", i.ty.toJson), ("index", .int i.index),
    ("annotations", i.annotations.toJson)]

/-- The finished descriptors of an arena, each with its handle. -/
def arenaJson {k : DescriptorKind} {κ α : Type} (write : α → List (String × Json))
    (a : Arena k κ α) : Json :=
  Json.ofList (fun (h, v) => .obj (("i", Handle.toJson h) :: write v)) a.values

/-- The number of keys of each kind. -/
def lens (s : Store) : List Nat :=
  [s.locations.len, s.types.len, s.classes.len, s.functions.len, s.properties.len, s.fields.len,
    s.locals.len, s.parameters.len]

/-- All finished descriptors by kind. -/
def toJson (s : Store) : Json :=
  .obj [("lens", Json.ofList (fun n => .int (n : Nat)) s.lens),
    ("locations", arenaJson locationFields s.locations), ("types", arenaJson typeFields s.types),
    ("classes", arenaJson classFields s.classes),
    ("functions", arenaJson functionFields s.functions),
    ("properties", arenaJson s.propertyFields s.properties),
    ("fields", arenaJson fieldFields s.fields), ("locals", arenaJson localFields s.locals),
    ("parameters", arenaJson parameterFields s.parameters)]

end Store

end TraceWeave

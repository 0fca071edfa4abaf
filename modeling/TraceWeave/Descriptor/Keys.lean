import TraceWeave.Hash.Stream

/-! # Identity keys

What makes two descriptors of functions, properties, fields and variables the same.

`FunctionKey`, `PropertyKey`, `FieldKey` and `VariableKey`, each with the byte stream that enters
its hash. The hash of a function's key, `FunctionKey.hash`, is what programs see as the identity
of the function.
-/

namespace TraceWeave

/-- Overloads differ by signature, functions of one name by the hash of what encloses them. -/
structure FunctionKey where
  qualifiedName : String
  returnType : Ty
  parameterTypes : List Ty
  enclosing : UInt64
  deriving DecidableEq, Inhabited

structure PropertyKey where
  qualifiedName : String
  enclosing : UInt64
  deriving DecidableEq, Inhabited

structure FieldKey where
  qualifiedName : String
  ty : Ty
  enclosing : UInt64
  deriving DecidableEq, Inhabited

/-- A local or a parameter within its owner. -/
structure VariableKey where
  owner : UInt64
  name : String
  ty : Ty
  offset : Int32
  deriving DecidableEq, Inhabited

namespace FunctionKey

def stream (k : FunctionKey) : Stream :=
  Stream.ofString k.qualifiedName ++ Stream.ofTy k.returnType ++
    Stream.ofTag k.parameterTypes.length ++ Stream.ofTys k.parameterTypes ++
    Stream.ofUInt64 k.enclosing

def hash (k : FunctionKey) : UInt64 := Hash.sip k.stream

end FunctionKey

namespace PropertyKey

def stream (k : PropertyKey) : Stream :=
  Stream.ofString k.qualifiedName ++ Stream.ofUInt64 k.enclosing

end PropertyKey

namespace FieldKey

def stream (k : FieldKey) : Stream :=
  Stream.ofString k.qualifiedName ++ Stream.ofTy k.ty ++ Stream.ofUInt64 k.enclosing

end FieldKey

namespace VariableKey

def stream (k : VariableKey) : Stream :=
  Stream.ofUInt64 k.owner ++ Stream.ofString k.name ++ Stream.ofTy k.ty ++
    Stream.ofInt32 k.offset

end VariableKey

end TraceWeave

import TraceWeave.Hash.Sip
import TraceWeave.Program.Tree

/-! # Byte streams of identities

The bytes by which a value enters a hash. Numbers are written lowest byte first, a text ends with
a byte that no text contains, a list starts with its length, and a choice with its place among
the alternatives.

`Stream.ofNat` writes a number in a given width, `Stream.ofString`, `Stream.ofTy`, `Stream.ofSpan`
and `Stream.ofUse` write texts, types, places and uses of annotations. `foldHash` folds a hash of
64 bits to the 32 bits that a program gets.
-/

namespace TraceWeave

/-- The bytes that stand for a value. -/
abbrev Stream := List UInt8

namespace Stream

/-- The `count` lowest bytes of a number, lowest first. -/
def ofNat : Nat → Nat → Stream
  | 0, _ => []
  | count + 1, n => UInt8.ofNat (n % 256) :: ofNat count (n / 256)

def ofUInt64 (n : UInt64) : Stream := ofNat 8 n.toNat

def ofUInt32 (n : UInt32) : Stream := ofNat 4 n.toNat

def ofInt32 (n : Int32) : Stream := ofUInt32 n.toUInt32

def ofInt64 (n : Int64) : Stream := ofUInt64 n.toUInt64

def ofBool (b : Bool) : Stream := [if b then 1 else 0]

/-- The UTF-8 bytes of a text and a closing byte. -/
def ofString (s : String) : Stream := s.toUTF8.toList ++ [0xff]

/-- The place of an alternative, or a length. -/
def ofTag (n : Nat) : Stream := ofNat 8 n

def ofSpan (s : Span) : Stream := ofUInt32 s.file.val ++ ofInt32 s.start ++ ofInt32 s.stop

mutual

def ofTy : Ty → Stream
  | .unit => ofTag 0
  | .nothing => ofTag 1
  | .boolean => ofTag 2
  | .int => ofTag 3
  | .long => ofTag 4
  | .string => ofTag 5
  | .any => ofTag 6
  | .classTy fqName args nullable =>
    ofTag 7 ++ ofString fqName ++ ofTag args.length ++ ofTys args ++ ofBool nullable
  | .typeParameter name => ofTag 8 ++ ofString name
  | .function params ret isSuspend =>
    ofTag 9 ++ ofTag params.length ++ ofTys params ++ ofTy ret ++ ofBool isSuspend

/-- The streams of types one after the other. -/
def ofTys : List Ty → Stream
  | [] => []
  | ty :: tys => ofTy ty ++ ofTys tys

end

def ofConst : Const → Stream
  | .null => ofTag 0
  | .unit => ofTag 1
  | .boolean b => ofTag 2 ++ ofBool b
  | .int n => ofTag 3 ++ ofInt32 n
  | .long n => ofTag 4 ++ ofInt64 n
  | .string s => ofTag 5 ++ ofString s

mutual

def ofArg : AnnotationArg → Stream
  | .const value => ofTag 0 ++ ofConst value
  | .type ty => ofTag 1 ++ ofTy ty
  | .array items => ofTag 2 ++ ofTag items.length ++ ofArgs items

/-- The streams of arguments one after the other. -/
def ofArgs : List AnnotationArg → Stream
  | [] => []
  | item :: items => ofArg item ++ ofArgs items

end

def ofUse (a : AnnotationUse) : Stream :=
  ofString a.className ++ ofSpan a.span ++ ofTag a.arguments.length ++
    a.arguments.flatMap fun arg => ofString arg.name ++ ofArg arg.value

end Stream

/-- Folds a 64-bit hash into 32 bits. -/
def foldHash (h : UInt64) : Int32 := ((h >>> 32) ^^^ h).toUInt32.toInt32

end TraceWeave

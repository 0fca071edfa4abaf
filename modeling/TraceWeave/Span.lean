/-! # Source spans

Character offsets into a source file, absolute from its beginning. Two negative offsets are
reserved: one for nodes without any source, one for nodes that a pass created.

`Span.isReal` separates the places in a file from `Span.undefined` and `Span.synthetic`; the
reserved offsets are `undefinedOffset` and `syntheticOffset`.
-/

namespace TraceWeave

/-- Identity of a source file. -/
structure FileId where
  val : UInt32
  deriving DecidableEq, Repr, Inhabited

namespace FileId

/-- Files are written `#n`. -/
def text (file : FileId) : String := s!"#{file.val}"

end FileId

/-- Offset of nodes that have no source at all. -/
def undefinedOffset : Int32 := -1

/-- Offset of nodes that a pass created. -/
def syntheticOffset : Int32 := -2

/-- A range of characters of a file. -/
structure Span where
  file : FileId
  start : Int32
  stop : Int32
  deriving DecidableEq, Repr, Inhabited

namespace Span

/-- The span of a node without source. -/
def undefined (file : FileId) : Span := ⟨file, undefinedOffset, undefinedOffset⟩

/-- The span of a node that a pass created. -/
def synthetic (file : FileId) : Span := ⟨file, syntheticOffset, syntheticOffset⟩

def isUndefined (s : Span) : Bool := s.start == undefinedOffset

def isSynthetic (s : Span) : Bool := s.start == syntheticOffset

/-- Whether the offsets point into source text. -/
def isReal (s : Span) : Bool := 0 ≤ s.start && s.start ≤ s.stop

/-- The synthetic span of the same file. -/
def toSynthetic (s : Span) : Span := synthetic s.file

/-- Spans are written `#file:start-stop`, with a word in place of a reserved start. -/
def text (s : Span) : String :=
  if s.isUndefined then s!"{s.file.text}:<undefined>"
  else if s.isSynthetic then s!"{s.file.text}:<synthetic>"
  else s!"{s.file.text}:{s.start}-{s.stop}"

end Span

end TraceWeave

import TraceWeave.Json.Codec

/-! # Identities

Declarations, variables and returnable blocks carry numbers. An allocator holds, for each of the
three, the next number that is not in use.

`IdAllocator.decl`, `IdAllocator.var` and `IdAllocator.block` give out the next number, and
`IdAllocator.observeDecl` and its siblings move the allocator past a number that is in use.
-/

namespace TraceWeave

/-- Identity of a class, function, property, field or initializer. -/
structure DeclId where
  val : UInt32
  deriving DecidableEq, Repr, Inhabited

/-- Identity of a local variable or a parameter. -/
structure VarId where
  val : UInt32
  deriving DecidableEq, Repr, Inhabited

/-- Identity of a returnable block. -/
structure BlockId where
  val : UInt32
  deriving DecidableEq, Repr, Inhabited

def DeclId.text (id : DeclId) : String := s!"d{id.val}"

def VarId.text (id : VarId) : String := s!"v{id.val}"

def BlockId.text (id : BlockId) : String := s!"b{id.val}"

/-- The next unused number of each kind. -/
structure IdAllocator where
  nextDecl : UInt32 := 0
  nextVar : UInt32 := 0
  nextBlock : UInt32 := 0
  deriving DecidableEq, Repr, Inhabited

namespace IdAllocator

/-- A fresh declaration identity. -/
def decl (ids : IdAllocator) : DeclId × IdAllocator :=
  (⟨ids.nextDecl⟩, { ids with nextDecl := ids.nextDecl + 1 })

/-- A fresh variable identity. -/
def var (ids : IdAllocator) : VarId × IdAllocator :=
  (⟨ids.nextVar⟩, { ids with nextVar := ids.nextVar + 1 })

/-- A fresh block identity. -/
def block (ids : IdAllocator) : BlockId × IdAllocator :=
  (⟨ids.nextBlock⟩, { ids with nextBlock := ids.nextBlock + 1 })

/-- Moves past an identity that is in use. -/
def observeDecl (ids : IdAllocator) (id : DeclId) : IdAllocator :=
  { ids with nextDecl := max ids.nextDecl (id.val + 1) }

/-- Moves past an identity that is in use. -/
def observeVar (ids : IdAllocator) (id : VarId) : IdAllocator :=
  { ids with nextVar := max ids.nextVar (id.val + 1) }

/-- Moves past an identity that is in use. -/
def observeBlock (ids : IdAllocator) (id : BlockId) : IdAllocator :=
  { ids with nextBlock := max ids.nextBlock (id.val + 1) }

def toJson (ids : IdAllocator) : Json :=
  .obj [("next_decl", Json.ofUInt32 ids.nextDecl), ("next_var", Json.ofUInt32 ids.nextVar),
    ("next_block", Json.ofUInt32 ids.nextBlock)]

def ofJson? (j : Json) : Option IdAllocator := do
  let fields ← j.record? ["next_decl", "next_var", "next_block"]
  some {
    nextDecl := ← Json.required fields "next_decl" Json.uint32?
    nextVar := ← Json.required fields "next_var" Json.uint32?
    nextBlock := ← Json.required fields "next_block" Json.uint32? }

end IdAllocator

end TraceWeave

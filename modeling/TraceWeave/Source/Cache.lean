import TraceWeave.Source.Path
import TraceWeave.Source.Position

/-! # Source texts and their cache

A library of source texts by path, and a cache that asks the library for a file at most once. Two
spellings of one path share an entry of the cache, which holds what the first of them led to.

A `Provider` is the library and a `Cache` what has been asked so far; `Cache.resolve` gives the
position of an offset and the cache after it, through `Cache.lines`.
-/

namespace TraceWeave.Source

/-- Gives the lines of the file that a path text leads to; a file that cannot be found has none. -/
abbrev Provider := String → List String

namespace Provider

/-- Sources held in memory; the last text of a path counts. -/
def ofTexts (texts : List (String × String)) : Provider := fun path =>
  match texts.reverse.find? fun entry => Path.ofText entry.1 == Path.ofText path with
  | some entry => Text.lines entry.2
  | none => []

end Provider

/-- The files read so far, and how often the provider was asked. -/
structure Cache where
  files : List (Path × List String) := []
  loads : Nat := 0
  deriving Repr, Inhabited

namespace Cache

/-- The lines of a file, from the cache when it was read before. -/
def lines (cache : Cache) (provider : Provider) (path : String) : List String × Cache :=
  match cache.files.lookup (Path.ofText path) with
  | some found => (found, cache)
  | none =>
    let found := provider path
    (found, { files := cache.files ++ [(Path.ofText path, found)], loads := cache.loads + 1 })

/-- The position of a pair of offsets. Negative offsets do not load the file. -/
def resolve (cache : Cache) (provider : Provider) (path : String) (start stop : Int32) :
    Position × Cache :=
  if start < 0 ∨ stop < 0 then (Position.resolve [] start stop, cache)
  else
    let (found, cache) := cache.lines provider path
    (Position.resolve found start stop, cache)

end Cache

end TraceWeave.Source

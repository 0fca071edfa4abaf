import TraceWeave.Toml.Scalar
import TraceWeave.Toml.Table
import TraceWeave.Toml.Text

/-! # Reading TOML

A document is read line by line into a tree of tables, which is then given as JSON.

`parse?` reads a document. `readValue?` reads one value, `readHeader?` the name in brackets above
a table and `readDocument?` the lines one after the other.
-/

namespace TraceWeave.Toml

/-- How many parts a name may have, and how many arrays and inline tables may be nested. -/
def nestingLimit : Nat := 79

/-- A dotted name of bounded length. -/
def readKey? (cs : List Char) : Option (List String × List Char) := do
  let (path, rest) ← readPath? (cs.length + 1) cs
  if path.length ≤ nestingLimit then some (path, rest) else none

mutual

/-- One value, in which at most `depth` arrays and inline tables are nested. -/
def readValue? : Nat → Nat → List Char → Option (Json × List Char)
  | 0, _, _ => none
  | fuel + 1, depth, cs =>
    match cs with
    | '[' :: rest =>
      if depth = 0 then none
      else do
        let (items, rest) ← readItems? fuel (depth - 1) (skipGap (rest.length + 1) rest)
        some (.arr items, rest)
    | '\x7b' :: rest =>
      if depth = 0 then none
      else
        match skipBlanks rest with
        | '\x7d' :: rest => some (.obj [], rest)
        | rest => do
          let (entries, rest) ← readEntries? fuel (depth - 1) [] rest
          some (.obj (entriesToJson entries), rest)
    | cs =>
      match readString? cs with
      | some (s, rest) => some (.str s, rest)
      | none => readScalar? cs

/-- The items of an array up to its closing bracket. -/
def readItems? : Nat → Nat → List Char → Option (List Json × List Char)
  | 0, _, _ => none
  | fuel + 1, depth, cs =>
    match cs with
    | ']' :: rest => some ([], rest)
    | cs => do
      let (item, rest) ← readValue? fuel depth cs
      match skipGap (rest.length + 1) rest with
      | ',' :: rest =>
        let (items, rest) ← readItems? fuel depth (skipGap (rest.length + 1) rest)
        some (asItem item :: items, rest)
      | ']' :: rest => some ([asItem item], rest)
      | _ => none

/-- The entries of an inline table up to its closing brace. -/
def readEntries? : Nat → Nat → Entries → List Char → Option (Entries × List Char)
  | 0, _, _, _ => none
  | fuel + 1, depth, entries, cs => do
    let (path, rest) ← readKey? cs
    match rest with
    | '=' :: rest =>
      let (value, rest) ← readValue? fuel depth (skipBlanks rest)
      let entries ← define path value entries
      match skipBlanks rest with
      | ',' :: rest => readEntries? fuel depth entries rest
      | '\x7d' :: rest => some (entries, rest)
      | _ => none
    | _ => none

end

/-- The text behind the header of a table, and the changed tree. -/
def readHeader? (closing : List Char) (act : List String → Entries → Option Entries)
    (root : Entries) (cs : List Char) : Option (List String × Entries × List Char) := do
  let (path, rest) ← readKey? cs
  if rest.take closing.length = closing then
    let rest ← lineRest? (rest.drop closing.length)
    some (path, ← act path root, rest)
  else none

/-- The lines of a document, in the table that the last header opened. -/
def readDocument? : Nat → List String → Entries → List Char → Option Entries
  | 0, _, _, _ => none
  | fuel + 1, header, root, cs =>
    match skipBlanks cs with
    | [] => some root
    | '[' :: '[' :: rest => do
      let (header, root, rest) ← readHeader? [']', ']'] openElement root rest
      readDocument? fuel header root rest
    | '[' :: rest => do
      let (header, root, rest) ← readHeader? [']'] openTable root rest
      readDocument? fuel header root rest
    | cs =>
      match lineRest? cs with
      | some rest => readDocument? fuel header root rest
      | none => do
        let (path, rest) ← readKey? cs
        match rest with
        | '=' :: rest =>
          let (value, rest) ← readValue? (2 * rest.length + 2) nestingLimit (skipBlanks rest)
          let root ← defineIn header path value root
          readDocument? fuel header root (← lineRest? rest)
        | _ => none

/-- A text without the mark of its byte order. -/
def dropMark : List Char → List Char
  | c :: cs => if c.toNat = 0xFEFF then cs else c :: cs
  | [] => []

/-- The tree of tables of a document. -/
def parse? (text : String) : Option Json := do
  let cs := dropMark text.toList
  let root ← readDocument? (cs.length + 1) [] [] cs
  some (.obj (entriesToJson root))

end TraceWeave.Toml

import TraceWeave.Json.Parser

/-! # Strings and names in TOML

The four kinds of string, comments and line ends. A reader takes the text behind the opening mark
and gives what it read with the text behind the closing mark.

`readString?` reads a string of any kind, `readName?` and `readPath?` read names and dotted names,
and `skipGap` passes over blanks, comments and line ends.
-/

namespace TraceWeave.Toml

/-- The mark around literal strings. -/
def apostrophe : Char := Char.ofNat 39

/-- Whether a character may stand inside a line: no control character but the tab. -/
def isPrintable (c : Char) : Bool := c = '\t' || (32 ≤ c.toNat && c.toNat ≠ 127)

def isBlank (c : Char) : Bool := c = ' ' || c = '\t'

/-- Skips the blanks within a line. -/
def skipBlanks (cs : List Char) : List Char := cs.dropWhile isBlank

/-- The text behind a line end, if there is one. -/
def lineEnd? : List Char → Option (List Char)
  | '\n' :: rest => some rest
  | '\r' :: '\n' :: rest => some rest
  | _ => none

/-- Skips a comment up to the line end, if there is one. -/
def skipComment : List Char → List Char
  | '#' :: cs => cs.dropWhile isPrintable
  | cs => cs

/-- The text behind the end of a line: blanks, a comment, and a line end or the end of the text. -/
def lineRest? (cs : List Char) : Option (List Char) :=
  match skipComment (skipBlanks cs) with
  | [] => some []
  | rest => lineEnd? rest

/-- Skips blanks, comments and line ends, which may stand between the items of an array. -/
def skipGap : Nat → List Char → List Char
  | 0, cs => cs
  | fuel + 1, cs =>
    match skipComment (skipBlanks cs) with
    | [] => []
    | rest =>
      match lineEnd? rest with
      | some rest => skipGap fuel rest
      | none => rest

/-- The number that `count` hexadecimal digits stand for, and the text behind them. -/
def readHex? : Nat → Nat → List Char → Option (Nat × List Char)
  | 0, value, cs => some (value, cs)
  | _ + 1, _, [] => none
  | count + 1, value, c :: cs => do
    let digit ← Json.hexValue? c
    readHex? count (value * 16 + digit) cs

/-- The character with a code point, if it is one. -/
def scalar? (n : Nat) : Option Char :=
  if n < 0xD800 ∨ (0xDFFF < n ∧ n < 0x110000) then some (Char.ofNat n) else none

/-- The character of an escape without its backslash. -/
def readEscape? : List Char → Option (Char × List Char)
  | 'b' :: cs => some (Char.ofNat 8, cs)
  | 't' :: cs => some ('\t', cs)
  | 'n' :: cs => some ('\n', cs)
  | 'f' :: cs => some (Char.ofNat 12, cs)
  | 'r' :: cs => some ('\r', cs)
  | '"' :: cs => some ('"', cs)
  | '\\' :: cs => some ('\\', cs)
  | 'u' :: cs => do
    let (n, cs) ← readHex? 4 0 cs
    some (← scalar? n, cs)
  | 'U' :: cs => do
    let (n, cs) ← readHex? 8 0 cs
    some (← scalar? n, cs)
  | _ => none

/-- The rest of a string with escapes on one line. -/
def readBasic? : Nat → List Char → List Char → Option (String × List Char)
  | 0, _, _ => none
  | fuel + 1, seen, cs =>
    match cs with
    | [] => none
    | '"' :: rest => some (String.ofList seen.reverse, rest)
    | '\\' :: rest => do
      let (c, rest) ← readEscape? rest
      readBasic? fuel (c :: seen) rest
    | c :: rest => if isPrintable c then readBasic? fuel (c :: seen) rest else none

/-- The rest of a string without escapes on one line. -/
def readLiteral? (seen : List Char) : List Char → Option (String × List Char)
  | [] => none
  | c :: rest =>
    if c = apostrophe then some (String.ofList seen.reverse, rest)
    else if isPrintable c then readLiteral? (c :: seen) rest
    else none

/-- A line end right behind the opening mark does not belong to a string of several lines. -/
def dropLineEnd (cs : List Char) : List Char := (lineEnd? cs).getD cs

/-- Skips blanks and line ends. A carriage return counts only in a line end. -/
def skipBlankLines : List Char → List Char
  | [] => []
  | '\n' :: cs => skipBlankLines cs
  | '\r' :: '\n' :: cs => skipBlankLines cs
  | c :: cs => if isBlank c then skipBlankLines cs else c :: cs

/-- The text behind the blank lines that a backslash at the end of a line removes. -/
def foldedLines? (cs : List Char) : Option (List Char) :=
  (lineEnd? (skipBlanks cs)).map skipBlankLines

/-- The end of a string of several lines, given the run of marks that may close it: up to two
marks belong to the string. -/
def closeRun? (mark : Char) (seen : List Char) (run : Nat) (rest : List Char) :
    Option (String × List Char) :=
  if run ≤ 5 then some (String.ofList (List.replicate (run - 3) mark ++ seen).reverse, rest)
  else none

/-- The rest of a string of several lines; `escapes` says whether it has escapes. -/
def readLines? (mark : Char) (escapes : Bool) :
    Nat → List Char → List Char → Option (String × List Char)
  | 0, _, _ => none
  | fuel + 1, seen, cs =>
    match cs with
    | [] => none
    | c :: rest =>
      if c = mark then
        let run := (cs.takeWhile (· = mark)).length
        if run < 3 then readLines? mark escapes fuel (List.replicate run mark ++ seen) (cs.drop run)
        else closeRun? mark seen run (cs.drop run)
      else if c = '\\' && escapes then
        match foldedLines? rest with
        | some rest => readLines? mark escapes fuel seen rest
        | none => do
          let (c, rest) ← readEscape? rest
          readLines? mark escapes fuel (c :: seen) rest
      else
        match lineEnd? cs with
        | some rest => readLines? mark escapes fuel ('\n' :: seen) rest
        | none => if isPrintable c then readLines? mark escapes fuel (c :: seen) rest else none

/-- A string of one line, if the text starts with one. -/
def readQuoted? : List Char → Option (String × List Char)
  | [] => none
  | c :: rest =>
    if c = '"' then readBasic? (rest.length + 1) [] rest
    else if c = apostrophe then readLiteral? [] rest
    else none

/-- A string of any kind, if the text starts with one. -/
def readString? (cs : List Char) : Option (String × List Char) :=
  if cs.take 3 = ['"', '"', '"'] then
    readLines? '"' true (cs.length + 1) [] (dropLineEnd (cs.drop 3))
  else if cs.take 3 = [apostrophe, apostrophe, apostrophe] then
    readLines? apostrophe false (cs.length + 1) [] (dropLineEnd (cs.drop 3))
  else readQuoted? cs

/-- Whether a character may stand in a name without quotes. -/
def isBare (c : Char) : Bool := c.isAlphanum || c = '_' || c = '-'

/-- One part of a dotted name. -/
def readName? (cs : List Char) : Option (String × List Char) :=
  match cs.takeWhile isBare with
  | [] => readQuoted? cs
  | name => some (String.ofList name, cs.dropWhile isBare)

/-- A dotted name with the blanks around its parts. -/
def readPath? : Nat → List Char → Option (List String × List Char)
  | 0, _ => none
  | fuel + 1, cs => do
    let (name, rest) ← readName? (skipBlanks cs)
    match skipBlanks rest with
    | '.' :: rest =>
      let (path, rest) ← readPath? fuel rest
      some (name :: path, rest)
    | rest => some ([name], rest)

end TraceWeave.Toml

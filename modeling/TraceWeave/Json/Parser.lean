import TraceWeave.Json.Basic

/-! # Reading JSON

A reader for one JSON value. It refuses what the grammar refuses: raw control characters, leading
zeros, trailing commas. Lone surrogates and brackets below a bound keep to the grammar, and the
values that they stand in become unreadable.

`Json.parse?` reads a text; `Json.readValue?`, `Json.readString?` and `Json.readNumber?` each take
the value at the front of a text and give it with the text behind it.
-/

namespace TraceWeave.Json

/-- Skips the four blanks that may stand between tokens. -/
def skipBlanks (cs : List Char) : List Char :=
  cs.dropWhile fun c => c = ' ' || c = '\n' || c = '\r' || c = '\t'

/-- The value of a hexadecimal digit. -/
def hexValue? (c : Char) : Option Nat :=
  if '0' ≤ c ∧ c ≤ '9' then some (c.toNat - 48)
  else if 'a' ≤ c ∧ c ≤ 'f' then some (c.toNat - 87)
  else if 'A' ≤ c ∧ c ≤ 'F' then some (c.toNat - 55)
  else none

/-- The number that four hexadecimal digits stand for, and the text behind them. -/
def readUnit? : List Char → Option (Nat × List Char)
  | a :: b :: c :: d :: rest => do
    let a ← hexValue? a
    let b ← hexValue? b
    let c ← hexValue? c
    let d ← hexValue? d
    some (a * 4096 + b * 256 + c * 16 + d, rest)
  | _ => none

/-- The second half of a surrogate pair, as an escape at the front of a text. -/
def readLow? : List Char → Option (Nat × List Char)
  | '\\' :: 'u' :: rest => do
    let (low, rest) ← readUnit? rest
    if 0xDC00 ≤ low ∧ low < 0xE000 then some (low, rest) else none
  | _ => none

/-- The character of a `\u` escape, which takes a second escape when it is half of a pair. A half
that stands alone has no character. -/
def readUnicode? (cs : List Char) : Option (Option Char × List Char) := do
  let (unit, rest) ← readUnit? cs
  if 0xD800 ≤ unit ∧ unit < 0xDC00 then
    match readLow? rest with
    | some (low, rest) =>
      some (some (Char.ofNat (0x10000 + (unit - 0xD800) * 0x400 + (low - 0xDC00))), rest)
    | none => some (none, rest)
  else if 0xDC00 ≤ unit ∧ unit < 0xE000 then some (none, rest)
  else some (some (Char.ofNat unit), rest)

/-- The character of a one-letter escape. -/
def simpleEscape? (c : Char) : Option Char :=
  if c = '"' then some '"'
  else if c = '\\' then some '\\'
  else if c = '/' then some '/'
  else if c = 'b' then some (Char.ofNat 8)
  else if c = 'f' then some (Char.ofNat 12)
  else if c = 'n' then some '\n'
  else if c = 'r' then some '\r'
  else if c = 't' then some '\t'
  else none

/-- The rest of a string literal, up to its closing quote, where `seen` holds the characters before
it backwards. A literal with half of a surrogate pair stands for no string. -/
def readString? : Nat → Option (List Char) → List Char → Option (Option String × List Char)
  | 0, _, _ => none
  | fuel + 1, seen, cs =>
    match cs with
    | [] => none
    | '"' :: rest => some (seen.map fun seen => String.ofList seen.reverse, rest)
    | '\\' :: 'u' :: rest => do
      let (c, rest) ← readUnicode? rest
      readString? fuel (do some ((← c) :: (← seen))) rest
    | '\\' :: c :: rest => do
      let c ← simpleEscape? c
      readString? fuel (seen.map (c :: ·)) rest
    | c :: rest =>
      if c.toNat < 32 || c = '\\' then none else readString? fuel (seen.map (c :: ·)) rest

/-- The string literal whose opening quote was read. -/
def readLiteral? (cs : List Char) : Option (Option String × List Char) :=
  readString? (cs.length + 1) (some []) cs

/-- A string, if its literal stands for one. -/
def ofLiteral : Option String → Json
  | some s => .str s
  | none => .unreadable

/-- An array or object, if it may still be nested where it stands. -/
def nested (depth : Nat) (value : Json) : Json := if depth = 0 then .unreadable else value

/-- An object, if all its names could be read. -/
def ofFields : Option (List (String × Json)) → Json
  | some fields => .obj fields
  | none => .unreadable

/-- The digits at the front of a text, and the text behind them. -/
def spanDigits (cs : List Char) : List Char × List Char :=
  (cs.takeWhile Char.isDigit, cs.dropWhile Char.isDigit)

/-- The number that decimal digits stand for. -/
def digitsValue (digits : List Char) : Nat :=
  digits.foldl (fun n c => n * 10 + (c.toNat - 48)) 0

/-- The optional fraction of a number. -/
def readFraction? : List Char → Option (List Char × List Char)
  | '.' :: cs =>
    let (digits, rest) := spanDigits cs
    if digits.isEmpty then none else some ('.' :: digits, rest)
  | cs => some ([], cs)

/-- The digits of an exponent, which there must be. -/
def readExponentDigits? (mark : List Char) (cs : List Char) : Option (List Char × List Char) :=
  let (digits, rest) := spanDigits cs
  if digits.isEmpty then none else some (mark ++ digits, rest)

/-- The optional exponent of a number. -/
def readExponent? : List Char → Option (List Char × List Char)
  | c :: cs =>
    if c = 'e' || c = 'E' then
      match cs with
      | '+' :: cs => readExponentDigits? [c, '+'] cs
      | '-' :: cs => readExponentDigits? [c, '-'] cs
      | cs => readExponentDigits? [c] cs
    else some ([], c :: cs)
  | [] => some ([], [])

/-- An integer within 64 bits, signed or not; any other integer counts as a decimal. -/
def ofInteger (negative : Bool) (digits : List Char) : Json :=
  let n := digitsValue digits
  let text := String.ofList (if negative then '-' :: digits else digits)
  if negative then
    if n = 0 ∨ -(n : Int) < Int64.minValue.toInt then .decimal text else .int (-(n : Int))
  else if UInt64.size ≤ n then .decimal text
  else .int n

/-- A number without its sign. -/
def readUnsigned? (negative : Bool) (cs : List Char) : Option (Json × List Char) := do
  let (digits, rest) := spanDigits cs
  match digits with
  | [] => none
  | '0' :: _ :: _ => none
  | digits =>
    let (fraction, rest) ← readFraction? rest
    let (exponent, rest) ← readExponent? rest
    if fraction.isEmpty && exponent.isEmpty then some (ofInteger negative digits, rest)
    else
      let sign := if negative then ['-'] else []
      some (.decimal (String.ofList (sign ++ digits ++ fraction ++ exponent)), rest)

def readNumber? : List Char → Option (Json × List Char)
  | '-' :: cs => readUnsigned? true cs
  | cs => readUnsigned? false cs

mutual

/-- One value. What is nested in more than `depth` brackets is unreadable. -/
def readValue? : Nat → Nat → List Char → Option (Json × List Char)
  | 0, _, _ => none
  | fuel + 1, depth, cs =>
    match skipBlanks cs with
    | 'n' :: 'u' :: 'l' :: 'l' :: rest => some (.null, rest)
    | 't' :: 'r' :: 'u' :: 'e' :: rest => some (.bool true, rest)
    | 'f' :: 'a' :: 'l' :: 's' :: 'e' :: rest => some (.bool false, rest)
    | '"' :: rest => do
      let (literal, rest) ← readLiteral? rest
      some (ofLiteral literal, rest)
    | '[' :: rest =>
      match skipBlanks rest with
      | ']' :: rest => some (nested depth (.arr []), rest)
      | rest => do
        let (items, rest) ← readItems? fuel (depth - 1) rest
        some (nested depth (.arr items), rest)
    | '\x7b' :: rest =>
      match skipBlanks rest with
      | '\x7d' :: rest => some (nested depth (.obj []), rest)
      | rest => do
        let (fields, rest) ← readFields? fuel (depth - 1) rest
        some (nested depth (ofFields fields), rest)
    | cs => readNumber? cs

/-- The items of an array up to its closing bracket. -/
def readItems? : Nat → Nat → List Char → Option (List Json × List Char)
  | 0, _, _ => none
  | fuel + 1, depth, cs => do
    let (item, rest) ← readValue? fuel depth cs
    match skipBlanks rest with
    | ',' :: rest =>
      let (items, rest) ← readItems? fuel depth rest
      some (item :: items, rest)
    | ']' :: rest => some ([item], rest)
    | _ => none

/-- The fields of an object up to its closing brace, if all their names can be read. -/
def readFields? : Nat → Nat → List Char → Option (Option (List (String × Json)) × List Char)
  | 0, _, _ => none
  | fuel + 1, depth, cs =>
    match skipBlanks cs with
    | '"' :: rest => do
      let (name, rest) ← readLiteral? rest
      match skipBlanks rest with
      | ':' :: rest =>
        let (value, rest) ← readValue? fuel depth rest
        match skipBlanks rest with
        | ',' :: rest =>
          let (fields, rest) ← readFields? fuel depth rest
          some (do some ((← name, value) :: (← fields)), rest)
        | '\x7d' :: rest => some (name.map fun name => [(name, value)], rest)
        | _ => none
      | _ => none
    | _ => none

end

/-- The value that a text holds, in which at most `depth` nested brackets can be read. -/
def parse? (depth : Nat) (text : String) : Option Json := do
  let cs := text.toList
  let (value, rest) ← readValue? (2 * cs.length + 2) depth cs
  if (skipBlanks rest).isEmpty then some value else none

end TraceWeave.Json

import TraceWeave.Json.Basic

/-! # Writing JSON

Two layouts: on one line, or with two spaces of indentation. Strings escape the quote, the
backslash and the control characters below the space; all other characters stand for themselves.

`Json.compact` is the first layout, `Json.pretty` the second, and `Json.quote` writes a string.
-/

namespace TraceWeave.Json

/-- The lower-case hexadecimal digit of a number below sixteen. -/
def hexDigit (n : Nat) : Char :=
  if n < 10 then Char.ofNat (n + 48) else Char.ofNat (n + 87)

/-- The characters that stand for `c` inside a JSON string. -/
def escapeChar (c : Char) : List Char :=
  if c = '"' then ['\\', '"']
  else if c = '\\' then ['\\', '\\']
  else if c = '\n' then ['\\', 'n']
  else if c = '\r' then ['\\', 'r']
  else if c = '\t' then ['\\', 't']
  else if c.toNat = 8 then ['\\', 'b']
  else if c.toNat = 12 then ['\\', 'f']
  else if c.toNat < 32 then
    ['\\', 'u', '0', '0', hexDigit (c.toNat / 16), hexDigit (c.toNat % 16)]
  else [c]

/-- A JSON string literal. -/
def quote (text : String) : String :=
  "\"" ++ String.ofList (text.toList.flatMap escapeChar) ++ "\""

mutual

/-- A value on one line, without blanks. -/
def compact : Json → String
  | .null => "null"
  | .bool b => if b then "true" else "false"
  | .int n => toString n
  | .decimal text => text
  | .str s => quote s
  | .arr items => "[" ++ ",".intercalate (compactItems items) ++ "]"
  | .obj fields => "\x7b" ++ ",".intercalate (compactFields fields) ++ "\x7d"
  | .unreadable => "null"

def compactItems : List Json → List String
  | [] => []
  | item :: items => compact item :: compactItems items

def compactFields : List (String × Json) → List String
  | [] => []
  | (name, value) :: fields => (quote name ++ ":" ++ compact value) :: compactFields fields

end

/-- A line end followed by `depth` steps of indentation. -/
def newline (depth : Nat) : String := "\n" ++ "".pushn ' ' (2 * depth)

/-- Items on lines of their own between two brackets, or the brackets alone. -/
def enclose (opening closing : String) (depth : Nat) : List String → String
  | [] => opening ++ closing
  | items =>
    opening ++ newline (depth + 1) ++ ("," ++ newline (depth + 1)).intercalate items
      ++ newline depth ++ closing

mutual

/-- A value over several lines, two spaces for each level below `depth`. -/
def indented (depth : Nat) : Json → String
  | .arr items => enclose "[" "]" depth (indentedItems (depth + 1) items)
  | .obj fields => enclose "\x7b" "\x7d" depth (indentedFields (depth + 1) fields)
  | .null => "null"
  | .bool b => if b then "true" else "false"
  | .int n => toString n
  | .decimal text => text
  | .str s => quote s
  | .unreadable => "null"

def indentedItems (depth : Nat) : List Json → List String
  | [] => []
  | item :: items => indented depth item :: indentedItems depth items

def indentedFields (depth : Nat) : List (String × Json) → List String
  | [] => []
  | (name, value) :: fields =>
    (quote name ++ ": " ++ indented depth value) :: indentedFields depth fields

end

/-- A value over several lines. -/
def pretty (j : Json) : String := indented 0 j

end TraceWeave.Json

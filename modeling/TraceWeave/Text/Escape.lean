/-! # Escaped string literals

How the rendering of a program writes the characters of a string constant.

`escape` writes a text, `escapeChar` one character of it.
-/

namespace TraceWeave.Text

/-- The characters that stand for `c` inside a quoted literal. -/
def escapeChar (c : Char) : List Char :=
  if c = '"' then ['\\', '"']
  else if c = '\\' then ['\\', '\\']
  else if c = '\n' then ['\\', 'n']
  else if c = '\t' then ['\\', 't']
  else [c]

/-- Escapes quotes, backslashes, line feeds and tabs; every other character stands for itself. -/
def escape (text : String) : String :=
  String.ofList (text.toList.flatMap escapeChar)

end TraceWeave.Text

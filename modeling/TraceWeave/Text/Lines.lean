/-! # Lines of a text

A text is cut at every line feed. A carriage return right before that line feed belongs to the
line end; a last line without a line feed keeps its carriage return.

`lines` is the list of lines, without their ends; `cutLines` cuts at the line feeds and
`dropReturn` takes the carriage return away.
-/

namespace TraceWeave.Text

/-- Drops the carriage return that ends a line, given the line backwards. -/
def dropReturn : List Char → List Char
  | '\r' :: cs => cs
  | cs => cs

/-- Cuts `cs` into lines, where `seen` holds the current line backwards. -/
def cutLines (seen : List Char) : List Char → List (List Char)
  | [] => if seen.isEmpty then [] else [seen.reverse]
  | c :: cs =>
    if c = '\n' then (dropReturn seen).reverse :: cutLines [] cs else cutLines (c :: seen) cs

/-- The lines of a text, without their line ends. -/
def lines (text : String) : List String :=
  (cutLines [] text.toList).map String.ofList

end TraceWeave.Text

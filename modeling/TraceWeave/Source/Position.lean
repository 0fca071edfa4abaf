import TraceWeave.Span
import TraceWeave.Text.Lines

/-! # Positions

The line and column of a character offset, or one of the four words that stand for no position.

`Position.find` looks an offset up in the lines of a file, and `Position.resolve` tells the
reserved offsets apart first. `Position.line` and `Position.column` are the two numbers; for the
four words both are the number that is reserved for the word.
-/

namespace TraceWeave.Source

/-- Where a node stands in its source text, counted from one. -/
inductive Position where
  | real (line column : Nat)
  | undefined
  | synthetic
  | fakeOverride
  | unknown
  deriving DecidableEq, Repr, Inhabited

namespace Position

/-- The largest line or column that is recorded. -/
def limit : Nat := 2147483647

/-- The position at a line and column, or `unknown` if one of them is zero or above the limit. -/
def ofLineColumn (line column : Nat) : Position :=
  if 1 ≤ line ∧ line ≤ limit ∧ 1 ≤ column ∧ column ≤ limit then .real line column else .unknown

/-- The number that stands for a line; a position without one has a reserved number. -/
def line : Position → Int
  | .real line _ => line
  | .undefined => -1
  | .synthetic => -2
  | .fakeOverride => -3
  | .unknown => 0

/-- The number that stands for a column; a position without one has a reserved number. -/
def column : Position → Int
  | .real _ column => column
  | p => p.line

def isReal : Position → Bool
  | .real _ _ => true
  | _ => false

/-- Positions are written `line:column`, or as a word in angle brackets. -/
def text : Position → String
  | .real line column => s!"{line}:{column}"
  | .undefined => "<undefined>"
  | .synthetic => "<synthetic>"
  | .fakeOverride => "<fake-override>"
  | .unknown => "<unknown>"

/-- The position of offset `start` in lines that begin with line number `line`. Every line
takes up its characters and one line end. -/
def find (line : Nat) : List String → Nat → Position
  | [], _ => .unknown
  | l :: ls, start =>
    if start ≤ l.length then ofLineColumn line (start + 1)
    else find (line + 1) ls (start - (l.length + 1))

/-- The position of a pair of offsets. Reserved offsets never look at the lines. -/
def resolve (lines : List String) (start stop : Int32) : Position :=
  if start = undefinedOffset ∨ stop = undefinedOffset then .undefined
  else if start = syntheticOffset ∨ stop = syntheticOffset then .synthetic
  else if start < 0 then .unknown
  else find 1 lines start.toInt.toNat

end Position

end TraceWeave.Source

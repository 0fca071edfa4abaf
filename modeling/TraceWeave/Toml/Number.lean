import TraceWeave.Json.Parser

/-! # Numbers in TOML

Integers must fit into 64 bits. A float must not round to positive infinity, which is decided on
the exact value of its literal.

`integer?` reads an integer in any of the four bases and `float?` a float, by way of the exact
`Decimal` that the literal stands for (`Decimal.isInfinite`).
-/

namespace TraceWeave.Toml

/-- Digits with underscores between them, without the underscores. -/
def plainDigits? (isDigit : Char → Bool) : List Char → Option (List Char)
  | [] => none
  | [c] => if isDigit c then some [c] else none
  | c :: '_' :: rest =>
    if isDigit c then (plainDigits? isDigit rest).map (c :: ·) else none
  | c :: rest => if isDigit c then (plainDigits? isDigit rest).map (c :: ·) else none

/-- A text without its sign, and whether the sign is a minus. -/
def splitSign : List Char → Bool × List Char
  | '-' :: cs => (true, cs)
  | '+' :: cs => (false, cs)
  | cs => (false, cs)

/-- The digits of a decimal integer, which has no leading zero. -/
def decimalDigits? (cs : List Char) : Option (List Char) := do
  match ← plainDigits? Char.isDigit cs with
  | '0' :: _ :: _ => none
  | digits => some digits

/-- An integer with a sign. -/
def signed (negative : Bool) (n : Nat) : Int := if negative then -(n : Int) else n

/-- An integer that fits into 64 bits. -/
def ofInt? (n : Int) : Option Json :=
  if Int64.minValue.toInt ≤ n ∧ n ≤ Int64.maxValue.toInt then some (.int n) else none

/-- The number that digits of a base stand for. -/
def baseValue (base : Nat) (digits : List Char) : Nat :=
  digits.foldl (fun n c => n * base + (Json.hexValue? c).getD 0) 0

/-- An integer in a base other than ten. -/
def basedInt? (base : Nat) (cs : List Char) : Option Json := do
  let digits ← plainDigits? (fun c => (Json.hexValue? c).any (· < base)) cs
  ofInt? (baseValue base digits)

def integer? : List Char → Option Json
  | '0' :: 'x' :: cs => basedInt? 16 cs
  | '0' :: 'o' :: cs => basedInt? 8 cs
  | '0' :: 'b' :: cs => basedInt? 2 cs
  | cs => do
    let (negative, cs) := splitSign cs
    ofInt? (signed negative (Json.digitsValue (← decimalDigits? cs)))

/-- A decimal without a sign: the number of its digits, times ten to the power of its scale. -/
structure Decimal where
  digits : List Char
  scale : Int
  deriving DecidableEq, Repr, Inhabited

namespace Decimal

/-- The exponent of a decimal, behind its mark. -/
def exponent? (cs : List Char) : Option Int := do
  let (negative, cs) := splitSign cs
  some (signed negative (Json.digitsValue (← plainDigits? Char.isDigit cs)))

/-- The decimal with the given digits before the point and the given text behind it, which is a
fraction with or without an exponent. -/
def ofFraction? (whole cs : List Char) : Option Decimal := do
  let isMark c := c = 'e' || c = 'E'
  let fraction ← plainDigits? Char.isDigit (cs.takeWhile (!isMark ·))
  let exponent ← match cs.dropWhile (!isMark ·) with
    | [] => some 0
    | _ :: exponent => exponent? exponent
  some ⟨whole ++ fraction, exponent - fraction.length⟩

/-- A decimal with a fraction, an exponent or both. -/
def read? (cs : List Char) : Option Decimal := do
  let isEnd c := c = '.' || c = 'e' || c = 'E'
  let whole ← decimalDigits? (cs.takeWhile (!isEnd ·))
  match cs.dropWhile (!isEnd ·) with
  | '.' :: fraction => ofFraction? whole fraction
  | _ :: exponent => do some ⟨whole, ← exponent? exponent⟩
  | [] => none

/-- Half a step above the largest double, from where on numbers round to infinity. It has 309
digits. -/
def infinityBound : Nat := (1 <<< 1024) - (1 <<< 970)

/-- Whether a decimal rounds to infinity. Unless it has as many digits before the point as the
bound has, their number decides. -/
def isInfinite (d : Decimal) : Bool :=
  let digits := d.digits.dropWhile (· = '0')
  let places := d.scale + digits.length
  if digits.isEmpty || places < 309 then false
  else if 309 < places then true
  else
    match d.scale with
    | .ofNat zeros => infinityBound ≤ Json.digitsValue digits * Nat.pow 10 zeros
    | .negSucc n => infinityBound * Nat.pow 10 (n + 1) ≤ Json.digitsValue digits

end Decimal

/-- A float. Only a positive one can be too large. -/
def float? (cs : List Char) : Option Json :=
  let (negative, unsigned) := splitSign cs
  match Decimal.read? unsigned with
  | some d => if !negative && d.isInfinite then none else some (.decimal (String.ofList cs))
  | none =>
    if unsigned = ['i', 'n', 'f'] || unsigned = ['n', 'a', 'n'] then
      some (.decimal (String.ofList cs))
    else none

end TraceWeave.Toml

import TraceWeave.Toml.Number

/-! # Scalars in TOML

A scalar without quotes is a run of letters, digits and the marks `+ - _ . :`. Which kind it is
follows from its form: a truth value, a number, a date or a time.

`readScalar?` takes the run at the front of a text and `scalarValue?` says what it stands for;
`isDate`, `isTime` and `isMoment` tell the forms of dates and times.
-/

namespace TraceWeave.Toml

/-- Whether a character may stand in a scalar without quotes. -/
def isScalarChar (c : Char) : Bool :=
  c.isAlphanum || c = '+' || c = '-' || c = '_' || c = '.' || c = ':'

/-- The number that two digits stand for. -/
def twoDigits? : List Char → Option Nat
  | [a, b] => if a.isDigit && b.isDigit then some (Json.digitsValue [a, b]) else none
  | _ => none

/-- How many days a month has. -/
def daysIn (year month : Nat) : Nat :=
  if month = 2 then
    if year % 4 = 0 ∧ (year % 100 ≠ 0 ∨ year % 400 = 0) then 29 else 28
  else if month = 4 ∨ month = 6 ∨ month = 9 ∨ month = 11 then 30
  else 31

/-- Whether a text is a date of the calendar. -/
def isDate : List Char → Bool
  | [y1, y2, y3, y4, '-', m1, m2, '-', d1, d2] =>
    [y1, y2, y3, y4].all Char.isDigit &&
      match twoDigits? [m1, m2], twoDigits? [d1, d2] with
      | some month, some day =>
        1 ≤ month && month ≤ 12 && 1 ≤ day &&
          day ≤ daysIn (Json.digitsValue [y1, y2, y3, y4]) month
      | _, _ => false
  | _ => false

/-- Whether hours and minutes are within a day. -/
def isHourMinute (h1 h2 m1 m2 : Char) : Bool :=
  (twoDigits? [h1, h2]).any (· ≤ 23) && (twoDigits? [m1, m2]).any (· ≤ 59)

/-- Whether a text is nothing or the fraction of a second. -/
def isSecondFraction : List Char → Bool
  | [] => true
  | '.' :: digits => !digits.isEmpty && digits.all Char.isDigit
  | _ => false

/-- Whether a text is a time of the day. A minute may have a leap second. -/
def isTime : List Char → Bool
  | h1 :: h2 :: ':' :: m1 :: m2 :: ':' :: s1 :: s2 :: rest =>
    isHourMinute h1 h2 m1 m2 && (twoDigits? [s1, s2]).any (· ≤ 60) && isSecondFraction rest
  | _ => false

/-- Whether a text is the offset of a zone. -/
def isOffset : List Char → Bool
  | ['Z'] | ['z'] => true
  | [sign, h1, h2, ':', m1, m2] => (sign = '+' || sign = '-') && isHourMinute h1 h2 m1 m2
  | _ => false

/-- Whether a text is a time of the day with or without the offset of a zone. -/
def isZonedTime (cs : List Char) : Bool :=
  let isEnd c := c = 'Z' || c = 'z' || c = '+' || c = '-'
  isTime (cs.takeWhile (!isEnd ·)) &&
    match cs.dropWhile (!isEnd ·) with
    | [] => true
    | offset => isOffset offset

/-- Whether a text is a date, a time, or both. -/
def isMoment (cs : List Char) : Bool :=
  isTime cs ||
    (isDate (cs.take 10) &&
      match cs.drop 10 with
      | [] => true
      | mark :: time => (mark = 'T' || mark = 't' || mark = ' ') && isZonedTime time)

/-- A date or a time: a record of its text. -/
def ofMoment (cs : List Char) : Json := .obj [("moment", .str (String.ofList cs))]

/-- The value of a scalar without quotes. -/
def scalarValue? (cs : List Char) : Option Json :=
  if cs = ['t', 'r', 'u', 'e'] then some (.bool true)
  else if cs = ['f', 'a', 'l', 's', 'e'] then some (.bool false)
  else if isMoment cs then some (ofMoment cs)
  else (float? cs).or (integer? cs)

/-- A scalar without quotes, and the text behind it. A date goes on behind a blank if a digit
follows. -/
def readScalar? (cs : List Char) : Option (Json × List Char) := do
  let first := cs.takeWhile isScalarChar
  match cs.dropWhile isScalarChar with
  | ' ' :: c :: rest =>
    if isDate first && c.isDigit then
      let time := (c :: rest).takeWhile isScalarChar
      some (← scalarValue? (first ++ ' ' :: time), (c :: rest).dropWhile isScalarChar)
    else some (← scalarValue? first, ' ' :: c :: rest)
  | rest => some (← scalarValue? first, rest)

end TraceWeave.Toml

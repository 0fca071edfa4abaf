import TraceWeave.Eval.Value

/-! # Operators

Arithmetic wraps at the wider width of its operands; a quotient that does not exist or does not
fit is a division by zero. A text on the left of `+` takes any value on its right.

`Value.binary` applies an operator to two values, by `Value.arithmetic` for numbers, `Value.add`
for texts, `Value.order` for comparisons and `Value.both` for connectives.
-/

namespace TraceWeave.Value

/-- Fails with a message. -/
def refuse {α : Type} (message : String) : Except Error α := .error (.generic message)

/-- An arithmetic operation on 32 bits. -/
def int32Op (op : BinOp) (l r : Int32) : Except Error Int32 :=
  match op with
  | .add => .ok (l + r)
  | .sub => .ok (l - r)
  | .mul => .ok (l * r)
  | .div => if r = 0 ∨ (l = Int32.minValue ∧ r = -1) then refuse "division by zero" else .ok (l / r)
  | .rem => if r = 0 ∨ (l = Int32.minValue ∧ r = -1) then refuse "division by zero" else .ok (l % r)
  | op => refuse s!"'{op.symbol}' is not an arithmetic operator"

/-- An arithmetic operation on 64 bits. -/
def int64Op (op : BinOp) (l r : Int64) : Except Error Int64 :=
  match op with
  | .add => .ok (l + r)
  | .sub => .ok (l - r)
  | .mul => .ok (l * r)
  | .div => if r = 0 ∨ (l = Int64.minValue ∧ r = -1) then refuse "division by zero" else .ok (l / r)
  | .rem => if r = 0 ∨ (l = Int64.minValue ∧ r = -1) then refuse "division by zero" else .ok (l % r)
  | op => refuse s!"'{op.symbol}' is not an arithmetic operator"

/-- An arithmetic operation at the wider width of its operands. -/
def arithmetic (op : BinOp) : Value → Value → Except Error Value
  | .int l, .int r => (int32Op op l r).map .int
  | .long l, .long r => (int64Op op l r).map .long
  | .int l, .long r => (int64Op op l.toInt64 r).map .long
  | .long l, .int r => (int64Op op l r.toInt64).map .long
  | l, r => refuse s!"unsupported operands for '{op.symbol}': {l.typeName} and {r.typeName}"

def add : Value → Value → Except Error Value
  | .string l, r => .ok (.string (l ++ r.text))
  | l, r => arithmetic .add l r

/-- The order of two numbers or two texts. -/
def order : Value → Value → Except Error Ordering
  | .int l, .int r => .ok (compare l.toInt r.toInt)
  | .long l, .long r => .ok (compare l.toInt r.toInt)
  | .int l, .long r => .ok (compare l.toInt r.toInt)
  | .long l, .int r => .ok (compare l.toInt r.toInt)
  | .string l, .string r => .ok (if l < r then .lt else if l = r then .eq else .gt)
  | l, r => refuse s!"cannot compare {l.typeName} with {r.typeName}"

/-- Both truth values, in the order in which they are needed. -/
def both (l r : Value) (needed : Bool → Bool) (combine : Bool → Bool → Bool) :
    Except Error Value := do
  let a ← l.asBool
  if needed a then
    let b ← r.asBool
    return .bool (combine a b)
  else return .bool a

/-- What an operator makes of two values. -/
def binary (op : BinOp) (l r : Value) : Except Error Value :=
  match op with
  | .add => add l r
  | .sub | .mul | .div | .rem => arithmetic op l r
  | .eq => .ok (.bool (l = r))
  | .ne => .ok (.bool (l ≠ r))
  | .lt => (order l r).map fun o => .bool (o == .lt)
  | .le => (order l r).map fun o => .bool (o != .gt)
  | .gt => (order l r).map fun o => .bool (o == .gt)
  | .ge => (order l r).map fun o => .bool (o != .lt)
  | .and => both l r id and
  | .or => both l r (!·) or

end TraceWeave.Value

import Mathlib.Algebra.GroupWithZero.Nat
import Mathlib.Algebra.Ring.Int.Defs
import TraceWeave.Eval.Operators

/-! # Whole numbers under operators

Numbers have 32 or 64 bits, and an operator works at the wider width of its operands. What it works
out is the exact result, of which sums, differences and products keep the lowest bits. A quotient is
cut off towards zero and goes with a remainder; there is none by zero, nor where it would not fit.

`Number` has both widths, `Number.exactly` is an operation on exact integers, `Number.NoQuotient`
the exception. `Number.operators_exact` says it of all operators.
-/

namespace TraceWeave

/-- A whole number of one of the two widths. -/
inductive Number where
  | int (n : Int32)
  | long (n : Int64)

namespace Number

def value : Number → Value
  | .int n => .int n
  | .long n => .long n

def toInt : Number → Int
  | .int n => n.toInt
  | .long n => n.toInt

/-- The bits that a number has. -/
def width : Number → Nat
  | .int _ => 32
  | .long _ => 64

/-- The width at which two numbers are brought together: 64 bits unless both have 32. -/
def common (l r : Number) : Nat := max l.width r.width

/-- The number with 64 bits. -/
def widen : Number → Number
  | .int n => .long n.toInt64
  | .long n => .long n

theorem common_cases (l r : Number) : common l r = 32 ∨ common l r = 64 := by
  cases l <;> cases r <;> simp [common, width]

@[simp] theorem toInt_widen (l : Number) : l.widen.toInt = l.toInt := by
  cases l with
  | int n => exact n.toInt_toInt64
  | long n => rfl

/-! ## Arithmetic on exact integers -/

/-- Whether there is no quotient of `w` bits. -/
def NoQuotient (w : Nat) (l r : Int) : Prop := r = 0 ∨ l = -2 ^ (w - 1) ∧ r = -1

instance (w : Nat) (l r : Int) : Decidable (NoQuotient w l r) :=
  inferInstanceAs (Decidable (_ ∨ _ ∧ _))

/-- An arithmetic operation on exact integers, brought back to `w` bits. -/
def exactly (w : Nat) (op : BinOp) (l r : Int) : Except Error Int :=
  match op with
  | .add => .ok ((l + r).bmod (2 ^ w))
  | .sub => .ok ((l - r).bmod (2 ^ w))
  | .mul => .ok ((l * r).bmod (2 ^ w))
  | .div => if NoQuotient w l r then Value.refuse "division by zero" else .ok (l.tdiv r)
  | .rem => if NoQuotient w l r then Value.refuse "division by zero" else .ok (l.tmod r)
  | op => Value.refuse s!"'{op.symbol}' is not an arithmetic operator"

theorem noQuotient_int32 {l r : Int32} :
    (r = 0 ∨ l = Int32.minValue ∧ r = -1) ↔ NoQuotient 32 l.toInt r.toInt := by
  rw [NoQuotient, ← Int32.toInt_inj, ← Int32.toInt_inj, ← Int32.toInt_inj]
  rfl

theorem noQuotient_int64 {l r : Int64} :
    (r = 0 ∨ l = Int64.minValue ∧ r = -1) ↔ NoQuotient 64 l.toInt r.toInt := by
  rw [NoQuotient, ← Int64.toInt_inj, ← Int64.toInt_inj, ← Int64.toInt_inj]
  rfl

theorem toInt_int32Op (op : BinOp) (l r : Int32) :
    (Value.int32Op op l r).map Int32.toInt = exactly 32 op l.toInt r.toInt := by
  cases op with
  | add => exact congrArg _ (Int32.toInt_add l r)
  | sub => exact congrArg _ (Int32.toInt_sub l r)
  | mul => exact congrArg _ (Int32.toInt_mul l r)
  | div =>
    simp only [Value.int32Op, exactly, ← noQuotient_int32]
    split_ifs with h
    · rfl
    · -- Only the least number by -1 is too large; without one of the two the quotient is exact.
      have hquotient : (l / r).toInt = l.toInt.tdiv r.toInt := by
        by_cases hl : l = Int32.minValue
        · exact Int32.toInt_div_of_ne_right l r fun hr => h (.inr ⟨hl, hr⟩)
        · exact Int32.toInt_div_of_ne_left l r hl
      exact congrArg _ hquotient
  | rem =>
    simp only [Value.int32Op, exactly, ← noQuotient_int32]
    split_ifs with h
    · rfl
    · exact congrArg _ (Int32.toInt_mod l r)
  | _ => rfl

theorem toInt_int64Op (op : BinOp) (l r : Int64) :
    (Value.int64Op op l r).map Int64.toInt = exactly 64 op l.toInt r.toInt := by
  cases op with
  | add => exact congrArg _ (Int64.toInt_add l r)
  | sub => exact congrArg _ (Int64.toInt_sub l r)
  | mul => exact congrArg _ (Int64.toInt_mul l r)
  | div =>
    simp only [Value.int64Op, exactly, ← noQuotient_int64]
    split_ifs with h
    · rfl
    · -- Only the least number by -1 is too large; without one of the two the quotient is exact.
      have hquotient : (l / r).toInt = l.toInt.tdiv r.toInt := by
        by_cases hl : l = Int64.minValue
        · exact Int64.toInt_div_of_ne_right l r fun hr => h (.inr ⟨hl, hr⟩)
        · exact Int64.toInt_div_of_ne_left l r hl
      exact congrArg _ hquotient
  | rem =>
    simp only [Value.int64Op, exactly, ← noQuotient_int64]
    split_ifs with h
    · rfl
    · exact congrArg _ (Int64.toInt_mod l r)
  | _ => rfl

/-- An arithmetic operation on numbers. -/
def operate (op : BinOp) : Number → Number → Except Error Number
  | .int l, .int r => (Value.int32Op op l r).map .int
  | .long l, .long r => (Value.int64Op op l r).map .long
  | .int l, .long r => (Value.int64Op op l.toInt64 r).map .long
  | .long l, .int r => (Value.int64Op op l r.toInt64).map .long

section

variable {α β γ : Type} {f : α → β} {x : Except Error α}

theorem map_map (f : α → β) (g : β → γ) (x : Except Error α) :
    (x.map f).map g = x.map (g ∘ f) := by
  cases x <;> rfl

theorem map_eq_ok_iff {b : β} : x.map f = .ok b ↔ ∃ a, x = .ok a ∧ f a = b := by
  cases x <;> simp [Except.map]

theorem map_eq_error_iff {e : Error} : x.map f = .error e ↔ x = .error e := by
  cases x <;> simp [Except.map]

end

theorem arithmetic_value (op : BinOp) (l r : Number) :
    Value.arithmetic op l.value r.value = (operate op l r).map value := by
  cases l <;> cases r <;> simp only [value, Value.arithmetic, operate, map_map] <;> rfl

theorem toInt_operate (op : BinOp) (l r : Number) :
    (operate op l r).map toInt = exactly (common l r) op l.toInt r.toInt := by
  cases l with
  | int l =>
    cases r with
    | int r => exact (map_map _ _ _).trans (toInt_int32Op op l r)
    | long r =>
      refine (map_map _ _ _).trans ((toInt_int64Op op l.toInt64 r).trans ?_)
      rw [Int32.toInt_toInt64]
      rfl
  | long l =>
    cases r with
    | int r =>
      refine (map_map _ _ _).trans ((toInt_int64Op op l r.toInt64).trans ?_)
      rw [Int32.toInt_toInt64]
      rfl
    | long r => exact (map_map _ _ _).trans (toInt_int64Op op l r)

theorem width_operate {op : BinOp} {l r x : Number} (h : operate op l r = .ok x) :
    x.width = common l r := by
  cases l <;> cases r <;> obtain ⟨n, -, rfl⟩ := map_eq_ok_iff.mp h <;> rfl

/-- What `n` leaves in `w` bits with a sign. -/
structure Reduced (w : Nat) (n m : Int) : Prop where
  lower : -2 ^ (w - 1) ≤ m
  upper : m < 2 ^ (w - 1)
  modulo : m % 2 ^ w = n % 2 ^ w

theorem reduced_bmod (l r : Number) (n : Int) :
    Reduced (common l r) n (n.bmod (2 ^ common l r)) := by
  have hmodulo : ∀ w : Nat, n.bmod (2 ^ w) % 2 ^ w = n % 2 ^ w := fun w => by
    simpa using Int.bmod_emod (x := n) (m := 2 ^ w)
  have hlower := Int.le_bmod (x := n) (m := 2 ^ common l r) (Nat.two_pow_pos _)
  have hupper := Int.bmod_lt (x := n) (m := 2 ^ common l r) (Nat.two_pow_pos _)
  rcases common_cases l r with h | h <;> rw [h] at hlower hupper ⊢
  · exact ⟨by omega, by omega, hmodulo 32⟩
  · exact ⟨by omega, by omega, hmodulo 64⟩

/-- What is left over by a quotient that is cut off towards zero. -/
structure Remains (l r q m : Int) : Prop where
  eq : l = q * r + m
  small : m.natAbs < r.natAbs
  sign : m = 0 ∨ m.sign = l.sign

theorem remains_tmod (l : Int) {r : Int} (hr : r ≠ 0) :
    Remains l r (l.tdiv r) (l.tmod r) where
  eq := by rw [Int.mul_comm, Int.mul_tdiv_add_tmod]
  small := by
    rw [Int.natAbs_tmod]
    exact Nat.mod_lt _ (Int.natAbs_pos.mpr hr)
  sign := by
    rcases Int.lt_trichotomy l 0 with hl | rfl | hl
    · have hm : 0 ≤ (-l).tmod r := Int.tmod_nonneg r (by omega)
      rw [Int.neg_tmod] at hm
      rcases Int.lt_or_eq_of_le hm with hm | hm
      · exact .inr (by rw [Int.sign_eq_neg_one_of_neg (by omega), Int.sign_eq_neg_one_of_neg hl])
      · exact .inl (by omega)
    · exact .inl (Int.zero_tmod r)
    · have hm : 0 ≤ l.tmod r := Int.tmod_nonneg r (by omega)
      rcases Int.lt_or_eq_of_le hm with hm | hm
      · exact .inr (by rw [Int.sign_eq_one_of_pos hm, Int.sign_eq_one_of_pos hl])
      · exact .inl hm.symm

/-! ## Operators on values -/

/-- An operator makes of two numbers a number of their common width, of which `P` holds. -/
def Yields (op : BinOp) (l r : Number) (P : Int → Prop) : Prop :=
  ∃ x : Number, Value.binary op l.value r.value = .ok x.value ∧ x.width = common l r ∧ P x.toInt

section

variable {op : BinOp} {l r : Number}

/-- The operators that make numbers of numbers. -/
def arithmeticOps : List BinOp := [.add, .sub, .mul, .div, .rem]

/-- The operators that put numbers into order. -/
def orderingOps : List BinOp := [.lt, .le, .gt, .ge]

theorem binary_value (hop : op ∈ arithmeticOps) (l r : Number) :
    Value.binary op l.value r.value = (operate op l r).map value := by
  rw [← arithmetic_value]
  simp only [arithmeticOps, List.mem_cons, List.not_mem_nil, or_false] at hop
  rcases hop with rfl | rfl | rfl | rfl | rfl
  · cases l <;> rfl
  all_goals rfl

theorem yields_of_exactly (hop : op ∈ arithmeticOps) {n : Int}
    (h : exactly (common l r) op l.toInt r.toInt = .ok n) : Yields op l r (· = n) := by
  rw [← toInt_operate] at h
  obtain ⟨x, hx, rfl⟩ := map_eq_ok_iff.mp h
  exact ⟨x, by rw [binary_value hop, hx]; rfl, width_operate hx, rfl⟩

theorem binary_eq_error_iff (hop : op ∈ arithmeticOps) {e : Error} :
    Value.binary op l.value r.value = .error e ↔
      exactly (common l r) op l.toInt r.toInt = .error e := by
  rw [binary_value hop, ← toInt_operate, map_eq_error_iff, map_eq_error_iff]

/-- Sums, differences and products keep the lowest bits of the exact result. -/
theorem yields_reduced (hop : op ∈ arithmeticOps) {n : Int}
    (h : exactly (common l r) op l.toInt r.toInt = .ok (n.bmod (2 ^ common l r))) :
    Yields op l r (Reduced (common l r) n) := by
  obtain ⟨x, hx, hwidth, hn⟩ := yields_of_exactly hop h
  exact ⟨x, hx, hwidth, hn ▸ reduced_bmod l r n⟩

/-- Division is refused exactly where there is no quotient, and so is the remainder. -/
theorem refuses_iff (hop : op = .div ∨ op = .rem) :
    Value.binary op l.value r.value = .error (.generic "division by zero") ↔
      NoQuotient (common l r) l.toInt r.toInt := by
  rcases hop with rfl | rfl <;> rw [binary_eq_error_iff (by decide)] <;>
    by_cases h : NoQuotient (common l r) l.toInt r.toInt <;> simp [exactly, h, Value.refuse]

theorem order_value (l r : Number) :
    Value.order l.value r.value = .ok (compare l.toInt r.toInt) := by
  cases l <;> cases r <;> rfl

/-- Numbers compare as the integers that they stand for. -/
theorem binary_ordering (l r : Number) :
    Value.binary .lt l.value r.value = .ok (.bool (l.toInt < r.toInt)) ∧
    Value.binary .le l.value r.value = .ok (.bool (l.toInt ≤ r.toInt)) ∧
    Value.binary .gt l.value r.value = .ok (.bool (l.toInt > r.toInt)) ∧
    Value.binary .ge l.value r.value = .ok (.bool (l.toInt ≥ r.toInt)) := by
  have hcompare : compare l.toInt r.toInt =
      if l.toInt < r.toInt then .lt else if l.toInt = r.toInt then .eq else .gt := rfl
  simp only [Value.binary, order_value, hcompare, Except.map]
  split_ifs with hlt heq
  · have hle : l.toInt ≤ r.toInt := by omega
    have hnot : ¬r.toInt < l.toInt ∧ ¬r.toInt ≤ l.toInt := by omega
    simp only [gt_iff_lt, ge_iff_le, hlt, hle, hnot, decide_true, decide_false]
    exact ⟨rfl, rfl, rfl, rfl⟩
  · simp only [gt_iff_lt, ge_iff_le, heq, Int.lt_irrefl, Int.le_refl, decide_true, decide_false]
    exact ⟨rfl, rfl, rfl, rfl⟩
  · have hgt : r.toInt < l.toInt ∧ r.toInt ≤ l.toInt := by omega
    have hnot : ¬l.toInt ≤ r.toInt := by omega
    simp only [gt_iff_lt, ge_iff_le, hlt, hgt, hnot, decide_true, decide_false]
    exact ⟨rfl, rfl, rfl, rfl⟩

/-- Two numbers of different widths may as well both be given 64 bits. -/
theorem binary_widen (hwidth : l.width ≠ r.width) (hop : op ∈ arithmeticOps ++ orderingOps) :
    Value.binary op l.value r.value = Value.binary op l.widen.value r.widen.value := by
  rcases List.mem_append.mp hop with hop | hop
  · rw [binary_value hop, binary_value hop]
    cases l <;> cases r <;> first | rfl | exact absurd rfl hwidth
  · obtain ⟨hlt, hle, hgt, hge⟩ := binary_ordering l r
    obtain ⟨hlt', hle', hgt', hge'⟩ := binary_ordering l.widen r.widen
    simp only [toInt_widen] at hlt' hle' hgt' hge'
    simp only [orderingOps, List.mem_cons, List.not_mem_nil, or_false] at hop
    rcases hop with rfl | rfl | rfl | rfl
    · rw [hlt, hlt']
    · rw [hle, hle']
    · rw [hgt, hgt']
    · rw [hge, hge']

end

/-- **Operators work on exact integers.** Sums, differences and products are the exact ones, brought
back to the wider width. Division fails by zero and where the quotient does not fit, and nowhere
else; it cuts off towards zero, and the remainder goes with it. Numbers compare as the integers that
they stand for. With different widths everything is as if both numbers had 64 bits. -/
theorem operators_exact (l r : Number) :
    (Yields .add l r (Reduced (common l r) (l.toInt + r.toInt)) ∧
      Yields .sub l r (Reduced (common l r) (l.toInt - r.toInt)) ∧
      Yields .mul l r (Reduced (common l r) (l.toInt * r.toInt))) ∧
    ((∀ op, op = .div ∨ op = .rem →
        (Value.binary op l.value r.value = .error (.generic "division by zero") ↔
          NoQuotient (common l r) l.toInt r.toInt)) ∧
      (¬NoQuotient (common l r) l.toInt r.toInt → ∃ q, Yields .div l r (· = q) ∧
        ∃ m, Yields .rem l r (· = m) ∧ Remains l.toInt r.toInt q m)) ∧
    (Value.binary .lt l.value r.value = .ok (.bool (l.toInt < r.toInt)) ∧
      Value.binary .le l.value r.value = .ok (.bool (l.toInt ≤ r.toInt)) ∧
      Value.binary .gt l.value r.value = .ok (.bool (l.toInt > r.toInt)) ∧
      Value.binary .ge l.value r.value = .ok (.bool (l.toInt ≥ r.toInt))) ∧
    (l.width ≠ r.width → ∀ op ∈ arithmeticOps ++ orderingOps,
      Value.binary op l.value r.value = Value.binary op l.widen.value r.widen.value) := by
  refine ⟨⟨yields_reduced (by decide) rfl, yields_reduced (by decide) rfl,
    yields_reduced (by decide) rfl⟩, ⟨fun op hop => refuses_iff hop, fun h => ?_⟩,
    binary_ordering l r, fun hwidth op hop => binary_widen hwidth hop⟩
  refine ⟨_, yields_of_exactly (by decide) (if_neg h), _, yields_of_exactly (by decide) (if_neg h),
    remains_tmod l.toInt fun hr => h (.inl hr)⟩

/-- The least number of 32 bits has no quotient by -1, unless one of the two has 64 bits. -/
theorem least_by_minus_one :
    Value.binary .div (.int Int32.minValue) (.int (-1)) = .error (.generic "division by zero") ∧
      Yields .div (.int Int32.minValue) (.long (-1)) (· = 2 ^ 31) ∧
      Value.binary .div (.int Int32.minValue) (.long (-1)) =
        Value.binary .div (.long (-2 ^ 31)) (.long (-1)) := by
  obtain ⟨-, ⟨hfails, -⟩, -, -⟩ := operators_exact (.int Int32.minValue) (.int (-1))
  obtain ⟨-, ⟨-, hdivides⟩, -, hwiden⟩ := operators_exact (.int Int32.minValue) (.long (-1))
  refine ⟨(hfails .div (.inl rfl)).mpr (.inr (by decide)), ?_, hwiden (by decide) .div (by decide)⟩
  obtain ⟨q, hq, m, -, heq, hsmall, -⟩ := hdivides (by decide)
  have hl : (Number.int Int32.minValue).toInt = -2 ^ 31 := by decide
  have hr : (Number.long (-1)).toInt = -1 := by decide
  rw [hl, hr] at heq
  rw [hr] at hsmall
  have hquotient : q = 2 ^ 31 := by omega
  rwa [hquotient] at hq

end Number

end TraceWeave

import TraceWeave.Descriptor.Snapshot
import TraceWeave.Error
import TraceWeave.Program.Tree

/-! # Values

What running code computes with.

`Value` lists them. Equality of values is decided by `Value.beq`, which is equality
(`Value.beq_iff`); `Value.text` is how a value appears in texts.
-/

namespace TraceWeave

/-- A value of running code. -/
inductive Value where
  | unit
  | null
  | bool (value : Bool)
  | int (value : Int32)
  | long (value : Int64)
  | string (value : String)
  | descriptor (ref : DescriptorRef)
  | snapshot (frame : FrameSnapshot Value)
  deriving Inhabited

namespace Value

mutual

/-- Whether two values are the same. -/
def beq : Value → Value → Bool
  | .unit, .unit => true
  | .null, .null => true
  | .bool a, .bool b => a == b
  | .int a, .int b => a == b
  | .long a, .long b => a == b
  | .string a, .string b => a == b
  | .descriptor a, .descriptor b => a == b
  | .snapshot ⟨l, as⟩, .snapshot ⟨k, bs⟩ => l == k && beqEntries as bs
  | _, _ => false

def beqEntries : List (Handle .localInfo × Value) → List (Handle .localInfo × Value) → Bool
  | [], [] => true
  | (h, a) :: as, (k, b) :: bs => h == k && beq a b && beqEntries as bs
  | _, _ => false

end

mutual

theorem beq_refl : ∀ a : Value, beq a a = true
  | .unit | .null => rfl
  | .bool _ | .int _ | .long _ | .string _ | .descriptor _ => by simp [beq]
  | .snapshot ⟨_, as⟩ => by simp [beq, beqEntries_refl as]

theorem beqEntries_refl : ∀ as : List (Handle .localInfo × Value), beqEntries as as = true
  | [] => rfl
  | (_, a) :: as => by simp [beqEntries, beq_refl a, beqEntries_refl as]

end

mutual

theorem eq_of_beq : ∀ a b : Value, beq a b = true → a = b
  | .unit, b | .null, b => by cases b <;> simp [beq]
  | .bool _, b | .int _, b | .long _, b | .string _, b | .descriptor _, b => by
    cases b <;> simp [beq]
  | .snapshot ⟨_, as⟩, .snapshot ⟨_, bs⟩ => by
    have h := eq_of_beqEntries as bs
    simp only [beq, Bool.and_eq_true, beq_iff_eq, snapshot.injEq, FrameSnapshot.mk.injEq]
    exact fun ⟨hl, hv⟩ => ⟨hl, h hv⟩
  | .snapshot _, .unit | .snapshot _, .null | .snapshot _, .bool _ | .snapshot _, .int _
  | .snapshot _, .long _ | .snapshot _, .string _ | .snapshot _, .descriptor _ => by simp [beq]

theorem eq_of_beqEntries :
    ∀ as bs : List (Handle .localInfo × Value), beqEntries as bs = true → as = bs
  | [], bs => by cases bs <;> simp [beqEntries]
  | (_, a) :: as, bs => by
    cases bs with
    | nil => simp [beqEntries]
    | cons b bs =>
      have h := eq_of_beq a b.2
      have h' := eq_of_beqEntries as bs
      grind [beqEntries]

end

theorem beq_iff {a b : Value} : beq a b = true ↔ a = b :=
  ⟨eq_of_beq a b, fun h => h ▸ beq_refl a⟩

instance : DecidableEq Value := fun _ _ => decidable_of_iff _ beq_iff

def typeName : Value → String
  | .unit => "Unit"
  | .null => "Null"
  | .bool _ => "Boolean"
  | .int _ => "Int"
  | .long _ => "Long"
  | .string _ => "String"
  | .descriptor _ => "Descriptor"
  | .snapshot _ => "FrameSnapshot"

/-- A value as text. -/
def text : Value → String
  | .unit => "kotlin.Unit"
  | .null => "null"
  | .bool b => if b then "true" else "false"
  | .int n => s!"{n}"
  | .long n => s!"{n}"
  | .string s => s
  | .descriptor ref => s!"<{ref.kind.name}>"
  | .snapshot frame => s!"<frame of {frame.len} locals>"

def asBool : Value → Except Error Bool
  | .bool b => .ok b
  | v => .error (.generic s!"expected a Boolean, found {v.typeName}")

def ofConst : Const → Value
  | .null => .null
  | .unit => .unit
  | .boolean b => .bool b
  | .int n => .int n
  | .long n => .long n
  | .string s => .string s

end Value

end TraceWeave

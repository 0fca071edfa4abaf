/-! # Types

The static types that the host compiler computed. A class type is known by its qualified name.

`Ty.beq` decides equality of types (`Ty.beq_iff`); `Ty.qualifiedName` and `Ty.simpleName` name a
type, and `Ty.isTrivial` says whether there is nothing to know about it.
-/

namespace TraceWeave

/-- The static type of an expression, variable or parameter. -/
inductive Ty where
  | unit | nothing | boolean | int | long | string | any
  | classTy (fqName : String) (args : List Ty) (nullable : Bool)
  | typeParameter (name : String)
  | function (params : List Ty) (ret : Ty) (isSuspend : Bool)
  deriving Inhabited

namespace Ty

mutual

/-- Whether two types are the same. -/
def beq : Ty → Ty → Bool
  | .unit, .unit => true
  | .nothing, .nothing => true
  | .boolean, .boolean => true
  | .int, .int => true
  | .long, .long => true
  | .string, .string => true
  | .any, .any => true
  | .classTy m as a, .classTy n bs b => m == n && beqList as bs && a == b
  | .typeParameter m, .typeParameter n => m == n
  | .function ps r a, .function qs s b => beqList ps qs && beq r s && a == b
  | _, _ => false

def beqList : List Ty → List Ty → Bool
  | [], [] => true
  | a :: as, b :: bs => beq a b && beqList as bs
  | _, _ => false

end

mutual

theorem beq_refl : ∀ a : Ty, beq a a = true
  | .unit | .nothing | .boolean | .int | .long | .string | .any => rfl
  | .classTy _ as _ => by simp [beq, beqList_refl as]
  | .typeParameter _ => by simp [beq]
  | .function ps r _ => by simp [beq, beqList_refl ps, beq_refl r]

theorem beqList_refl : ∀ as : List Ty, beqList as as = true
  | [] => rfl
  | a :: as => by simp [beqList, beq_refl a, beqList_refl as]

end

mutual

theorem eq_of_beq : ∀ a b : Ty, beq a b = true → a = b
  | .unit, b | .nothing, b | .boolean, b | .int, b | .long, b | .string, b | .any, b => by
    cases b <;> simp [beq]
  | .classTy _ as _, b => by
    cases b <;> simp only [beq, Bool.false_eq_true, false_implies]
    rename_i bs _
    have h := eq_of_beqList as bs
    simp only [Bool.and_eq_true, beq_iff_eq, classTy.injEq]
    exact fun ⟨⟨hname, hargs⟩, hnullable⟩ => ⟨hname, h hargs, hnullable⟩
  | .typeParameter _, b => by cases b <;> simp [beq]
  | .function ps r _, b => by
    cases b <;> simp only [beq, Bool.false_eq_true, false_implies]
    rename_i qs s _
    have h := eq_of_beqList ps qs
    have h' := eq_of_beq r s
    simp only [Bool.and_eq_true, beq_iff_eq, function.injEq]
    exact fun ⟨⟨hparams, hret⟩, hsuspend⟩ => ⟨h hparams, h' hret, hsuspend⟩

theorem eq_of_beqList : ∀ as bs : List Ty, beqList as bs = true → as = bs
  | [], bs => by cases bs <;> simp [beqList]
  | a :: as, bs => by
    cases bs with
    | nil => simp [beqList]
    | cons b bs =>
      have h := eq_of_beq a b
      have h' := eq_of_beqList as bs
      simp only [beqList, Bool.and_eq_true, List.cons.injEq]
      exact fun ⟨hhead, htail⟩ => ⟨h hhead, h' htail⟩

end

theorem beq_iff {a b : Ty} : beq a b = true ↔ a = b :=
  ⟨eq_of_beq a b, fun h => h ▸ beq_refl a⟩

instance : DecidableEq Ty := fun _ _ => decidable_of_iff _ beq_iff

/-- A class type without arguments. -/
def ofClass (fqName : String) : Ty := .classTy fqName [] false

/-- `Unit` and `Nothing` carry no value worth keeping in a temporary. -/
def isTrivial : Ty → Bool
  | .unit | .nothing => true
  | _ => false

def isNothing : Ty → Bool
  | .nothing => true
  | _ => false

/-- The qualified name of a class type. -/
def className? : Ty → Option String
  | .classTy fqName _ _ => some fqName
  | _ => none

def qualifiedName : Ty → String
  | .unit => "Unit"
  | .nothing => "Nothing"
  | .boolean => "Boolean"
  | .int => "Int"
  | .long => "Long"
  | .string => "String"
  | .any => "Any"
  | .classTy fqName _ _ => fqName
  | .typeParameter name => name
  | .function params _ isSuspend =>
    let mark := if isSuspend then "Suspend" else ""
    s!"{mark}Function{params.length}"

/-- The part of a dotted name behind its last dot. -/
def lastSegment (name : String) : String :=
  String.ofList (name.toList.reverse.takeWhile (· ≠ '.')).reverse

def simpleName (ty : Ty) : String := lastSegment ty.qualifiedName

mutual

/-- How a type is written in source form. -/
def text : Ty → String
  | .classTy fqName args nullable =>
    let args := match texts args with
      | [] => ""
      | args => "<" ++ ", ".intercalate args ++ ">"
    let mark := if nullable then "?" else ""
    s!"{fqName}{args}{mark}"
  | .function params ret isSuspend =>
    let mark := if isSuspend then "suspend " else ""
    let params := ", ".intercalate (texts params)
    s!"{mark}({params}) -> {text ret}"
  | .unit => "Unit"
  | .nothing => "Nothing"
  | .boolean => "Boolean"
  | .int => "Int"
  | .long => "Long"
  | .string => "String"
  | .any => "Any"
  | .typeParameter name => name

def texts : List Ty → List String
  | [] => []
  | ty :: tys => text ty :: texts tys

end

end Ty

end TraceWeave

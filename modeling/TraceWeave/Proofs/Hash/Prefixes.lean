import Mathlib.Algebra.GroupWithZero.Nat
import Mathlib.Data.List.Infix
import TraceWeave.Descriptor.Keys

/-! # Streams that end on their own

A hash is fed the parts of a value one behind the other, with nothing in between. Still a stream says
where it ends: a number has its width, a text ends with a byte that no text contains, a list starts
with its length, and a choice with its place among the alternatives. So no stream starts with the
stream of another value, and two keys have one hash only if the hash takes two streams to it.

`Stream.Delimits` is the property, proved of numbers, texts, lists and types in turn
(`Stream.delimits_ofTy` by recursion on the type) and then of the keys. `Stream.streams_identify`
draws the conclusion for hashes.
-/

namespace TraceWeave

/-! ## Bytes of texts -/

theorem toList_loop_eq (bytes : ByteArray) (i : Nat) (read : List UInt8) :
    ByteArray.toList.loop bytes i read = read.reverse ++ bytes.data.toList.drop i := by
  fun_induction ByteArray.toList.loop bytes i read with
  | case1 i read h ih =>
    have hi : i < bytes.data.toList.length := h
    rw [ih, List.drop_eq_getElem_cons hi]
    simp [ByteArray.get!, h]
  | case2 i read h =>
    rw [List.drop_eq_nil_of_le (by simpa using Nat.le_of_not_lt h), List.append_nil]

theorem toList_eq_data (bytes : ByteArray) : bytes.toList = bytes.data.toList :=
  toList_loop_eq bytes 0 []

/-- The bytes of a text are those of its characters. -/
theorem toList_toUTF8 (s : String) : s.toUTF8.toList = s.toList.flatMap String.utf8EncodeChar := by
  rw [toList_eq_data, String.toUTF8_eq_toByteArray, ← String.utf8Encode_toList,
    List.utf8Encode, List.toList_data_toByteArray]

theorem toList_toUTF8_injective {s t : String} (h : s.toUTF8.toList = t.toUTF8.toList) : s = t := by
  rw [toList_eq_data, toList_eq_data, Array.toList_inj] at h
  exact String.toByteArray_inj.mp (ByteArray.ext h)

/-- The bytes of a character leave out the highest byte. -/
theorem lt_of_mem_utf8EncodeChar {c : Char} {b : UInt8} (h : b ∈ String.utf8EncodeChar c) :
    b.toNat < 0xff := by
  have hbyte : ∀ n < 0xff, (UInt8.ofNat n).toNat < 0xff := fun n hn => by
    rw [UInt8.toNat_ofNat_of_lt' (hn.trans (by decide))]
    exact hn
  unfold String.utf8EncodeChar at h
  dsimp only at h
  split_ifs at h <;> simp only [List.mem_cons, List.not_mem_nil, or_false] at h
  · subst h
    exact hbyte _ (by omega)
  · rcases h with rfl | rfl <;> exact hbyte _ (by omega)
  · rcases h with rfl | rfl | rfl <;> exact hbyte _ (by omega)
  · rcases h with rfl | rfl | rfl | rfl <;> exact hbyte _ (by omega)

theorem highest_notMem_toUTF8 (s : String) : 0xff ∉ s.toUTF8.toList := by
  rw [toList_toUTF8, List.mem_flatMap]
  rintro ⟨c, -, hc⟩
  exact absurd (lt_of_mem_utf8EncodeChar hc) (by decide)

namespace Stream

/-! ## Where a stream ends -/

/-- Behind the streams of two values the rest starts at one place, and only if they are one. -/
def Delimits {α : Type} (f : α → Stream) (a b : α) : Prop :=
  ∀ s t : Stream, f a ++ s = f b ++ t → a = b ∧ s = t

theorem Delimits.of_width {α : Type} {f : α → Stream} {a b : α}
    (hwidth : (f a).length = (f b).length) (hinj : f a = f b → a = b) : Delimits f a b := by
  intro s t h
  obtain ⟨hstream, hrest⟩ := List.append_inj h hwidth
  exact ⟨hinj hstream, hrest⟩

theorem length_ofNat (width n : Nat) : (ofNat width n).length = width := by
  induction width generalizing n with
  | zero => rfl
  | succ width ih => rw [ofNat, List.length_cons, ih]

theorem ofNat_inj {width : Nat} : ∀ {n m : Nat}, n < 256 ^ width → m < 256 ^ width →
    ofNat width n = ofNat width m → n = m := by
  induction width with
  | zero => intro n m hn hm _; omega
  | succ width ih =>
    intro n m hn hm h
    rw [Nat.pow_succ] at hn hm
    obtain ⟨hlowest, hrest⟩ := List.cons.inj h
    have hmod : n % 256 = m % 256 := by
      have := congrArg UInt8.toNat hlowest
      rwa [UInt8.toNat_ofNat_of_lt' (Nat.mod_lt n (by decide)),
        UInt8.toNat_ofNat_of_lt' (Nat.mod_lt m (by decide))] at this
    have hdiv : n / 256 = m / 256 := ih (by omega) (by omega) hrest
    omega

theorem delimits_ofNat {width n m : Nat} (hn : n < 256 ^ width) (hm : m < 256 ^ width) :
    Delimits (ofNat width) n m :=
  .of_width (by rw [length_ofNat, length_ofNat]) (ofNat_inj hn hm)

theorem delimits_ofTag {n m : Nat} (hn : n < 2 ^ 64) (hm : m < 2 ^ 64) : Delimits ofTag n m :=
  delimits_ofNat hn hm

theorem delimits_ofUInt64 (n m : UInt64) : Delimits ofUInt64 n m := fun s t h => by
  obtain ⟨hn, hrest⟩ := delimits_ofNat n.toNat_lt m.toNat_lt s t h
  exact ⟨UInt64.toNat_inj.mp hn, hrest⟩

theorem delimits_ofInt32 (n m : Int32) : Delimits ofInt32 n m := fun s t h => by
  obtain ⟨hn, hrest⟩ := delimits_ofNat n.toUInt32.toNat_lt m.toUInt32.toNat_lt s t h
  exact ⟨congrArg Int32.ofUInt32 (UInt32.toNat_inj.mp hn), hrest⟩

theorem delimits_ofBool (a b : Bool) : Delimits ofBool a b :=
  .of_width rfl (by cases a <;> cases b <;> decide)

/-- What ends with a byte that it does not contain ends at one place. -/
theorem append_closing_inj {closing : UInt8} {s t : Stream} : ∀ {xs ys : Stream}, closing ∉ xs →
    closing ∉ ys → xs ++ closing :: s = ys ++ closing :: t → xs = ys ∧ s = t
  | [], [], _, _, h => ⟨rfl, (List.cons.inj h).2⟩
  | [], y :: ys, _, hys, h => absurd ((List.cons.inj h).1 ▸ .head ys) hys
  | x :: xs, [], hxs, _, h => absurd ((List.cons.inj h).1 ▸ .head xs) hxs
  | x :: xs, y :: ys, hxs, hys, h => by
    obtain ⟨rfl, htail⟩ := List.cons.inj h
    obtain ⟨rfl, hrest⟩ := append_closing_inj (List.not_mem_of_not_mem_cons hxs)
      (List.not_mem_of_not_mem_cons hys) htail
    exact ⟨rfl, hrest⟩

theorem delimits_ofString (a b : String) : Delimits ofString a b := fun s t h => by
  simp only [ofString, List.append_assoc, List.singleton_append] at h
  obtain ⟨hbytes, hrest⟩ := append_closing_inj (highest_notMem_toUTF8 a) (highest_notMem_toUTF8 b) h
  exact ⟨toList_toUTF8_injective hbytes, hrest⟩

end Stream

/-! ## Types -/

namespace Ty

mutual

/-- Whether the length of every list in a type is a 64-bit number, as that of a list in memory is. -/
def Sized : Ty → Prop
  | .classTy _ args _ => args.length < 2 ^ 64 ∧ AllSized args
  | .function params ret _ => params.length < 2 ^ 64 ∧ AllSized params ∧ ret.Sized
  | .unit | .nothing | .boolean | .int | .long | .string | .any | .typeParameter _ => True

def AllSized : List Ty → Prop
  | [] => True
  | ty :: tys => ty.Sized ∧ AllSized tys

end

/-- The place of a type among the alternatives. -/
def place : Ty → Nat
  | .unit => 0
  | .nothing => 1
  | .boolean => 2
  | .int => 3
  | .long => 4
  | .string => 5
  | .any => 6
  | .classTy _ _ _ => 7
  | .typeParameter _ => 8
  | .function _ _ _ => 9

/-- What the stream of a type holds behind its place. -/
def parts : Ty → Stream
  | .classTy fqName args nullable =>
    Stream.ofString fqName ++
      (Stream.ofTag args.length ++ (Stream.ofTys args ++ Stream.ofBool nullable))
  | .typeParameter name => Stream.ofString name
  | .function params ret isSuspend =>
    Stream.ofTag params.length ++
      (Stream.ofTys params ++ (Stream.ofTy ret ++ Stream.ofBool isSuspend))
  | .unit | .nothing | .boolean | .int | .long | .string | .any => []

theorem place_lt (ty : Ty) : ty.place < 2 ^ 64 := by cases ty <;> simp [place]

end Ty

namespace Stream

theorem ofTy_eq (ty : Ty) : ofTy ty = ofTag ty.place ++ ty.parts := by
  cases ty <;> simp only [ofTy, Ty.place, Ty.parts, List.append_assoc, List.append_nil]

/-- Types with equal streams are the same alternative, with equal streams of the parts. -/
theorem place_eq_of_ofTy {a b : Ty} {s t : Stream} (h : ofTy a ++ s = ofTy b ++ t) :
    a.place = b.place ∧ a.parts ++ s = b.parts ++ t := by
  rw [ofTy_eq, ofTy_eq, List.append_assoc, List.append_assoc] at h
  exact delimits_ofTag a.place_lt b.place_lt _ _ h

-- The induction is on the first type. The places of the two types rule out all but one alternative
-- for the second one; lists of types are compared once their lengths are known to be equal.
mutual

theorem delimits_ofTy : ∀ a b : Ty, a.Sized → b.Sized → Delimits ofTy a b
  | .classTy m as x, b, ha, hb => fun s t h => by
    obtain ⟨hplace, h⟩ := place_eq_of_ofTy h
    cases b with
    | classTy n bs y =>
      simp only [Ty.parts, List.append_assoc] at h
      obtain ⟨rfl, hargs⟩ := delimits_ofString m n _ _ h
      obtain ⟨hlength, hitems⟩ := delimits_ofTag ha.1 hb.1 _ _ hargs
      obtain ⟨rfl, hflag⟩ := delimits_ofTys as bs hlength ha.2 hb.2 _ _ hitems
      obtain ⟨rfl, hrest⟩ := delimits_ofBool x y _ _ hflag
      exact ⟨rfl, hrest⟩
    | _ => cases hplace
  | .function ps r x, b, ha, hb => fun s t h => by
    obtain ⟨hplace, h⟩ := place_eq_of_ofTy h
    cases b with
    | function qs q y =>
      simp only [Ty.parts, List.append_assoc] at h
      obtain ⟨hlength, hitems⟩ := delimits_ofTag ha.1 hb.1 _ _ h
      obtain ⟨rfl, hret⟩ := delimits_ofTys ps qs hlength ha.2.1 hb.2.1 _ _ hitems
      obtain ⟨rfl, hflag⟩ := delimits_ofTy r q ha.2.2 hb.2.2 _ _ hret
      obtain ⟨rfl, hrest⟩ := delimits_ofBool x y _ _ hflag
      exact ⟨rfl, hrest⟩
    | _ => cases hplace
  | .typeParameter m, b, _, _ => fun s t h => by
    obtain ⟨hplace, h⟩ := place_eq_of_ofTy h
    cases b with
    | typeParameter n =>
      obtain ⟨rfl, hrest⟩ := delimits_ofString m n _ _ h
      exact ⟨rfl, hrest⟩
    | _ => cases hplace
  | .unit, b, _, _ | .nothing, b, _, _ | .boolean, b, _, _ | .int, b, _, _ | .long, b, _, _
  | .string, b, _, _ | .any, b, _, _ => fun s t h => by
    obtain ⟨hplace, hrest⟩ := place_eq_of_ofTy h
    cases b <;> first | exact ⟨rfl, hrest⟩ | cases hplace

theorem delimits_ofTys : ∀ as bs : List Ty, as.length = bs.length → Ty.AllSized as →
    Ty.AllSized bs → Delimits ofTys as bs
  | [], [], _, _, _ => fun _ _ h => ⟨rfl, h⟩
  | [], _ :: _, hlength, _, _ | _ :: _, [], hlength, _, _ => nomatch hlength
  | a :: as, b :: bs, hlength, ha, hb => fun s t h => by
    simp only [ofTys, List.append_assoc] at h
    obtain ⟨rfl, htail⟩ := delimits_ofTy a b ha.1 hb.1 _ _ h
    obtain ⟨rfl, hrest⟩ := delimits_ofTys as bs (Nat.succ.inj hlength) ha.2 hb.2 _ _ htail
    exact ⟨rfl, hrest⟩

end

/-- A list with more items than its length can tell looks like a shorter one. -/
theorem prefix_of_overlong (name : String) :
    ofTy (.classTy name [] false) <+: ofTy (.classTy name (.replicate (2 ^ 64) .unit) false) := by
  have hlength : ofTag (2 ^ 64) = ofTag 0 := by decide
  obtain ⟨n, hn⟩ : ∃ n, 2 ^ 64 = n + 1 := ⟨2 ^ 64 - 1, by decide⟩
  have hunits : ofTys (.replicate (2 ^ 64) .unit) = ofBool false ++
      (List.replicate 7 0 ++ ofTys (.replicate n .unit)) := by
    rw [hn, List.replicate_succ]
    rfl
  simp only [ofTy, List.length_replicate, hlength, hunits, List.length_nil, ofTys, List.append_nil,
    List.append_assoc]
  exact ⟨List.replicate 7 0 ++ (ofTys (.replicate n .unit) ++ ofBool false), by simp⟩

end Stream

/-! ## Keys -/

/-- Whether the length of every list in a key is a 64-bit number. -/
def FunctionKey.Sized (k : FunctionKey) : Prop :=
  k.returnType.Sized ∧ k.parameterTypes.length < 2 ^ 64 ∧ Ty.AllSized k.parameterTypes

def FieldKey.Sized (k : FieldKey) : Prop := k.ty.Sized

def VariableKey.Sized (k : VariableKey) : Prop := k.ty.Sized

namespace Stream

theorem delimits_functionKey : ∀ {a b : FunctionKey}, a.Sized → b.Sized →
    Delimits FunctionKey.stream a b
  | ⟨m, r, ps, x⟩, ⟨n, q, qs, y⟩, ha, hb => fun s t h => by
    simp only [FunctionKey.stream, List.append_assoc] at h
    obtain ⟨rfl, hreturn⟩ := delimits_ofString m n _ _ h
    obtain ⟨rfl, hparams⟩ := delimits_ofTy r q ha.1 hb.1 _ _ hreturn
    obtain ⟨hlength, hitems⟩ := delimits_ofTag ha.2.1 hb.2.1 _ _ hparams
    obtain ⟨rfl, henclosing⟩ := delimits_ofTys ps qs hlength ha.2.2 hb.2.2 _ _ hitems
    obtain ⟨rfl, hrest⟩ := delimits_ofUInt64 x y _ _ henclosing
    exact ⟨rfl, hrest⟩

theorem delimits_propertyKey : ∀ a b : PropertyKey, Delimits PropertyKey.stream a b
  | ⟨m, x⟩, ⟨n, y⟩ => fun s t h => by
    simp only [PropertyKey.stream, List.append_assoc] at h
    obtain ⟨rfl, henclosing⟩ := delimits_ofString m n _ _ h
    obtain ⟨rfl, hrest⟩ := delimits_ofUInt64 x y _ _ henclosing
    exact ⟨rfl, hrest⟩

theorem delimits_fieldKey : ∀ {a b : FieldKey}, a.Sized → b.Sized → Delimits FieldKey.stream a b
  | ⟨m, u, x⟩, ⟨n, v, y⟩, ha, hb => fun s t h => by
    simp only [FieldKey.stream, List.append_assoc] at h
    obtain ⟨rfl, hty⟩ := delimits_ofString m n _ _ h
    obtain ⟨rfl, henclosing⟩ := delimits_ofTy u v ha hb _ _ hty
    obtain ⟨rfl, hrest⟩ := delimits_ofUInt64 x y _ _ henclosing
    exact ⟨rfl, hrest⟩

theorem delimits_variableKey : ∀ {a b : VariableKey}, a.Sized → b.Sized →
    Delimits VariableKey.stream a b
  | ⟨x, m, u, i⟩, ⟨y, n, v, j⟩, ha, hb => fun s t h => by
    simp only [VariableKey.stream, List.append_assoc] at h
    obtain ⟨rfl, hname⟩ := delimits_ofUInt64 x y _ _ h
    obtain ⟨rfl, hty⟩ := delimits_ofString m n _ _ hname
    obtain ⟨rfl, hoffset⟩ := delimits_ofTy u v ha hb _ _ hty
    obtain ⟨rfl, hrest⟩ := delimits_ofInt32 i j _ _ hoffset
    exact ⟨rfl, hrest⟩

/-- Two streams that the hash does not tell apart. -/
def Collide (x y : Stream) : Prop := x ≠ y ∧ Hash.sip x = Hash.sip y

/-- The streams of two different values differ, none starts with the other, and so the values have
one hash only where the hash collides. -/
structure TellsApart {α : Type} (f : α → Stream) (a b : α) : Prop where
  ne : f a ≠ f b
  not_prefix : ¬f a <+: f b
  not_prefix' : ¬f b <+: f a
  collide : Hash.sip (f a) = Hash.sip (f b) → Collide (f a) (f b)

theorem Delimits.tellsApart {α : Type} {f : α → Stream} {a b : α} (h : Delimits f a b)
    (hne : a ≠ b) : TellsApart f a b := by
  have hstream : f a ≠ f b := fun heq => hne (h [] [] (by rw [heq])).1
  refine ⟨hstream, ?_, ?_, fun hhash => ⟨hstream, hhash⟩⟩
  · rintro ⟨rest, hrest⟩
    exact hne (h rest [] (by rw [hrest, List.append_nil])).1
  · rintro ⟨rest, hrest⟩
    exact hne (h [] rest (by rw [hrest, List.append_nil])).1

/-- **Streams identify.** Different types have different streams, and so have different keys of
functions, properties, fields and variables; none of these streams starts with another one. So two
different keys have one hash only if the hash itself takes two byte streams to it. Lists are those
whose lengths can be told: of an overlong one the stream says nothing. -/
theorem streams_identify :
    (∀ a b : Ty, a.Sized → b.Sized → a ≠ b → TellsApart ofTy a b) ∧
    (∀ a b : FunctionKey, a.Sized → b.Sized → a ≠ b → TellsApart FunctionKey.stream a b) ∧
    (∀ a b : PropertyKey, a ≠ b → TellsApart PropertyKey.stream a b) ∧
    (∀ a b : FieldKey, a.Sized → b.Sized → a ≠ b → TellsApart FieldKey.stream a b) ∧
    ∀ a b : VariableKey, a.Sized → b.Sized → a ≠ b → TellsApart VariableKey.stream a b :=
  ⟨fun a b ha hb => (delimits_ofTy a b ha hb).tellsApart,
    fun _ _ ha hb => (delimits_functionKey ha hb).tellsApart,
    fun a b => (delimits_propertyKey a b).tellsApart,
    fun _ _ ha hb => (delimits_fieldKey ha hb).tellsApart,
    fun _ _ ha hb => (delimits_variableKey ha hb).tellsApart⟩

/-! ### Functions of one name -/

namespace Overloads

def listOf (args : List Ty) : Ty := .classTy "demo.List" args false

/-- A function of a list and a text. -/
def two : FunctionKey := ⟨"demo.put", .unit, [listOf [.int], .string], 7⟩

/-- A function of one thing, with the same types in the same order. -/
def one : FunctionKey := ⟨"demo.put", .unit, [listOf [.int, .string]], 7⟩

end Overloads

open Overloads in
/-- The same types grouped in another way are told apart, as types and as keys. -/
theorem Overloads.told_apart :
    two.Sized ∧ one.Sized ∧ TellsApart FunctionKey.stream two one ∧
      TellsApart ofTy (listOf [.int, .string]) (listOf [listOf [.int], .string]) := by
  have htwo : two.Sized := by
    simp [two, listOf, FunctionKey.Sized, Ty.Sized, Ty.AllSized]
  have hone : one.Sized := by
    simp [one, listOf, FunctionKey.Sized, Ty.Sized, Ty.AllSized]
  refine ⟨htwo, hone, streams_identify.2.1 two one htwo hone (by decide), ?_⟩
  refine streams_identify.1 _ _ ?_ ?_ (by decide) <;> simp [listOf, Ty.Sized, Ty.AllSized]

end Stream

end TraceWeave

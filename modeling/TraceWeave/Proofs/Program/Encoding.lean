import TraceWeave.Program.Codec.Leaf
import TraceWeave.Program.Ids

/-! # Reading back what was written

The laws of records, lists, choices and numbers as JSON, and from them that types, constants,
annotations and the other parts of a program without code are read back as they were written.

The laws of fields are `Json.required_of_lookup` and `Json.withDefault_of_lookup`, those of lists
`Json.list?_map` and `Json.list?_of_depth`. `Ty.ofJson?_toJson` and its siblings are the round
trips of the leaves.
-/

namespace TraceWeave

namespace Json

/-- What stands in an array is nested less deeply than the array. -/
theorem depth_lt_of_item {item : Json} {fuel : Nat} :
    ∀ {items : List Json}, (arr items).depth ≤ fuel → item ∈ items → item.depth < fuel
  | head :: items, h, hmem => by
    simp only [depth, depthItems] at h
    rcases List.mem_cons.mp hmem with rfl | hmem
    · omega
    · exact depth_lt_of_item (by simp only [depth]; omega) hmem

/-- A field of an object is nested less deeply than the object. -/
theorem depth_lt_of_field {value : Json} {fuel : Nat} (name : String) :
    ∀ {fields : List (String × Json)}, (obj fields).depth ≤ fuel → (name, value) ∈ fields →
      value.depth < fuel
  | (_, _) :: fields, h, hmem => by
    simp only [depth, depthFields] at h
    rcases List.mem_cons.mp hmem with heq | hmem
    · cases heq
      omega
    · exact depth_lt_of_field name (by simp only [depth]; omega) hmem

/-- The data of a variant is nested less deeply than the variant. -/
theorem depth_lt_of_variant {name : String} {data : Json} {fuel : Nat}
    (h : (ofVariant name data).depth < fuel + 1) : data.depth < fuel :=
  depth_lt_of_field name (Nat.le_of_lt_succ h) List.mem_cons_self

/-- A field of the data of a variant is nested less deeply than the variant. -/
theorem depth_lt_of_data_field {value : Json} {fuel : Nat} {variant : String}
    {fields : List (String × Json)} (name : String)
    (h : (ofVariant variant (.obj fields)).depth < fuel + 1) (hmem : (name, value) ∈ fields) :
    value.depth < fuel :=
  depth_lt_of_field name (Nat.le_of_lt (depth_lt_of_variant h)) hmem

/-- The number of fields with a name, when no name stands twice. -/
theorem length_filter_le_one (name : String) :
    ∀ {fields : List (String × Json)}, (fields.map Prod.fst).Nodup →
      (fields.filter (·.1 == name)).length ≤ 1
  | [], _ => by simp
  | field :: fields, h => by
    have ⟨hhead, htail⟩ := List.nodup_cons.mp h
    by_cases heq : field.1 = name
    · -- No later field can have this name again.
      have hnone : fields.filter (·.1 == name) = [] := by
        refine List.filter_eq_nil_iff.mpr fun other hother hname => hhead ?_
        rw [heq, ← beq_iff_eq.mp hname]
        exact List.mem_map_of_mem hother
      simp [heq, hnone]
    · simpa [List.filter_cons, heq] using length_filter_le_one name htail

/-- An object in which no name stands twice holds the fields of every record. -/
theorem record?_obj {names : List String} {fields : List (String × Json)}
    (h : (fields.map Prod.fst).Nodup) : record? names (.obj fields) = some fields :=
  if_pos (List.all_eq_true.mpr fun name _ => decide_eq_true (length_filter_le_one name h))

section

variable {α : Type} {read : Json → Option α}

@[simp] theorem required_cons_self (name : String) (j : Json) (fields : List (String × Json)) :
    required ((name, j) :: fields) name read = read j := by
  simp [required]

@[simp] theorem required_cons_of_ne {name other : String} (h : other ≠ name) (j : Json)
    (fields : List (String × Json)) :
    required ((name, j) :: fields) other read = required fields other read := by
  simp [required, List.lookup_cons, beq_eq_false_iff_ne.mpr h]

@[simp] theorem withDefault_cons_self (name : String) (default : α) (j : Json)
    (fields : List (String × Json)) :
    withDefault ((name, j) :: fields) name default read = read j := by
  simp [withDefault]

@[simp] theorem withDefault_cons_of_ne {name other : String} (h : other ≠ name) (default : α)
    (j : Json) (fields : List (String × Json)) :
    withDefault ((name, j) :: fields) other default read =
      withDefault fields other default read := by
  simp [withDefault, List.lookup_cons, beq_eq_false_iff_ne.mpr h]

/-- A reader that goes field by field has its result when each field has one. -/
theorem bind_of_read {β : Type} {x : Option α} {next : α → Option β} {a : α} {b : β}
    (hx : x = some a) (hnext : next a = some b) : (x >>= next) = some b := by
  rw [hx]
  exact hnext

theorem required_of_lookup {fields : List (String × Json)} {name : String} {j : Json} {a : α}
    (hfield : fields.lookup name = some j) (hread : read j = some a) :
    required fields name read = some a := by
  rw [required, hfield]
  exact hread

theorem withDefault_of_lookup {fields : List (String × Json)} {name : String} {j : Json}
    {default a : α} (hfield : fields.lookup name = some j) (hread : read j = some a) :
    withDefault fields name default read = some a := by
  rw [withDefault, hfield]
  exact hread

/-- Data that is an object in which no name stands twice holds the fields of every record. -/
theorem data?_obj {names : List String} {fields : List (String × Json)}
    (h : (fields.map Prod.fst).Nodup) : data? (record? names) (some (.obj fields)) = some fields :=
  record?_obj h

theorem str?_str (s : String) : str? (.str s) = some s := rfl

theorem bool?_bool (b : Bool) : bool? (.bool b) = some b := rfl

@[simp] theorem variant?_ofVariant (name : String) (data : Json) :
    variant? (ofVariant name data) = some (name, some data) := rfl

@[simp] theorem variant?_str (name : String) : variant? (.str name) = some (name, none) := rfl

@[simp] theorem data?_some (j : Json) : data? read (some j) = read j := rfl

/-- A list is read back when each of its items is. -/
theorem list?_map {write : α → Json} :
    ∀ {as : List α}, (∀ a ∈ as, read (write a) = some a) →
      list? read (.arr (as.map write)) = some as
  | [], _ => by simp [list?]
  | a :: as, h => by
    have hrest : (as.map write).mapM read = some as :=
      list?_map fun b hb => h b (List.mem_cons_of_mem a hb)
    simp [list?, h a List.mem_cons_self, hrest]

/-- A list is read back when each item is that has room in `fuel`. -/
theorem list?_of_depth {write : α → Json} {fuel : Nat} {as : List α}
    (h : ∀ a, (write a).depth < fuel → read (write a) = some a)
    (hdepth : (arr (as.map write)).depth < fuel) : list? read (.arr (as.map write)) = some as :=
  list?_map fun a ha => h a (depth_lt_of_item (Nat.le_of_lt hdepth) (List.mem_map_of_mem ha))

theorem list?_ofList {write : α → Json} (h : ∀ a, read (write a) = some a) (as : List α) :
    list? read (ofList write as) = some as :=
  list?_map fun a _ => h a

/-- A value that is not written as `null` is read back where `null` stands for none. -/
theorem nullable?_of_read {write : α → Json} {a : α} (h : read (write a) = some a)
    (hnull : write a ≠ .null) : nullable? read (write a) = some (some a) := by
  cases hj : write a <;> simp_all [nullable?]

/-- What may be absent is read back when it is never written as `null`. -/
theorem nullable?_ofNullable {write : α → Json} {a? : Option α}
    (h : ∀ a, read (write a) = some a) (hnull : ∀ a, write a ≠ .null) :
    nullable? read (ofNullable write a?) = some a? := by
  cases a? with
  | none => rfl
  | some a => exact nullable?_of_read (h a) (hnull a)

/-- One of a list of names is read back when the list gives it. -/
theorem choice?_str {choices : List (String × α)} {name : String} {value : α}
    (h : choices.lookup name = some value) : choice? choices (.str name) = some value := by
  simp [choice?, h, bare?]

end

theorem uint32?_ofUInt32 (n : UInt32) : uint32? (ofUInt32 n) = some n := by
  have hlt : (n.toNat : Int) < UInt32.size := by exact_mod_cast n.toNat_lt
  rw [ofUInt32, uint32?, if_pos ⟨Int.natCast_nonneg _, hlt⟩, Int.toNat_natCast, UInt32.ofNat_toNat]

theorem int32?_ofInt32 (n : Int32) : int32? (ofInt32 n) = some n := by
  rw [ofInt32, int32?, if_pos ⟨n.minValue_le_toInt, n.toInt_le⟩, Int32.ofInt_toInt]

theorem int64?_ofInt64 (n : Int64) : int64? (ofInt64 n) = some n := by
  rw [ofInt64, int64?, if_pos ⟨n.minValue_le_toInt, n.toInt_le⟩, Int64.ofInt_toInt]

theorem str?_names (names : List String) : list? str? (ofList .str names) = some names :=
  list?_ofList str?_str names

end Json

open Json

/-! Each record below is read from any object whose fields are read: its numbers stand for
themselves there, and only the last step puts the written ones in. -/

theorem Span.ofJson?_obj {s : Span} {file start stop : Json}
    (hfile : uint32? file = some s.file.val) (hstart : int32? start = some s.start)
    (hstop : int32? stop = some s.stop) :
    Span.ofJson? (.obj [("file", file), ("start", start), ("end", stop)]) = some s := by
  simp [Span.ofJson?, record?_obj, hfile, hstart, hstop]

theorem Span.ofJson?_toJson (s : Span) : Span.ofJson? s.toJson = some s :=
  ofJson?_obj (uint32?_ofUInt32 _) (int32?_ofInt32 _) (int32?_ofInt32 _)

theorem IdAllocator.ofJson?_obj {ids : IdAllocator} {decl var block : Json}
    (hdecl : uint32? decl = some ids.nextDecl) (hvar : uint32? var = some ids.nextVar)
    (hblock : uint32? block = some ids.nextBlock) :
    IdAllocator.ofJson? (.obj [("next_decl", decl), ("next_var", var), ("next_block", block)]) =
      some ids := by
  simp [IdAllocator.ofJson?, record?_obj, hdecl, hvar, hblock]

theorem IdAllocator.ofJson?_toJson (ids : IdAllocator) :
    IdAllocator.ofJson? ids.toJson = some ids :=
  ofJson?_obj (uint32?_ofUInt32 _) (uint32?_ofUInt32 _) (uint32?_ofUInt32 _)

namespace Ty

theorem toJsons_eq_map (tys : List Ty) : toJsons tys = tys.map toJson := by
  induction tys with
  | nil => rfl
  | cons ty tys ih => rw [toJsons, ih, List.map_cons]

theorem read?_toJson :
    ∀ (fuel : Nat) (ty : Ty), ty.toJson.depth < fuel → read? fuel ty.toJson = some ty
  | 0, _, h => absurd h (Nat.not_lt_zero _)
  | fuel + 1, ty, h => by
    have ih := read?_toJson fuel
    cases ty with
    | unit | nothing | boolean | int | long | string | any => simp [toJson, read?, bare?]
    | typeParameter name => simp [toJson, read?, str?]
    | classTy fqName args nullable =>
      have hargs : list? (read? fuel) (.arr (toJsons args)) = some args := by
        have hdepth : (arr (toJsons args)).depth < fuel :=
          depth_lt_of_data_field "args" h (by simp)
        rw [toJsons_eq_map] at hdepth ⊢
        exact list?_of_depth ih hdepth
      rw [read?]
      exact bind_of_read (variant?_ofVariant _ _) <|
        bind_of_read (data?_obj (by simp)) <|
        bind_of_read (required_of_lookup rfl (str?_str fqName)) <|
        bind_of_read (withDefault_of_lookup rfl hargs) <|
        bind_of_read (withDefault_of_lookup rfl (bool?_bool nullable)) rfl
    | function params ret isSuspend =>
      have hparams : list? (read? fuel) (.arr (toJsons params)) = some params := by
        have hdepth : (arr (toJsons params)).depth < fuel :=
          depth_lt_of_data_field "params" h (by simp)
        rw [toJsons_eq_map] at hdepth ⊢
        exact list?_of_depth ih hdepth
      have hret := ih ret (depth_lt_of_data_field "ret" h (by simp))
      rw [read?]
      exact bind_of_read (variant?_ofVariant _ _) <|
        bind_of_read (data?_obj (by simp)) <|
        bind_of_read (required_of_lookup rfl hparams) <|
        bind_of_read (required_of_lookup rfl hret) <|
        bind_of_read (withDefault_of_lookup rfl (bool?_bool isSuspend)) rfl

theorem ofJson?_toJson (ty : Ty) : ofJson? ty.toJson = some ty :=
  read?_toJson _ ty (Nat.lt_succ_self _)

end Ty

theorem Const.ofJson?_toJson (c : Const) : Const.ofJson? c.toJson = some c := by
  cases c with
  | null | unit => simp [Const.toJson, Const.ofJson?, bare?]
  | boolean b => simp [Const.toJson, Const.ofJson?, bool?]
  | int n => simp [Const.toJson, Const.ofJson?, int32?_ofInt32]
  | long n => simp [Const.toJson, Const.ofJson?, int64?_ofInt64]
  | string s => simp [Const.toJson, Const.ofJson?, str?]

namespace AnnotationArg

theorem toJsons_eq_map (args : List AnnotationArg) : toJsons args = args.map toJson := by
  induction args with
  | nil => rfl
  | cons arg args ih => rw [toJsons, ih, List.map_cons]

theorem read?_toJson :
    ∀ (fuel : Nat) (arg : AnnotationArg), arg.toJson.depth < fuel →
      read? fuel arg.toJson = some arg
  | 0, _, h => absurd h (Nat.not_lt_zero _)
  | fuel + 1, arg, h => by
    cases arg with
    | const value => simp [toJson, read?, Const.ofJson?_toJson]
    | type ty => simp [toJson, read?, Ty.ofJson?_toJson]
    | array items =>
      have hitems : list? (read? fuel) (.arr (toJsons items)) = some items := by
        have hdepth := depth_lt_of_variant h
        rw [toJsons_eq_map] at hdepth ⊢
        exact list?_of_depth (read?_toJson fuel) hdepth
      simp [toJson, read?, hitems]

theorem ofJson?_toJson (arg : AnnotationArg) : ofJson? arg.toJson = some arg :=
  read?_toJson _ arg (Nat.lt_succ_self _)

end AnnotationArg

theorem AnnotationArgument.ofJson?_toJson (a : AnnotationArgument) :
    AnnotationArgument.ofJson? a.toJson = some a := by
  simp [AnnotationArgument.toJson, AnnotationArgument.ofJson?, record?_obj, str?,
    AnnotationArg.ofJson?_toJson]

theorem AnnotationUse.ofJson?_obj {a : AnnotationUse} {span arguments : Json}
    (hspan : Span.ofJson? span = some a.span)
    (harguments : list? AnnotationArgument.ofJson? arguments = some a.arguments) :
    AnnotationUse.ofJson? (.obj [("class", .str a.className), ("span", span),
      ("arguments", arguments)]) = some a := by
  simp [AnnotationUse.ofJson?, record?_obj, str?, hspan, harguments]

theorem AnnotationUse.ofJson?_toJson (a : AnnotationUse) :
    AnnotationUse.ofJson? a.toJson = some a :=
  ofJson?_obj (Span.ofJson?_toJson _) (list?_ofList AnnotationArgument.ofJson?_toJson _)

theorem AnnotationUse.list?_toJson (uses : List AnnotationUse) :
    list? AnnotationUse.ofJson? (ofList AnnotationUse.toJson uses) = some uses :=
  list?_ofList ofJson?_toJson uses

/-! The choices without data are found by their names, which are all different. -/

theorem Origin.ofJson?_name (o : Origin) : Origin.ofJson? (.str o.name) = some o :=
  choice?_str (by cases o <;> rfl)

theorem Visibility.ofJson?_name (v : Visibility) : Visibility.ofJson? (.str v.name) = some v :=
  choice?_str (by cases v <;> rfl)

theorem Modality.ofJson?_name (m : Modality) : Modality.ofJson? (.str m.name) = some m :=
  choice?_str (by cases m <;> rfl)

theorem ClassKind.ofJson?_name (k : ClassKind) : ClassKind.ofJson? (.str k.name) = some k :=
  choice?_str (by cases k <;> rfl)

theorem StructuralKind.ofJson?_name (k : StructuralKind) :
    StructuralKind.ofJson? (.str k.name) = some k :=
  choice?_str (by cases k <;> rfl)

theorem BinOp.ofJson?_name (op : BinOp) : BinOp.ofJson? (.str op.name) = some op :=
  choice?_str (by cases op <;> rfl)

theorem FunctionKind.ofJson?_toJson (format : Json.Format) (k : FunctionKind) :
    FunctionKind.ofJson? format k.toJson = some k := by
  cases k with
  | plain | getter | setter | lambda => simp [FunctionKind.toJson, FunctionKind.ofJson?, bare?]
  | constructor primary =>
    simp [FunctionKind.toJson, FunctionKind.ofJson?, variantFields?, record?_obj, bool?]

theorem ReturnTarget.ofJson?_function {id : DeclId} {data : Json}
    (h : uint32? data = some id.val) :
    ReturnTarget.ofJson? (ofVariant "Function" data) = some (.function id) := by
  simp [ReturnTarget.ofJson?, h]

theorem ReturnTarget.ofJson?_block {id : BlockId} {data : Json}
    (h : uint32? data = some id.val) :
    ReturnTarget.ofJson? (ofVariant "Block" data) = some (.block id) := by
  simp [ReturnTarget.ofJson?, h]

theorem ReturnTarget.ofJson?_toJson : ∀ t : ReturnTarget, ReturnTarget.ofJson? t.toJson = some t
  | .function _ => ofJson?_function (uint32?_ofUInt32 _)
  | .block _ => ofJson?_block (uint32?_ofUInt32 _)

theorem Handle.ofJson?_toJson {k : DescriptorKind} (h : Handle k) :
    Handle.ofJson? h.toJson = some h := by
  simp [Handle.toJson, Handle.ofJson?, uint32?_ofUInt32]

theorem DescriptorRef.ofJson?_variant {r : DescriptorRef} {data : Json}
    (h : uint32? data = some r.index) :
    DescriptorRef.ofJson? (ofVariant r.kind.variantName data) = some r := by
  have hkind : DescriptorKind.all.find? (·.variantName == r.kind.variantName) = some r.kind := by
    cases r.kind <;> rfl
  simp [DescriptorRef.ofJson?, hkind, h]

theorem DescriptorRef.ofJson?_toJson (r : DescriptorRef) :
    DescriptorRef.ofJson? r.toJson = some r :=
  ofJson?_variant (uint32?_ofUInt32 _)

theorem CapturedLocal.ofJson?_obj {c : CapturedLocal} {info var : Json}
    (hinfo : Handle.ofJson? info = some c.info) (hvar : uint32? var = some c.var.val) :
    CapturedLocal.ofJson? (.obj [("local", info), ("var", var)]) = some c := by
  simp [CapturedLocal.ofJson?, record?_obj, hinfo, hvar]

theorem CapturedLocal.ofJson?_toJson (c : CapturedLocal) :
    CapturedLocal.ofJson? c.toJson = some c :=
  ofJson?_obj (Handle.ofJson?_toJson _) (uint32?_ofUInt32 _)

theorem FrameCapture.ofJson?_obj {c : FrameCapture} {location entries : Json}
    (hlocation : Handle.ofJson? location = some c.location)
    (hentries : list? CapturedLocal.ofJson? entries = some c.entries) :
    FrameCapture.ofJson? (.obj [("location", location), ("entries", entries)]) = some c := by
  simp [FrameCapture.ofJson?, record?_obj, hlocation, hentries]

theorem FrameCapture.ofJson?_toJson (c : FrameCapture) :
    FrameCapture.ofJson? c.toJson = some c :=
  ofJson?_obj (Handle.ofJson?_toJson _) (list?_ofList CapturedLocal.ofJson?_toJson _)

end TraceWeave

import Mathlib.Algebra.GroupWithZero.Nat
import TraceWeave.Proofs.Source.Offsets

/-! # Places in lines

A place in lines is a line and a column, and it has an offset: every line before takes up its
characters and one line end. The position that is looked up for an offset is the place that has it.
The cache of source texts looks offsets up in the same lines, but it decides by the sign of both
offsets whether it needs them.

* `Source.Addresses`: a line and a column are those of an offset.
* `Source.Position.resolve_inverts_places`: every offset in the lines has one place, and it is the
  one that is found.
* `Source.Cache.resolve_transparent_iff`: when the cache answers as the lines do.
-/

namespace TraceWeave.Source

/-! ## Lines and columns as offsets -/

/-- The offset at which a line starts. -/
def lineStart (lines : List String) (l : Nat) : Nat :=
  ((lines.take (l - 1)).map fun line => line.length + 1).sum

/-- What all lines take up. -/
def extent (lines : List String) : Nat := (lines.map fun line => line.length + 1).sum

/-- A line and a column, counted from one, are those of an offset. Behind the last character of a
line there is one more column, that of its end. -/
structure Addresses (lines : List String) (l c offset : Nat) : Prop where
  line : 1 ≤ l
  column : 1 ≤ c
  within : ∃ text, lines[l - 1]? = some text ∧ c ≤ text.length + 1
  offset : lineStart lines l + (c - 1) = offset

theorem lineStart_succ {lines : List String} {l : Nat} {text : String} (hl : 1 ≤ l)
    (h : lines[l - 1]? = some text) :
    lineStart lines (l + 1) = lineStart lines l + (text.length + 1) := by
  unfold lineStart
  rw [show l + 1 - 1 = l - 1 + 1 by omega, List.take_add_one, h]
  simp

theorem lineStart_mono {lines : List String} {l l' : Nat} (h : l ≤ l') :
    lineStart lines l ≤ lineStart lines l' := by
  obtain ⟨more, hmore⟩ : lines.take (l - 1) <+: lines.take (l' - 1) :=
    List.take_prefix_take_left (Nat.sub_le_sub_right h 1)
  unfold lineStart
  rw [← hmore, List.map_append, List.sum_append]
  exact Nat.le_add_right _ _

theorem lineStart_le_extent (lines : List String) (l : Nat) : lineStart lines l ≤ extent lines := by
  conv_rhs => rw [extent, ← List.take_append_drop (l - 1) lines, List.map_append, List.sum_append]
  exact Nat.le_add_right _ _

namespace Addresses

variable {lines : List String} {text : String} {l l' c c' n n' : Nat}

/-- A place stands before the start of the next line. -/
theorem lt_next (h : Addresses lines l c n) : n < lineStart lines (l + 1) := by
  obtain ⟨text, htext, hc⟩ := h.within
  have hnext := lineStart_succ h.line htext
  have hcolumn := h.column
  have hoffset := h.offset
  omega

theorem lt_extent (h : Addresses lines l c n) : n < extent lines :=
  Nat.lt_of_lt_of_le h.lt_next (lineStart_le_extent lines (l + 1))

theorem lt_of_line_lt (h : Addresses lines l c n) (h' : Addresses lines l' c' n') (hl : l < l') :
    n < n' := by
  have hnext := h.lt_next
  have hmono : lineStart lines (l + 1) ≤ lineStart lines l' := lineStart_mono hl
  have hoffset := h'.offset
  omega

/-- Places are in the order of their offsets. -/
theorem lt_iff (h : Addresses lines l c n) (h' : Addresses lines l' c' n') :
    n < n' ↔ l < l' ∨ l = l' ∧ c < c' := by
  have hoffset := h.offset
  have hoffset' := h'.offset
  have hcolumn := h.column
  have hcolumn' := h'.column
  rcases Nat.lt_trichotomy l l' with hl | rfl | hl
  · have hlt := h.lt_of_line_lt h' hl
    omega
  · omega
  · have hlt := h'.lt_of_line_lt h hl
    omega

/-- An offset has one place only. -/
theorem unique (h : Addresses lines l c n) (h' : Addresses lines l' c' n) : l = l' ∧ c = c' := by
  have hnot := mt (h.lt_iff h').mpr (Nat.lt_irrefl n)
  have hnot' := mt (h'.lt_iff h).mpr (Nat.lt_irrefl n)
  omega

/-- In the first line. -/
theorem first (hn : n ≤ text.length) : Addresses (text :: lines) 1 (n + 1) n where
  line := Nat.le_refl 1
  column := Nat.succ_pos n
  within := ⟨text, rfl, Nat.succ_le_succ hn⟩
  offset := Nat.zero_add n

/-- Behind the first line. -/
theorem behind (h : Addresses lines l c n) :
    Addresses (text :: lines) (l + 1) c (text.length + 1 + n) where
  line := Nat.succ_pos l
  column := h.column
  within := by
    obtain ⟨line, hline, hc⟩ := h.within
    refine ⟨line, ?_, hc⟩
    rw [Nat.add_sub_cancel, ← hline, List.getElem?_cons, if_neg (Nat.ne_of_gt h.line)]
  offset := by
    have htake : (text :: lines).take (l + 1 - 1) = text :: lines.take (l - 1) := by
      rw [Nat.add_sub_cancel, ← List.take_succ_cons, Nat.sub_add_cancel h.line]
    have hoffset := h.offset
    unfold lineStart at *
    rw [htake, List.map_cons, List.sum_cons]
    omega

end Addresses

/-! ## The position of an offset -/

namespace Position

/-- What looking up an offset comes to: its place, or nothing behind the last line. -/
theorem find_spec : ∀ (lines : List String) (first n : Nat),
    (∃ l c, Addresses lines l c n ∧ find first lines n = ofLineColumn (first + l - 1) c) ∨
      extent lines ≤ n ∧ find first lines n = .unknown
  | [], first, n => .inr ⟨Nat.zero_le n, rfl⟩
  | text :: lines, first, n => by
    unfold find
    by_cases hn : n ≤ text.length
    · rw [if_pos hn]
      exact .inl ⟨1, n + 1, .first hn, rfl⟩
    · rw [if_neg hn]
      obtain ⟨k, rfl⟩ : ∃ k, n = text.length + 1 + k := Nat.exists_eq_add_of_le (by omega)
      rw [Nat.add_sub_cancel_left]
      rcases find_spec lines (first + 1) k with ⟨l, c, haddr, hfind⟩ | ⟨hextent, hfind⟩
      · refine .inl ⟨l + 1, c, haddr.behind, ?_⟩
        rw [hfind]
        congr 1
        omega
      · refine .inr ⟨?_, hfind⟩
        unfold extent at *
        rw [List.map_cons, List.sum_cons]
        omega

theorem ofLineColumn_of_le {l c : Nat} (hl : 1 ≤ l) (hc : 1 ≤ c) (hlimit : l ≤ limit ∧ c ≤ limit) :
    ofLineColumn l c = .real l c := by
  rw [ofLineColumn, if_pos ⟨hl, hlimit.1, hc, hlimit.2⟩]

theorem ofLineColumn_of_not_le {l c : Nat} (hlimit : ¬(l ≤ limit ∧ c ≤ limit)) :
    ofLineColumn l c = .unknown := by
  rw [ofLineColumn, if_neg]
  rintro ⟨-, hl, -, hc⟩
  exact hlimit ⟨hl, hc⟩

section

variable {lines : List String} {n : Nat}

theorem find_of_addresses {l c : Nat} (h : Addresses lines l c n) :
    find 1 lines n = ofLineColumn l c := by
  rcases find_spec lines 1 n with ⟨l', c', haddr, hfind⟩ | ⟨hextent, -⟩
  · obtain ⟨rfl, rfl⟩ := h.unique haddr
    rw [hfind, Nat.add_sub_cancel_left]
  · exact absurd h.lt_extent (Nat.not_lt.mpr hextent)

theorem find_eq_real_iff {l c : Nat} :
    find 1 lines n = .real l c ↔ Addresses lines l c n ∧ l ≤ limit ∧ c ≤ limit := by
  constructor
  · intro hreal
    rcases find_spec lines 1 n with ⟨l', c', haddr, -⟩ | ⟨-, hfind⟩
    · have hfind := find_of_addresses haddr
      rw [hreal] at hfind
      obtain ⟨rfl, rfl⟩ := ofLineColumn_eq_real hfind.symm
      by_contra hlimit
      rw [ofLineColumn_of_not_le fun h => hlimit ⟨haddr, h⟩] at hfind
      cases hfind
    · rw [hreal] at hfind
      cases hfind
  · rintro ⟨haddr, hlimit⟩
    rw [find_of_addresses haddr, ofLineColumn_of_le haddr.line haddr.column hlimit]

theorem find_eq_unknown_iff : find 1 lines n = .unknown ↔
    extent lines ≤ n ∨ ∃ l c, Addresses lines l c n ∧ ¬(l ≤ limit ∧ c ≤ limit) := by
  constructor
  · intro hunknown
    rcases find_spec lines 1 n with ⟨l, c, haddr, -⟩ | ⟨hextent, -⟩
    · refine .inr ⟨l, c, haddr, fun hlimit => ?_⟩
      rw [find_eq_real_iff.mpr ⟨haddr, hlimit⟩] at hunknown
      cases hunknown
    · exact .inl hextent
  · rintro (hextent | ⟨l, c, haddr, hlimit⟩)
    · rcases find_spec lines 1 n with ⟨l, c, haddr, -⟩ | ⟨-, hfind⟩
      · exact absurd haddr.lt_extent (Nat.not_lt.mpr hextent)
      · exact hfind
    · rw [find_of_addresses haddr, ofLineColumn_of_not_le hlimit]

/-- Looking an offset up never comes to a reserved position other than `unknown`. -/
theorem find_cases (lines : List String) (n : Nat) :
    (∃ l c, find 1 lines n = .real l c) ∨ find 1 lines n = .unknown := by
  by_cases hreal : ∃ l c, Addresses lines l c n ∧ l ≤ limit ∧ c ≤ limit
  · obtain ⟨l, c, h⟩ := hreal
    exact .inl ⟨l, c, find_eq_real_iff.mpr h⟩
  · right
    rcases find_spec lines 1 n with ⟨l, c, haddr, -⟩ | ⟨-, hfind⟩
    · exact find_eq_unknown_iff.mpr (.inr ⟨l, c, haddr, fun hlimit => hreal ⟨l, c, haddr, hlimit⟩⟩)
    · exact hfind

end

theorem existsUnique_addresses_iff {lines : List String} {n : Nat} :
    n < extent lines ↔ ∃! place : Nat × Nat, Addresses lines place.1 place.2 n := by
  constructor
  · intro hn
    rcases find_spec lines 1 n with ⟨l, c, haddr, -⟩ | ⟨hextent, -⟩
    · refine ⟨(l, c), haddr, fun place hplace => ?_⟩
      obtain ⟨hl, hc⟩ := hplace.unique haddr
      exact Prod.ext hl hc
    · exact absurd hn (Nat.not_lt.mpr hextent)
  · rintro ⟨place, haddr, -⟩
    exact haddr.lt_extent

/-! ### Reserved offsets -/

section

variable {lines lines' : List String} {start stop : Int32}

theorem resolve_of_start_neg (hstart : start < 0) :
    resolve lines start stop = resolve lines' start stop := by
  unfold resolve
  rw [if_pos hstart, if_pos hstart]

theorem resolve_of_reserved (hstop : stop = undefinedOffset ∨ stop = syntheticOffset) :
    resolve lines start stop = resolve lines' start stop := by
  unfold resolve
  rcases hstop with hstop | hstop
  · rw [if_pos (.inr hstop), if_pos (.inr hstop)]
  · by_cases hundefined : start = undefinedOffset ∨ stop = undefinedOffset
    · rw [if_pos hundefined, if_pos hundefined]
    · rw [if_neg hundefined, if_neg hundefined, if_pos (.inr hstop), if_pos (.inr hstop)]

/-- A place is only found by looking its offset up. -/
theorem looked_up_of_real {l c : Nat} (h : resolve lines start stop = .real l c) :
    0 ≤ start ∧ stop ≠ undefinedOffset ∧ stop ≠ syntheticOffset := by
  unfold resolve at h
  split_ifs at h with hundefined hsynthetic hneg
  exact ⟨Int32.not_lt.mp hneg, fun heq => hundefined (.inr heq), fun heq => hsynthetic (.inr heq)⟩

/-- Line and column of a position, a reserved one or not. -/
theorem resolve_cases (lines : List String) (start stop : Int32) :
    (∃ l c, resolve lines start stop = .real l c) ∨
    resolve lines start stop = .undefined ∨ resolve lines start stop = .synthetic ∨
      resolve lines start stop = .unknown := by
  unfold resolve
  split_ifs
  · exact .inr (.inl rfl)
  · exact .inr (.inr (.inl rfl))
  · exact .inr (.inr (.inr rfl))
  · exact (find_cases lines _).imp_right fun h => .inr (.inr h)

end

theorem toNat_lt_toNat {a b : Int32} (ha : 0 ≤ a) (hab : a < b) :
    a.toInt.toNat < b.toInt.toNat := by
  rw [Int32.le_iff_toInt_le] at ha
  rw [Int32.lt_iff_toInt_lt] at hab
  have hzero : (0 : Int32).toInt = 0 := rfl
  omega

/-- **Offsets are resolved to their places.** An offset within the lines has exactly one place, and
the position of a pair of offsets is this place, unless its line or its column is above the limit;
nothing else is a position in the lines, so positions are in the order of the offsets. Whatever the
offsets are, line and column are both at least one, or both the same reserved number. -/
theorem resolve_inverts_places (lines : List String) :
    (∀ start stop : Int32, 0 ≤ start → stop ≠ undefinedOffset → stop ≠ syntheticOffset →
      (start.toInt.toNat < extent lines ↔
        ∃! place : Nat × Nat, Addresses lines place.1 place.2 start.toInt.toNat) ∧
      (∀ l c, resolve lines start stop = .real l c ↔
        Addresses lines l c start.toInt.toNat ∧ l ≤ limit ∧ c ≤ limit) ∧
      (resolve lines start stop = .unknown ↔ extent lines ≤ start.toInt.toNat ∨
        ∃ l c, Addresses lines l c start.toInt.toNat ∧ ¬(l ≤ limit ∧ c ≤ limit))) ∧
    (∀ start start' stop stop' l c l' c', resolve lines start stop = .real l c →
      resolve lines start' stop' = .real l' c' → start < start' → l < l' ∨ l = l' ∧ c < c') ∧
    ∀ start stop, let p := resolve lines start stop
      1 ≤ p.line ∧ 1 ≤ p.column ∨ p.line = p.column ∧ (p.line = 0 ∨ p.line = -1 ∨ p.line = -2) := by
  refine ⟨fun start stop hstart hundefined hsynthetic => ?_, ?_, fun start stop => ?_⟩
  · rw [resolve_eq_find hstart hundefined hsynthetic]
    exact ⟨existsUnique_addresses_iff, fun l c => find_eq_real_iff, find_eq_unknown_iff⟩
  · intro start start' stop stop' l c l' c' h h' hlt
    obtain ⟨hstart, hundefined, hsynthetic⟩ := looked_up_of_real h
    obtain ⟨hstart', hundefined', hsynthetic'⟩ := looked_up_of_real h'
    rw [resolve_eq_find hstart hundefined hsynthetic, find_eq_real_iff] at h
    rw [resolve_eq_find hstart' hundefined' hsynthetic', find_eq_real_iff] at h'
    exact (h.1.lt_iff h'.1).mp (toNat_lt_toNat hstart hlt)
  · intro p
    rcases resolve_cases lines start stop with ⟨l, c, h⟩ | h | h | h
    · obtain ⟨hstart, hundefined, hsynthetic⟩ := looked_up_of_real h
      have haddr := h
      rw [resolve_eq_find hstart hundefined hsynthetic, find_eq_real_iff] at haddr
      have hl := haddr.1.line
      have hc := haddr.1.column
      left
      simp only [p, h, line, column]
      omega
    all_goals
      right
      simp [p, h, line, column]

/-- The end of the first of three lines, and a character of the last one. -/
theorem resolve_three_lines :
    resolve ["fun a() {}", "", "  class B"] 10 10 = .real 1 11 ∧
      resolve ["fun a() {}", "", "  class B"] 14 (-7) = .real 3 3 := by
  have hends : Addresses ["fun a() {}", "", "  class B"] 1 11 10 :=
    ⟨by decide, by decide, ⟨"fun a() {}", rfl, by decide⟩, by decide⟩
  have hclass : Addresses ["fun a() {}", "", "  class B"] 3 3 14 :=
    ⟨by decide, by decide, ⟨"  class B", rfl, by decide⟩, by decide⟩
  obtain ⟨hplaces, -, -⟩ := resolve_inverts_places ["fun a() {}", "", "  class B"]
  constructor
  · exact ((hplaces 10 10 (by decide) (by decide) (by decide)).2.1 1 11).mpr ⟨hends, by decide⟩
  · exact ((hplaces 14 (-7) (by decide) (by decide) (by decide)).2.1 3 3).mpr ⟨hclass, by decide⟩

end Position

/-! ## Places behind a cache -/

namespace Cache

variable {provider : Provider} {cache : Cache} {path : String} {start stop : Int32}

/-- Offsets for which the cache answers without the lines, although they have a say: the first one
is to be looked up, and the second one is negative and not reserved. -/
def Dismisses (start stop : Int32) : Prop := 0 ≤ start ∧ stop < syntheticOffset

instance (start stop : Int32) : Decidable (Dismisses start stop) :=
  inferInstanceAs (Decidable (_ ∧ _))

theorem Dismisses.resolve (h : Dismisses start stop) :
    (cache.resolve provider path start stop).1 = .unknown := by
  have hneg : stop < 0 := Int32.lt_trans h.2 (by decide)
  have hreserved : stop ≠ undefinedOffset ∧ stop ≠ syntheticOffset := by
    constructor
    · exact fun heq => absurd (heq ▸ h.2) (by decide)
    · exact Int32.ne_of_lt h.2
  unfold Cache.resolve
  rw [if_pos (.inr hneg)]
  exact Position.resolve_eq_find h.1 hreserved.1 hreserved.2

/-- A negative offset that is not dismissed decides on its own. -/
theorem resolve_of_not_dismisses (h : ¬Dismisses start stop) (hneg : start < 0 ∨ stop < 0)
    (lines lines' : List String) :
    Position.resolve lines start stop = Position.resolve lines' start stop := by
  by_cases hstart : start < 0
  · exact Position.resolve_of_start_neg hstart
  · apply Position.resolve_of_reserved
    have hstop : stop < 0 := hneg.resolve_left hstart
    have hge : ¬stop < syntheticOffset := fun hlt => h ⟨Int32.not_lt.mp hstart, hlt⟩
    rw [Int32.lt_iff_toInt_lt] at hstop hge
    rw [← Int32.toInt_inj, ← Int32.toInt_inj]
    have hzero : (0 : Int32).toInt = 0 := rfl
    have hundefined : undefinedOffset.toInt = -1 := rfl
    have hsynthetic : syntheticOffset.toInt = -2 := rfl
    omega

/-- **What the cache answers.** Whatever was asked before, the cache gives the position that is
resolved in the lines of the provider, except where the offset to be looked up comes with a negative
one that is not reserved: there it never gives a position, while the offset may have a place. -/
theorem resolve_transparent_iff (hcache : cache.Reached provider)
    (hsteady : provider.SteadyAt path) (start stop : Int32) :
    (¬Dismisses start stop →
      (cache.resolve provider path start stop).1 = Position.resolve (provider path) start stop) ∧
    (Dismisses start stop → (cache.resolve provider path start stop).1 = .unknown) ∧
    ((cache.resolve provider path start stop).1 = Position.resolve (provider path) start stop ↔
      ¬(Dismisses start stop ∧ ∃ l c, Addresses (provider path) l c start.toInt.toNat ∧
        l ≤ Position.limit ∧ c ≤ Position.limit)) := by
  have hagrees : ¬Dismisses start stop →
      (cache.resolve provider path start stop).1 = Position.resolve (provider path) start stop := by
    intro h
    unfold Cache.resolve
    by_cases hneg : start < 0 ∨ stop < 0
    · rw [if_pos hneg]
      exact resolve_of_not_dismisses h hneg [] (provider path)
    · rw [if_neg hneg]
      show Position.resolve (cache.lines provider path).1 start stop = _
      rw [hcache.given.lines_eq hsteady]
  refine ⟨hagrees, Dismisses.resolve, ?_⟩
  by_cases h : Dismisses start stop
  · have hfind : Position.resolve (provider path) start stop =
        Position.find 1 (provider path) start.toInt.toNat :=
      Position.resolve_eq_find h.1 (fun heq => absurd (heq ▸ h.2) (by decide)) (Int32.ne_of_lt h.2)
    rw [h.resolve, hfind, eq_comm, and_iff_right h]
    constructor
    · rintro hunknown ⟨l, c, hplace⟩
      rw [Position.find_eq_real_iff.mpr hplace] at hunknown
      cases hunknown
    · intro hnone
      rcases Position.find_cases (provider path) start.toInt.toNat with ⟨l, c, hreal⟩ | hunknown
      · exact absurd ⟨l, c, Position.find_eq_real_iff.mp hreal⟩ hnone
      · exact hunknown
  · exact iff_of_true (hagrees h) fun hdismissed => h hdismissed.1

end Cache

namespace Respelled

/-- One file, under a spelling of its path. -/
def provider : Provider := .ofTexts [("a//Main.kt", "x\n yz")]

/-- The cache that read it under another one. -/
def cache : Cache := (({} : Cache).lines provider "a/./Main.kt").2

/-- Under a third spelling, the offset of `z` has its place and a reserved offset next to it counts;
only a negative one that is not reserved hides the place. -/
theorem respelled_resolved :
    (cache.resolve provider "a/Main.kt" 4 5).1 = .real 2 3 ∧
      (cache.resolve provider "a/Main.kt" 4 (-2)).1 = .synthetic ∧
      (cache.resolve provider "a/Main.kt" 4 (-5)).1 ≠
        Position.resolve (provider "a/Main.kt") 4 (-5) := by
  have hreached : cache.Reached provider := .lines .empty "a/./Main.kt"
  have hsteady : provider.SteadyAt "a/Main.kt" := (componentwise_ofTexts _).steadyAt "a/Main.kt"
  have hanswer := Cache.resolve_transparent_iff hreached hsteady
  have hplace : Addresses (provider "a/Main.kt") 2 3 (4 : Int32).toInt.toNat :=
    ⟨by decide, by decide, ⟨" yz", by decide, by decide⟩, by decide⟩
  refine ⟨?_, ?_, fun heq => ?_⟩
  · rw [(hanswer 4 5).1 (by decide)]
    decide
  · rw [(hanswer 4 (-2)).1 (by decide)]
    decide
  · exact (hanswer 4 (-5)).2.2.mp heq ⟨by decide, 2, 3, hplace, by decide⟩

end Respelled

/-- The cache knows nothing of an offset whose place the resolver finds in the lines. -/
theorem resolve_dismisses_place :
    (({} : Cache).resolve (.ofTexts [("a.kt", "fun a() {}")]) "a.kt" 4 (-3)).1 = .unknown ∧
      Position.resolve (Provider.ofTexts [("a.kt", "fun a() {}")] "a.kt") 4 (-3) = .real 1 5 := by
  decide

end TraceWeave.Source

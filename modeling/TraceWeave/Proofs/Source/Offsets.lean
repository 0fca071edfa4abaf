import Mathlib.Data.List.Infix
import Mathlib.Data.List.TakeWhile
import TraceWeave.Source.Cache

/-! # Offsets and positions

The line and column of an offset, counted in the text itself, and the position that is looked up
in the lines of the text. Lines are cut without their line ends, and looking up counts one
character for each of them. So the two agree up to the first line end of two characters, and
behind it they never do.

* `Source.lineAt`, `Source.columnAt`: counted in the text; `Source.BreaksInTwo`: a line end of two
  characters.
* `Source.looksUp_lines`: what looking up in the lines leads to, by induction on the characters.
* `Source.resolve_eq_true_position_iff`: when the two agree, through the cache.
-/

namespace TraceWeave.Source

/-! ## Counting in a text -/

/-- The line of an offset: one more than the line feeds before it. -/
def lineAt (cs : List Char) (offset : Nat) : Nat := (cs.take offset).count '\n' + 1

/-- The column of an offset: one more than the characters behind the last line feed before it. -/
def columnAt (cs : List Char) (offset : Nat) : Nat :=
  ((cs.take offset).reverse.takeWhile (· ≠ '\n')).length + 1

/-- Whether a line of a text ends with a carriage return and a line feed. -/
def BreaksInTwo (cs : List Char) : Prop := ['\r', '\n'] <:+: cs

instance (cs : List Char) : Decidable (BreaksInTwo cs) :=
  inferInstanceAs (Decidable (['\r', '\n'] <:+: cs))

section

variable {line cs : List Char} {n n' : Nat}

theorem takeWhile_of_no_feed {xs ys : List Char} (h : '\n' ∉ xs) :
    (xs ++ ys).takeWhile (· ≠ '\n') = xs ++ ys.takeWhile (· ≠ '\n') := by
  refine List.takeWhile_append_of_pos fun c hc => ?_
  have hne : c ≠ '\n' := fun heq => h (heq ▸ hc)
  simpa using hne

/-- In the first line of a text. -/
theorem lineAt_of_le (h : '\n' ∉ line) (hn : n ≤ line.length) : lineAt (line ++ cs) n = 1 := by
  rw [lineAt, List.take_append_of_le_length hn, Nat.add_eq_right, List.count_eq_zero]
  exact fun hmem => h (List.mem_of_mem_take hmem)

theorem columnAt_of_le (h : '\n' ∉ line) (hn : n ≤ line.length) :
    columnAt (line ++ cs) n = n + 1 := by
  have hno : '\n' ∉ (line.take n).reverse := fun hmem =>
    h (List.mem_of_mem_take (List.mem_reverse.mp hmem))
  have hwhile : (line.take n).reverse.takeWhile (· ≠ '\n') = (line.take n).reverse := by
    simpa using @takeWhile_of_no_feed _ [] hno
  rw [columnAt, List.take_append_of_le_length hn, hwhile]
  simp [hn]

theorem take_behind_feed : (line ++ '\n' :: cs).take (line.length + 1 + n) =
    line ++ '\n' :: cs.take n := by
  rw [List.take_append, List.take_of_length_le (by omega),
    show line.length + 1 + n - line.length = n + 1 by omega, List.take_succ_cons]

/-- Behind the first line of a text. -/
theorem lineAt_behind_feed (h : '\n' ∉ line) :
    lineAt (line ++ '\n' :: cs) (line.length + 1 + n) = lineAt cs n + 1 := by
  rw [lineAt, lineAt, take_behind_feed, List.count_append, List.count_cons_self,
    List.count_eq_zero.mpr h, Nat.zero_add]

theorem columnAt_behind_feed :
    columnAt (line ++ '\n' :: cs) (line.length + 1 + n) = columnAt cs n := by
  have hreverse : (line ++ '\n' :: cs.take n).reverse =
      (cs.take n).reverse ++ '\n' :: line.reverse := by simp
  rw [columnAt, columnAt, take_behind_feed, hreverse, List.takeWhile_append]
  split <;> simp_all

/-- Different offsets of one line have different columns. -/
theorem columnAt_lt (hlt : n < n') (hle : n' ≤ cs.length) (hline : lineAt cs n' = lineAt cs n) :
    columnAt cs n < columnAt cs n' := by
  have hsplit : cs.take n' = cs.take n ++ (cs.drop n).take (n' - n) := by
    rw [← List.take_add, Nat.add_sub_cancel' (Nat.le_of_lt hlt)]
  have hno : '\n' ∉ ((cs.drop n).take (n' - n)).reverse := by
    rw [lineAt, lineAt, hsplit, List.count_append] at hline
    rw [List.mem_reverse, ← List.count_eq_zero]
    omega
  rw [columnAt, columnAt, hsplit, List.reverse_append, takeWhile_of_no_feed hno, List.length_append,
    List.length_reverse, List.length_take, List.length_drop]
  omega

theorem BreaksInTwo.mono {xs ys : List Char} (h : BreaksInTwo xs) (hxy : xs <:+: ys) :
    BreaksInTwo ys :=
  List.IsInfix.trans h hxy

/-- Nothing in a single line breaks. -/
theorem not_breaksInTwo (h : '\n' ∉ line) : ¬BreaksInTwo line := fun hbreaks =>
  h (hbreaks.subset (by simp))

/-- A text breaks in two at its first line end or behind it. -/
theorem breaksInTwo_append_iff (h : '\n' ∉ line) :
    BreaksInTwo (line ++ '\n' :: cs) ↔ ['\r'] <:+ line ∨ BreaksInTwo cs := by
  constructor
  · rintro ⟨before, after, heq⟩
    rw [List.append_assoc, List.append_eq_append_iff] at heq
    obtain ⟨rest, hline, hrest⟩ | ⟨rest, hbefore, hrest⟩ := heq
    · -- the line feed of the break stands in `line`, or it is the one behind it
      match rest with
      | [] => simp at hrest
      | [c] =>
        simp only [List.cons_append, List.cons.injEq] at hrest
        exact .inl ⟨before, by rw [hline, hrest.1]⟩
      | _ :: c :: rest =>
        simp only [List.cons_append, List.cons.injEq] at hrest
        exact absurd (by simp [hline, ← hrest.2.1]) h
    · match rest with
      | [] => simp at hrest
      | _ :: rest =>
        rw [List.cons_append, List.cons.injEq] at hrest
        exact .inr ⟨rest, after, by rw [hrest.2, List.append_assoc]⟩
  · rintro (⟨before, rfl⟩ | hbreaks)
    · exact ⟨before, cs, by simp⟩
    · exact hbreaks.mono ((List.suffix_cons _ _).trans (List.suffix_append _ _)).isInfix

end

/-! ## Looking a position up in the lines -/

/-- The position of the coordinates of an offset, where the first line has a number. -/
def coordinates (first : Nat) (cs : List Char) (offset : Nat) : Position :=
  .ofLineColumn (first + lineAt cs offset - 1) (columnAt cs offset)

theorem coordinates_behind_feed {line cs : List Char} (h : '\n' ∉ line) (first n : Nat) :
    coordinates first (line ++ '\n' :: cs) (line.length + 1 + n) = coordinates (first + 1) cs n := by
  rw [coordinates, coordinates, lineAt_behind_feed h, columnAt_behind_feed]
  congr 1
  omega

theorem coordinates_of_le {line cs : List Char} {n : Nat} (h : '\n' ∉ line) (hn : n ≤ line.length)
    (first : Nat) : coordinates first (line ++ cs) n = .ofLineColumn first (n + 1) := by
  rw [coordinates, lineAt_of_le h hn, columnAt_of_le h hn, Nat.add_sub_cancel]

theorem ofLineColumn_eq_real {line column l c : Nat}
    (h : Position.ofLineColumn line column = .real l c) : line = l ∧ column = c := by
  unfold Position.ofLineColumn at h
  split at h
  · exact ⟨(Position.real.inj h).1, (Position.real.inj h).2⟩
  · cases h

/-- What looking up an offset of a text leads to: the coordinates of the offset if no line before
it ends in two characters. In any case it leads nowhere or to coordinates of the text, and behind
a line end of two characters those of a later offset. -/
structure LooksUp (cs : List Char) (first n : Nat) (found : Position) : Prop where
  exact : n < cs.length → ¬BreaksInTwo (cs.take (n + 1)) → found = coordinates first cs n
  late : found = .unknown ∨ ∃ k, n + k ≤ cs.length ∧ found = coordinates first cs (n + k) ∧
    (BreaksInTwo (cs.take (n + 1)) → 0 < k)

namespace LooksUp

variable {line cs : List Char} {first n : Nat} {found : Position}

/-- Offsets of the first line, up to a carriage return that ends it. -/
theorem first_line (h : '\n' ∉ line) (hn : n ≤ line.length)
    (hbreaks : ¬BreaksInTwo ((line ++ cs).take (n + 1))) :
    LooksUp (line ++ cs) first n (.ofLineColumn first (n + 1)) where
  exact _ _ := (coordinates_of_le h hn first).symm
  late := .inr ⟨0, by simp; omega, (coordinates_of_le h hn first).symm, fun hb => absurd hb hbreaks⟩

/-- Offsets behind a first line that ends in one character. -/
theorem behind_feed (h : '\n' ∉ line) (hreturn : ¬['\r'] <:+ line)
    (hcs : LooksUp cs (first + 1) n found) :
    LooksUp (line ++ '\n' :: cs) first (line.length + 1 + n) found := by
  have hbreaks : BreaksInTwo ((line ++ '\n' :: cs).take (line.length + 1 + n + 1)) ↔
      BreaksInTwo (cs.take (n + 1)) := by
    rw [Nat.add_assoc, take_behind_feed, breaksInTwo_append_iff h]
    exact or_iff_right hreturn
  refine ⟨fun hn hno => ?_, hcs.late.imp_right ?_⟩
  · rw [coordinates_behind_feed h]
    refine hcs.exact ?_ (fun hb => hno (hbreaks.mpr hb))
    simp only [List.length_append, List.length_cons] at hn
    omega
  · rintro ⟨k, hk, rfl, hlate⟩
    refine ⟨k, ?_, ?_, fun hb => hlate (hbreaks.mp hb)⟩
    · simp only [List.length_append, List.length_cons]
      omega
    · rw [Nat.add_assoc, coordinates_behind_feed h]

/-- Offsets behind a first line that ends in two characters, where one of them is not counted. -/
theorem behind_return (h : '\n' ∉ line) (hreturn : ['\r'] <:+ line)
    (hcs : LooksUp cs (first + 1) n found) :
    LooksUp (line ++ '\n' :: cs) first (line.length + n) found := by
  refine ⟨fun _ hno => absurd ?_ hno, hcs.late.imp_right ?_⟩
  · rw [Nat.add_right_comm, take_behind_feed, breaksInTwo_append_iff h]
    exact .inl hreturn
  · rintro ⟨k, hk, rfl, -⟩
    refine ⟨k + 1, ?_, ?_, fun _ => Nat.succ_pos k⟩
    · simp only [List.length_append, List.length_cons]
      omega
    · rw [← coordinates_behind_feed h]
      congr 1
      omega

end LooksUp

theorem dropReturn_cases (seen : List Char) :
    (Text.dropReturn seen = seen ∧ ¬['\r'] <:+ seen.reverse) ∨
      (seen = '\r' :: Text.dropReturn seen ∧ ['\r'] <:+ seen.reverse) := by
  unfold Text.dropReturn
  split
  · exact .inr ⟨rfl, by simp⟩
  · rename_i hne
    refine .inl ⟨rfl, fun hsuffix => ?_⟩
    obtain ⟨rest, hrest⟩ := hsuffix
    refine hne rest.reverse ?_
    rw [← List.reverse_reverse seen, ← hrest]
    simp

/-- The end of a text that has no other line feed is its last line, unless nothing is left. -/
theorem looksUp_last (seen : List Char) (first n : Nat) (h : '\n' ∉ seen) :
    LooksUp (seen.reverse ++ []) first n
      (Position.find first ((Text.cutLines seen []).map String.ofList) n) := by
  have hline : '\n' ∉ seen.reverse := by simpa using h
  unfold Text.cutLines
  cases seen with
  | nil => exact ⟨fun hn => absurd hn (by simp), .inl rfl⟩
  | cons c seen =>
    simp only [List.isEmpty_cons, Bool.false_eq_true, if_false, List.map_cons, List.map_nil,
      Position.find, String.length_ofList]
    split
    · rename_i hn
      refine .first_line hline hn ?_
      rw [List.append_nil]
      exact not_breaksInTwo fun hmem => hline (List.mem_of_mem_take hmem)
    · rename_i hn
      rw [List.append_nil]
      exact ⟨fun hlt => absurd hlt (by omega), .inl rfl⟩

/-- A line that ends in a line feed, in front of the lines of the rest. -/
theorem looksUp_line {seen cs : List Char} {first : Nat} {lines : List String} (h : '\n' ∉ seen)
    (hlines : ∀ n, LooksUp cs (first + 1) n (Position.find (first + 1) lines n)) (n : Nat) :
    LooksUp (seen.reverse ++ '\n' :: cs) first n
      (Position.find first (String.ofList (Text.dropReturn seen).reverse :: lines) n) := by
  have hline : '\n' ∉ seen.reverse := by simpa using h
  simp only [Position.find, String.length_ofList]
  rcases dropReturn_cases seen with ⟨hkept, hreturn⟩ | ⟨hkept, hreturn⟩
  · rw [hkept]
    split
    · rename_i hn
      refine .first_line hline hn fun hbreaks => ?_
      have hin : BreaksInTwo ((seen.reverse ++ '\n' :: cs).take (seen.reverse.length + 1 + 0)) :=
        hbreaks.mono (List.take_prefix_take_left (by omega)).isInfix
      rw [take_behind_feed] at hin
      rcases (breaksInTwo_append_iff hline).mp hin with hsuffix | hnil
      · exact hreturn hsuffix
      · exact not_breaksInTwo (by simp) hnil
    · rename_i hn
      have h' := (hlines (n - (seen.reverse.length + 1))).behind_feed hline hreturn
      rwa [Nat.add_sub_cancel' (by omega)] at h'
  · have hlength : seen.reverse.length = (Text.dropReturn seen).reverse.length + 1 := by
      rw [hkept]
      simp [Text.dropReturn]
    split
    · rename_i hn
      refine .first_line hline (by omega) ?_
      rw [List.take_append_of_le_length (by omega)]
      exact not_breaksInTwo fun hmem => hline (List.mem_of_mem_take hmem)
    · rename_i hn
      rw [← hlength]
      have h' := (hlines (n - seen.reverse.length)).behind_return hline hreturn
      rwa [Nat.add_sub_cancel' (by omega)] at h'

/-- **Lines and offsets.** The lines of a text, of which a part of the first one was seen before. -/
theorem looksUp_cutLines : ∀ (cs seen : List Char) (first n : Nat), '\n' ∉ seen →
    LooksUp (seen.reverse ++ cs) first n
      (Position.find first ((Text.cutLines seen cs).map String.ofList) n)
  | [], seen, first, n, h => looksUp_last seen first n h
  | c :: cs, seen, first, n, h => by
    unfold Text.cutLines
    split
    · rename_i hc
      subst hc
      exact looksUp_line h (fun n => looksUp_cutLines cs [] (first + 1) n (by simp)) n
    · rename_i hc
      have ih := looksUp_cutLines cs (c :: seen) first n (by simp [h, Ne.symm hc])
      simpa using ih

/-- What the lines of a whole text lead to. -/
theorem looksUp_lines (text : String) (n : Nat) :
    LooksUp text.toList 1 n (Position.find 1 (Text.lines text) n) := by
  have h := looksUp_cutLines text.toList [] 1 n (by simp)
  rwa [List.reverse_nil, List.nil_append] at h

/-- An offset that is not reserved. -/
theorem ne_reserved_of_nonneg {offset : Int32} (h : 0 ≤ offset) :
    offset ≠ undefinedOffset ∧ offset ≠ syntheticOffset :=
  ⟨fun heq => absurd (heq ▸ h) (by decide), fun heq => absurd (heq ▸ h) (by decide)⟩

/-- An offset that is looked up, whatever else is behind it. -/
theorem Position.resolve_eq_find {lines : List String} {start stop : Int32} (hstart : 0 ≤ start)
    (hundefined : stop ≠ undefinedOffset) (hsynthetic : stop ≠ syntheticOffset) :
    resolve lines start stop = find 1 lines start.toInt.toNat := by
  have hne := ne_reserved_of_nonneg hstart
  unfold resolve
  rw [if_neg (not_or.mpr ⟨hne.1, hundefined⟩), if_neg (not_or.mpr ⟨hne.2, hsynthetic⟩),
    if_neg (Int32.not_lt.mpr hstart)]

/-! ## Texts behind a cache -/

/-- A text is held under a path: it is the last of the texts whose path has these components. -/
def Holds (texts : List (String × String)) (path text : String) : Prop :=
  ∃ earlier spelling later, texts = earlier ++ (spelling, text) :: later ∧
    Path.ofText spelling = Path.ofText path ∧ ∀ entry ∈ later, Path.ofText entry.1 ≠ Path.ofText path

theorem Holds.lines {texts : List (String × String)} {path text : String}
    (h : Holds texts path text) : Provider.ofTexts texts path = Text.lines text := by
  obtain ⟨earlier, spelling, later, rfl, hspelling, hlater⟩ := h
  have hfind : (earlier ++ (spelling, text) :: later).reverse.find?
      (fun entry => Path.ofText entry.1 == Path.ofText path) = some (spelling, text) := by
    rw [List.reverse_append, List.reverse_cons, List.append_assoc, List.find?_append,
      List.find?_eq_none.mpr (by simpa using hlater)]
    simp [hspelling]
  rw [Provider.ofTexts, hfind]

/-- Whether a provider gives the same lines for all spellings of a path. -/
def Provider.Componentwise (provider : Provider) : Prop :=
  ∀ path path', Path.ofText path = Path.ofText path' → provider path = provider path'

/-- Whether a provider gives the same lines for all spellings of one path. -/
def Provider.SteadyAt (provider : Provider) (path : String) : Prop :=
  ∀ spelling, Path.ofText spelling = Path.ofText path → provider spelling = provider path

theorem Provider.Componentwise.steadyAt {provider : Provider} (h : provider.Componentwise)
    (path : String) : provider.SteadyAt path :=
  fun spelling => h spelling path

theorem componentwise_ofTexts (texts : List (String × String)) :
    (Provider.ofTexts texts).Componentwise := by
  intro path path' h
  unfold Provider.ofTexts
  rw [h]

/-- The caches that questions lead to, from one that read nothing. -/
inductive Cache.Reached (provider : Provider) : Cache → Prop
  | empty : Reached provider {}
  | lines {cache : Cache} (h : Reached provider cache) (path : String) :
      Reached provider (cache.lines provider path).2
  | resolve {cache : Cache} (h : Reached provider cache) (path : String) (start stop : Int32) :
      Reached provider (cache.resolve provider path start stop).2

namespace Cache

variable {provider : Provider} {cache : Cache}

/-- A text was read before, or it is what the provider gives for this path. -/
theorem of_lookup_lines {path : String} {key : Path} {found : List String}
    (h : (cache.lines provider path).2.files.lookup key = some found) :
    cache.files.lookup key = some found ∨ (.ofText path = key ∧ found = provider path) := by
  unfold lines at h
  split at h
  · exact .inl h
  · rw [List.lookup_append, Option.or_eq_some_iff] at h
    rcases h with h | ⟨-, h⟩
    · exact .inl h
    · obtain ⟨l₁, l₂, hl, -⟩ := List.lookup_eq_some_iff.mp h
      rcases l₁ with _ | ⟨_, _ | _⟩ <;> cases hl
      exact .inr ⟨rfl, rfl⟩

/-- Whether what a cache holds was given for a spelling of its path. -/
def Given (provider : Provider) (cache : Cache) : Prop :=
  ∀ key found, cache.files.lookup key = some found →
    ∃ path, Path.ofText path = key ∧ found = provider path

theorem Given.lines (h : cache.Given provider) (path : String) :
    (cache.lines provider path).2.Given provider := by
  intro key found hfound
  rcases of_lookup_lines hfound with hfound | hpath
  · exact h key found hfound
  · exact ⟨path, hpath⟩

theorem Reached.given (h : Reached provider cache) : cache.Given provider := by
  induction h with
  | empty =>
    intro key found hfound
    cases hfound
  | lines _ path ih => exact ih.lines path
  | resolve _ path start stop ih =>
    unfold Cache.resolve
    split
    · exact ih
    · exact ih.lines path

theorem Given.lines_eq {path : String} (h : cache.Given provider)
    (hsteady : provider.SteadyAt path) : (cache.lines provider path).1 = provider path := by
  unfold Cache.lines
  split
  · rename_i found hfound
    obtain ⟨spelling, hspelling, rfl⟩ := h _ found hfound
    exact hsteady spelling hspelling
  · rfl

/-- Offsets that are not reserved are looked up in the lines of the provider. -/
theorem resolve_of_nonneg {path : String} (h : cache.Given provider)
    (hsteady : provider.SteadyAt path) {start stop : Int32} (hstart : 0 ≤ start)
    (hstop : 0 ≤ stop) :
    (cache.resolve provider path start stop).1 =
      Position.find 1 (provider path) start.toInt.toNat := by
  have hneg : ¬(start < 0 ∨ stop < 0) := by
    rw [not_or]
    exact ⟨Int32.not_lt.mpr hstart, Int32.not_lt.mpr hstop⟩
  have hne := ne_reserved_of_nonneg hstop
  rw [Cache.resolve, if_neg hneg]
  show Position.resolve (cache.lines provider path).1 start stop = _
  rw [h.lines_eq hsteady, Position.resolve_eq_find hstart hne.1 hne.2]

end Cache

theorem lineAt_le (cs : List Char) (n : Nat) : lineAt cs n ≤ n + 1 := by
  have hcount := List.count_le_length (a := '\n') (l := cs.take n)
  rw [List.length_take] at hcount
  unfold lineAt
  omega

theorem columnAt_le (cs : List Char) (n : Nat) : columnAt cs n ≤ n + 1 := by
  have hlength := (List.takeWhile_sublist (p := (· ≠ '\n')) (l := (cs.take n).reverse)).length_le
  rw [List.length_reverse, List.length_take] at hlength
  unfold columnAt
  omega

theorem coordinates_eq_real {cs : List Char} {n : Nat} (hn : n < Position.limit) :
    coordinates 1 cs n = .real (lineAt cs n) (columnAt cs n) := by
  have hline := lineAt_le cs n
  have hcolumn := columnAt_le cs n
  rw [coordinates, Nat.add_sub_cancel_left, Position.ofLineColumn, if_pos]
  unfold lineAt columnAt at *
  omega

/-- **Resolved positions.** The cache of texts held in memory gives an offset of a text its line
and column in the text, whatever was asked before, exactly if no line up to this character ends
with a carriage return and a line feed. -/
theorem resolve_eq_true_position_iff {texts : List (String × String)} {path text : String}
    {cache : Cache} {start stop : Int32} (hheld : Holds texts path text)
    (hcache : cache.Reached (.ofTexts texts)) (hstart : 0 ≤ start) (hstop : start ≤ stop)
    (hlength : start.toInt.toNat < text.length) (hmax : start < Int32.maxValue) :
    (cache.resolve (.ofTexts texts) path start stop).1 =
        .real (lineAt text.toList start.toInt.toNat) (columnAt text.toList start.toInt.toNat) ↔
      ¬BreaksInTwo (text.toList.take (start.toInt.toNat + 1)) := by
  have hlimit : start.toInt.toNat < Position.limit := by
    rw [Int32.lt_iff_toInt_lt, Int32.toInt_maxValue] at hmax
    unfold Position.limit
    omega
  rw [Cache.resolve_of_nonneg hcache.given ((componentwise_ofTexts texts).steadyAt path) hstart
    (Int32.le_trans hstart hstop), hheld.lines, ← coordinates_eq_real hlimit]
  generalize start.toInt.toNat = n at hlength hlimit
  have hfound := looksUp_lines text n
  constructor
  · intro heq hbreaks
    rcases hfound.late with hunknown | ⟨k, hk, hlater, hpos⟩
    · rw [heq, coordinates_eq_real hlimit] at hunknown
      cases hunknown
    · rw [heq, coordinates_eq_real hlimit] at hlater
      obtain ⟨hline, hcolumn⟩ := ofLineColumn_eq_real hlater.symm
      have hlt := columnAt_lt (Nat.lt_add_of_pos_right (hpos hbreaks)) hk (by omega)
      omega
  · intro hbreaks
    exact hfound.exact hlength hbreaks

/-- The second line of a file that was read before under another spelling of its path. -/
theorem resolve_second_line :
    ((({} : Cache).lines (.ofTexts [("a//Main.kt", "x\n yz")]) "a/Main.kt").2.resolve
      (.ofTexts [("a//Main.kt", "x\n yz")]) "a/./Main.kt" 3 5).1 = .real 2 2 := by
  have hheld : Holds [("a//Main.kt", "x\n yz")] "a/./Main.kt" "x\n yz" :=
    ⟨[], "a//Main.kt", [], rfl, by decide, by simp⟩
  exact (resolve_eq_true_position_iff hheld (.lines .empty "a/Main.kt") (by decide) (by decide)
    (by decide) (by decide)).mpr (by decide)

/-- Behind a line end of two characters the position is one column too far. -/
theorem resolve_behind_return :
    (({} : Cache).resolve (.ofTexts [("Main.kt", "a\r\nb")]) "Main.kt" 3 4).1 = .real 2 2 ∧
      lineAt "a\r\nb".toList 3 = 2 ∧ columnAt "a\r\nb".toList 3 = 1 := by
  decide

end TraceWeave.Source

import Mathlib.Data.List.DropRight
import RawHtmlLint.Proofs.Text.Slice
import RawHtmlLint.Source

/-!
# Positions

The line of an offset is found by binary search in the table of line starts: the last line that
starts at or before the offset. Of two offsets the later one is in a later line, or in the same
line after more UTF-16 units, so positions keep offsets in order and apart. Counting line feeds and units
gives the same positions without the table.

Results:
* `countAtMost_spec`: what the binary search answers;
* `position_before`: a later offset has a later position;
* `lineOf_eq_count`, `slice_startOf`: the line by the line feeds before an offset, and where it
  starts;
* `position_counts`: every position is the one found by counting.
-/

namespace RawHtmlLint

open Text

/-- The first position comes before the second: in an earlier line, or earlier in the line. -/
def Position.Before (a b : Position) : Prop :=
  a.line < b.line ∨ a.line = b.line ∧ a.column < b.column

/-! ## The table of line starts -/

/-- The entries of the table never decrease. -/
def Increasing (table : Array Nat) : Prop :=
  ∀ i j, i ≤ j → j < table.size → table.getD i 0 ≤ table.getD j 0

theorem getD_of_lt {table : Array Nat} {i : Nat} (h : i < table.size) :
    table.getD i 0 = table[i] := by
  rw [Array.getD_eq_getD_getElem?, Array.getElem?_eq_getElem h]
  rfl

theorem Increasing.of_pairwise {l : List Nat} (h : l.Pairwise (· < ·)) : Increasing l.toArray := by
  intro i j hij hj
  rw [List.size_toArray] at hj
  rcases Nat.lt_or_eq_of_le hij with hlt | rfl
  · have hle := List.pairwise_iff_getElem.mp h i j (by omega) hj hlt
    simp only [Array.getD_eq_getD_getElem?, List.getElem?_toArray]
    rw [List.getElem?_eq_getElem hj, List.getElem?_eq_getElem (Nat.lt_trans hlt hj)]
    exact Nat.le_of_lt hle
  · exact Nat.le_refl _

/-- **What the binary search answers**: the entries before it are at most `x`, those from it on
greater. -/
theorem countAtMost_spec {table : Array Nat} (h : Increasing table) (x low high : Nat)
    (hle : low ≤ high) (hsize : high ≤ table.size)
    (hbelow : ∀ i < low, table.getD i 0 ≤ x)
    (habove : ∀ i, high ≤ i → i < table.size → x < table.getD i 0) :
    countAtMost table x low high ≤ table.size ∧
      (∀ i < countAtMost table x low high, table.getD i 0 ≤ x) ∧
      ∀ i, countAtMost table x low high ≤ i → i < table.size → x < table.getD i 0 := by
  fun_induction countAtMost table x low high with
  | case1 low high hlt middle hgt ih =>
    refine ih (by omega) (by omega) hbelow fun i hi hsize' => ?_
    exact Nat.lt_of_lt_of_le hgt (h middle i hi hsize')
  | case2 low high hlt middle hnot ih =>
    refine ih (by omega) hsize (fun i hi => ?_) habove
    exact Nat.le_trans (h i middle (by omega) (by omega)) (Nat.le_of_not_lt hnot)
  | case3 low high hnot =>
    obtain rfl : low = high := by omega
    exact ⟨hsize, hbelow, habove⟩

theorem lineStarts_increasing (text : List Char) : Increasing (lineStarts text) := by
  refine Increasing.of_pairwise (List.pairwise_cons.mpr ⟨?_, ?_⟩)
  · intro start hstart
    obtain ⟨i, _, rfl⟩ := List.mem_map.mp hstart
    exact Nat.succ_pos i
  · exact List.pairwise_map.mpr ((positions_sorted _ _ _ _).imp Nat.succ_lt_succ)

theorem size_lineStarts_pos (text : List Char) : 0 < (lineStarts text).size := Nat.succ_pos _

theorem lineStarts_zero (text : List Char) : (lineStarts text).getD 0 0 = 0 := rfl

/-! ## Columns -/

theorem unitsOf_pos (c : Char) : 0 < unitsOf c := by
  unfold unitsOf
  split
  · exact Nat.one_pos
  · exact Nat.two_pos

theorem units_append : ∀ xs ys : List Char, units (xs ++ ys) = units xs + units ys
  | [], ys => (Nat.zero_add _).symm
  | x :: xs, ys => by
    have ih := units_append xs ys
    unfold units at ih ⊢
    rw [List.cons_append, List.foldr_cons, List.foldr_cons, ih, Nat.add_assoc]

theorem units_pos {text : List Char} (h : text ≠ []) : 0 < units text := by
  cases text with
  | nil => exact absurd rfl h
  | cons c text => exact Nat.add_pos_left (unitsOf_pos c) _

/-- A slice that goes on further has more units. -/
theorem units_slice_lt {text : List Char} {start p q : Nat} (hle : start ≤ p) (hlt : p < q)
    (hq : q ≤ text.length) : units (slice text start p) < units (slice text start q) := by
  have hrest : slice text p q ≠ [] := by
    intro hnil
    have hlength := length_slice text p q
    rw [hnil, List.length_nil] at hlength
    omega
  rw [← slice_append hle (Nat.le_of_lt hlt), units_append]
  exact Nat.lt_add_of_pos_right (units_pos hrest)

/-! ## Positions -/

namespace Source

variable (s : Source)

/-- The number of lines that start at or before an offset. -/
def lineOf (p : Nat) : Nat := countAtMost s.starts p 0 s.starts.size

theorem starts_increasing : Increasing s.starts := by
  rw [s.starts_eq]
  exact lineStarts_increasing s.text

theorem lineOf_spec (p : Nat) : s.lineOf p ≤ s.starts.size ∧
    (∀ i < s.lineOf p, s.starts.getD i 0 ≤ p) ∧
    ∀ i, s.lineOf p ≤ i → i < s.starts.size → p < s.starts.getD i 0 := by
  exact countAtMost_spec s.starts_increasing p 0 s.starts.size (Nat.zero_le _) (Nat.le_refl _)
    (fun i hi => absurd hi (Nat.not_lt_zero i)) fun i hi hlt => absurd hlt (Nat.not_lt_of_le hi)

/-- Every offset is in a line, since the first one starts at once. -/
theorem lineOf_pos (p : Nat) : 0 < s.lineOf p := by
  refine Nat.pos_of_ne_zero fun hzero => ?_
  have hfirst := (s.lineOf_spec p).2.2 0 (Nat.le_of_eq hzero)
  rw [s.starts_eq, lineStarts_zero] at hfirst
  exact Nat.not_lt_zero p (hfirst (size_lineStarts_pos s.text))

theorem lineOf_mono {p q : Nat} (h : p ≤ q) : s.lineOf p ≤ s.lineOf q := by
  refine Nat.le_of_not_lt fun hlt => ?_
  have hsize := (s.lineOf_spec p).1
  have hbelow := (s.lineOf_spec p).2.1 (s.lineOf q) hlt
  have habove := (s.lineOf_spec q).2.2 (s.lineOf q) (Nat.le_refl _) (by omega)
  omega

/-- The column of an offset in a line that starts at `start`. -/
def columnFrom (start p : Nat) : Nat :=
  if s.isNarrow then p - start else units (Text.slice s.text start p)

theorem position_eq {p : Nat} (h : p ≤ s.size) : s.position p =
    ⟨(s.lineOf p - 1 : Nat) + 1, s.columnFrom (s.starts.getD (s.lineOf p - 1) 0) p⟩ := by
  unfold position columnFrom lineOf
  rw [Int.toNat_natCast, Nat.min_eq_left h]

theorem columnFrom_lt {start p q : Nat} (hle : start ≤ p) (hlt : p < q) (hq : q ≤ s.size) :
    s.columnFrom start p < s.columnFrom start q := by
  unfold columnFrom
  split
  · omega
  · exact units_slice_lt hle hlt hq

/-- **A later offset has a later position.** -/
theorem position_before {p q : Nat} (hlt : p < q) (hq : q ≤ s.size) :
    (s.position p).Before (s.position q) := by
  have hp : p ≤ s.size := Nat.le_of_lt (Nat.lt_of_lt_of_le hlt hq)
  rw [s.position_eq hp, s.position_eq hq]
  have hpos := s.lineOf_pos p
  rcases Nat.lt_or_eq_of_le (s.lineOf_mono (Nat.le_of_lt hlt)) with hline | hline
  · refine .inl ?_
    show ((s.lineOf p - 1 : Nat) : Int) + 1 < ((s.lineOf q - 1 : Nat) : Int) + 1
    omega
  · rw [← hline]
    have hstart := (s.lineOf_spec p).2.1 (s.lineOf p - 1) (by omega)
    exact .inr ⟨rfl, Int.ofNat_lt.mpr (s.columnFrom_lt hstart hlt hq)⟩

end Source

/-! ## Lines by counting -/

/-- A table is cut at `x` in one place only. -/
theorem countP_of_cut {table : Array Nat} {x k : Nat} (hk : k ≤ table.size)
    (hbelow : ∀ i < k, table.getD i 0 ≤ x)
    (habove : ∀ i, k ≤ i → i < table.size → x < table.getD i 0) :
    table.toList.countP (· ≤ x) = k := by
  have hlength : table.toList.length = table.size := Array.length_toList
  have hfront : (table.toList.take k).countP (· ≤ x) = k := by
    rw [List.countP_eq_length.mpr, List.length_take, hlength, Nat.min_eq_left hk]
    intro y hy
    obtain ⟨i, hi, rfl⟩ := List.mem_take_iff_getElem.mp hy
    have hle := hbelow i (Nat.lt_of_lt_of_le hi (Nat.min_le_left _ _))
    rw [getD_of_lt (by omega)] at hle
    exact decide_eq_true hle
  have hback : (table.toList.drop k).countP (· ≤ x) = 0 := by
    refine List.countP_eq_zero.mpr fun y hy => ?_
    obtain ⟨i, hi, rfl⟩ := List.mem_drop_iff_getElem.mp hy
    have hlt := habove (k + i) (Nat.le_add_right _ _) (by omega)
    rw [getD_of_lt (by omega)] at hlt
    rw [decide_eq_true_iff]
    exact Nat.not_le_of_lt hlt
  rw [← List.take_append_drop k table.toList, List.countP_append, hfront, hback, Nat.add_zero]

/-- The position of an offset by counting: the line feeds before it, and the UTF-16 units after the
last of them. The offset is cut to the text. -/
def countedPosition (text : List Char) (offset : Int) : Position :=
  let before := text.take offset.toNat
  ⟨1 + before.count '\n', units (before.rtakeWhile (· ≠ '\n'))⟩

/-- A line without line feeds in it, which starts with the text or after a line feed, is all there is
after the last one. -/
theorem slice_eq_rtakeWhile {text : List Char} {start p : Nat} (hle : start ≤ p)
    (hstart : ∀ i, start = i + 1 → text[i]? = some '\n') (hline : '\n' ∉ slice text start p) :
    slice text start p = (text.take p).rtakeWhile (· ≠ '\n') := by
  have hall : ∀ c ∈ (slice text start p).reverse, decide (c ≠ '\n') = true := fun c hc =>
    decide_eq_true fun heq => hline (heq ▸ List.mem_reverse.mp hc)
  have hsplit : text.take p = text.take start ++ slice text start p :=
    (slice_append (s := text) (Nat.zero_le start) hle).symm
  have hnone : (text.take start).reverse.takeWhile (· ≠ '\n') = [] := by
    cases start with
    | zero => rfl
    | succ i =>
      obtain ⟨hlt, hi⟩ := List.getElem?_eq_some_iff.mp (hstart i rfl)
      rw [List.take_succ_eq_append_getElem hlt, hi, List.reverse_append]
      rfl
  rw [hsplit, List.rtakeWhile, List.reverse_append, List.takeWhile_append_of_pos hall, hnone,
    List.append_nil, List.reverse_reverse]

theorem mem_lineStarts_iff {text : List Char} {start : Nat} : start ∈ (lineStarts text).toList ↔
    start = 0 ∨ ∃ i, start = i + 1 ∧ text[i]? = some '\n' := by
  have hplace : ∀ i, i ∈ positions (· == '\n') text 0 text.length ↔ text[i]? = some '\n' := by
    intro i
    rw [mem_positions_iff]
    constructor
    · rintro ⟨_, _, c, hc, hfeed⟩
      rw [hc, beq_iff_eq.mp hfeed]
    · intro hc
      exact ⟨Nat.zero_le i, (List.getElem?_eq_some_iff.mp hc).1, _, hc, beq_self_eq_true _⟩
  rw [lineStarts, List.mem_cons, List.mem_map]
  refine or_congr_right (exists_congr fun i => ?_)
  rw [hplace, and_comm, eq_comm]

theorem Position.Before.ne {a b : Position} (h : a.Before b) : a ≠ b := by
  rintro rfl
  rcases h with h | ⟨_, h⟩ <;> exact Int.lt_irrefl _ h

namespace Source

variable (s : Source)

/-- **The line of an offset** is told by the line feeds before it. -/
theorem lineOf_eq_count {p : Nat} (h : p ≤ s.size) :
    s.lineOf p = 1 + (s.text.take p).count '\n' := by
  obtain ⟨hsize, hbelow, habove⟩ := s.lineOf_spec p
  have hfront : (positions (· == '\n') s.text 0 p).countP (· + 1 ≤ p) =
      (s.text.take p).count '\n' := by
    have hall : ∀ i ∈ positions (· == '\n') s.text 0 p, decide (i + 1 ≤ p) = true :=
      fun i hi => decide_eq_true (positions_lt hi).2
    rw [List.countP_eq_length.mpr hall, length_positions]
    rfl
  have hback : (positions (· == '\n') s.text p s.text.length).countP (· + 1 ≤ p) = 0 := by
    refine List.countP_eq_zero.mpr fun i hi => ?_
    rw [decide_eq_true_iff]
    exact Nat.not_le_of_lt (Nat.lt_succ_of_le (positions_lt hi).1)
  calc s.lineOf p = s.starts.toList.countP (· ≤ p) := (countP_of_cut hsize hbelow habove).symm
    _ = 1 + (positions (· == '\n') s.text 0 s.text.length).countP (· + 1 ≤ p) := by
      rw [s.starts_eq, lineStarts, List.countP_cons, List.countP_map, Nat.add_comm]
      rfl
    _ = 1 + (s.text.take p).count '\n' := by
      rw [← positions_append (Nat.zero_le p) (show p ≤ s.text.length from h),
        List.countP_append, hfront, hback, Nat.add_zero]

/-- The offset at which the line of an offset starts. -/
def startOf (p : Nat) : Nat := s.starts.getD (s.lineOf p - 1) 0

/-- **The line of an offset** reaches from its start to the offset without a line feed. -/
theorem slice_startOf (p : Nat) : s.startOf p ≤ p ∧
    Text.slice s.text (s.startOf p) p = (s.text.take p).rtakeWhile (· ≠ '\n') := by
  have hpos := s.lineOf_pos p
  obtain ⟨hsize, hbelow, habove⟩ := s.lineOf_spec p
  have hle : s.startOf p ≤ p := hbelow _ (Nat.sub_one_lt_of_lt hpos)
  refine ⟨hle, slice_eq_rtakeWhile hle ?_ ?_⟩
  · intro i hi
    have hmem : s.startOf p ∈ s.starts.toList := by
      rw [startOf, getD_of_lt (by omega)]
      exact Array.getElem_mem_toList _
    rw [s.starts_eq, mem_lineStarts_iff] at hmem
    rcases hmem with hzero | ⟨j, hj, hfeed⟩
    · omega
    · obtain rfl : i = j := by omega
      exact hfeed
  · -- a line feed on the way would start a line that is later and still not after the offset
    intro hfeed
    obtain ⟨j, hj, hjp, hfeed⟩ := mem_slice_iff.mp hfeed
    have hmem : j + 1 ∈ s.starts.toList := by
      rw [s.starts_eq, mem_lineStarts_iff]
      exact .inr ⟨j, rfl, hfeed⟩
    obtain ⟨i, hi, hget⟩ := List.mem_iff_getElem.mp hmem
    have hi : i < s.starts.size := hi
    have hentry : s.starts.getD i 0 = j + 1 := (getD_of_lt hi).trans hget
    have hline : i < s.lineOf p := by
      by_contra hge
      have hlt := habove i (Nat.le_of_not_lt hge) hi
      omega
    have hlast := s.starts_increasing i (s.lineOf p - 1) (by omega) (by omega)
    rw [hentry] at hlast
    exact Nat.not_succ_le_self j (Nat.le_trans hlast hj)

theorem units_eq_length {text : List Char} (h : ∀ c ∈ text, c.toNat < 0x10000) :
    units text = text.length := by
  induction text with
  | nil => rfl
  | cons c text ih =>
    obtain ⟨hc, h⟩ := List.forall_mem_cons.mp h
    have hunits : units (c :: text) = unitsOf c + units text := rfl
    rw [hunits, ih h, unitsOf, if_pos hc, List.length_cons, Nat.add_comm]

/-- **Columns need no counting** where every character is one unit. -/
theorem columnFrom_eq {start p : Nat} (h : p ≤ s.size) :
    s.columnFrom start p = units (Text.slice s.text start p) := by
  unfold columnFrom
  split
  · rename_i hnarrow
    rw [s.isNarrow_eq, List.all_eq_true] at hnarrow
    rw [units_eq_length, length_slice, Nat.min_eq_left (show p ≤ s.text.length from h)]
    intro c hc
    obtain ⟨_, _, _, hget⟩ := mem_slice_iff.mp hc
    exact of_decide_eq_true (hnarrow c (List.mem_of_getElem? hget))
  · rfl

theorem position_cut (offset : Int) :
    s.position offset = s.position (min offset.toNat s.size : Nat) := by
  unfold position
  rw [Int.toNat_natCast, Nat.min_eq_left (Nat.min_le_right _ s.size)]

/-- **Positions are what is counted.** -/
theorem position_eq_counted (offset : Int) : s.position offset = countedPosition s.text offset := by
  have hle : min offset.toNat s.size ≤ s.size := Nat.min_le_right _ _
  have hcut : s.text.take (min offset.toNat s.size) = s.text.take offset.toNat := by
    rw [size, ← List.take_take, List.take_length]
  have hline := s.lineOf_eq_count hle
  rw [hcut] at hline
  rw [s.position_cut, s.position_eq hle, s.columnFrom_eq hle]
  show (⟨_, (units (Text.slice s.text (s.startOf _) _) : Nat)⟩ : Position) = _
  rw [(s.slice_startOf _).2, hcut, hline, countedPosition]
  congr 1
  omega

/-- **Positions are those that are found by counting**, also of offsets outside of the text, which
are cut to it. In the text a later offset has a later position, so no two offsets share one. -/
theorem position_counts : (∀ offset : Int, s.position offset = countedPosition s.text offset) ∧
    (∀ p q : Nat, p < q → q ≤ s.size → (s.position p).Before (s.position q)) ∧
    ∀ p q : Nat, p ≤ s.size → q ≤ s.size → s.position p = s.position q → p = q := by
  refine ⟨s.position_eq_counted, fun p q => s.position_before, fun p q hp hq heq => ?_⟩
  rcases Nat.lt_trichotomy p q with hlt | rfl | hlt
  · exact absurd heq (s.position_before hlt hq).ne
  · rfl
  · exact absurd heq.symm (s.position_before hlt hp).ne

end Source

/-- An astral character is two units, and a line feed starts the next line. -/
example : [-1, 1, 2, 3, 9].map (Source.ofText "" "a😀\nb".toList).position =
    [⟨1, 0⟩, ⟨1, 1⟩, ⟨1, 3⟩, ⟨2, 0⟩, ⟨2, 1⟩] := by
  decide +kernel

end RawHtmlLint

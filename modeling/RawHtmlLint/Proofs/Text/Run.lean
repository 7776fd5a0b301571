import Mathlib.Data.List.Infix
import Mathlib.Data.List.TakeWhile
import RawHtmlLint.Text.Pattern
import RawHtmlLint.Text.Slice

/-!
# Runs between separators

A text that is split at the characters of a class falls into the runs between them. A run ends where
a character of the class stands, or the text ends, on either side of it, so it cannot be made
longer; the pieces that are not empty are exactly these runs. It is the same whether the text is
split at each character of the class or at whole runs of them: only empty pieces make a difference.

Results:
* `mem_splitOn_iff`: the pieces of a text are its first run and those after a separator;
* `filter_splitRuns`: both ways to split a text have the same pieces, but for empty ones;
* `isRun_iff_mem_splitRuns`: the pieces that are not empty are the runs;
* `isRun_padded_iff`: separators at either end have no part in any run.
-/

namespace RawHtmlLint.Text

variable {p : Char → Bool} {c : Char} {s piece : List Char}

/-- The run stands in the text, has no character of the class in it, and cannot be made longer
without one. -/
def IsRun (p : Char → Bool) (s run : List Char) : Prop :=
  run ≠ [] ∧ ∃ front back, s = front ++ run ++ back ∧ (∀ c ∈ run, p c = false) ∧
    (∀ c ∈ front.getLast?, p c = true) ∧ ∀ c ∈ back.head?, p c = true

/-- The piece is what the text starts with up to the first character of the class. -/
theorem eq_takeWhile_iff : piece = s.takeWhile (!p ·) ↔
    ∃ back, s = piece ++ back ∧ (∀ c ∈ piece, p c = false) ∧ ∀ c ∈ back.head?, p c = true := by
  constructor
  · rintro rfl
    refine ⟨s.dropWhile (!p ·), List.takeWhile_append_dropWhile.symm, fun c hc => ?_, ?_⟩
    · simpa using List.mem_takeWhile_imp hc
    · intro c hc
      have hnot := List.head?_dropWhile_not (!p ·) s
      rw [Option.mem_def.mp hc] at hnot
      simpa using hnot
  · rintro ⟨back, rfl, hpiece, hback⟩
    have hall : ∀ c ∈ piece, (!p c) = true := fun c hc => by rw [hpiece c hc]; rfl
    rw [List.takeWhile_append_of_pos hall]
    cases back with
    | nil => rw [List.takeWhile_nil, List.append_nil]
    | cons d back =>
      rw [List.takeWhile_cons_of_neg (by simp [hback d rfl]), List.append_nil]

/-- The first piece goes up to the first separator. -/
theorem splitOn_eq_cons (p : Char → Bool) : ∀ s : List Char,
    splitOn p s = s.takeWhile (!p ·) :: (splitOn p s).tail
  | [] => rfl
  | c :: rest => by
    have ih := splitOn_eq_cons p rest
    rw [splitOn]
    split
    · rename_i hc
      rw [List.takeWhile_cons_of_neg (by simp [hc])]
      rfl
    · rename_i hc
      rw [ih, List.takeWhile_cons_of_pos (by simp [hc])]
      rfl

theorem splitOn_cons_of_pos (hc : p c = true) (s : List Char) :
    splitOn p (c :: s) = [] :: splitOn p s := if_pos hc

theorem tail_splitOn_cons_of_neg (hc : ¬ p c = true) (s : List Char) :
    (splitOn p (c :: s)).tail = (splitOn p s).tail := by
  rw [splitOn, if_neg hc, splitOn_eq_cons p s]
  rfl

/-- The later pieces are those that follow a separator, up to the next one. -/
theorem mem_tail_splitOn_iff : ∀ {s : List Char}, piece ∈ (splitOn p s).tail ↔
    ∃ front c back, s = front ++ c :: (piece ++ back) ∧ p c = true ∧
      (∀ d ∈ piece, p d = false) ∧ ∀ d ∈ back.head?, p d = true
  | [] => by
    constructor
    · intro h
      exact absurd h List.not_mem_nil
    · rintro ⟨front, c, back, h, _⟩
      exact absurd h.symm (List.append_ne_nil_of_right_ne_nil _ (List.cons_ne_nil _ _))
  | c :: rest => by
    have ih := mem_tail_splitOn_iff (s := rest)
    by_cases hc : p c = true
    · rw [splitOn_cons_of_pos hc, List.tail_cons, splitOn_eq_cons, List.mem_cons, ih,
        eq_takeWhile_iff]
      constructor
      · rintro (⟨back, rfl, hpiece, hback⟩ | ⟨front, d, back, rfl, hd, hpiece, hback⟩)
        · exact ⟨[], c, back, rfl, hc, hpiece, hback⟩
        · exact ⟨c :: front, d, back, rfl, hd, hpiece, hback⟩
      · rintro ⟨front, d, back, h, hd, hpiece, hback⟩
        cases front with
        | nil =>
          cases h
          exact .inl ⟨back, rfl, hpiece, hback⟩
        | cons e front =>
          cases h
          exact .inr ⟨front, d, back, rfl, hd, hpiece, hback⟩
    · rw [tail_splitOn_cons_of_neg hc, ih]
      constructor
      · rintro ⟨front, d, back, rfl, hd, hpiece, hback⟩
        exact ⟨c :: front, d, back, rfl, hd, hpiece, hback⟩
      · rintro ⟨front, d, back, h, hd, hpiece, hback⟩
        cases front with
        | nil =>
          cases h
          exact absurd hd hc
        | cons e front =>
          cases h
          exact ⟨front, d, back, rfl, hd, hpiece, hback⟩

/-- **The pieces of a text** have no separator in them, and stand between separators or ends. -/
theorem mem_splitOn_iff : piece ∈ splitOn p s ↔
    ∃ front back, s = front ++ piece ++ back ∧ (∀ c ∈ piece, p c = false) ∧
      (∀ c ∈ front.getLast?, p c = true) ∧ ∀ c ∈ back.head?, p c = true := by
  rw [splitOn_eq_cons, List.mem_cons, eq_takeWhile_iff, mem_tail_splitOn_iff]
  constructor
  · rintro (⟨back, rfl, hpiece, hback⟩ | ⟨front, c, back, rfl, hc, hpiece, hback⟩)
    · exact ⟨[], back, rfl, hpiece, fun _ h => (nomatch h), hback⟩
    · refine ⟨front ++ [c], back, by simp, hpiece, fun d hd => ?_, hback⟩
      rw [List.getLast?_concat, Option.mem_some_iff] at hd
      exact hd ▸ hc
  · rintro ⟨front, back, rfl, hpiece, hfront, hback⟩
    obtain rfl | ⟨front, c, rfl⟩ := List.eq_nil_or_concat' front
    · exact .inl ⟨back, rfl, hpiece, hback⟩
    · refine .inr ⟨front, c, back, by simp, hfront c ?_, hpiece, hback⟩
      rw [List.getLast?_concat, Option.mem_some_iff]

/-- The first piece is the same whether a text is split at each separator or at runs of them, and so
are the other pieces that are not empty. Behind a run that has begun, no piece is lost. -/
theorem splitRuns_agrees (p : Char → Bool) : ∀ s : List Char,
    (∃ piece more more', splitRuns p s = piece :: more ∧ splitOn p s = piece :: more' ∧
        more.filter (!·.isEmpty) = more'.filter (!·.isEmpty)) ∧
      (splitBehind p s).filter (!·.isEmpty) = (splitOn p s).filter (!·.isEmpty)
  | [] => ⟨⟨[], [], [], by rw [splitRuns], rfl, rfl⟩, by rw [splitBehind]; rfl⟩
  | c :: rest => by
    obtain ⟨⟨piece, more, more', hruns, hon, hmore⟩, hbehind⟩ := splitRuns_agrees p rest
    rw [splitRuns, splitBehind, splitOn]
    by_cases hc : p c = true
    · rw [if_pos hc, if_pos hc, if_pos hc]
      exact ⟨⟨[], _, _, rfl, rfl, hbehind⟩, hbehind⟩
    · rw [if_neg hc, if_neg hc, if_neg hc, hruns, hon]
      refine ⟨⟨c :: piece, more, more', rfl, rfl, hmore⟩, ?_⟩
      -- the first piece is not empty, since it starts with `c`
      show (c :: piece) :: more.filter (!·.isEmpty) = (c :: piece) :: more'.filter (!·.isEmpty)
      rw [hmore]

/-- **Both ways to split a text** have the same pieces, but for empty ones. -/
theorem filter_splitRuns (p : Char → Bool) (s : List Char) :
    (splitRuns p s).filter (!·.isEmpty) = (splitOn p s).filter (!·.isEmpty) := by
  obtain ⟨⟨piece, more, more', hruns, hon, hmore⟩, _⟩ := splitRuns_agrees p s
  rw [hruns, hon, List.filter_cons, List.filter_cons, hmore]

/-- **The pieces that are not empty are the runs.** -/
theorem isRun_iff_mem_splitRuns :
    IsRun p s piece ↔ piece ∈ (splitRuns p s).filter (!·.isEmpty) := by
  rw [filter_splitRuns, List.mem_filter, mem_splitOn_iff, and_comm]
  simp only [IsRun, Bool.not_eq_true', List.isEmpty_eq_false_iff]

/-- A text is the same read from its end. -/
theorem IsRun.reverse (h : IsRun p s piece) : IsRun p s.reverse piece.reverse := by
  obtain ⟨hne, front, back, rfl, hpiece, hfront, hback⟩ := h
  refine ⟨mt List.reverse_eq_nil_iff.mp hne, back.reverse, front.reverse, by simp,
    fun c hc => hpiece c (List.mem_reverse.mp hc), ?_, ?_⟩
  · rwa [List.getLast?_reverse]
  · rwa [List.head?_reverse]

theorem isRun_reverse_iff : IsRun p s.reverse piece.reverse ↔ IsRun p s piece := by
  refine ⟨fun h => ?_, IsRun.reverse⟩
  have hback := h.reverse
  rwa [List.reverse_reverse, List.reverse_reverse] at hback

/-- A separator in front has no part in any run. -/
theorem isRun_cons_iff (hc : p c = true) : IsRun p (c :: s) piece ↔ IsRun p s piece := by
  rw [isRun_iff_mem_splitRuns, isRun_iff_mem_splitRuns, filter_splitRuns, filter_splitRuns,
    splitOn_cons_of_pos hc]
  rfl

theorem isRun_append_iff {front : List Char} (hfront : ∀ c ∈ front, p c = true) :
    IsRun p (front ++ s) piece ↔ IsRun p s piece := by
  induction front with
  | nil => rfl
  | cons c front ih =>
    rw [List.cons_append, isRun_cons_iff (hfront c List.mem_cons_self),
      ih fun d hd => hfront d (List.mem_cons_of_mem _ hd)]

/-- **Separators at either end** have no part in any run. -/
theorem isRun_padded_iff {front back : List Char} (hfront : ∀ c ∈ front, p c = true)
    (hback : ∀ c ∈ back, p c = true) :
    IsRun p (front ++ (s ++ back)) piece ↔ IsRun p s piece := by
  rw [isRun_append_iff hfront, ← isRun_reverse_iff, List.reverse_append,
    isRun_append_iff fun c hc => hback c (List.mem_reverse.mp hc), isRun_reverse_iff]

end RawHtmlLint.Text

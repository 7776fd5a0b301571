import Mathlib.Data.List.Infix
import Mathlib.Data.List.TakeWhile
import RawHtmlLint.Text.Blank

/-!
# Trimming

Results:
* `trim_isInfix`: a trimmed text is part of the text;
* `blankCount_append`: the white space before a text is counted up to the text;
* `trim_pad`: trimming undoes padding;
* `prefix_trim_iff`: what a trimmed text starts with.
-/

namespace RawHtmlLint.Text

theorem trimStart_suffix (s : List Char) : trimStart s <:+ s := List.dropWhile_suffix _

theorem trimEnd_isPrefix (s : List Char) : trimEnd s <+: s := by
  have h := List.dropWhile_suffix (l := s.reverse) isBlank
  rw [← List.reverse_prefix, List.reverse_reverse] at h
  exact h

theorem trim_isInfix (s : List Char) : trim s <:+: s :=
  (trimEnd_isPrefix _).isInfix.trans (trimStart_suffix s).isInfix

/-- The text is not blank and has no white space at either end. -/
def Trimmed (s : List Char) : Prop := s ≠ [] ∧ trim s = s

instance (s : List Char) : Decidable (Trimmed s) := inferInstanceAs (Decidable (_ ∧ _))

theorem forall_of_allBlank {s : List Char} (h : allBlank s = true) : ∀ c ∈ s, isBlank c = true :=
  List.all_eq_true.mp h

theorem trimStart_eq_nil_iff {s : List Char} : trimStart s = [] ↔ allBlank s = true :=
  List.dropWhile_eq_nil_iff.trans List.all_eq_true.symm

theorem trimStart_blank_append {blank s : List Char} (h : allBlank blank = true) :
    trimStart (blank ++ s) = trimStart s :=
  List.dropWhile_append_of_pos (forall_of_allBlank h)

/-- White space is trimmed off the same if a text that is not blank goes on. -/
theorem trimStart_append {s t : List Char} (h : trimStart s ≠ []) :
    trimStart (s ++ t) = trimStart s ++ t := by
  unfold trimStart at h ⊢
  rw [List.dropWhile_append, if_neg]
  rw [List.isEmpty_iff]
  exact h

theorem trimEnd_append_blank {blank s : List Char} (h : allBlank blank = true) :
    trimEnd (s ++ blank) = trimEnd s := by
  have hreverse : ∀ c ∈ blank.reverse, isBlank c = true := fun c hc =>
    forall_of_allBlank h c (List.mem_reverse.mp hc)
  unfold trimEnd
  rw [List.reverse_append, List.dropWhile_append_of_pos hreverse]

/-- A text whose last character is no white space is trimmed at its end. -/
theorem trimEnd_concat {s : List Char} {c : Char} (h : isBlank c = false) :
    trimEnd (s ++ [c]) = s ++ [c] := by
  unfold trimEnd
  rw [List.reverse_append, List.reverse_singleton, List.singleton_append,
    List.dropWhile_cons_of_neg (by simp [h]), List.reverse_cons, List.reverse_reverse]

/-- The first character of a trimmed text is no white space. -/
theorem Trimmed.exists_head {s : List Char} (h : Trimmed s) :
    ∃ c rest, s = c :: rest ∧ isBlank c = false := by
  obtain ⟨hne, htrim⟩ := h
  obtain ⟨c, rest, rfl⟩ := List.exists_cons_of_ne_nil hne
  refine ⟨c, rest, rfl, Bool.eq_false_iff.mpr fun hblank => ?_⟩
  -- otherwise the trimmed text is shorter
  have hstart : trimStart (c :: rest) = trimStart rest := List.dropWhile_cons_of_pos hblank
  have hle := ((trimEnd_isPrefix _).length_le.trans (trimStart_suffix rest).length_le)
  rw [← hstart] at hle
  have hlength := congrArg List.length htrim
  rw [List.length_cons] at hlength
  unfold trim at hlength
  omega

/-- A trimmed text has nothing before it that could be taken away. -/
theorem Trimmed.trimStart_eq {s : List Char} (h : Trimmed s) : trimStart s = s := by
  obtain ⟨c, rest, rfl, hc⟩ := h.exists_head
  exact List.dropWhile_cons_of_neg (by simp [hc])

theorem Trimmed.trimEnd_eq {s : List Char} (h : Trimmed s) : trimEnd s = s := by
  have htrim := h.2
  rwa [trim, h.trimStart_eq] at htrim

/-- Nor is the last one. -/
theorem Trimmed.exists_last {s : List Char} (h : Trimmed s) :
    ∃ front c, s = front ++ [c] ∧ isBlank c = false := by
  obtain hnil | ⟨front, c, hs⟩ := List.eq_nil_or_concat' s
  · exact absurd hnil h.1
  refine ⟨front, c, hs, Bool.eq_false_iff.mpr fun hblank => ?_⟩
  have hone : allBlank [c] = true := by simp [allBlank, hblank]
  have htrim := h.trimEnd_eq
  rw [hs, trimEnd_append_blank hone] at htrim
  have hle := (trimEnd_isPrefix front).length_le
  rw [htrim, List.length_append] at hle
  exact absurd hle (Nat.not_succ_le_self _)

/-- So no end of it is blank. -/
theorem Trimmed.trimStart_drop_ne_nil {s : List Char} (h : Trimmed s) {i : Nat}
    (hi : i < s.length) : trimStart (s.drop i) ≠ [] := by
  obtain ⟨front, c, rfl, hc⟩ := h.exists_last
  rw [List.length_append] at hi
  rw [List.drop_append_of_le_length (Nat.le_of_lt_succ hi), ne_eq, trimStart_eq_nil_iff]
  intro hblank
  have hlast := forall_of_allBlank hblank c (List.mem_append_right _ (List.mem_singleton_self c))
  rw [hc] at hlast
  cases hlast

/-- **Trimming undoes padding.** -/
theorem trim_pad {before s after : List Char} (hbefore : allBlank before = true)
    (h : Trimmed s) (hafter : allBlank after = true) : trim (before ++ s ++ after) = s := by
  obtain ⟨c, rest, hs, hc⟩ := h.exists_head
  have hstart : trimStart (s ++ after) = s ++ after := by
    rw [hs]
    exact List.dropWhile_cons_of_neg (by simp [hc])
  rw [trim, List.append_assoc, trimStart_blank_append hbefore, hstart, trimEnd_append_blank hafter,
    h.trimEnd_eq]

/-- A trimmed word at the start of a text stays there when the end is trimmed. -/
theorem prefix_trimEnd_append {word : List Char} (h : Trimmed word) (rest : List Char) :
    word <+: trimEnd (word ++ rest) := by
  have hend := h.trimEnd_eq
  unfold trimEnd at hend ⊢
  rw [List.reverse_append, List.dropWhile_append]
  split
  · rw [hend]
  · rw [List.reverse_append, List.reverse_reverse]
    exact List.prefix_append _ _

/-- **A text without its white space starts with a trimmed word** if there is nothing but white space
before the word. -/
theorem prefix_trim_iff {word s : List Char} (h : Trimmed word) :
    word <+: trim s ↔ ∃ blank rest, allBlank blank = true ∧ s = blank ++ word ++ rest := by
  constructor
  · intro hword
    obtain ⟨rest, hrest⟩ := hword.trans (trimEnd_isPrefix (trimStart s))
    refine ⟨s.takeWhile isBlank, rest, List.all_takeWhile, ?_⟩
    rw [List.append_assoc, hrest]
    exact List.takeWhile_append_dropWhile.symm
  · rintro ⟨blank, rest, hblank, rfl⟩
    obtain ⟨c, tail, hword, hc⟩ := h.exists_head
    have hstart : trimStart (word ++ rest) = word ++ rest := by
      rw [hword]
      exact List.dropWhile_cons_of_neg (by simp [hc])
    rw [trim, List.append_assoc, trimStart_blank_append hblank, hstart]
    exact prefix_trimEnd_append h rest

/-- The white space before a text is counted up to the text. -/
theorem blankCount_append {blank s : List Char} (h : allBlank blank = true)
    (hs : ∀ c ∈ s.head?, isBlank c = false) : blankCount (blank ++ s) = blank.length := by
  unfold blankCount
  rw [List.takeWhile_append_of_pos (forall_of_allBlank h)]
  cases s with
  | nil => simp
  | cons c s => simp [hs c rfl]

/-- What follows the white space before a text is the text without it. -/
theorem drop_blankCount (s : List Char) : s.drop (blankCount s) = trimStart s := by
  have hsplit : s.takeWhile isBlank ++ trimStart s = s := List.takeWhile_append_dropWhile
  calc s.drop (blankCount s) = (s.takeWhile isBlank ++ trimStart s).drop (blankCount s) := by
        rw [hsplit]
    _ = trimStart s := List.drop_left

end RawHtmlLint.Text

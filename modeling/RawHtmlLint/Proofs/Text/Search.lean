import Mathlib.Data.List.Infix
import RawHtmlLint.Text.Slice

/-!
# Where a word is found

Results:
* `find?_eq_some_iff`: a word is found at the first place where the text reads it.
-/

namespace RawHtmlLint.Text

theorem dropLast_prefix_append (front word back : List Char) :
    front ++ word.dropLast <+: front ++ word ++ back :=
  ((List.prefix_append_right_inj front).mpr (List.dropLast_prefix word)).trans
    (List.prefix_append _ back)

/-- A place before the first one does not read the word. -/
theorem not_prefix_of_first {word front back : List Char} {c : Char}
    (hfirst : ¬ word <:+: c :: front ++ word.dropLast) :
    ¬ word <+: c :: (front ++ word ++ back) := by
  intro hprefix
  have hlength : word.length ≤ (c :: front ++ word.dropLast).length := by
    rw [List.length_append, List.length_cons, List.length_dropLast]
    omega
  have hstart : c :: front ++ word.dropLast <+: c :: (front ++ word ++ back) := by
    rw [List.cons_append, List.cons_prefix_cons]
    exact ⟨rfl, dropLast_prefix_append front word back⟩
  exact hfirst (List.prefix_of_prefix_length_le hprefix hstart hlength).isInfix

theorem findFrom?_of_first {word : List Char} : ∀ (count : Nat) {front back : List Char},
    ¬ word <:+: front ++ word.dropLast →
    findFrom? word count (front ++ word ++ back) = some (count + front.length)
  | count, [], back, hfirst => by
    cases word with
    | nil => exact absurd List.nil_infix hfirst
    | cons w word =>
      have hprefix : (w :: word).isPrefixOf (w :: (word ++ back)) = true :=
        List.isPrefixOf_iff_prefix.mpr ⟨back, rfl⟩
      show findFrom? (w :: word) count (w :: (word ++ back)) = _
      rw [findFrom?, if_pos hprefix]
      rfl
  | count, c :: front, back, hfirst => by
    have hnot : ¬ word.isPrefixOf (c :: (front ++ word ++ back)) = true := fun hprefix =>
      not_prefix_of_first hfirst (List.isPrefixOf_iff_prefix.mp hprefix)
    have hrest : ¬ word <:+: front ++ word.dropLast := fun hin =>
      hfirst (hin.trans (List.suffix_cons c _).isInfix)
    show findFrom? word count (c :: (front ++ word ++ back)) = _
    rw [findFrom?, if_neg hnot, findFrom?_of_first (count + 1) hrest, List.length_cons,
      Nat.add_assoc, Nat.add_comm 1]

theorem first_of_findFrom? {word : List Char} (hword : word ≠ []) :
    ∀ {count n : Nat} {s : List Char}, findFrom? word count s = some n →
      ∃ front back, s = front ++ word ++ back ∧ n = count + front.length ∧
        ¬ word <:+: front ++ word.dropLast
  | _, _, [], h => (nomatch h)
  | count, n, c :: rest, h => by
    rw [findFrom?] at h
    split at h
    · rename_i hprefix
      cases h
      obtain ⟨back, hback⟩ := List.isPrefixOf_iff_prefix.mp hprefix
      refine ⟨[], back, hback.symm, rfl, fun hin => ?_⟩
      have hlength := hin.length_le
      have hpos := List.length_pos_iff.mpr hword
      rw [List.nil_append, List.length_dropLast] at hlength
      omega
    · rename_i hprefix
      obtain ⟨front, back, rfl, rfl, hfirst⟩ := first_of_findFrom? hword h
      refine ⟨c :: front, back, rfl, ?_, fun hin => ?_⟩
      · rw [List.length_cons, Nat.add_assoc, Nat.add_comm 1]
      · rcases List.infix_cons_iff.mp hin with hstart | hin
        · refine hprefix (List.isPrefixOf_iff_prefix.mpr (hstart.trans ?_))
          rw [List.cons_prefix_cons]
          exact ⟨rfl, dropLast_prefix_append front word back⟩
        · exact hfirst hin

/-- **A word is found at the first place where the text reads it**: an earlier one would start before
it, and end before its last character does. -/
theorem find?_eq_some_iff {word s : List Char} {n : Nat} (hword : word ≠ []) :
    find? word s = some n ↔ ∃ front back, s = front ++ word ++ back ∧ n = front.length ∧
      ¬ word <:+: front ++ word.dropLast := by
  unfold find?
  constructor
  · intro h
    obtain ⟨front, back, hs, hn, hfirst⟩ := first_of_findFrom? hword h
    exact ⟨front, back, hs, by rw [hn, Nat.zero_add], hfirst⟩
  · rintro ⟨front, back, rfl, rfl, hfirst⟩
    rw [findFrom?_of_first 0 hfirst, Nat.zero_add]

end RawHtmlLint.Text

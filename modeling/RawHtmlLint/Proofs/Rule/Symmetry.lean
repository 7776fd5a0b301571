import RawHtmlLint.Proofs.Rule.Barrier

/-!
# Both sides of an insertion alike

Whether an insertion is suppressed is asked on each side of it by steps of one and of minus one.
Read from the end, the siblings have the step turned round, so the verdict is that on the siblings
in reverse. It depends only on the siblings that are at most two places away, so siblings that are
further off may be replaced, and others added where the sequence ends.

Results:
* `siblingAt?_reverse`: the places of the siblings counted from their end, with the places where
  there is none on both sides;
* `isSuppressed_reverse`, `isSuppressed_congr`: the verdict from the end, and what it depends on;
* `isSuppressed_symmetric_and_local`: a verdict is that on the mirrored siblings, and no sibling
  more than two places away has a part in it.
-/

namespace RawHtmlLint.Rule

open Template

variable {siblings : List Node} {rule : String}

/-! ## From the end -/

/-- A place counted from the end, where the reversed siblings may have none on either side. -/
theorem siblingAt?_reverse (siblings : List Node) (i : Int) :
    siblingAt? siblings.reverse (siblings.length - 1 - i) = siblingAt? siblings i := by
  have hlength : siblings.reverse.length = siblings.length := List.length_reverse
  by_cases hneg : i < 0
  · rw [siblingAt?_of_neg siblings hneg, siblingAt?_of_length_le _ (by omega)]
  by_cases hlarge : siblings.length ≤ i
  · rw [siblingAt?_of_length_le _ hlarge, siblingAt?_of_neg _ (by omega)]
  -- both places are within the siblings
  obtain ⟨k, rfl⟩ := Int.eq_ofNat_of_zero_le (Int.not_lt.mp hneg)
  have hk : k < siblings.length := by omega
  have hplace : (siblings.length : Int) - 1 - k = (siblings.length - 1 - k : Nat) := by omega
  rw [hplace, siblingAt?_natCast, siblingAt?_natCast, List.getElem?_reverse (by omega)]
  congr 1
  omega

/-- Seen from the end, a side of an insertion is the other one. -/
theorem isSuppressedOn_reverse (siblings : List Node) (i step : Int) (rule : String) :
    isSuppressedOn siblings.reverse (siblings.length - 1 - i) (-step) rule =
      isSuppressedOn siblings i step rule := by
  have hnear : (siblings.length : Int) - 1 - i + -step = siblings.length - 1 - (i + step) := by
    omega
  have hfar : (siblings.length : Int) - 1 - i + 2 * -step =
      siblings.length - 1 - (i + 2 * step) := by omega
  unfold isSuppressedOn
  rw [hnear, hfar, siblingAt?_reverse, siblingAt?_reverse]

theorem isSuppressed_reverse (siblings : List Node) (i : Int) (rule : String) :
    isSuppressed siblings.reverse (siblings.length - 1 - i) rule = isSuppressed siblings i rule := by
  have hafter := isSuppressedOn_reverse siblings i 1 rule
  have hbefore := isSuppressedOn_reverse siblings i (-1) rule
  rw [Int.neg_neg] at hbefore
  rw [isSuppressed_eq_sides, isSuppressed_eq_sides, hafter, hbefore, Bool.or_comm]

/-! ## Two places on each side -/

/-- **A verdict depends on the siblings at most two places away.** -/
theorem isSuppressed_congr {xs ys : List Node} {i j : Int}
    (h : ∀ d : Int, -2 ≤ d → d ≤ 2 → siblingAt? xs (i + d) = siblingAt? ys (j + d)) :
    isSuppressed xs i rule = isSuppressed ys j rule := by
  have hsame : ∀ d : Int, -2 ≤ d → d ≤ 2 →
      SameBeside rule (siblingAt? xs (i + d)) (siblingAt? ys (j + d)) := fun d hlow hhigh => by
    rw [h d hlow hhigh]
    exact .refl _
  rw [isSuppressed_eq_sides, isSuppressed_eq_sides, isSuppressedOn_congr (hsame 1 (by decide) (by decide))
      fun _ => hsame (2 * 1) (by decide) (by decide),
    isSuppressedOn_congr (hsame (-1) (by decide) (by decide))
      fun _ => hsame (2 * -1) (by decide) (by decide)]

theorem siblingAt?_append_left {i : Int} (back : List Node) (h : i < siblings.length) :
    siblingAt? (siblings ++ back) i = siblingAt? siblings i := by
  by_cases hneg : i < 0
  · rw [siblingAt?_of_neg _ hneg, siblingAt?_of_neg _ hneg]
  obtain ⟨k, rfl⟩ := Int.eq_ofNat_of_zero_le (Int.not_lt.mp hneg)
  rw [siblingAt?_natCast, siblingAt?_natCast, List.getElem?_append_left (Int.ofNat_lt.mp h)]

theorem siblingAt?_append_right {i : Int} (front : List Node) (h : 0 ≤ i) :
    siblingAt? (front ++ siblings) (front.length + i) = siblingAt? siblings i := by
  obtain ⟨k, rfl⟩ := Int.eq_ofNat_of_zero_le h
  rw [← Int.natCast_add, siblingAt?_natCast, siblingAt?_natCast,
    List.getElem?_append_right (by omega), Nat.add_sub_cancel_left]

/-- More siblings after the last leave the verdict as it is where two of the siblings follow. -/
theorem isSuppressed_append {i : Int} (back : List Node) (h : i < siblings.length - 2) :
    isSuppressed (siblings ++ back) i rule = isSuppressed siblings i rule :=
  isSuppressed_congr fun _ _ _ => siblingAt?_append_left back (by omega)

/-- More siblings before the first leave the verdict as it is where two of the siblings precede. -/
theorem isSuppressed_prepend {i : Int} (front : List Node) (h : 2 ≤ i) :
    isSuppressed (front ++ siblings) (front.length + i) rule = isSuppressed siblings i rule :=
  isSuppressed_congr fun d hlow _ => by
    rw [Int.add_assoc]
    exact siblingAt?_append_right front (by omega)

/-- **The verdict is symmetric and local.** At every index, also where there is no sibling, it is
the verdict on the siblings in reverse, at the index counted from the end. Siblings more than two
places away may be replaced by others, or be missing; and where two siblings stand on each side,
more may be added at both ends. -/
theorem isSuppressed_symmetric_and_local (siblings : List Node) (i : Int) (rule : String) :
    isSuppressed siblings i rule =
      isSuppressed siblings.reverse (siblings.length - 1 - i) rule ∧
    (∀ others : List Node,
      (∀ k : Nat, i - 2 ≤ k → k ≤ i + 2 → others[k]? = siblings[k]?) →
      isSuppressed others i rule = isSuppressed siblings i rule) ∧
    ∀ front back : List Node, 2 ≤ i → i < siblings.length - 2 →
      isSuppressed (front ++ siblings ++ back) (front.length + i) rule =
        isSuppressed siblings i rule := by
  refine ⟨(isSuppressed_reverse siblings i rule).symm, fun others hnear => ?_,
    fun front back hlow hhigh => ?_⟩
  · refine isSuppressed_congr fun d hlow hhigh => ?_
    by_cases hneg : i + d < 0
    · rw [siblingAt?_of_neg _ hneg, siblingAt?_of_neg _ hneg]
    obtain ⟨k, hk⟩ := Int.eq_ofNat_of_zero_le (Int.not_lt.mp hneg)
    rw [hk, siblingAt?_natCast, siblingAt?_natCast, hnear k (by omega) (by omega)]
  · rw [List.append_assoc, isSuppressed_prepend front hlow, isSuppressed_append back hhigh]

/-! A comment, an insertion and a paragraph, with white space between them. -/

def spacedOut : List Node :=
  [hedgeComment 0, .text ⟨34, 35⟩ " " " ", hedgeInsertion 35, .text ⟨44, 45⟩ "\n" "\n",
    .element .element ⟨45, 52⟩ "p" [] none]

/-- The comment suppresses the insertion after it, and the one before it in the mirrored siblings,
whatever comes three places after the insertion, and with insertions at both ends. -/
theorem spacedOut_suppressed : isSuppressed spacedOut.reverse 2 "unsafe_html" = true ∧
    (∀ last : Node, isSuppressed (spacedOut ++ [last]) 2 "unsafe_html" = true) ∧
    isSuppressed ([hedgeInsertion 0] ++ spacedOut ++ [hedgeInsertion 52]) 3 "unsafe_html" = true := by
  have hverdict : isSuppressed spacedOut 2 "unsafe_html" = true := by decide +kernel
  obtain ⟨hmirror, hlocal, hadded⟩ := isSuppressed_symmetric_and_local spacedOut 2 "unsafe_html"
  refine ⟨?_, fun last => ?_, ?_⟩
  · rw [← hverdict, hmirror]
    rfl
  · rw [← hverdict]
    refine hlocal _ fun k _ hk => List.getElem?_append_left ?_
    have hlength : spacedOut.length = 5 := rfl
    omega
  · rw [← hverdict, ← hadded [hedgeInsertion 0] [hedgeInsertion 52] (by decide) (by decide)]
    rfl

end RawHtmlLint.Rule

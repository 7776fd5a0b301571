import Mathlib.Data.List.Sort
import Mathlib.Data.List.TakeWhile
import RawHtmlLint.Path

/-!
# The suffixes and the order of paths

The suffix of a path is decided by where the last point of its last name stands. Paths are ordered
by their parts, which are compared one after the other and not as one text, so `a/x` comes before
`a-b/x`.

Results:
* `suffixOf_eq_iff`: the suffix of a name;
* `pairwise_sort`: sorted paths ascend strictly.
-/

namespace RawHtmlLint

namespace Path

/-! ## Suffixes -/

/-- The suffix of a name is what its last point starts, if something stands before that point and
something after it. Otherwise the name has none. -/
def IsSuffix (name suffix : List Char) : Prop :=
  (∃ stem ending, name = stem ++ '.' :: ending ∧ '.' ∉ ending ∧ stem ≠ [] ∧ ending ≠ [] ∧
      suffix = '.' :: ending) ∨
    (∀ stem ending, name = stem ++ '.' :: ending → '.' ∉ ending → stem = [] ∨ ending = []) ∧
      suffix = []

theorem ne_point {ending : List Char} (h : '.' ∉ ending) :
    ∀ c ∈ ending.reverse, decide (c ≠ '.') = true := by
  intro c hc
  rw [decide_eq_true_eq]
  rintro rfl
  exact h (List.mem_reverse.mp hc)

/-- The last point starts the suffix only if it is neither first nor last. -/
theorem suffixOf_append (stem : List Char) {ending : List Char} (h : '.' ∉ ending) :
    (stem ≠ [] ∧ ending ≠ [] ∧ suffixOf (stem ++ '.' :: ending) = '.' :: ending) ∨
      (stem = [] ∨ ending = []) ∧ suffixOf (stem ++ '.' :: ending) = [] := by
  have hending : (stem ++ '.' :: ending).reverse.takeWhile (· ≠ '.') = ending.reverse := by
    rw [List.reverse_append, List.reverse_cons, List.append_assoc,
      List.takeWhile_append_of_pos (ne_point h)]
    exact List.append_nil _
  have hlead : (stem ++ '.' :: ending).length - ending.length - 1 = stem.length := by
    rw [List.length_append, List.length_cons]
    omega
  unfold suffixOf
  rw [hending, List.reverse_reverse]
  dsimp only
  rw [hlead]
  cases stem with
  | nil => exact .inr ⟨.inl rfl, rfl⟩
  | cons c stem =>
    cases ending with
    | nil => exact .inr ⟨.inr rfl, by simp⟩
    | cons d ending => exact .inl ⟨List.cons_ne_nil _ _, List.cons_ne_nil _ _, by simp⟩

theorem suffixOf_of_not_mem {name : List Char} (h : '.' ∉ name) : suffixOf name = [] := by
  unfold suffixOf
  rw [List.takeWhile_eq_self_iff.mpr (ne_point h), List.reverse_reverse]
  dsimp only
  rw [Nat.sub_self]
  rfl

theorem exists_last_point {name : List Char} (h : '.' ∈ name) :
    ∃ stem ending, name = stem ++ '.' :: ending ∧ '.' ∉ ending := by
  obtain ⟨front, back, heq, hfront⟩ := List.eq_append_cons_of_mem (List.mem_reverse.mpr h)
  refine ⟨back.reverse, front.reverse, ?_, fun hmem => hfront (List.mem_reverse.mp hmem)⟩
  rw [← List.reverse_reverse name, heq, List.reverse_append, List.reverse_cons, List.append_assoc]
  rfl

/-- **The suffix of a name**, by where its last point stands. -/
theorem suffixOf_eq_iff {name suffix : List Char} :
    suffixOf name = suffix ↔ IsSuffix name suffix := by
  constructor
  · rintro rfl
    by_cases hnil : suffixOf name = []
    · refine .inr ⟨?_, hnil⟩
      rintro stem ending rfl hending
      rcases suffixOf_append stem hending with ⟨_, _, hsuffix⟩ | ⟨h, _⟩
      · rw [hnil] at hsuffix
        cases hsuffix
      · exact h
    · have hpoint : '.' ∈ name := by
        by_contra h
        exact hnil (suffixOf_of_not_mem h)
      obtain ⟨stem, ending, rfl, hending⟩ := exists_last_point hpoint
      rcases suffixOf_append stem hending with ⟨hstem, hne, hsuffix⟩ | ⟨_, h⟩
      · exact .inl ⟨stem, ending, rfl, hending, hstem, hne, hsuffix⟩
      · exact absurd h hnil
  · rintro (⟨stem, ending, rfl, hending, hstem, hne, rfl⟩ | ⟨hnone, rfl⟩)
    · rcases suffixOf_append stem hending with ⟨_, _, hsuffix⟩ | ⟨h | h, _⟩
      · exact hsuffix
      · exact absurd h hstem
      · exact absurd h hne
    · by_cases hpoint : '.' ∈ name
      · obtain ⟨stem, ending, rfl, hending⟩ := exists_last_point hpoint
        rcases suffixOf_append stem hending with ⟨hstem, hne, _⟩ | ⟨_, h⟩
        · exact absurd (hnone stem ending rfl hending) (not_or.mpr ⟨hstem, hne⟩)
        · exact h
      · exact suffixOf_of_not_mem hpoint

/-- A path has one of the suffixes. -/
theorem contains_suffix_iff {extensions : List String} {path : Path} :
    extensions.contains path.suffix = true ↔
      ∃ e ∈ extensions, IsSuffix (path.names.getLastD "").toList e.toList := by
  rw [List.contains_iff_mem]
  unfold suffix
  constructor
  · intro h
    exact ⟨_, h, suffixOf_eq_iff.mp (String.toList_ofList).symm⟩
  · rintro ⟨e, he, hsuffix⟩
    rw [suffixOf_eq_iff.mpr hsuffix, String.ofList_toList]
    exact he

/-! ## Order -/

theorem parts_append (path : Path) (names : List String) :
    (path.append names).parts = path.parts ++ names := by
  unfold append parts
  split
  · rfl
  · rfl

theorem mem_sort {path : Path} {paths : List Path} : path ∈ sort paths ↔ path ∈ paths :=
  List.mem_mergeSort

/-- **Sorted paths** ascend strictly, if no two have the same parts. -/
theorem pairwise_sort {paths : List Path} (h : (paths.map parts).Nodup) :
    (sort paths).Pairwise (·.parts < ·.parts) := by
  have hnodup : (sort paths).Pairwise (·.parts ≠ ·.parts) :=
    List.pairwise_map.mp (((List.mergeSort_perm paths _).map parts).nodup_iff.mpr h)
  have hsorted : (sort paths).Pairwise fun p q => ¬ q.parts < p.parts := by
    refine (List.pairwise_mergeSort (fun p q r hpq hqr => ?_) (fun p q => ?_) paths).imp
      of_decide_eq_true
    · have hpq : ¬ q.parts < p.parts := of_decide_eq_true hpq
      have hqr : ¬ r.parts < q.parts := of_decide_eq_true hqr
      exact decide_eq_true (List.le_trans hpq hqr)
    · rw [Bool.or_eq_true, decide_eq_true_eq, decide_eq_true_eq]
      exact List.le_total p.parts q.parts
  refine hsorted.imp₂ (fun p q hle hne => ?_) hnodup
  by_contra hlt
  exact hne (List.le_antisymm hle hlt)

/-- Lists that ascend strictly are the same if they have the same members. -/
theorem eq_of_pairwise_lt {paths paths' : List Path} (h : paths.Pairwise (·.parts < ·.parts))
    (h' : paths'.Pairwise (·.parts < ·.parts)) (hmem : ∀ path, path ∈ paths ↔ path ∈ paths') :
    paths = paths' := by
  have : Std.Irrefl fun p q : Path => p.parts < q.parts := ⟨fun p => List.lt_irrefl p.parts⟩
  have : Std.Antisymm fun p q : Path => p.parts < q.parts :=
    ⟨fun _ _ hlt hgt => absurd hgt (List.lt_asymm hlt)⟩
  exact h.eq_of_mem_iff h' hmem

/-- Paths that ascend strictly are what sorting makes of them in any order. -/
theorem sort_eq_of_perm {paths sorted : List Path} (hperm : paths.Perm sorted)
    (h : sorted.Pairwise (·.parts < ·.parts)) : sort paths = sorted := by
  have hnodup : (sorted.map parts).Nodup := by
    refine List.pairwise_map.mpr (h.imp fun {p q} hlt heq => ?_)
    rw [heq] at hlt
    exact List.lt_irrefl q.parts hlt
  exact eq_of_pairwise_lt (pairwise_sort ((hperm.map parts).nodup_iff.mpr hnodup)) h
    fun _ => mem_sort.trans hperm.mem_iff

/-- Parts are compared one after the other, not as one text. -/
example : ["a", "x"] < ["a-b", "x"] ∧ ["a-b", "x"] < ["a.svelte"] := by decide

end Path

end RawHtmlLint

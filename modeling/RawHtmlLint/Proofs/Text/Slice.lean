import RawHtmlLint.Text.Slice

/-!
# What slices and searches find

Results:
* `getElem?_slice`, `mem_slice_iff`: the characters of a slice are those of the text between its
  bounds;
* `mem_positions_iff`, `positions_sorted`: a search in a window finds all places of the class in
  it, in order;
* `positions_append`: a search may stop on the way and go on;
* `positions_eq_cons`: what it finds first, and what after that.
-/

namespace RawHtmlLint.Text

theorem zipIdx_sorted {α : Type} (l : List α) (k : Nat) :
    (l.zipIdx k).Pairwise fun a b => a.2 < b.2 := by
  have h : ((l.zipIdx k).map Prod.snd).Pairwise (· < ·) := by
    rw [List.zipIdx_map_snd]
    exact List.pairwise_lt_range'
  exact List.pairwise_map.mp h

theorem getElem?_slice (s : List Char) (start stop k : Nat) :
    (slice s start stop)[k]? = if start + k < stop then s[start + k]? else none := by
  unfold slice
  rw [List.getElem?_drop, List.getElem?_take]

/-- Two slices of which one goes on where the other ends are one slice. -/
theorem slice_append {s : List Char} {start middle stop : Nat} (hstart : start ≤ middle)
    (hstop : middle ≤ stop) : slice s start middle ++ slice s middle stop = slice s start stop := by
  have hstep : start + (middle - start) = middle := by omega
  have hlength : stop - start = (middle - start) + (stop - middle) := by omega
  unfold slice
  rw [List.drop_take, List.drop_take, List.drop_take, hlength, List.take_add, List.drop_drop, hstep]

theorem slice_cons {s : List Char} {start stop : Nat} {c : Char} (hlt : start < stop)
    (hc : s[start]? = some c) : slice s start stop = c :: slice s (start + 1) stop := by
  have hone : slice s start (start + 1) = [c] := by
    unfold slice
    rw [List.drop_take, Nat.add_sub_cancel_left, List.take_one, List.head?_drop, hc]
    rfl
  rw [← slice_append (Nat.le_succ start) hlt, hone]
  rfl

theorem slice_eq_nil {s : List Char} {start stop : Nat} (h : stop ≤ start ∨ s.length ≤ start) :
    slice s start stop = [] := by
  refine List.eq_nil_of_length_eq_zero ?_
  rw [length_slice]
  omega

theorem slice_add (s : List Char) (start n : Nat) :
    slice s start (start + n) = (s.drop start).take n := by
  unfold slice
  rw [List.drop_take, Nat.add_sub_cancel_left]

theorem slice_drop (s : List Char) (start n stop : Nat) :
    slice s (start + n) stop = (slice s start stop).drop n := by
  unfold slice
  rw [List.drop_drop]

theorem slice_append_drop {s : List Char} {start stop : Nat} (h : start ≤ stop) :
    slice s start stop ++ s.drop stop = s.drop start := by
  rw [← Nat.add_sub_cancel' h, slice_add, ← List.drop_drop, List.take_append_drop]

/-- A part of a slice is a slice. -/
theorem slice_part {s before inside after : List Char} {start stop : Nat} (hle : start ≤ stop)
    (h : slice s start stop = before ++ inside ++ after) :
    slice s (start + before.length) (start + before.length + inside.length) = inside := by
  have hrest := slice_append_drop (s := s) hle
  rw [h, List.append_assoc] at hrest
  rw [slice_drop, Nat.add_assoc, slice_add, ← hrest, ← List.length_append, List.take_left,
    List.drop_left]

/-- A slice that reads a word ends where the word does. -/
theorem stop_of_slice_eq {s word : List Char} {start stop : Nat} (h : slice s start stop = word)
    (hstop : stop ≤ s.length) (hword : word ≠ []) : stop = start + word.length := by
  have hlength := congrArg List.length h
  have hpos := List.length_pos_iff.mpr hword
  rw [length_slice, Nat.min_eq_left hstop] at hlength
  omega

theorem getElem?_congr_of_slice {s t : List Char} {start stop i : Nat}
    (h : slice s start stop = slice t start stop) (hi : start ≤ i) (hlt : i < stop) :
    s[i]? = t[i]? := by
  have hget := congrArg (·[i - start]?) h
  rwa [getElem?_slice, getElem?_slice, Nat.add_sub_cancel' hi, if_pos hlt, if_pos hlt] at hget

theorem slice_congr {s t : List Char} {start stop : Nat}
    (h : ∀ i, start ≤ i → i < stop → s[i]? = t[i]?) : slice s start stop = slice t start stop := by
  refine List.ext_getElem? fun k => ?_
  rw [getElem?_slice, getElem?_slice]
  split
  · rename_i hlt
    exact h _ (Nat.le_add_right _ _) hlt
  · rfl

/-- **The characters of a slice are those between its bounds.** -/
theorem mem_slice_iff {s : List Char} {start stop : Nat} {c : Char} :
    c ∈ slice s start stop ↔ ∃ j, start ≤ j ∧ j < stop ∧ s[j]? = some c := by
  rw [List.mem_iff_getElem?]
  constructor
  · rintro ⟨k, hk⟩
    rw [getElem?_slice] at hk
    split at hk
    · rename_i hlt
      exact ⟨start + k, Nat.le_add_right _ _, hlt, hk⟩
    · cases hk
  · rintro ⟨j, hle, hlt, hj⟩
    refine ⟨j - start, ?_⟩
    rw [getElem?_slice, Nat.add_sub_cancel' hle, if_pos hlt]
    exact hj

/-- **A search finds all places of the class in its window.** -/
theorem mem_positions_iff {p : Char → Bool} {s : List Char} {start stop j : Nat} :
    j ∈ positions p s start stop ↔
      start ≤ j ∧ j < stop ∧ ∃ c, s[j]? = some c ∧ p c = true := by
  have hslice : ∀ c, (c, j) ∈ (slice s start stop).zipIdx start ↔
      start ≤ j ∧ j < stop ∧ s[j]? = some c := by
    intro c
    rw [List.mk_mem_zipIdx_iff_le_and_getElem?_sub]
    refine and_congr_right fun hle => ?_
    rw [getElem?_slice, Nat.add_sub_cancel' hle]
    split
    · rename_i hlt
      exact ⟨fun h => ⟨hlt, h⟩, And.right⟩
    · rename_i hlt
      exact ⟨fun h => (nomatch h), fun h => absurd h.1 hlt⟩
  unfold positions
  rw [List.mem_filterMap]
  constructor
  · rintro ⟨⟨c, i⟩, hmem, hi⟩
    dsimp only at hi
    split at hi
    · rename_i hc
      cases hi
      obtain ⟨hle, hlt, hget⟩ := (hslice c).mp hmem
      exact ⟨hle, hlt, c, hget, hc⟩
    · cases hi
  · rintro ⟨hle, hlt, c, hget, hc⟩
    exact ⟨(c, j), (hslice c).mpr ⟨hle, hlt, hget⟩, if_pos hc⟩

/-- A search finds places in order. -/
theorem positions_sorted (p : Char → Bool) (s : List Char) (start stop : Nat) :
    (positions p s start stop).Pairwise (· < ·) := by
  refine List.pairwise_filterMap.mpr ((zipIdx_sorted _ _).imp fun {a b} hlt i hi j hj => ?_)
  split at hi
  · split at hj
    · cases hi
      cases hj
      exact hlt
    · cases hj
  · cases hi

/-- Two searches of which one goes on where the other ends are one search. -/
theorem positions_append {f : Char → Bool} {s : List Char} {start middle stop : Nat}
    (hstart : start ≤ middle) (hstop : middle ≤ stop) :
    positions f s start middle ++ positions f s middle stop = positions f s start stop := by
  rcases Nat.le_total middle s.length with hin | hout
  · have hlength : (slice s start middle).length = middle - start := by
      rw [length_slice, Nat.min_eq_left hin]
    unfold positions
    rw [← slice_append hstart hstop, List.zipIdx_append, List.filterMap_append, hlength,
      Nat.add_sub_cancel' hstart]
  · have hnil : slice s middle stop = [] := slice_eq_nil (.inr hout)
    have hsame : slice s start middle = slice s start stop := by
      rw [← slice_append hstart hstop, hnil, List.append_nil]
    unfold positions
    rw [hnil, hsame]
    exact List.append_nil _

/-- What a search finds first, and that it then goes on after it. -/
theorem positions_eq_cons {p : Char → Bool} {s : List Char} {start stop j : Nat} {js : List Nat}
    (h : positions p s start stop = j :: js) :
    (start ≤ j ∧ j < stop ∧ ∃ c, s[j]? = some c ∧ p c = true) ∧
      positions p s start j = [] ∧ js = positions p s (j + 1) stop := by
  have hj : j ∈ positions p s start stop := by
    rw [h]
    exact List.mem_cons_self
  have hfound := mem_positions_iff.mp hj
  obtain ⟨hle, hlt, hclass⟩ := hfound
  have hbefore : positions p s start j = [] := by
    refine List.eq_nil_iff_forall_not_mem.mpr fun i hi => ?_
    have hij := (positions_lt hi).2
    -- the first place found would be before itself
    have hmem : i ∈ j :: js := by
      rw [← h, ← positions_append hle (Nat.le_of_lt hlt)]
      exact List.mem_append_left _ hi
    have hsorted := positions_sorted p s start stop
    rw [h] at hsorted
    rcases List.mem_cons.mp hmem with rfl | hi
    · exact Nat.lt_irrefl _ hij
    · exact Nat.lt_asymm hij (List.rel_of_pairwise_cons hsorted hi)
  have hat : positions p s j (j + 1) = [j] := by
    obtain ⟨c, hget, hc⟩ := hclass
    unfold positions
    rw [slice_cons (Nat.lt_succ_self j) hget, slice_eq_nil (.inl (Nat.le_refl _))]
    simp [hc]
  have hsplit := positions_append (f := p) (s := s) hle (Nat.le_of_lt hlt)
  rw [hbefore, List.nil_append, h, ← positions_append (Nat.le_succ j) hlt, hat] at hsplit
  exact ⟨⟨hle, hlt, hclass⟩, hbefore, (List.cons.inj hsplit).2.symm⟩

theorem length_positions (f : Char → Bool) (s : List Char) (start stop : Nat) :
    (positions f s start stop).length = (slice s start stop).countP f := by
  have hsome : (fun c : Char × Nat => (if f c.1 then some c.2 else none).isSome) = f ∘ Prod.fst := by
    funext c
    cases hc : f c.1 <;> simp [hc]
  unfold positions
  rw [List.length_filterMap_eq_countP, hsome, ← List.countP_map, List.zipIdx_map_fst]

end RawHtmlLint.Text

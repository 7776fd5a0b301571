import RawHtmlLint.Proofs.Script.Automaton
import RawHtmlLint.Text.Blank

/-!
# Complete code

Code is complete if every literal, comment and bracket that it opens is closed in it. A closing
bracket that closes nothing does no harm. Where complete code ends, the scan is as it was at the
start, so that a text can be searched in parts.

Results:
* `Complete.met_append`: after complete code, the scan starts anew;
* `topLevel?_eq`: a search looks where the automaton meets code outside of brackets;
* `topLevel?_append_cons`, `topLevel?_append_eq_none`: a search in parts;
* `Complete.append_inert`: characters that mean nothing to the scan can follow.
-/

namespace RawHtmlLint.Script

open Text

/-! ## Complete code -/

/-- Every literal, comment and bracket is closed. -/
def State.Settled (σ : State) : Prop := σ.opened = [] ∧ (σ.mode = .code ∨ σ.mode = .slash)

instance (σ : State) : Decidable σ.Settled := inferInstanceAs (Decidable (_ ∧ (_ ∨ _)))

/-- Every literal, comment and bracket that the text opens is closed in it. -/
def Complete (s : List Char) : Prop := (State.start.after s).Settled

instance (s : List Char) : Decidable (Complete s) := inferInstanceAs (Decidable (State.Settled _))

/-- What is met of a text does not depend on a `/` before it that makes it no comment. -/
theorem State.Settled.met_eq {σ : State} (h : σ.Settled) {s : List Char} (hs : NoComment s)
    (index : Nat) : σ.met index s = State.start.met index s := by
  obtain ⟨mode, opened⟩ := σ
  obtain ⟨rfl : opened = [], rfl | rfl⟩ := h
  · rfl
  · exact met_slash hs

/-- **After complete code, the scan starts anew.** -/
theorem Complete.met_append {x y : List Char} (hx : Complete x) (hy : State.NoComment y)
    (index : Nat) : State.start.met index (x ++ y) =
      State.start.met index x ++ State.start.met (index + x.length) y := by
  rw [State.met_append hy, hx.met_eq hy]

/-! ## Characters that mean nothing to the scan -/

/-- The characters that the scan tells apart in code. -/
def signs : List Char := ['"', '\'', '\x60', '/', '*', '(', '[', '\x7b', ')', ']', '\x7d']

/-- In code, the character opens and closes nothing. -/
def Inert (c : Char) : Prop := c ∉ signs

instance (c : Char) : Decidable (Inert c) := inferInstanceAs (Decidable (¬ _))

theorem Inert.step {c : Char} (h : Inert c) {σ : State} (hσ : σ.Settled) :
    σ.step c = State.start := by
  simp only [Inert, signs, List.mem_cons, List.not_mem_nil, or_false, not_or] at h
  obtain ⟨mode, opened⟩ := σ
  obtain ⟨rfl : opened = [], rfl | rfl⟩ := hσ <;>
    simp [State.step, State.stepCode, State.start, isOpening, isClosing, h]

theorem Inert.noComment {c : Char} (h : Inert c) (s : List Char) : State.NoComment (c :: s) := by
  simp only [Inert, signs, List.mem_cons, List.not_mem_nil, or_false, not_or] at h
  simp [State.NoComment, h]

theorem Inert.isCode {c : Char} (h : Inert c) (next : Option Char) : isCode c next = true := by
  simp only [Inert, signs, List.mem_cons, List.not_mem_nil, or_false, not_or] at h
  simp [Script.isCode, h]

/-- No character of a class without signs is a sign. -/
theorem inert_of_class {p : Char → Bool} (hp : signs.all (fun c => !p c) = true) {c : Char}
    (h : p c = true) : Inert c := by
  intro hc
  have hnot := List.all_eq_true.mp hp c hc
  rw [h] at hnot
  cases hnot

theorem inert_of_allBlank {s : List Char} (h : allBlank s = true) : ∀ c ∈ s, Inert c :=
  fun c hc => inert_of_class (by decide) (List.all_eq_true.mp h c hc)

theorem noComment_of_isBlank {c : Char} (h : isBlank c = true) (s : List Char) :
    State.NoComment (c :: s) :=
  Inert.noComment (inert_of_class (by decide) h) s

theorem noComment_of_inert {s : List Char} (h : ∀ c ∈ s, Inert c) : State.NoComment s := by
  cases s with
  | nil => exact ⟨nofun, nofun⟩
  | cons c s => exact (h c List.mem_cons_self).noComment s

theorem after_inert {x : List Char} (hx : ∀ c ∈ x, Inert c) : State.start.after x = State.start := by
  induction x with
  | nil => rfl
  | cons c x ih =>
    obtain ⟨hc, hx⟩ := List.forall_mem_cons.mp hx
    show (State.start.step c).after x = State.start
    rw [hc.step ⟨rfl, Or.inl rfl⟩, ih hx]

/-- Before code, such characters only move it. -/
theorem Complete.inert_append {x y : List Char} (hx : ∀ c ∈ x, Inert c) (hy : Complete y) :
    Complete (x ++ y) := by
  have hafter : State.start.after (x ++ y) = State.start.after y := by
    rw [State.after, List.foldl_append]
    exact congrArg (List.foldl State.step · y) (after_inert hx)
  unfold Complete
  rwa [hafter]

theorem mem_met_inert_append {x y : List Char} (hx : ∀ c ∈ x, Inert c) {i depth : Nat} :
    (x.length + i, depth) ∈ State.start.met 0 (x ++ y) ↔ (i, depth) ∈ State.start.met 0 y := by
  have hstate : ∀ k, State.start.after ((x ++ y).take (x.length + k)) =
      State.start.after (y.take k) := fun k => by
    rw [List.take_length_add_append, State.after, List.foldl_append]
    exact congrArg (List.foldl State.step · (y.take k)) (after_inert hx)
  have hget : ∀ k, (x ++ y)[x.length + k]? = y[k]? := fun k => by
    rw [List.getElem?_append_right (Nat.le_add_right _ _), Nat.add_sub_cancel_left]
  rw [State.mem_met_iff, State.mem_met_iff]
  constructor
  · rintro ⟨k, c, hk, hc, hreads, hdepth⟩
    obtain rfl : k = x.length + i := by omega
    rw [hstate] at hreads hdepth
    rw [hget] at hc
    rw [Nat.add_assoc, hget] at hreads
    exact ⟨i, c, (Nat.zero_add i).symm, hc, hreads, hdepth⟩
  · rintro ⟨k, c, hk, hc, hreads, hdepth⟩
    obtain rfl : k = i := by omega
    refine ⟨x.length + k, c, (Nat.zero_add _).symm, by rwa [hget], ?_, by rwa [hstate]⟩
    rwa [hstate, Nat.add_assoc, hget]

/-- Complete code stays complete if characters that mean nothing to the scan follow. -/
theorem Complete.append_inert {x y : List Char} (hx : Complete x) (hy : ∀ c ∈ y, Inert c) :
    Complete (x ++ y) := by
  induction y generalizing x with
  | nil => rwa [List.append_nil]
  | cons c y ih =>
    obtain ⟨hc, hy⟩ := List.forall_mem_cons.mp hy
    have hstep : Complete (x ++ [c]) := by
      have hafter : State.start.after (x ++ [c]) = (State.start.after x).step c := by
        rw [State.after, List.foldl_append]
        rfl
      unfold Complete
      rw [hafter, hc.step hx]
      exact ⟨rfl, Or.inl rfl⟩
    have h := ih hstep hy
    rwa [List.append_assoc] at h

/-! ## Searching in parts -/

section Search

variable {α : Type} {pattern : List Char → Option (Nat × α)}

theorem findSome?_congr {β γ : Type} {f g : β → Option γ} : ∀ {l : List β},
    (∀ a ∈ l, f a = g a) → l.findSome? f = l.findSome? g
  | [], _ => rfl
  | a :: l, h => by
    obtain ⟨ha, hl⟩ := List.forall_mem_cons.mp h
    rw [List.findSome?_cons, List.findSome?_cons, ha, findSome?_congr hl]

/-- A search looks at each place where code is met that no bracket encloses. -/
theorem topLevel?_eq (pattern : List Char → Option (Nat × α)) (text : List Char) :
    topLevel? pattern text 0 = (State.start.met 0 text).findSome? fun c =>
      if c.2 = 0 then
        (pattern (text.drop c.1)).map fun m => (c.1, c.1 + m.1, m.2)
      else none := by
  have hmet : State.start.met 0 text =
      (Cursor.ofText text 0).stops.map fun stop => (stop.index, stop.depth) :=
    (Cursor.map_stops (.ofText text 0)).symm
  rw [topLevel?, findCode?_eq_findSome?, hmet, List.findSome?_map]
  refine findSome?_congr fun stop hstop => ?_
  obtain ⟨n, hindex, hrest, _⟩ := stop_ahead hstop
  have hrest : stop.rest = text.drop stop.index := by
    rw [hrest, hindex, Cursor.ofText, List.drop_zero, Nat.zero_add]
  rw [Function.comp_apply, hrest]

theorem lt_of_mem_met {s : List Char} {i depth : Nat} (h : (i, depth) ∈ State.start.met 0 s) :
    i < s.length := by
  obtain ⟨k, c, rfl, hc, _, _⟩ := State.mem_met_iff.mp h
  rw [Nat.zero_add]
  exact (List.getElem?_eq_some_iff.mp hc).1

theorem topLevel?_eq_none_iff {text : List Char} : topLevel? pattern text 0 = none ↔
    ∀ i, (i, 0) ∈ State.start.met 0 text → pattern (text.drop i) = none := by
  rw [topLevel?_eq, List.findSome?_eq_none_iff]
  constructor
  · intro h i hi
    simpa using h (i, 0) hi
  · rintro h ⟨i, depth⟩ hi
    dsimp only
    split
    · rename_i hdepth
      subst hdepth
      rw [h i hi, Option.map_none]
    · rfl

/-- A pattern that is not found in complete code is found at the first character after it, if it is
there. -/
theorem topLevel?_append_cons {x y : List Char} {c : Char} {m : Nat × α} (hx : Complete x)
    (hcode : isCode c y.head? = true) (hseam : State.NoComment (c :: y))
    (hmiss : ∀ i, (i, 0) ∈ State.start.met 0 x → pattern (x.drop i ++ c :: y) = none)
    (hm : pattern (c :: y) = some m) :
    topLevel? pattern (x ++ c :: y) 0 = some (x.length, x.length + m.1, m.2) := by
  have hreads : State.start.reads c y.head? = true := hcode
  rw [topLevel?_eq, hx.met_append hseam, Nat.zero_add, State.met_cons_of_reads hreads,
    List.findSome?_append, List.findSome?_cons]
  have hnone : (State.start.met 0 x).findSome? (fun d =>
      if d.2 = 0 then
        (pattern ((x ++ c :: y).drop d.1)).map fun m => (d.1, d.1 + m.1, m.2)
      else none) = none := by
    rw [List.findSome?_eq_none_iff]
    rintro ⟨i, depth⟩ hi
    dsimp only
    split
    · rename_i hdepth
      subst hdepth
      rw [List.drop_append_of_le_length (Nat.le_of_lt (lt_of_mem_met hi)), hmiss i hi]
      rfl
    · rfl
  have hfirst : State.start.depth = 0 := rfl
  rw [hnone, hfirst, List.drop_left, hm]
  rfl

/-- The pattern looks at one character only. -/
def ReadsOne (pattern : List Char → Option (Nat × α)) : Prop :=
  pattern [] = none ∧ ∀ c s, pattern (c :: s) = pattern [c]

theorem ReadsOne.drop_append (h : ReadsOne pattern) {x : List Char} {i : Nat} (hi : i < x.length)
    (y : List Char) : pattern (x.drop i ++ y) = pattern (x.drop i) := by
  rw [List.drop_eq_getElem_cons hi, List.cons_append, h.2, h.2 _ (x.drop (i + 1))]

/-- A pattern that looks at one character only and does not find it in complete code finds it
nowhere if none of the characters after it is one. -/
theorem topLevel?_append_eq_none {x y : List Char} (hpattern : ReadsOne pattern) (hx : Complete x)
    (hy : State.NoComment y) (hmiss : topLevel? pattern x 0 = none)
    (hnone : ∀ c ∈ y, pattern [c] = none) : topLevel? pattern (x ++ y) 0 = none := by
  rw [topLevel?_eq_none_iff] at hmiss ⊢
  intro i hi
  rw [hx.met_append hy, List.mem_append] at hi
  rcases hi with hi | hi
  · have hlt := lt_of_mem_met hi
    rw [List.drop_append_of_le_length (Nat.le_of_lt hlt), hpattern.drop_append hlt, hmiss i hi]
  · obtain ⟨k, c, rfl, hc, _, _⟩ := State.mem_met_iff.mp hi
    obtain ⟨hlt, hget⟩ := List.getElem?_eq_some_iff.mp hc
    rw [Nat.zero_add, ← List.drop_drop, List.drop_left, List.drop_eq_getElem_cons hlt, hpattern.2,
      hget]
    exact hnone c (List.mem_of_getElem? hc)

end Search

end RawHtmlLint.Script

import Mathlib.Data.List.Pairwise
import RawHtmlLint.Proofs.Template.Adaptation
import RawHtmlLint.Proofs.Text.Blank
import RawHtmlLint.Proofs.Text.Search

/-!
# What the adaptation finds

The adaptation searches the text once, from left to right, for comments and elements that are left
alone and for the beginnings of tags. Each search starts where the last match ended.

Results:
* `Signed.opening?_eq`: the beginning of a tag, by the parts it is written from;
* `search_induction`: what holds past each match, or past a character where there is none, holds of
  all texts;
* `found_ordered`, `mem_found`, `found_first`: matches come one after the other, each stands in the
  text, and there is no match outside of them.
-/

namespace RawHtmlLint.Template.Markup

open Text

/-! ## What the search finds -/

/-- Something that the search finds, with the index it starts at. -/
inductive Found where
  /-- A comment, or a script or style element. -/
  | untouched (start length : Nat)
  /-- The beginning of a tag. -/
  | beginning (start : Nat) (o : Opening)
  deriving DecidableEq, Repr

namespace Found

def start : Found → Nat
  | untouched start _ => start
  | beginning start _ => start

/-- The index after it. -/
def stop : Found → Nat
  | untouched start length => start + length
  | beginning start o => start + o.length

/-- The text reads it there. -/
def Matches (s : List Char) : Found → Prop
  | untouched start length => untouched? (s.drop start) = some length
  | beginning start o => untouched? (s.drop start) = none ∧ opening? (s.drop start) = some o

end Found

/-- What is found in a text that starts at the index: each search goes on where the last one
ended. -/
def foundFrom (index : Nat) : List Char → List Found
  | [] => []
  | c :: rest =>
    match untouched? (c :: rest) with
    | some length => .untouched index length :: foundFrom (index + length) (rest.drop (length - 1))
    | none =>
      match opening? (c :: rest) with
      | some o => .beginning index o :: foundFrom (index + o.length) (rest.drop (o.length - 1))
      | none => foundFrom (index + 1) rest
termination_by s => s.length

/-- What is found in a text. -/
def found (s : List Char) : List Found := foundFrom 0 s

/-! ## Tags with a sigil -/

/-- A text that starts like a tag with a sigil: a brace, white space, the sign, white space, and what
is no white space. -/
structure Signed (s lead : List Char) (sign : Char) (gap after : List Char) : Prop where
  text_eq : s = '\x7b' :: (lead ++ sign :: (gap ++ after))
  lead_blank : allBlank lead = true
  sign_visible : isBlank sign = false
  gap_blank : allBlank gap = true
  after_visible : ∀ c ∈ after.head?, isBlank c = false

namespace Signed

variable {s lead gap after : List Char} {sign : Char}

theorem blankCount_lead (h : Signed s lead sign gap after) :
    blankCount (lead ++ sign :: (gap ++ after)) = lead.length :=
  blankCount_append h.lead_blank fun _ hc => Option.some.inj hc ▸ h.sign_visible

theorem blankCount_gap (h : Signed s lead sign gap after) :
    blankCount (gap ++ after) = gap.length :=
  blankCount_append h.gap_blank h.after_visible

theorem drop_eq (h : Signed s lead sign gap after) :
    s.drop (lead.length + 2 + gap.length) = after := by
  have hsplit : s = ('\x7b' :: (lead ++ sign :: gap)) ++ after := by
    rw [h.text_eq]
    simp only [List.cons_append, List.append_assoc]
  rw [hsplit, List.drop_left']
  simp only [List.length_cons, List.length_append]
  omega

theorem opening?_eq (h : Signed s lead sign gap after) :
    opening? s = (sigil? sign).bind fun sigil => (Keyword.read? after).bind fun k =>
      some ⟨lead.length + 1, sigil, gap.length, k⟩ := by
  rw [h.text_eq]
  simp only [opening?, h.blankCount_lead, List.drop_left, h.blankCount_gap, Option.bind_eq_bind]

end Signed

theorem sigil?_visible {c : Char} {sigil : Sigil} (h : sigil? c = some sigil) :
    isBlank c = false := by
  rcases sigil?_eq_some h with ⟨rfl, _⟩ | ⟨rfl, _⟩ | ⟨rfl, _⟩ <;> decide

theorem opening?_signed {s : List Char} {o : Opening} (h : opening? s = some o) :
    ∃ lead sign gap after, Signed s lead sign gap (o.keyword.spelling ++ after) ∧
      lead.length + 1 = o.lead ∧ gap.length = o.gap ∧ sigil? sign = some o.sigil := by
  obtain ⟨lead, gap, sign, after, hs, hlead, hgap, hsign, hblank, hgapBlank, _⟩ :=
    opening?_eq_some h
  refine ⟨lead, sign, gap, after, ⟨hs, List.all_eq_true.mpr hblank, sigil?_visible hsign,
    List.all_eq_true.mpr hgapBlank, fun c hc => ?_⟩, hlead, hgap, hsign⟩
  revert hc
  cases o.keyword <;> (intro hc; cases hc; decide)

/-! ## How long it is -/

theorem comment?_le {s : List Char} {n : Nat} (h : comment? s = some n) : n ≤ s.length := by
  unfold comment? at h
  split at h
  · obtain ⟨k, hk, rfl⟩ := Option.map_eq_some_iff.mp h
    obtain ⟨front, back, hsplit, rfl, _⟩ := (find?_eq_some_iff (by decide)).mp hk
    have hlength := congrArg List.length hsplit
    simp only [List.length_drop, List.length_append, List.length_cons, List.length_nil] at hlength
    omega
  · cases h

theorem closingTag?_le {name s : List Char} {n : Nat} (h : closingTag? name s = some n) :
    n ≤ s.length := by
  unfold closingTag? at h
  dsimp only at h
  split at h
  · split at h
    · rename_i hbracket
      cases h
      exact (List.getElem?_eq_some_iff.mp hbracket).1
    · cases h
  · cases h

theorem closingTagEnd?_le {name : List Char} : ∀ {s : List Char} {count n : Nat},
    closingTagEnd? name count s = some n → n ≤ count + s.length
  | [], _, _, h => (nomatch h)
  | c :: rest, count, n, h => by
    unfold closingTagEnd? at h
    split at h
    · rename_i length hlength
      cases h
      exact Nat.add_le_add_left (closingTag?_le hlength) count
    · have hrest := closingTagEnd?_le h
      rw [List.length_cons]
      omega

theorem rawElement?_le {name s : List Char} {n : Nat} (h : rawElement? name s = some n) :
    n ≤ s.length := by
  unfold rawElement? at h
  dsimp only at h
  split at h
  · rename_i hstart
    have hprefix := List.isPrefixOf_iff_prefix.mp (Bool.and_eq_true _ _ ▸ hstart).1
    have hend := closingTagEnd?_le h
    rw [List.length_drop] at hend
    have hle := hprefix.length_le
    omega
  · cases h

/-- What is left alone is a part of the text. -/
theorem untouched?_le {s : List Char} {n : Nat} (h : untouched? s = some n) : n ≤ s.length := by
  unfold untouched? at h
  split at h
  · rename_i length hcomment
    cases h
    exact comment?_le hcomment
  · split at h
    · rename_i length hscript
      cases h
      exact rawElement?_le hscript
    · exact rawElement?_le h

/-- The text of the beginning of a tag. -/
theorem opening?_head {s : List Char} {o : Opening} (h : opening? s = some o) :
    ∃ lead gap sign,
      s.take o.length = '\x7b' :: (lead ++ sign :: (gap ++ o.keyword.spelling)) ∧
      lead.length + 1 = o.lead ∧ gap.length = o.gap := by
  obtain ⟨lead, gap, sign, after, hs, hlead, hgap, _⟩ := opening?_eq_some h
  refine ⟨lead, gap, sign, ?_, hlead, hgap⟩
  have hlength : ('\x7b' :: (lead ++ sign :: (gap ++ o.keyword.spelling))).length = o.length := by
    simp only [List.length_cons, List.length_append, Opening.length, Opening.before,
      Keyword.length]
    omega
  have hsplit : s = '\x7b' :: (lead ++ sign :: (gap ++ o.keyword.spelling)) ++ after := by
    rw [hs]
    simp only [List.cons_append, List.append_assoc]
  rw [hsplit, ← hlength, List.take_left]

theorem opening?_le {s : List Char} {o : Opening} (h : opening? s = some o) :
    o.length ≤ s.length := by
  obtain ⟨lead, gap, sign, hhead, hlead, hgap⟩ := opening?_head h
  have hlength := congrArg List.length hhead
  simp only [List.length_take, List.length_cons, List.length_append] at hlength
  unfold Opening.length Opening.before Keyword.length at hlength ⊢
  omega

/-! ## One search after the other -/

/-- Text is searched from its start: past what is left alone, past the beginning of a tag, or past
one character. -/
@[elab_as_elim]
theorem search_induction {motive : List Char → Prop} (nil : motive [])
    (untouched : ∀ s n, untouched? s = some n → motive (s.drop n) → motive s)
    (beginning : ∀ s o, untouched? s = none → opening? s = some o → motive (s.drop o.length) →
      motive s)
    (pass : ∀ c s, untouched? (c :: s) = none → opening? (c :: s) = none → motive s →
      motive (c :: s)) (s : List Char) : motive s := by
  generalize hsize : s.length = size
  induction size using Nat.strong_induction_on generalizing s with
  | _ size ih =>
    cases s with
    | nil => exact nil
    | cons c s =>
      have hdrop : ∀ n, 0 < n → motive ((c :: s).drop n) := by
        intro n hn
        refine ih _ ?_ _ rfl
        rw [List.length_drop, ← hsize, List.length_cons]
        omega
      cases hu : untouched? (c :: s) with
      | some n => exact untouched _ n hu (hdrop n (untouched?_pos hu))
      | none =>
        cases ho : opening? (c :: s) with
        | some o => exact beginning _ o hu ho (hdrop _ (opening_length_pos o))
        | none => exact pass c s hu ho (hdrop 1 Nat.one_pos)

theorem exists_cons_drop {s : List Char} {n : Nat} (hpos : 0 < n) (hle : n ≤ s.length) :
    ∃ c rest, s = c :: rest ∧ rest.drop (n - 1) = s.drop n := by
  obtain ⟨c, rest, rfl⟩ := List.exists_cons_of_length_pos (Nat.lt_of_lt_of_le hpos hle)
  refine ⟨c, rest, rfl, ?_⟩
  rw [← List.drop_succ_cons (a := c), Nat.sub_add_cancel hpos]

section

variable {s : List Char} {n : Nat} {o : Opening} {c : Char}

theorem foundFrom_untouched (index : Nat) (h : untouched? s = some n) :
    foundFrom index s = .untouched index n :: foundFrom (index + n) (s.drop n) := by
  obtain ⟨c, rest, rfl, hrest⟩ := exists_cons_drop (untouched?_pos h) (untouched?_le h)
  rw [foundFrom, h, ← hrest]

theorem foundFrom_beginning (index : Nat) (hnone : untouched? s = none)
    (h : opening? s = some o) :
    foundFrom index s = .beginning index o :: foundFrom (index + o.length) (s.drop o.length) := by
  obtain ⟨c, rest, rfl, hrest⟩ := exists_cons_drop (opening_length_pos o) (opening?_le h)
  rw [foundFrom, hnone, h, ← hrest]

theorem foundFrom_pass (index : Nat) (hnone : untouched? (c :: s) = none)
    (h : opening? (c :: s) = none) : foundFrom index (c :: s) = foundFrom (index + 1) s := by
  rw [foundFrom, hnone, h]

theorem adaptFrom_untouched (blocks : List Bool) (done : List Char) (h : untouched? s = some n) :
    adaptFrom blocks done s = adaptFrom blocks ((s.take n).reverse ++ done) (s.drop n) := by
  obtain ⟨c, rest, rfl, hrest⟩ := exists_cons_drop (untouched?_pos h) (untouched?_le h)
  rw [adaptFrom, h, ← hrest]

theorem adaptFrom_beginning (blocks : List Bool) (done : List Char) (hnone : untouched? s = none)
    (h : opening? s = some o) :
    adaptFrom blocks done s =
      adaptFrom (change o (s.drop o.length) blocks).2
        (((change o (s.drop o.length) blocks).1.apply o (s.take o.length)).reverse ++ done)
        (s.drop o.length) := by
  obtain ⟨c, rest, rfl, hrest⟩ := exists_cons_drop (opening_length_pos o) (opening?_le h)
  rw [adaptFrom, hnone, h]
  dsimp only
  rw [hrest]

theorem adaptFrom_pass (blocks : List Bool) (done : List Char)
    (hnone : untouched? (c :: s) = none) (h : opening? (c :: s) = none) :
    adaptFrom blocks done (c :: s) = adaptFrom blocks (c :: done) s := by
  rw [adaptFrom, hnone, h]

end

/-! ## Places of what is found -/

section

variable {src : List Char}

theorem foundFrom_le (s : List Char) (index : Nat) : ∀ f ∈ foundFrom index s, index ≤ f.start := by
  induction s using search_induction generalizing index with
  | nil =>
    intro f hf
    rw [foundFrom] at hf
    exact absurd hf List.not_mem_nil
  | untouched s n hu ih =>
    rw [foundFrom_untouched index hu]
    refine List.forall_mem_cons.mpr ⟨Nat.le_refl index, fun f hf => ?_⟩
    exact Nat.le_trans (Nat.le_add_right _ _) (ih _ f hf)
  | beginning s o hu ho ih =>
    rw [foundFrom_beginning index hu ho]
    refine List.forall_mem_cons.mpr ⟨Nat.le_refl index, fun f hf => ?_⟩
    exact Nat.le_trans (Nat.le_add_right _ _) (ih _ f hf)
  | pass c s hu ho ih =>
    rw [foundFrom_pass index hu ho]
    exact fun f hf => Nat.le_of_succ_le (ih _ f hf)

theorem foundFrom_ordered (s : List Char) (index : Nat) :
    (foundFrom index s).Pairwise fun f g => f.stop ≤ g.start := by
  induction s using search_induction generalizing index with
  | nil =>
    rw [foundFrom]
    exact .nil
  | untouched s n hu ih =>
    rw [foundFrom_untouched index hu]
    exact .cons (foundFrom_le _ _) (ih _)
  | beginning s o hu ho ih =>
    rw [foundFrom_beginning index hu ho]
    exact .cons (foundFrom_le _ _) (ih _)
  | pass c s hu ho ih =>
    rw [foundFrom_pass index hu ho]
    exact ih _

theorem drop_add_of_drop {s : List Char} {index : Nat} (hs : src.drop index = s) (n : Nat) :
    src.drop (index + n) = s.drop n := by
  rw [← List.drop_drop, hs]

theorem mem_foundFrom (s : List Char) {index : Nat} (hs : src.drop index = s) :
    ∀ f ∈ foundFrom index s, f.Matches src := by
  induction s using search_induction generalizing index with
  | nil =>
    intro f hf
    rw [foundFrom] at hf
    exact absurd hf List.not_mem_nil
  | untouched s n hu ih =>
    rw [foundFrom_untouched index hu]
    refine List.forall_mem_cons.mpr ⟨?_, ih (drop_add_of_drop hs n)⟩
    rw [Found.Matches, hs, hu]
  | beginning s o hu ho ih =>
    rw [foundFrom_beginning index hu ho]
    refine List.forall_mem_cons.mpr ⟨?_, ih (drop_add_of_drop hs o.length)⟩
    rw [Found.Matches, hs]
    exact ⟨hu, ho⟩
  | pass c s hu ho ih =>
    rw [foundFrom_pass index hu ho]
    exact ih (drop_add_of_drop hs 1)

/-- The text reads nothing that is searched for at an index that is not part of what is found. -/
theorem foundFrom_first (s : List Char) {index : Nat} (hs : src.drop index = s) {i : Nat}
    (hi : index ≤ i) (hlt : i < src.length)
    (hout : ∀ f ∈ foundFrom index s, ¬ (f.start ≤ i ∧ i < f.stop)) :
    untouched? (src.drop i) = none ∧ opening? (src.drop i) = none := by
  induction s using search_induction generalizing index with
  | nil =>
    have hend := List.drop_eq_nil_iff.mp hs
    omega
  | untouched s n hu ih =>
    rw [foundFrom_untouched index hu] at hout
    obtain ⟨hhead, hout⟩ := List.forall_mem_cons.mp hout
    refine ih (drop_add_of_drop hs n) ?_ hout
    exact Nat.le_of_not_lt fun hlt => hhead ⟨hi, hlt⟩
  | beginning s o hu ho ih =>
    rw [foundFrom_beginning index hu ho] at hout
    obtain ⟨hhead, hout⟩ := List.forall_mem_cons.mp hout
    refine ih (drop_add_of_drop hs o.length) ?_ hout
    exact Nat.le_of_not_lt fun hlt => hhead ⟨hi, hlt⟩
  | pass c s hu ho ih =>
    rw [foundFrom_pass index hu ho] at hout
    rcases Nat.eq_or_lt_of_le hi with rfl | hi
    · rw [hs]
      exact ⟨hu, ho⟩
    · exact ih (drop_add_of_drop hs 1) hi hout

end

/-- What is found comes one after the other. -/
theorem found_ordered (s : List Char) : (found s).Pairwise fun f g => f.stop ≤ g.start :=
  foundFrom_ordered s 0

/-- None of the two reaches into the other one. -/
def Found.Apart (f g : Found) : Prop := f.stop ≤ g.start ∨ g.stop ≤ f.start

instance : Std.Symm Found.Apart := ⟨fun _ _ => Or.symm⟩

theorem found_apart (s : List Char) {f g : Found} (hf : f ∈ found s) (hg : g ∈ found s)
    (hne : f ≠ g) : f.Apart g := by
  have hall : (found s).Pairwise Found.Apart := (found_ordered s).imp Or.inl
  exact hall.forall hf hg hne

/-- **What is found stands in the text.** -/
theorem mem_found {s : List Char} {f : Found} (hf : f ∈ found s) : f.Matches s :=
  mem_foundFrom s rfl f hf

/-- **Nothing else is found**: what starts at a later index of the text would start inside of
something found. -/
theorem found_first {s : List Char} {i : Nat} (hlt : i < s.length)
    (hout : ∀ f ∈ found s, ¬ (f.start ≤ i ∧ i < f.stop)) :
    untouched? (s.drop i) = none ∧ opening? (s.drop i) = none :=
  foundFrom_first s rfl (Nat.zero_le i) hlt hout

end RawHtmlLint.Template.Markup

import Mathlib.Data.List.Infix
import Mathlib.Data.List.TakeWhile
import RawHtmlLint.Text.Entity

/-!
# Texts whose character references cannot be read

The only references that are not read are decimal ones with too many digits. No reference holds an
ampersand but the one it starts with, so none is passed over inside another: a text has a decoded
form unless such a reference stands somewhere in it.

Results:
* `decode_eq_none_iff`: when a text has no decoded form.
-/

namespace RawHtmlLint.Text

/-- A decimal reference with more digits than are read stands in the text. -/
def HoldsOversized (s : List Char) : Prop :=
  ∃ digits, ('&' :: '#' :: digits) <:+: s ∧ (∀ d ∈ digits, d.isDigit = true) ∧
    maxDecimalDigits < digits.length

theorem HoldsOversized.of_infix {s t : List Char} (h : HoldsOversized s) (hst : s <:+: t) :
    HoldsOversized t := by
  obtain ⟨digits, hin, hdigits⟩ := h
  exact ⟨digits, hin.trans hst, hdigits⟩

/-! ## What a reference holds -/

/-- Characters of a class without the ampersand, with the semicolon that may follow them. -/
theorem ampersand_not_mem_take {p : Char → Bool} (hp : p '&' = false) {s : List Char}
    (rest : List Char) (hs : ∀ c ∈ s, p c = true) : '&' ∉ (s ++ rest).take (withSemicolon s rest) := by
  have hnot : '&' ∉ s := fun h => by
    rw [hs _ h] at hp
    exact (nomatch hp)
  unfold withSemicolon
  split
  · rename_i hhead
    obtain ⟨rest, rfl⟩ := List.head?_eq_some_iff.mp hhead
    rw [List.take_length_add_append, List.take_succ_cons, List.take_zero]
    intro h
    rcases List.mem_append.mp h with h | h
    · exact hnot h
    · exact absurd (List.mem_singleton.mp h) (by decide)
  · rw [List.take_left]
    exact hnot

/-- **No reference holds a further ampersand.** -/
theorem ampersand_not_mem_reference {s : List Char} {reference : Reference} {length : Nat}
    (h : reference? s = some (reference, length)) : '&' ∉ s.take length := by
  unfold reference? at h
  split at h
  · rename_i rest
    have hsharp : '&' ≠ '#' := by decide
    split at h
    · rename_i d ds hdigits
      cases h
      have hclass : ∀ c ∈ d :: ds, c.isDigit = true := hdigits ▸ fun c => List.mem_takeWhile_imp
      have hnot := ampersand_not_mem_take (by decide) (rest.dropWhile Char.isDigit) hclass
      rw [← hdigits, List.takeWhile_append_dropWhile, hdigits] at hnot
      exact List.not_mem_cons_of_ne_of_not_mem hsharp hnot
    · split at h
      · rename_i x rest _
        dsimp only at h
        split at h
        · rename_i hx
          cases h
          have hletter : '&' ≠ x := by
            rintro rfl
            rw [Bool.and_eq_true] at hx
            exact absurd hx.1 (by decide)
          have hclass : ∀ c ∈ rest.takeWhile fun c => (hexDigit? c).isSome,
            (hexDigit? c).isSome = true := fun c => List.mem_takeWhile_imp
          have hsplit := List.prefix_iff_eq_append.mp
            (List.takeWhile_prefix (l := rest) fun c => (hexDigit? c).isSome)
          have hnot := ampersand_not_mem_take (by decide) (rest.drop
            (rest.takeWhile fun c => (hexDigit? c).isSome).length) hclass
          rw [hsplit] at hnot
          exact List.not_mem_cons_of_ne_of_not_mem hsharp
            (List.not_mem_cons_of_ne_of_not_mem hletter hnot)
        · cases h
      · cases h
  · split at h
    · cases h
    · rename_i c name hname
      cases h
      have hclass : ∀ d ∈ c :: name, isNameChar d = true := hname ▸ fun d => List.mem_takeWhile_imp
      have hprefix : (c :: name) <+: s :=
        hname ▸ (List.takeWhile_prefix _).trans (List.take_prefix _ _)
      have hnot := ampersand_not_mem_take (by decide) (s.drop (name.length + 1)) hclass
      rw [show (c :: name) ++ s.drop (name.length + 1) = s from List.prefix_iff_eq_append.mp hprefix]
        at hnot
      exact hnot

/-! ## Decoding -/

/-- A decimal reference with too many digits is the one that is read at its ampersand. -/
theorem image_of_oversized {s digits back : List Char} (hs : s = '#' :: (digits ++ back))
    (hdigits : ∀ d ∈ digits, d.isDigit = true) (hlong : maxDecimalDigits < digits.length) :
    ∃ reference length, reference? s = some (reference, length) ∧ reference.image? = none := by
  subst hs
  have hwhole : digits <+: (digits ++ back).takeWhile Char.isDigit := by
    rw [List.takeWhile_append_of_pos hdigits]
    exact List.prefix_append _ _
  cases hread : (digits ++ back).takeWhile Char.isDigit with
  | nil =>
    rw [hread, List.prefix_nil] at hwhole
    rw [hwhole] at hlong
    exact absurd hlong (Nat.not_lt_zero _)
  | cons d ds =>
    have hle := hwhole.length_le
    rw [hread] at hle
    have hread : reference? ('#' :: (digits ++ back)) = some (.decimal (d :: ds),
        withSemicolon (d :: ds) ((digits ++ back).dropWhile Char.isDigit) + 1) := by
      unfold reference?
      simp only [hread]
    refine ⟨_, _, hread, ?_⟩
    unfold Reference.image?
    dsimp only
    rw [if_pos (Nat.lt_of_lt_of_le hlong hle)]

/-- The digits of a decimal reference are all those that stand there. -/
theorem digits_of_reference {s digits : List Char} {length : Nat}
    (h : reference? s = some (.decimal digits, length)) :
    ∃ rest, s = '#' :: rest ∧ digits = rest.takeWhile Char.isDigit := by
  unfold reference? at h
  split at h
  · rename_i rest
    split at h
    · rename_i d ds hdigits
      cases h
      exact ⟨rest, rfl, hdigits.symm⟩
    · split at h
      · dsimp only at h
        split at h <;> cases h
      · cases h
  · split at h <;> cases h

/-- What a reference stands for is known, unless it is a decimal one with too many digits. -/
theorem image?_eq_none {reference : Reference} (h : reference.image? = none) :
    ∃ digits, reference = .decimal digits ∧ maxDecimalDigits < digits.length := by
  -- whatever the table of names may be
  obtain ⟨known, hknown⟩ : ∃ known, known = entity? := ⟨_, rfl⟩
  delta Reference.image? at h
  rw [← hknown] at h
  split at h
  · rename_i digits
    split at h
    · rename_i hlong
      exact ⟨digits, rfl, hlong⟩
    · exact absurd h (Option.some_ne_none _)
  · exact absurd h (Option.some_ne_none _)
  · split at h <;> exact absurd h (Option.some_ne_none _)
theorem oversized_of_reference {s : List Char} {reference : Reference} {length : Nat}
    (h : reference? s = some (reference, length)) (himage : reference.image? = none) :
    HoldsOversized ('&' :: s) := by
  obtain ⟨digits, rfl, hlong⟩ := image?_eq_none himage
  obtain ⟨rest, rfl, rfl⟩ := digits_of_reference h
  refine ⟨rest.takeWhile Char.isDigit, ?_, fun c => List.mem_takeWhile_imp, hlong⟩
  have hprefix := List.takeWhile_prefix (l := rest) Char.isDigit
  exact List.IsPrefix.isInfix
    ((List.prefix_cons_inj _).mpr ((List.prefix_cons_inj _).mpr hprefix))

/-- What starts with an ampersand and stands somewhere in a text after another ampersand stands
after what that one refers to. -/
theorem HoldsOversized.of_cons {c : Char} {s : List Char} (h : HoldsOversized (c :: s)) :
    HoldsOversized s ∨ c = '&' ∧ ∃ digits back, s = '#' :: (digits ++ back) ∧
      (∀ d ∈ digits, d.isDigit = true) ∧ maxDecimalDigits < digits.length := by
  obtain ⟨digits, hin, hdigits, hlong⟩ := h
  rcases List.infix_cons_iff.mp hin with ⟨back, hback⟩ | hin
  · right
    obtain ⟨rfl, hs⟩ := List.cons.inj hback
    exact ⟨rfl, digits, back, hs.symm, hdigits, hlong⟩
  · exact Or.inl ⟨digits, hin, hdigits, hlong⟩

/-- An oversized reference does not start inside another reference. -/
theorem HoldsOversized.drop {s : List Char} {n : Nat} (h : HoldsOversized s)
    (hnot : '&' ∉ s.take n) : HoldsOversized (s.drop n) := by
  obtain ⟨digits, ⟨front, back, rfl⟩, hdigits, hlong⟩ := h
  have hle : n ≤ front.length := by
    rw [← Nat.not_lt]
    intro hlt
    refine hnot ?_
    rw [List.append_assoc, List.take_append, List.mem_append]
    right
    obtain ⟨k, hk⟩ : ∃ k, n - front.length = k + 1 := ⟨n - front.length - 1, by omega⟩
    rw [hk]
    exact List.mem_cons_self
  refine ⟨digits, ⟨front.drop n, back, ?_⟩, hdigits, hlong⟩
  rw [List.append_assoc, List.append_assoc, List.drop_append_of_le_length hle]

/-- **A text has no decoded form** exactly if a decimal reference with too many digits stands in
it. -/
theorem decode_eq_none_iff : ∀ {s : List Char}, decode s = none ↔ HoldsOversized s
  | [] => by
    rw [decode]
    constructor
    · intro h
      cases h
    · rintro ⟨digits, hin, _⟩
      cases List.infix_nil.mp hin
  | c :: rest => by
    have hmap : ∀ {x : Option (List Char)} {f : List Char → List Char},
        (do return f (← x) : Option (List Char)) = none ↔ x = none := fun {x f} => by
      cases x <;> simp
    rw [decode]
    split
    · rename_i hc
      subst hc
      split
      · rename_i reference length href
        cases himage : reference.image? with
        | none => exact ⟨fun _ => oversized_of_reference href himage, fun _ => rfl⟩
        | some image =>
          have ih := decode_eq_none_iff (s := rest.drop length)
          refine hmap.trans (ih.trans ⟨fun h => h.of_infix ?_, fun h => ?_⟩)
          · exact ((List.drop_suffix _ _).trans (List.suffix_cons _ _)).isInfix
          · -- it does not start at this ampersand, whose reference can be read
            rcases h.of_cons with h | ⟨_, digits, back, hrest, hdigits, hlong⟩
            · exact h.drop (ampersand_not_mem_reference href)
            · obtain ⟨reference', length', href', himage'⟩ :=
                image_of_oversized hrest hdigits hlong
              cases href.symm.trans href'
              cases himage.symm.trans himage'
      · rename_i href
        refine hmap.trans (decode_eq_none_iff.trans ⟨fun h => ?_, fun h => ?_⟩)
        · exact h.of_infix (List.suffix_cons _ _).isInfix
        · rcases h.of_cons with h | ⟨_, digits, back, hrest, hdigits, hlong⟩
          · exact h
          · obtain ⟨reference, length, href', _⟩ := image_of_oversized hrest hdigits hlong
            cases href.symm.trans href'
    · rename_i hc
      refine hmap.trans (decode_eq_none_iff.trans ⟨fun h => ?_, fun h => ?_⟩)
      · exact h.of_infix (List.suffix_cons _ _).isInfix
      · exact h.of_cons.resolve_right fun h => hc h.1
termination_by s => s.length

end RawHtmlLint.Text

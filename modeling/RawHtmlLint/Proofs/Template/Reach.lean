import Mathlib.Data.List.Infix
import Mathlib.Data.List.TakeWhile
import RawHtmlLint.Proofs.Outcome
import RawHtmlLint.Proofs.Template.Tags
import RawHtmlLint.Proofs.Text.Blank
import RawHtmlLint.Template.Block

/-!
# How far a search reaches

The offsets at which something is read, and at which a component is rejected, are sums of what
searches have answered: where a brace is closed, how long a keyword or a separator is, how many
blanks stand before a word. None of these sums leaves the text that was searched. A keyword ends
before the brace that closes its tag, since a brace is no letter.

Results:
* `topLevel?_some`: where a separator is found, and how far it goes;
* `before_add_length_le`: a word that stands in a text ends in it;
* `rest_le_of_closes`: the keyword of a tag ends before its closing brace.
-/

namespace RawHtmlLint

namespace Text

/-- The characters of a class end before the first one that is not of the class. -/
theorem length_takeWhile_le {p : Char → Bool} {s : List Char} {i : Nat} {c : Char}
    (h : s[i]? = some c) (hc : p c = false) : (s.takeWhile p).length ≤ i := by
  refine Nat.le_of_not_lt fun hlt => ?_
  have hget : (s.takeWhile p)[i]? = some c := by
    rw [← h]
    exact (List.prefix_iff_getElem?.mp (List.takeWhile_prefix p)) i hlt ▸
      List.getElem?_eq_getElem hlt
  have hmem := List.mem_takeWhile_imp (List.mem_of_getElem? hget)
  rw [hc] at hmem
  exact (nomatch hmem)

/-- A word that stands in a text is found in it. -/
theorem findFrom?_of_infix {word : List Char} (hword : word ≠ []) : ∀ (count : Nat) {s : List Char},
    word <:+: s → ∃ n, findFrom? word count s = some n ∧ n + word.length ≤ count + s.length
  | _, [], h => absurd (List.infix_nil.mp h) hword
  | count, c :: rest, h => by
    unfold findFrom?
    split
    · rename_i hprefix
      exact ⟨count, rfl, Nat.add_le_add_left (List.isPrefixOf_iff_prefix.mp hprefix).length_le _⟩
    · rename_i hprefix
      have hrest := (List.infix_cons_iff.mp h).resolve_left fun h =>
        hprefix (List.isPrefixOf_iff_prefix.mpr h)
      obtain ⟨n, hn, hle⟩ := findFrom?_of_infix hword (count + 1) hrest
      refine ⟨n, hn, ?_⟩
      rw [List.length_cons]
      omega

/-- **A word that stands in a text ends in it.** -/
theorem before_add_length_le {word s : List Char} (hword : word ≠ []) (h : word <:+: s) :
    before word s + word.length ≤ s.length := by
  obtain ⟨n, hn, hle⟩ := findFrom?_of_infix hword 0 h
  unfold before find?
  rw [hn, Option.getD_some]
  omega

end Text

namespace Script

open Text

/-- **Where a separator is found**, and how far it goes. -/
theorem topLevel?_some {α : Type} {pattern : List Char → Option (Nat × α)} {text : List Char}
    {before after : Nat} {a : α} (h : topLevel? pattern text 0 = some (before, after, a)) :
    ∃ n, pattern (text.drop before) = some (n, a) ∧ after = before + n ∧ before ≤ text.length := by
  rw [topLevel?, findCode?_eq_findSome?] at h
  obtain ⟨stop, hmem, hstop⟩ := List.exists_of_findSome?_eq_some h
  obtain ⟨k, hindex, hrest, hne⟩ := stop_ahead hmem
  split at hstop
  · obtain ⟨⟨n, b⟩, hpattern, hfound⟩ := Option.map_eq_some_iff.mp hstop
    cases hfound
    have hindex : stop.index = k := by
      rw [hindex]
      exact Nat.zero_add k
    rw [Cursor.ofText, List.drop_zero] at hrest
    rw [hrest] at hpattern hne
    rw [hindex]
    refine ⟨n, hpattern, rfl, Nat.le_of_not_lt fun hlt => hne ?_⟩
    exact List.drop_of_length_le (Nat.le_of_lt hlt)
  · cases hstop

/-- A separator that goes no further than the text it is looked for in ends in the text. -/
theorem topLevel?_le {α : Type} {pattern : List Char → Option (Nat × α)}
    (hpattern : ∀ s n a, pattern s = some (n, a) → n ≤ s.length) {text : List Char}
    {before after : Nat} {a : α} (h : topLevel? pattern text 0 = some (before, after, a)) :
    before ≤ after ∧ after ≤ text.length := by
  obtain ⟨n, hn, rfl, hle⟩ := topLevel?_some h
  have hlength := hpattern _ _ _ hn
  rw [List.length_drop] at hlength
  omega

end Script

namespace Template

open Text

/-! ## Separators -/

namespace Separator

theorem eachAs_le {s : List Char} {n : Nat} {u : Unit} (h : eachAs s = some (n, u)) :
    n ≤ s.length := by
  unfold eachAs at h
  dsimp only at h
  split at h
  · rename_i hmatch
    cases h
    rw [Bool.and_eq_true, Bool.and_eq_true] at hmatch
    have hword := (List.isPrefixOf_iff_prefix.mp hmatch.1.2).length_le
    have htrail := blankCount_le ((s.drop (blankCount s)).drop 2)
    rw [List.length_drop] at hword
    rw [List.length_drop, List.length_drop] at htrail
    simp only [List.length_cons, List.length_nil] at hword
    omega
  · cases h

theorem keyword?_le {word s : List Char} {n : Nat} (h : keyword? word s = some n) :
    n ≤ s.length := by
  unfold keyword? at h
  dsimp only at h
  split at h
  · rename_i hmatch
    cases h
    rw [Bool.and_eq_true, Bool.and_eq_true] at hmatch
    have hword := (List.isPrefixOf_iff_prefix.mp hmatch.1.2).length_le
    have hlead := blankCount_le s
    rw [List.length_drop] at hword
    omega
  · cases h

theorem openParenthesis_le {s : List Char} {n : Nat} {u : Unit}
    (h : openParenthesis s = some (n, u)) : n ≤ s.length := by
  unfold openParenthesis at h
  split at h
  · cases h
    exact Nat.succ_le_succ (Nat.zero_le _)
  · cases h

end Separator

/-! ## Tags -/

theorem lt_size_of_at? {s : Source} {p : Nat} {c : Char} (h : s.at? p = some c) : p < s.size :=
  (List.getElem?_eq_some_iff.mp h).1

/-- **The keyword of a tag ends before its closing brace**, if there is anything before the
brace. -/
theorem rest_le_of_closes {s : Source} {lead close : Nat} (hlead : lead < close)
    (hclose : s.at? close = some '\x7d') :
    lead + 1 + ((s.text.drop (lead + 1)).takeWhile isLetter).length ≤ close := by
  have hget : (s.text.drop (lead + 1))[close - (lead + 1)]? = some '\x7d' := by
    rw [List.getElem?_drop, Nat.add_sub_cancel' hlead]
    exact hclose
  have hle := length_takeWhile_le hget (p := isLetter) (by decide)
  omega

/-- The tag lies in the source, and if it has a sigil, its keyword lies in the tag. -/
structure Header.Fits (s : Source) (h : Header) : Prop where
  start_lt_close : h.start < h.close
  close_lt_size : h.close < s.size
  rest_le : h.sigil.isSome = true → h.rest ≤ h.close

theorem Header.Fits.start_le {s : Source} {h : Header} (hf : h.Fits s) : h.start ≤ s.size :=
  Nat.le_of_lt (Nat.lt_trans hf.start_lt_close hf.close_lt_size)

/-- What follows the keyword is as long as the way to the closing brace. -/
theorem Header.Fits.rest_add_length {s : Source} {h : Header} (hf : h.Fits s)
    (hsigil : h.sigil.isSome = true) : h.rest + (h.body s).length = h.close := by
  have hrest := hf.rest_le hsigil
  have hclose : h.close < s.text.length := hf.close_lt_size
  unfold Header.body Source.slice
  rw [length_slice]
  omega

/-- A closing brace is found after the opening one, in the source. -/
theorem closingBrace?_inside {s : Source} {opening close : Nat}
    (h : Script.closingBrace? s.text (opening + 1) = some close) :
    opening < close ∧ close < s.size ∧ s.at? close = some '\x7d' := by
  obtain ⟨hle, hget⟩ := Script.closingBrace?_some h
  exact ⟨hle, lt_size_of_at? hget, hget⟩

/-- The tag of a brace lies in the source. -/
theorem Header.read_fits {s : Source} {start : Nat} {h : Header}
    (hok : Header.read s start = .ok h) : h.Fits s := by
  obtain ⟨close, hclose, hok⟩ := bind_eq_ok.mp hok
  obtain rfl := pure_eq_ok.mp hok
  unfold Source.closingBrace at hclose
  split at hclose
  · rename_i found hfound
    cases hclose
    obtain ⟨hlt, hsize, hget⟩ := closingBrace?_inside hfound
    refine ⟨hlt, hsize, fun hsigil => ?_⟩
    dsimp only at hsigil ⊢
    split at hsigil
    · rename_i hlead
      exact rest_le_of_closes hlead hget
    · cases hsigil
  · exact absurd hclose reject_ne_ok

/-- What is taken for a block starts with a brace and goes on after it. -/
theorem opens_of_role_block {s : Source} {t : Grammar.Tree} (h : role s t = .part .block) :
    s.at? (s.span t).start = some '\x7b' ∧ (s.span t).start < (s.span t).stop := by
  unfold role at h
  split at h
  · cases h
  · split at h
    · cases h
    · split at h
      · cases h
      · split at h
        · cases h
        · split at h
          · rename_i hopens
            refine ⟨hopens, ?_⟩
            unfold braceRole at h
            split at h
            · cases h
            · rename_i close hclose
              have hlt := (closingBrace?_inside hclose).1
              split at h
              · cases h
              · omega
          · split at h <;> cases h

end Template

end RawHtmlLint

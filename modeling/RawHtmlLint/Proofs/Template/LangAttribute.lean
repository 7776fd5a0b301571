import Mathlib.Data.List.Basic
import RawHtmlLint.Proofs.Text.Blank
import RawHtmlLint.Proofs.Text.Slice
import RawHtmlLint.Template.Attribute

/-!
# How a text names TypeScript

The language of all expressions is read off the text of the opening tags: somewhere in one of them
a word `lang` starts, in any letter case, with `ts` or `typescript` as its value, in any letter
case as well. What follows the value does not matter where a word ends with it.

Results:
* `startsWithTypeScript_attribute`: an attribute `lang` names TypeScript if its value does;
* `namesTypeScript_slice`: where a text names TypeScript;
* `isTypeScriptElement_iff`: which elements name it in their tags.
-/

namespace RawHtmlLint

open Grammar Text

namespace Text

/-! ## Words in any letter case -/

theorem isWord_of_isAlpha {c : Char} (h : c.isAlpha = true) : isWord c = true := by
  have hlt : c.toNat < 0x80 := by
    unfold Char.isAlpha Char.isUpper Char.isLower at h
    simp only [Bool.or_eq_true, Bool.and_eq_true, decide_eq_true_iff, ge_iff_le,
      UInt32.le_iff_toNat_le] at h
    show c.val.toNat < 0x80
    rcases h with ⟨_, h⟩ | ⟨_, h⟩
    · exact Nat.lt_of_le_of_lt h (by decide)
    · exact Nat.lt_of_le_of_lt h (by decide)
  unfold isWord
  rw [if_pos hlt, Char.isAlphanum, h]
  rfl

theorem isAlpha_of_isLower_toLower {c : Char} (h : c.toLower.isLower = true) :
    c.isAlpha = true := by
  unfold Char.toLower at h
  unfold Char.isAlpha
  rw [Bool.or_eq_true]
  split at h
  · rename_i hupper
    exact Or.inl (decide_eq_true hupper)
  · exact Or.inr h

end Text

namespace Template

theorem isWord_of_isLetterForm {letter c : Char} (hletter : letter.isLower = true)
    (h : isLetterForm letter c = true) : isWord c = true := by
  unfold isLetterForm at h
  rw [Bool.or_eq_true, Bool.or_eq_true, Bool.and_eq_true, Bool.and_eq_true, Bool.or_eq_true,
    beq_iff_eq, beq_iff_eq, beq_iff_eq, beq_iff_eq, beq_iff_eq, beq_iff_eq] at h
  rcases h with (rfl | ⟨_, rfl⟩) | ⟨_, rfl | rfl⟩
  · exact isWord_of_isAlpha (isAlpha_of_isLower_toLower hletter)
  · decide +kernel
  · decide +kernel
  · decide +kernel

/-- The text starts with the word, in any letter case, and the word ends there. -/
def startsWithWholeWord (word s : List Char) : Bool :=
  startsWithWord word s && endsWord (s.drop word.length)

/-- What follows where a word ends does not matter to the words before it. -/
theorem startsWithWholeWord_append : ∀ {word s t : List Char}, word.all Char.isLower = true →
    endsWord t = true → startsWithWholeWord word (s ++ t) = startsWithWholeWord word s
  | [], [], t, _, ht => by
    show (true && endsWord t) = true
    rw [ht]
    rfl
  | [], c :: s, t, _, _ => rfl
  | letter :: word, [], [], _, _ => rfl
  | letter :: word, [], c :: t, hword, ht => by
    rw [List.all_cons, Bool.and_eq_true] at hword
    have hnot : isLetterForm letter c = false := by
      rw [Bool.eq_false_iff]
      intro hform
      rw [endsWord, isWord_of_isLetterForm hword.1 hform] at ht
      exact absurd ht Bool.false_ne_true
    show ((isLetterForm letter c && _) && _) = _
    rw [hnot]
    rfl
  | letter :: word, c :: s, t, hword, ht => by
    rw [List.all_cons, Bool.and_eq_true] at hword
    have ih := startsWithWholeWord_append (s := s) hword.2 ht
    unfold startsWithWholeWord at ih ⊢
    show ((isLetterForm letter c && startsWithWord word (s ++ t)) &&
        endsWord ((s ++ t).drop word.length)) =
      ((isLetterForm letter c && startsWithWord word s) && endsWord (s.drop word.length))
    rw [Bool.and_assoc, Bool.and_assoc, ih]

/-! ## Values of attributes -/

/-- The text starts with a name of TypeScript, in any letter case. -/
def startsWithName (s : List Char) : Bool :=
  ["ts".toList, "typescript".toList].any fun name => startsWithWholeWord name s

theorem startsWithName_append {s t : List Char} (ht : endsWord t = true) :
    startsWithName (s ++ t) = startsWithName s := by
  unfold startsWithName
  rw [List.any_cons, List.any_cons, List.any_nil, List.any_cons, List.any_cons, List.any_nil,
    startsWithWholeWord_append (by decide) ht, startsWithWholeWord_append (by decide) ht]

theorem startsWithName_of_contains {s : List Char}
    (h : ["ts", "typescript"].contains (String.ofList s) = true) : startsWithName s = true := by
  have hlist : ∀ {name : String}, String.ofList s = name → s = name.toList := fun h => by
    rw [← h, String.toList_ofList]
  rcases List.mem_cons.mp (List.contains_iff_mem.mp h) with h | h
  · rw [hlist h]
    decide
  · rw [hlist (List.mem_singleton.mp h)]
    decide

/-- The text without a quote at its start. -/
def afterQuote : List Char → List Char
  | '"' :: s | '\'' :: s => s
  | s => s

theorem afterQuote_eq_self {s : List Char} (hdouble : ∀ t, s ≠ '"' :: t)
    (hsingle : ∀ t, s ≠ '\'' :: t) : afterQuote s = s := by
  unfold afterQuote
  split
  · exact absurd rfl (hdouble _)
  · exact absurd rfl (hsingle _)
  · rfl

/-- An assignment to `lang` starts the text, and its value starts with a name of TypeScript. -/
theorem startsWithTypeScript_eq (s : List Char) :
    startsWithTypeScript s = (startsWithWord "lang".toList s &&
      (valueAfter? (s.drop 4)).any fun value => startsWithName (afterQuote value)) := by
  unfold startsWithTypeScript valueAfter?
  congr 1
  split
  · rename_i rest _
    rw [Option.any_some]
    generalize trimStart rest = value
    dsimp only
    split
    · rfl
    · rfl
    · rename_i hdouble hsingle
      rw [afterQuote_eq_self hdouble hsingle]
      rfl
  · rfl

/-- The value between its quotes, or a value without quotes; nothing if the value is empty or its
quotes are not closed. -/
def inQuotes? : List Char → Option (List Char)
  | [] => none
  | c :: rest =>
    if c = '"' ∨ c = '\'' then if rest.getLast? = some c then some rest.dropLast else none
    else some (c :: rest)

/-- A value in quotes, or without any. -/
theorem inQuotes?_cases {value inner : List Char} (h : inQuotes? value = some inner) :
    (∃ quote, (quote = '"' ∨ quote = '\'') ∧ value = quote :: (inner ++ [quote])) ∨
      ∃ c rest, c ≠ '"' ∧ c ≠ '\'' ∧ value = c :: rest ∧ inner = c :: rest := by
  cases value with
  | nil => exact (nomatch h)
  | cons c rest =>
    rw [inQuotes?] at h
    split at h
    · rename_i hquote
      split at h
      · rename_i hlast
        cases h
        exact Or.inl ⟨c, hquote, by rw [List.dropLast_append_getLast? c hlast]⟩
      · cases h
    · rename_i hquote
      cases h
      exact Or.inr ⟨c, rest, fun hc => hquote (Or.inl hc), fun hc => hquote (Or.inr hc), rfl, rfl⟩

theorem unquoted_of_inQuotes? {value inner : List Char} (h : inQuotes? value = some inner) :
    unquoted (some (String.ofList value)) = String.ofList inner := by
  unfold unquoted
  rcases inQuotes?_cases h with ⟨quote, hquote, rfl⟩ | ⟨c, rest, hdouble, hsingle, rfl, rfl⟩
  · have hlast : (quote :: (inner ++ [quote])).getLast? = some quote :=
      List.getLast?_concat (l := quote :: inner)
    rcases hquote with rfl | rfl <;> simp [hlast]
  · simp [hdouble, hsingle]

/-- After the quote at its start, a value goes on with what is in the quotes and then ends. -/
theorem afterQuote_append {value inner rest : List Char} (h : inQuotes? value = some inner)
    (hrest : endsWord rest = true) :
    ∃ after, afterQuote (value ++ rest) = inner ++ after ∧ endsWord after = true := by
  rcases inQuotes?_cases h with ⟨quote, hquote, rfl⟩ | ⟨c, s, hdouble, hsingle, rfl, rfl⟩
  · refine ⟨quote :: rest, ?_, ?_⟩
    · rcases hquote with rfl | rfl <;> simp [afterQuote]
    · show (!isWord quote) = true
      rcases hquote with rfl | rfl <;> decide
  · refine ⟨rest, afterQuote_eq_self ?_ ?_, hrest⟩
    · rintro t heq
      exact hdouble (List.head_eq_of_cons_eq heq)
    · rintro t heq
      exact hsingle (List.head_eq_of_cons_eq heq)

/-- A value goes on with what follows it. -/
theorem valueAfter?_append {s t value : List Char} (h : valueAfter? s = some value)
    (hvalue : value ≠ []) : valueAfter? (s ++ t) = some (value ++ t) := by
  unfold valueAfter? at h ⊢
  split at h
  · rename_i rest heq
    cases h
    rw [trimStart_append (by rw [heq]; exact List.cons_ne_nil _ _), heq, List.cons_append]
    exact congrArg some (trimStart_append hvalue)
  · cases h

/-- **A plain attribute `lang` names TypeScript if its value does**, whatever follows it: `after`
is the text from the end of the name, `value` the value as it is written in it. -/
theorem startsWithTypeScript_attribute {after rest value inner : List Char}
    (hafter : valueAfter? after = some value) (hinner : inQuotes? value = some inner)
    (hrest : endsWord rest = true) :
    startsWithTypeScript ("lang".toList ++ (after ++ rest)) = startsWithName inner := by
  have hvalue : value ≠ [] := by
    rintro rfl
    exact (nomatch hinner)
  have hdrop : ("lang".toList ++ (after ++ rest)).drop 4 = after ++ rest := rfl
  obtain ⟨tail, htail, hends⟩ := afterQuote_append hinner hrest
  rw [startsWithTypeScript_eq, hdrop, valueAfter?_append hafter hvalue, Option.any_some, htail,
    startsWithName_append hends]
  rfl

end Template

/-! ## Where a text names TypeScript -/

namespace Source

variable (s : Source)

/-- The character before an offset. -/
def previous? (offset : Nat) : Option Char := if offset = 0 then none else s.at? (offset - 1)

/-- A word may start at the offset: none goes on there. -/
def startsWordAt (offset : Nat) : Bool := !(s.previous? offset).any isWord

end Source

namespace Template

/-- The text starts with an assignment to `lang`, in any letter case. -/
def startsWithLang (s : List Char) : Bool :=
  startsWithWord "lang".toList s && (valueAfter? (s.drop 4)).isSome

/-- A word that is `lang` with a value starts at the offset, in a text up to `stop`. -/
def langAt (s : Source) (stop offset : Nat) : Bool :=
  s.startsWordAt offset && startsWithLang (s.slice offset stop)

/-- A word that is `lang` with a name of TypeScript as its value starts at the offset. -/
def typeScriptAt (s : Source) (stop offset : Nat) : Bool :=
  s.startsWordAt offset && startsWithTypeScript (s.slice offset stop)

theorem langAt_of_typeScriptAt {s : Source} {stop offset : Nat}
    (h : typeScriptAt s stop offset = true) : langAt s stop offset = true := by
  unfold typeScriptAt at h
  unfold langAt startsWithLang
  rw [startsWithTypeScript_eq, Bool.and_eq_true, Bool.and_eq_true, Option.any_eq_true] at h
  obtain ⟨hword, hlang, value, hvalue, _⟩ := h
  rw [hword, hlang, hvalue]
  rfl

/-- **A text names TypeScript** if an assignment to `lang` that does starts in it, at the start of
a word. -/
theorem namesTypeScript_slice (s : Source) (stop : Nat) : ∀ (n start : Nat), stop - start ≤ n →
    (namesTypeScript (s.previous? start) (s.slice start stop) = true ↔
      ∃ p < stop, start ≤ p ∧ typeScriptAt s stop p = true) := by
  intro n
  induction n with
  | zero =>
    intro start hle
    unfold Source.slice
    rw [slice_eq_nil (Or.inl (by omega))]
    exact ⟨fun h => (nomatch h), fun ⟨p, hlt, hge, _⟩ => by omega⟩
  | succ n ih =>
    intro start hle
    by_cases hin : start < stop ∧ start < s.size
    · obtain ⟨c, hc⟩ : ∃ c, s.text[start]? = some c := ⟨_, List.getElem?_eq_getElem hin.2⟩
      have hslice : s.slice start stop = c :: s.slice (start + 1) stop := slice_cons hin.1 hc
      have hprevious : some c = s.previous? (start + 1) := by
        unfold Source.previous? Source.at?
        rw [if_neg (Nat.succ_ne_zero start), Nat.add_sub_cancel, hc]
      have ih := ih (start + 1) (by omega)
      have hstep : namesTypeScript (s.previous? start) (s.slice start stop) = true ↔
          typeScriptAt s stop start = true ∨
            namesTypeScript (s.previous? (start + 1)) (s.slice (start + 1) stop) = true := by
        unfold typeScriptAt
        rw [hslice, namesTypeScript, Bool.or_eq_true, hprevious]
        rfl
      rw [hstep, ih]
      constructor
      · rintro (hnames | ⟨p, hlt, hge, hnames⟩)
        · exact ⟨start, hin.1, Nat.le_refl _, hnames⟩
        · exact ⟨p, hlt, by omega, hnames⟩
      · rintro ⟨p, hlt, hge, hnames⟩
        rcases Nat.eq_or_lt_of_le hge with rfl | hgt
        · exact Or.inl hnames
        · exact Or.inr ⟨p, hlt, hgt, hnames⟩
    · have hnil : ∀ p, start ≤ p → s.slice p stop = [] := fun p hp =>
        slice_eq_nil (by unfold Source.size at hin; omega)
      rw [hnil start (Nat.le_refl _)]
      refine ⟨fun h => (nomatch h), ?_⟩
      rintro ⟨p, _, hge, hnames⟩
      unfold typeScriptAt at hnames
      rw [hnil p hge, Bool.and_eq_true] at hnames
      exact (nomatch hnames.2)

theorem isTypeScriptElement_iff {s : Source} {t : Tree} :
    isTypeScriptElement s t = true ↔ t.kind = "script_element" ∧ ∃ tag, openingTag? t = some tag ∧
      ∃ p < (s.span tag).stop, (s.span tag).start ≤ p ∧
        typeScriptAt s (s.span tag).stop p = true := by
  unfold isTypeScriptElement
  rw [Bool.and_eq_true, beq_iff_eq]
  refine and_congr_right fun _ => ?_
  split
  · rename_i hnone
    rw [hnone]
    exact ⟨fun h => (nomatch h), fun ⟨_, h, _⟩ => (nomatch h)⟩
  · rename_i tag htag
    rw [htag]
    refine (namesTypeScript_slice s (s.span tag).stop _ (s.span tag).start (Nat.le_refl _)).trans ?_
    constructor
    · exact fun h => ⟨tag, rfl, h⟩
    · rintro ⟨_, h, hnames⟩
      cases h
      exact hnames

end Template

end RawHtmlLint

import RawHtmlLint.Proofs.Text.Blank
import RawHtmlLint.Proofs.Text.Pattern
import RawHtmlLint.Proofs.Text.Run
import RawHtmlLint.Rule.Insertion

/-!
# The names in a suppression directive

A comment suppresses the rules whose names it lists after the word that makes it a directive. The
names are whole words between white space and commas; a word that is no name is passed over without
a word about it, and does not spoil the others. So nothing but a word that reads `unsafe_html`, or
`unsafe-html`, suppresses the rule, and where it stands among the others does not matter.

The patterns of directives leave open how much white space is taken before the names and after them.
Whatever is taken, what is left has the same words, since white space at either end has no part in
them. Only a directive without names may fail to be read, and it has no words either.

Results:
* `RuleSet.contains_ofList`: a set has the names it was made of;
* `isRuleName_iff`: what the pattern of names reads, with a line feed at the end or without one;
* `findSome?_forms`: what is kept of a directive has its words;
* `contains_rules_iff`: what a comment suppresses, by the words of its directive;
* `rules_read_words`: the same, with the comments that are no directives, and for the rule of
  insertions.
-/

namespace RawHtmlLint.Template

open Text

/-! ## Sets of names -/

theorem mem_insertName_iff {name m : String} : ∀ {names : List String},
    m ∈ insertName name names ↔ m = name ∨ m ∈ names
  | [] => by rw [insertName, List.mem_singleton, or_iff_left List.not_mem_nil]
  | n :: names => by
    refine ⟨mem_insertName, fun h => ?_⟩
    unfold insertName
    split
    · rw [List.mem_cons, mem_insertName_iff]
      rcases h with h | h
      · exact .inr (.inl h)
      · exact (List.mem_cons.mp h).imp_right .inr
    · rename_i hnot
      split
      · exact List.mem_cons.mpr h
      · rename_i hnot'
        -- a name that is neither before nor after another one is the same
        have hsame : name = n := String.le_antisymm (String.not_lt.mp hnot) (String.not_lt.mp hnot')
        rcases h with rfl | h
        · exact hsame ▸ List.mem_cons_self
        · exact h

/-- **A set has the names it was made of.** -/
theorem RuleSet.contains_ofList {names : List String} {name : String} :
    (RuleSet.ofList names).contains name = true ↔ name ∈ names := by
  induction names with
  | nil => exact List.contains_iff_mem
  | cons n names ih =>
    have hinsert : (RuleSet.ofList (n :: names)).contains name = true ↔
        name ∈ insertName n (RuleSet.ofList names).names := List.contains_iff_mem
    have hrest : (RuleSet.ofList names).contains name = true ↔
        name ∈ (RuleSet.ofList names).names := List.contains_iff_mem
    rw [hinsert, mem_insertName_iff, List.mem_cons, ← hrest, ih]

namespace Directive

/-! ## The syntax of directives -/

/-- The comment is a directive, with the names in `text`: white space, `svelte-ignore`, and a
character of white space before the text, or white space and `suppress-rule:`. -/
def Directs (comment text : List Char) : Prop :=
  (∃ c, isBlank c = true ∧ trimStart comment = "svelte-ignore".toList ++ c :: text) ∨
    trimStart comment = "suppress-rule:".toList ++ text

/-- The word is the name of a rule: an ASCII letter, and then word characters and hyphens. -/
def IsName (word : List Char) : Prop :=
  ∃ c rest, word = c :: rest ∧ ('a' ≤ c ∧ c ≤ 'z' ∨ 'A' ≤ c ∧ c ≤ 'Z') ∧
    ∀ d ∈ rest, isWord d = true ∨ d = '-'

variable {comment text word : List Char}

theorem isAlpha_iff {c : Char} :
    c.isAlpha = true ↔ 'a' ≤ c ∧ c ≤ 'z' ∨ 'A' ≤ c ∧ c ≤ 'Z' := by
  unfold Char.isAlpha Char.isUpper Char.isLower
  simp only [Bool.or_eq_true, Bool.and_eq_true, decide_eq_true_eq, Char.le_def]
  exact or_comm

theorem not_ignore_of_suppress (text : List Char) :
    ¬ "svelte-ignore".toList <+: "suppress-rule:".toList ++ text := by
  intro h
  have hsecond := h.getElem (i := 1) (by decide)
  rw [List.getElem_append_left (by decide)] at hsecond
  exact absurd hsecond (by decide)

/-- A comment is a directive in one way. -/
theorem Directs.unique {text' : List Char} (h : Directs comment text)
    (h' : Directs comment text') : text = text' := by
  rcases h with ⟨c, _, h⟩ | h <;> rcases h' with ⟨c', _, h'⟩ | h' <;> rw [h] at h'
  · exact (List.cons.inj (List.append_cancel_left h')).2
  · exact absurd ⟨_, h'⟩ (not_ignore_of_suppress _)
  · exact absurd ⟨_, h'.symm⟩ (not_ignore_of_suppress _)
  · exact List.append_cancel_left h'

/-! ## Names -/

theorem atEnd_iff {s : List Char} : Pattern.atEnd s = true ↔ s = [] ∨ s = ['\n'] := by
  unfold Pattern.atEnd
  rw [Bool.or_eq_true, beq_iff_eq, beq_iff_eq]

theorem isNameCharacter_iff {c : Char} :
    (isWord c || c == '-') = true ↔ isWord c = true ∨ c = '-' := by
  rw [Bool.or_eq_true, beq_iff_eq]

/-- **What the pattern of names reads**: a name, and a line feed behind it does no harm. -/
theorem isRuleName_iff : isRuleName word = true ↔
    IsName word ∨ ∃ name, word = name ++ ['\n'] ∧ IsName name := by
  unfold isRuleName
  constructor
  · intro h
    obtain ⟨_, h⟩ := Option.isSome_iff_exists.mp h
    cases Pattern.reads_of_read h with | one hc h
    cases h with | many hrun h
    cases h with | ending hend _
    have hname := fun d hd => isNameCharacter_iff.mp (hrun d hd)
    rcases atEnd_iff.mp hend with rfl | rfl
    · exact .inl ⟨_, _, by rw [List.append_nil], isAlpha_iff.mp hc, hname⟩
    · exact .inr ⟨_, rfl, _, _, rfl, isAlpha_iff.mp hc, hname⟩
  · have hread : ∀ name tail, IsName name → Pattern.atEnd tail = true →
        (Pattern.read namePattern (name ++ tail)).isSome = true := by
      rintro _ tail ⟨c, rest, rfl, hc, hrest⟩ htail
      exact Pattern.exists_read (.one (isAlpha_iff.mpr hc)
        (.many (fun d hd => isNameCharacter_iff.mpr (hrest d hd)) (.ending htail (.done tail))))
    rintro (h | ⟨name, rfl, h⟩)
    · rw [← List.append_nil word]
      exact hread word [] h rfl
    · exact hread name ['\n'] h rfl

/-- No word of a directive has a line feed in it. -/
theorem isRuleName_run_iff (h : IsRun isSeparator text word) :
    isRuleName word = true ↔ IsName word := by
  rw [isRuleName_iff, or_iff_left]
  rintro ⟨name, rfl, _⟩
  obtain ⟨_, _, _, _, hword, _⟩ := h
  exact absurd (hword '\n' (List.mem_append_right _ List.mem_cons_self)) (by decide)

/-- The rules that a text names are the names among its words. -/
theorem contains_named {name : String} : (named text).contains name = true ↔
    ∃ word, IsRun isSeparator text word ∧ IsName word ∧ normalized word = name := by
  unfold named
  rw [RuleSet.contains_ofList, List.mem_map]
  refine exists_congr fun word => ?_
  rw [List.mem_filter, ← isRun_iff_mem_splitRuns, and_assoc]
  exact and_congr_right fun hrun => and_congr_left fun _ => isRuleName_run_iff hrun

/-! ## What the forms keep -/

theorem isSeparator_of_isBlank {s : List Char} (h : ∀ c ∈ s, isBlank c = true) :
    ∀ c ∈ s, isSeparator c = true := by
  intro c hc
  unfold isSeparator
  rw [h c hc, Bool.true_or]

/-- What stands behind the names is white space. -/
theorem blank_of_reads {s kept : List Char} (h : Pattern.Reads [.many isBlank, .ending] s kept) :
    ∀ c ∈ s, isBlank c = true := by
  cases h with | many hrun h
  cases h with | ending hend _
  rcases atEnd_iff.mp hend with rfl | rfl
  · rwa [List.append_nil]
  · exact List.forall_mem_append.mpr ⟨hrun, List.forall_mem_singleton.mpr (by decide)⟩

/-- What is kept of the names has the same words, however much white space is left out. -/
theorem isRun_of_reads {kept : List Char} (h : Pattern.Reads namesPattern text kept) :
    IsRun isSeparator kept word ↔ IsRun isSeparator text word := by
  cases h with | many hgap h
  cases h with | kept _ h
  exact (isRun_padded_iff (isSeparator_of_isBlank hgap)
    (isSeparator_of_isBlank (blank_of_reads h))).symm

/-- Whatever stands in the place of the names can be kept as a whole, if there is anything. -/
theorem reads_namesPattern (hne : text ≠ []) : Pattern.Reads namesPattern text text := by
  have hend : Pattern.Reads [.many isBlank, .ending] ([] ++ []) [] :=
    .many (List.forall_mem_nil _) (.ending rfl (.done []))
  have hkept : Pattern.Reads namesPattern ([] ++ (text ++ [])) text :=
    .many (List.forall_mem_nil _) (.kept hne hend)
  rwa [List.nil_append, List.append_nil] at hkept

theorem trimStart_word {lead : List Char} (hlead : ∀ c ∈ lead, isBlank c = true) {c : Char}
    (hc : isBlank c = false) (s : List Char) : trimStart (lead ++ c :: s) = c :: s := by
  rw [trimStart_blank_append (List.all_eq_true.mpr hlead)]
  exact List.dropWhile_cons_of_neg (by simp [hc])

/-- White space in front of a word is taken as far as the word. -/
theorem reads_of_trimStart {w s kept : List Char} {parts : List Pattern.Part}
    (hcomment : trimStart comment = w ++ s) (h : Pattern.Reads parts s kept) :
    Pattern.Reads (.many isBlank :: .word w :: parts) comment kept := by
  rw [← List.takeWhile_append_dropWhile (p := isBlank) (l := comment)]
  refine .many (fun _ hc => List.mem_takeWhile_imp hc) ?_
  rw [show comment.dropWhile isBlank = w ++ s from hcomment]
  exact .word w h

theorem read_ignoreForm (h : Pattern.read ignoreForm comment = some text) :
    ∃ body, Directs comment body ∧
      ∀ word, IsRun isSeparator text word ↔ IsRun isSeparator body word := by
  cases Pattern.reads_of_read h with | many hlead h
  cases h with | word _ h
  cases h with | one hc h
  exact ⟨_, .inl ⟨_, hc, trimStart_word hlead (by decide) _⟩, fun _ => isRun_of_reads h⟩

theorem read_suppressForm (h : Pattern.read suppressForm comment = some text) :
    ∃ body, Directs comment body ∧
      ∀ word, IsRun isSeparator text word ↔ IsRun isSeparator body word := by
  cases Pattern.reads_of_read h with | many hlead h
  cases h with | word _ h
  exact ⟨_, .inr (trimStart_word hlead (by decide) _), fun _ => isRun_of_reads h⟩

/-- A directive with something in the place of the names is read in one of the forms. -/
theorem isSome_read (h : Directs comment text) (hne : text ≠ []) :
    (Pattern.read ignoreForm comment).isSome = true ∨
      (Pattern.read suppressForm comment).isSome = true := by
  have hnames := reads_namesPattern hne
  rcases h with ⟨c, hc, h⟩ | h
  · exact .inl (Pattern.exists_read (reads_of_trimStart h (.one hc hnames)))
  · exact .inr (Pattern.exists_read (reads_of_trimStart h hnames))

/-- **What is kept of a directive** has its words, and only a directive without words is not
read. -/
theorem findSome?_forms (comment : List Char) :
    match [ignoreForm, suppressForm].findSome? (Pattern.read · comment) with
    | some text => ∃ body, Directs comment body ∧
        ∀ word, IsRun isSeparator text word ↔ IsRun isSeparator body word
    | none => ∀ body, Directs comment body → body = [] := by
  split
  · rename_i text h
    obtain ⟨form, hmem, hread⟩ := List.exists_of_findSome?_eq_some h
    rcases List.mem_cons.mp hmem with rfl | hmem
    · exact read_ignoreForm hread
    · obtain rfl := List.mem_singleton.mp hmem
      exact read_suppressForm hread
  · rename_i h
    intro body hdirects
    by_contra hne
    have hnone := List.findSome?_eq_none_iff.mp h
    rcases isSome_read hdirects hne with hsome | hsome
    · rw [hnone ignoreForm List.mem_cons_self] at hsome
      cases hsome
    · rw [hnone suppressForm (List.mem_cons_of_mem _ List.mem_cons_self)] at hsome
      cases hsome

/-! ## What a comment suppresses -/

theorem not_isRun_nil : ¬ IsRun isSeparator [] word := by
  rintro ⟨hne, front, back, hnil, _⟩
  exact hne (List.append_eq_nil_iff.mp (List.append_eq_nil_iff.mp hnil.symm).1).2

/-- **What a comment suppresses**: the names among the words of its directive. -/
theorem contains_rules_iff {name : String} : (rules comment).contains name = true ↔
    ∃ text word, Directs comment text ∧ IsRun isSeparator text word ∧ IsName word ∧
      normalized word = name := by
  have hforms := findSome?_forms comment
  unfold rules
  cases hread : [ignoreForm, suppressForm].findSome? (Pattern.read · comment) with
  | some text =>
    rw [hread] at hforms
    obtain ⟨body, hdirects, hrun⟩ := hforms
    rw [contains_named]
    constructor
    · rintro ⟨word, h, hname, heq⟩
      exact ⟨body, word, hdirects, (hrun word).mp h, hname, heq⟩
    · rintro ⟨text, word, h, hword, hname, heq⟩
      obtain rfl := h.unique hdirects
      exact ⟨word, (hrun word).mpr hword, hname, heq⟩
  | none =>
    rw [hread] at hforms
    constructor
    · intro h
      exact absurd h Bool.false_ne_true
    · rintro ⟨text, word, h, hword, _⟩
      obtain rfl := hforms text h
      exact absurd hword not_isRun_nil

/-- Where a name has no low line, no hyphen was replaced. -/
theorem eq_of_map_hyphens {name : List Char} (hname : '_' ∉ name)
    (h : (word.map fun c => if c = '-' then '_' else c) = name) : word = name := by
  have hkept : ∀ c ∈ word, (if c = '-' then '_' else c) = id c := by
    intro c hc
    split
    · rename_i hhyphen
      have hmem := List.mem_map_of_mem (f := fun c => if c = '-' then '_' else c) hc
      rw [if_pos hhyphen, h] at hmem
      exact absurd hmem hname
    · rfl
  rw [← h, List.map_congr_left hkept, List.map_id]

/-- The words that name the rule of insertions. -/
theorem normalized_eq_iff : normalized word = Rule.name ↔
    word = "unsafe_html".toList ∨ word = "unsafe-html".toList := by
  constructor
  · intro h
    have hmap : (word.map fun c => if c = '-' then '_' else c) =
        "unsafe".toList ++ '_' :: "html".toList := by
      rw [← String.toList_ofList (l := word.map _)]
      exact congrArg String.toList h
    obtain ⟨front, rest, rfl, hfront, hrest⟩ := List.map_eq_append_iff.mp hmap
    obtain ⟨c, back, rfl, hc, hback⟩ := List.map_eq_cons_iff.mp hrest
    rw [eq_of_map_hyphens (by decide) hfront, eq_of_map_hyphens (by decide) hback]
    split at hc
    · rename_i hhyphen
      exact .inr (by rw [hhyphen]; rfl)
    · exact .inl (by rw [hc]; rfl)
  · rintro (rfl | rfl) <;> rfl

/-- **A comment suppresses the rules that its directive names, and no others**: the whole words of
the directive that are names, with low lines for hyphens. A comment that is no directive suppresses
nothing. The rule of insertions is suppressed exactly by a word that reads `unsafe_html` or
`unsafe-html`, whatever the other words are and wherever it stands among them. -/
theorem rules_read_words (comment : List Char) :
    (∀ name, (rules comment).contains name = true ↔
      ∃ text word, Directs comment text ∧ IsRun isSeparator text word ∧ IsName word ∧
        normalized word = name) ∧
      ((¬ ∃ text, Directs comment text) → rules comment = .empty) ∧
      ((rules comment).contains Rule.name = true ↔
        ∃ text, Directs comment text ∧ (IsRun isSeparator text "unsafe_html".toList ∨
          IsRun isSeparator text "unsafe-html".toList)) := by
  refine ⟨fun name => contains_rules_iff, fun h => ?_, ?_⟩
  · have hforms := findSome?_forms comment
    unfold rules
    cases hread : [ignoreForm, suppressForm].findSome? (Pattern.read · comment) with
    | some text =>
      rw [hread] at hforms
      obtain ⟨body, hdirects, _⟩ := hforms
      exact absurd ⟨body, hdirects⟩ h
    | none => rfl
  · rw [contains_rules_iff]
    constructor
    · rintro ⟨text, word, h, hrun, _, heq⟩
      refine ⟨text, h, ?_⟩
      rcases normalized_eq_iff.mp heq with rfl | rfl
      · exact .inl hrun
      · exact .inr hrun
    · rintro ⟨text, h, hrun | hrun⟩
      · exact ⟨text, _, h, hrun, (isRuleName_run_iff hrun).mp (by decide),
          normalized_eq_iff.mpr (.inl rfl)⟩
      · exact ⟨text, _, h, hrun, (isRuleName_run_iff hrun).mp (by decide),
          normalized_eq_iff.mpr (.inr rfl)⟩

end Directive

end RawHtmlLint.Template

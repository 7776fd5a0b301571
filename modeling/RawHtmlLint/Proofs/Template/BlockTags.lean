import RawHtmlLint.Proofs.Template.Found

/-!
# Tags of blocks, and blocks that are balanced

The tags of a text are delimited by their braces: outside of comments and of script and style
elements, the next brace opens a tag, which ends with its closing brace. A tag that goes on with `#`
or `/` and a word starts or ends the block of this name.

Results:
* `block?_eq_some_iff`: a tag with one of the keywords that the adaptation searches for is one whose
  beginning it finds;
* `Balanced.append`, `Balanced.exists_closes`: in a balanced list each end has a start that it closes;
* `Balanced.each?`: where all blocks are balanced, those of one name are;
* `Balanced.of_closes`: blocks stay balanced if starts and ends are renamed in pairs.
-/

namespace RawHtmlLint.Template.Markup

open Text Script

/-! ## Tags -/

/-- A tag, by the indices of its two braces. -/
structure Tag where
  start : Nat
  close : Nat
  deriving DecidableEq, Repr

/-- The tags of a text that starts at the index. There are none from a brace on that is not
closed. -/
def tagsFrom (index : Nat) : List Char → List Tag
  | [] => []
  | c :: rest =>
    match untouched? (c :: rest) with
    | some length => tagsFrom (index + length) (rest.drop (length - 1))
    | none =>
      if c = '\x7b' then
        match closingBrace? rest 0 with
        | some inside =>
          ⟨index, index + 1 + inside⟩ :: tagsFrom (index + 1 + inside + 1) (rest.drop (inside + 1))
        | none => []
      else tagsFrom (index + 1) rest
termination_by s => s.length

/-- The tags of a text. -/
def tags (s : List Char) : List Tag := tagsFrom 0 s

/-- The side of a block that a tag is at. -/
inductive Side where
  | start
  | stop
  deriving DecidableEq, Repr

def Sigil.side? : Sigil → Option Side
  | .opening => some .start
  | .closing => some .stop
  | .special => none

/-- The side of a block that the text starts with a tag of, and the number of characters before the
name. -/
def side? : List Char → Option (Side × Nat)
  | '\x7b' :: rest =>
    let blanks := blankCount rest
    match rest.drop blanks with
    | [] => none
    | c :: after => do
      let sigil ← sigil? c
      let side ← sigil.side?
      let gap := blankCount after
      if endsWord (after.drop gap) then none else some (side, blanks + 2 + gap)
  | _ => none

namespace Tag

/-- The side of a block that the tag is at in `s`, and the word that `t` has for its name. -/
def block? (s t : List Char) (tag : Tag) : Option (Side × List Char) :=
  (side? (s.drop tag.start)).map fun p =>
    (p.1, (t.drop (tag.start + p.2)).takeWhile isWord)

/-- The same for the tags of `each` blocks only. -/
def each? (s : List Char) (tag : Tag) : Option (Side × List Char) :=
  (tag.block? s s).filter fun p => p.2 = Keyword.each.spelling

end Tag

/-! ## Words and keywords -/

theorem spelling_isWord (k : Keyword) : ∀ c ∈ k.spelling, isWord c = true := by
  have hall : k.spelling.all isWord = true := by cases k <;> rfl
  exact List.all_eq_true.mp hall

theorem spelling_injective {k k' : Keyword} (h : k.spelling = k'.spelling) : k = k' := by
  revert h
  cases k <;> cases k' <;> decide

theorem takeWhile_of_endsWord {s : List Char} (h : endsWord s = true) : s.takeWhile isWord = [] := by
  cases s with
  | nil => rfl
  | cons c s => exact List.takeWhile_cons_of_neg (by simpa [endsWord] using h)

theorem endsWord_dropWhile (s : List Char) : endsWord (s.dropWhile isWord) = true := by
  cases h : s.dropWhile isWord with
  | nil => rfl
  | cons c rest =>
    have hc := List.head?_dropWhile_not isWord s
    rw [h] at hc
    simpa [endsWord] using hc

/-- **A keyword is read where it is the whole word.** -/
theorem Keyword.read?_eq_some_iff {s : List Char} {k : Keyword} :
    Keyword.read? s = some k ↔ s.takeWhile isWord = k.spelling := by
  have hread : ∀ {k}, Keyword.read? s = some k → s.takeWhile isWord = k.spelling := by
    intro k h
    obtain ⟨after, rfl, hword⟩ := Keyword.read?_eq_some h
    rw [List.takeWhile_append_of_pos (spelling_isWord k), takeWhile_of_endsWord hword,
      List.append_nil]
  refine ⟨hread, fun h => ?_⟩
  have hsome : (Keyword.read? s).isSome = true := by
    refine List.find?_isSome.mpr ⟨k, by cases k <;> decide, ?_⟩
    have hsplit := List.takeWhile_append_dropWhile (p := isWord) (l := s)
    rw [h] at hsplit
    rw [← hsplit, Keyword.length, List.drop_left, endsWord_dropWhile, Bool.and_true,
      List.isPrefixOf_iff_prefix]
    exact List.prefix_append _ _
  obtain ⟨k', hk'⟩ := Option.isSome_iff_exists.mp hsome
  rw [hk', spelling_injective ((hread hk').symm.trans h)]

/-! ## Tags of blocks and beginnings of tags -/

theorem Signed.side?_eq {s lead gap after : List Char} {sign : Char}
    (h : Signed s lead sign gap after) :
    side? s = (sigil? sign).bind fun sigil => sigil.side?.bind fun side =>
      if endsWord after then none else some (side, lead.length + 2 + gap.length) := by
  rw [h.text_eq]
  simp only [side?, h.blankCount_lead, List.drop_left, h.blankCount_gap, Option.bind_eq_bind]

/-- A text starts like a tag with a sigil, or it starts with no tag of a block or one that is
searched for. -/
theorem exists_signed (s : List Char) :
    (∃ lead sign gap after, Signed s lead sign gap after) ∨ opening? s = none ∧ side? s = none := by
  by_cases hbrace : ∃ rest, s = '\x7b' :: rest
  · obtain ⟨rest, rfl⟩ := hbrace
    have hrest := List.takeWhile_append_dropWhile (p := isBlank) (l := rest)
    cases hsign : rest.dropWhile isBlank with
    | nil =>
      have hblank : rest.drop (blankCount rest) = [] := by
        rw [hsign, List.append_nil] at hrest
        rw [blankCount, hrest, List.drop_length]
      exact .inr ⟨by simp only [opening?, hblank], by simp only [side?, hblank]⟩
    | cons sign after =>
      have hafter := List.takeWhile_append_dropWhile (p := isBlank) (l := after)
      refine .inl ⟨rest.takeWhile isBlank, sign, after.takeWhile isBlank, after.dropWhile isBlank,
        ?_, List.all_takeWhile, ?_, List.all_takeWhile, ?_⟩
      · rw [hafter, ← hsign, hrest]
      · have hhead := List.head?_dropWhile_not isBlank rest
        rw [hsign] at hhead
        simpa using hhead
      · intro c hc
        have hhead := List.head?_dropWhile_not isBlank after
        rw [hc] at hhead
        simpa using hhead
  · refine .inr ⟨?_, ?_⟩
    · unfold opening?
      split
      · rename_i rest
        exact absurd ⟨rest, rfl⟩ hbrace
      · rfl
    · unfold side?
      split
      · rename_i rest
        exact absurd ⟨rest, rfl⟩ hbrace
      · rfl

/-- The beginning of a tag of a block. -/
theorem side?_eq_some {s : List Char} {side : Side} {place : Nat}
    (h : side? s = some (side, place)) :
    ∃ lead sign gap after sigil, Signed s lead sign gap after ∧ sigil? sign = some sigil ∧
      sigil.side? = some side ∧ endsWord after = false ∧ lead.length + 2 + gap.length = place := by
  rcases exists_signed s with ⟨lead, sign, gap, after, hs⟩ | ⟨_, hnone⟩
  · rw [hs.side?_eq] at h
    obtain ⟨sigil, hsigil, h⟩ := Option.bind_eq_some_iff.mp h
    obtain ⟨side', hside, h⟩ := Option.bind_eq_some_iff.mp h
    split at h
    · cases h
    · rename_i hword
      cases h
      exact ⟨lead, sign, gap, after, sigil, hs, hsigil, hside, by simpa using hword, rfl⟩
  · rw [hnone] at h
    cases h

/-- **A tag of a block with a keyword that is searched for is one whose beginning is found**, and the
keyword stands at the same place in both. -/
theorem side?_word_iff {s : List Char} {side : Side} {place : Nat} {k : Keyword} :
    side? s = some (side, place) ∧ (s.drop place).takeWhile isWord = k.spelling ↔
      ∃ o, opening? s = some o ∧ o.sigil.side? = some side ∧ o.keyword = k ∧ o.before = place := by
  rcases exists_signed s with ⟨lead, sign, gap, after, hs⟩ | ⟨ho, hside⟩
  · rw [hs.opening?_eq, ← Keyword.read?_eq_some_iff]
    constructor
    · rintro ⟨hside, hread⟩
      rw [hs.side?_eq] at hside
      obtain ⟨sigil, hsigil, hside⟩ := Option.bind_eq_some_iff.mp hside
      obtain ⟨side', hside', hside⟩ := Option.bind_eq_some_iff.mp hside
      split at hside
      · cases hside
      · cases hside
        rw [hs.drop_eq] at hread
        refine ⟨⟨lead.length + 1, sigil, gap.length, k⟩, ?_, hside', rfl, rfl⟩
        rw [hsigil, hread]
        rfl
    · rintro ⟨o, ho, hside, rfl, rfl⟩
      obtain ⟨sigil, hsigil, ho⟩ := Option.bind_eq_some_iff.mp ho
      obtain ⟨k, hread, ho⟩ := Option.bind_eq_some_iff.mp ho
      cases ho
      have hword : endsWord after = false := by
        obtain ⟨rest, rfl, _⟩ := Keyword.read?_eq_some hread
        cases k <;> rfl
      refine ⟨?_, hs.drop_eq.symm ▸ hread⟩
      rw [hs.side?_eq, hsigil, hword]
      simp only [Option.bind_some, hside]
      rfl
  · rw [ho, hside]
    exact ⟨fun h => (nomatch h.1), fun ⟨_, h, _⟩ => (nomatch h)⟩

theorem side?_of_opening? {s : List Char} {side : Side} {place : Nat} {o : Opening}
    (h : side? s = some (side, place)) (ho : opening? s = some o) :
    o.sigil.side? = some side ∧ o.before = place := by
  obtain ⟨lead, sign, gap, after, sigil, hs, hsigil, hside, _, hplace⟩ := side?_eq_some h
  rw [hs.opening?_eq, hsigil, Option.bind_some] at ho
  obtain ⟨k, _, ho⟩ := Option.bind_eq_some_iff.mp ho
  cases ho
  refine ⟨hside, ?_⟩
  rw [← hplace, Opening.before]

theorem Tag.block?_eq_some_iff {s : List Char} {tag : Tag} {side : Side} {k : Keyword} :
    tag.block? s s = some (side, k.spelling) ↔
      ∃ o, opening? (s.drop tag.start) = some o ∧ o.sigil.side? = some side ∧ o.keyword = k := by
  unfold Tag.block?
  constructor
  · intro h
    obtain ⟨⟨side', place⟩, hside, h⟩ := Option.map_eq_some_iff.mp h
    obtain ⟨rfl, hword⟩ := Prod.mk.inj h
    rw [← List.drop_drop] at hword
    obtain ⟨o, ho, hsigil, hk, _⟩ := side?_word_iff.mp ⟨hside, hword⟩
    exact ⟨o, ho, hsigil, hk⟩
  · rintro ⟨o, ho, hsigil, rfl⟩
    obtain ⟨hside, hword⟩ := side?_word_iff.mpr ⟨o, ho, hsigil, rfl, rfl⟩
    rw [hside, Option.map_some, ← List.drop_drop, hword]

/-! ## Balanced blocks -/

/-- The tags that `read` takes for starts and ends of blocks are balanced: each start has an end of
its name, with balanced tags between them. -/
inductive Balanced (read : Tag → Option (Side × List Char)) : List Tag → Prop
  | nil : Balanced read []
  | pass {a : Tag} {rest : List Tag} (ha : read a = none) (hrest : Balanced read rest) :
      Balanced read (a :: rest)
  | block {a b : Tag} {inner rest : List Tag} {name : List Char}
      (ha : read a = some (.start, name)) (hinner : Balanced read inner)
      (hb : read b = some (.stop, name)) (hrest : Balanced read rest) :
      Balanced read (a :: (inner ++ b :: rest))

/-- In the list the tag `b` closes the block that the tag `a` starts. -/
def Closes (read : Tag → Option (Side × List Char)) (list : List Tag) (a b : Tag) : Prop :=
  ∃ front inner back name, list = front ++ a :: (inner ++ b :: back) ∧
    read a = some (.start, name) ∧ Balanced read inner ∧ read b = some (.stop, name)

section

variable {read : Tag → Option (Side × List Char)} {l m : List Tag} {a b : Tag}

theorem Balanced.append (hl : Balanced read l) (hm : Balanced read m) : Balanced read (l ++ m) := by
  induction hl with
  | nil => exact hm
  | pass ha _ ih => exact .pass ha ih
  | block ha hinner hb _ _ ih =>
    rw [List.cons_append, List.append_assoc, List.cons_append]
    exact .block ha hinner hb ih

theorem Closes.append_left (h : Closes read l a b) (m : List Tag) : Closes read (m ++ l) a b := by
  obtain ⟨front, inner, back, name, rfl, h⟩ := h
  exact ⟨m ++ front, inner, back, name, (List.append_assoc _ _ _).symm, h⟩

theorem Closes.append_right (h : Closes read l a b) (m : List Tag) : Closes read (l ++ m) a b := by
  obtain ⟨front, inner, back, name, rfl, h⟩ := h
  refine ⟨front, inner, back ++ m, name, ?_, h⟩
  simp only [List.append_assoc, List.cons_append]

/-- **In a balanced list each end of a block has a start that it closes.** -/
theorem Balanced.exists_closes (h : Balanced read l) (hb : b ∈ l) {name : List Char}
    (hread : read b = some (.stop, name)) : ∃ a, Closes read l a b := by
  induction h with
  | nil => exact absurd hb List.not_mem_nil
  | pass ha _ ih =>
    rcases List.mem_cons.mp hb with rfl | hb
    · rw [hread] at ha
      cases ha
    · obtain ⟨a, hclose⟩ := ih hb
      exact ⟨a, hclose.append_left [_]⟩
  | @block start stop inner rest word ha hinner hstop hrest ihInner ihRest =>
    rcases List.mem_cons.mp hb with rfl | hb
    · rw [hread] at ha
      cases ha
    · rcases List.mem_append.mp hb with hb | hb
      · obtain ⟨a, hclose⟩ := ihInner hb
        exact ⟨a, (hclose.append_right (stop :: rest)).append_left [start]⟩
      · rcases List.mem_cons.mp hb with rfl | hb
        · exact ⟨start, [], inner, rest, word, rfl, ha, hinner, hstop⟩
        · obtain ⟨a, hclose⟩ := ihRest hb
          refine ⟨a, ?_⟩
          have hlong := hclose.append_left (start :: (inner ++ [stop]))
          simpa only [List.cons_append, List.append_assoc, List.nil_append] using hlong

/-- **Blocks stay balanced if their starts and ends are renamed in pairs.** -/
theorem Balanced.of_closes {read' : Tag → Option (Side × List Char)} (h : Balanced read l)
    (hpass : ∀ a ∈ l, read a = none → read' a = none)
    (hpair : ∀ a b, Closes read l a b →
      ∃ name, read' a = some (.start, name) ∧ read' b = some (.stop, name)) :
    Balanced read' l := by
  induction h with
  | nil => exact .nil
  | @pass start rest ha _ ih =>
    refine .pass (hpass start List.mem_cons_self ha) (ih ?_ ?_)
    · exact fun a hmem => hpass a (List.mem_cons_of_mem _ hmem)
    · exact fun a b hclose => hpair a b (hclose.append_left [start])
  | @block start stop inner rest word ha hinner hstop hrest ihInner ihRest =>
    obtain ⟨name, hstart', hstop'⟩ :=
      hpair start stop ⟨[], inner, rest, word, rfl, ha, hinner, hstop⟩
    refine .block hstart' (ihInner ?_ ?_) hstop' (ihRest ?_ ?_)
    · exact fun a hmem => hpass a (List.mem_cons_of_mem _ (List.mem_append_left _ hmem))
    · exact fun a b hclose => hpair a b ((hclose.append_right (stop :: rest)).append_left [start])
    · exact fun a hmem => hpass a
        (List.mem_cons_of_mem _ (List.mem_append_right _ (List.mem_cons_of_mem _ hmem)))
    · intro a b hclose
      have hlong := hclose.append_left (start :: (inner ++ [stop]))
      refine hpair a b ?_
      simpa only [List.cons_append, List.append_assoc, List.nil_append] using hlong

/-- **Where all blocks are balanced, those whose name is in a class are.** -/
theorem Balanced.filter (h : Balanced read l) (p : List Char → Bool) :
    Balanced (fun t => (read t).filter fun r => p r.2) l := by
  induction h with
  | nil => exact .nil
  | pass ha _ ih => exact .pass (by rw [ha]; rfl) ih
  | @block start stop inner rest word ha _ hstop _ ihInner ihRest =>
    have hread : ∀ side : Side, Option.filter (fun r => p r.2) (some (side, word)) =
        if p word = true then some (side, word) else none := fun side => Option.filter_some
    by_cases hp : p word = true
    · have hkeep := fun side => (hread side).trans (if_pos hp)
      exact .block ((congrArg _ ha).trans (hkeep _)) ihInner ((congrArg _ hstop).trans (hkeep _))
        ihRest
    · refine .pass ?_ (ihInner.append (.pass ?_ ihRest))
      · rw [ha, hread, if_neg hp]
      · rw [hstop, hread, if_neg hp]

end

end RawHtmlLint.Template.Markup

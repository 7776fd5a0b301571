import RawHtmlLint.Proofs.Template.Tiling

/-!
# No insertion is taken for text

Markup is inserted by a tag, and a tag starts with a brace. So an insertion could only be
overlooked if a brace of the source were taken for text. Outside raw content no text holds one:
every brace belongs to a comment, to a tag, to one of the tags of a block, or to the tags of an
element. And a tag that says `@html` is an insertion.

Results:
* `exists_owner`: a brace in a node that is no text belongs to the node or to one below it;
* `readTag_insertion`: what reads as an insertion is one;
* `parse_showsBraces`: no insertion of a component is taken for text.
-/

namespace RawHtmlLint.Template

open Grammar Text

variable {ctx : Context} {root : Tree}

/-! ## Braces and their owners -/

/-- The brace at the offset belongs to the node itself: to a comment or a tag, to one of the tags
of a block, to an element outside its content, or to an element with raw content. -/
def Owns (s : Source) (root : Tree) (x : Node) (p : Nat) : Prop :=
  x.span.Has p ∧ match x with
    | .comment .. | .tag .. | .debugTag .. => True
    | .element .. => RawText s root x ∨ ∀ f ∈ x.fragments, ¬ f.span.Has p
    | .ifBlock .. | .eachBlock .. | .awaitBlock .. | .keyBlock .. | .snippetBlock .. =>
      InTagOf s x p
    | .fragment _ | .text .. => False

/-- A brace in a fragment is in one of its children, which is no text. -/
theorem child_of_brace {x : Node} {f : Fragment Node} {p : Nat} (hx : Faithful ctx root x)
    (hraw : ¬ RawText ctx.source root x) (hf : f ∈ x.fragments) (hp : f.span.Has p)
    (hbrace : ctx.source.at? p = some '\x7b') :
    ∃ c ∈ f.children, c.span.Has p ∧ c.isText = false := by
  have hfaithful := hx.fragments f hf
  have htiles := hfaithful.tiles (Nat.le_of_lt (Nat.lt_of_le_of_lt hp.1 hp.2))
  obtain ⟨span, hspan, hhas⟩ := htiles.exists_has hp.1 hp.2
  obtain ⟨c, hc, rfl⟩ := List.mem_map.mp hspan
  refine ⟨c, hc, hhas, ?_⟩
  cases c with
  | text span raw data =>
    have hnot := hx.braceless hraw f hf span raw data hc
    rw [(hfaithful.texts span raw data hc).2] at hnot
    exact absurd (mem_slice_iff.mpr ⟨p, hhas.1, hhas.2, hbrace⟩) hnot
  | _ => rfl

/-- **A brace in a node that is no text belongs to the node or to one below it.** -/
theorem exists_owner (x : Node) {p : Nat} (hx : Everywhere (Faithful ctx root) x)
    (htext : x.isText = false) (hp : x.span.Has p) (hbrace : ctx.source.at? p = some '\x7b') :
    ∃ y, x.Holds y ∧ Owns ctx.source root y p := by
  have hself := hx x (.self x)
  have hdown : ¬ RawText ctx.source root x → (∃ f ∈ x.fragments, f.span.Has p) →
      ∃ y, x.Holds y ∧ Owns ctx.source root y p := by
    rintro hraw ⟨f, hf, hfp⟩
    obtain ⟨c, hc, hcp, hctext⟩ := child_of_brace hself hraw hf hfp hbrace
    obtain ⟨y, hy, howns⟩ :=
      exists_owner c (fun y hy => hx y (.child hf hc hy)) hctext hcp hbrace
    exact ⟨y, .child hf hc hy, howns⟩
  by_cases hblock : x.isBlock = true
  · rcases hself.block hblock p hp hbrace with hin | htag
    · refine hdown ?_ hin
      intro hraw
      cases x <;> first | exact hraw | exact (nomatch hblock)
    · refine ⟨x, .self x, hp, ?_⟩
      cases x <;> first | exact htag | exact (nomatch hblock)
  · cases x with
    | comment | tag | debugTag => exact ⟨_, .self _, hp, trivial⟩
    | text => exact (nomatch htext)
    | fragment f => exact hdown id ⟨f, List.mem_singleton_self f, hp⟩
    | element kind span name attributes content =>
      by_cases hraw : RawText ctx.source root (.element kind span name attributes content)
      · exact ⟨_, .self _, hp, Or.inl hraw⟩
      · by_cases hin : ∃ f ∈ (Node.element kind span name attributes content).fragments,
            f.span.Has p
        · exact hdown hraw hin
        · exact ⟨_, .self _, hp, Or.inr fun f hf hfp => hin ⟨f, hf, hfp⟩⟩
    | ifBlock | eachBlock | awaitBlock | keyBlock | snippetBlock => exact absurd rfl hblock
termination_by x.size
decreasing_by exact Node.size_lt_of_mem_children hf hc

/-! ## Tags that insert -/

/-- The text of a tag reads as an insertion: a brace, white space, `@`, and `html` as the whole
keyword. -/
def ReadsAsInsertion (text : List Char) : Prop :=
  ∃ blanks rest, text = '\x7b' :: (blanks ++ '@' :: ('h' :: 't' :: 'm' :: 'l' :: rest)) ∧
    allBlank blanks = true ∧ rest.head?.all (fun c => !isLetter c) = true

/-- What follows a slice's first character in the text. -/
theorem drop_of_slice {text rest : List Char} {start stop : Nat} {c : Char}
    (h : slice text start stop = c :: rest) : text.drop (start + 1) = rest ++ text.drop stop := by
  have hlen := congrArg List.length h
  rw [length_slice, List.length_cons] at hlen
  have hrest : (text.take stop).drop (start + 1) = rest := by
    rw [← List.drop_drop, show (text.take stop).drop start = c :: rest from h, List.drop_one,
      List.tail_cons]
  have hle : start + 1 ≤ (text.take stop).length := by
    rw [List.length_take]
    omega
  calc text.drop (start + 1) = (text.take stop ++ text.drop stop).drop (start + 1) := by
        rw [List.take_append_drop]
    _ = rest ++ text.drop stop := by rw [List.drop_append_of_le_length hle, hrest]

/-- The first character of the class after characters that are not of it. -/
theorem takeWhile_append_cons {p : Char → Bool} {front back : List Char} {c : Char}
    (hfront : ∀ d ∈ front, p d = true) (hc : p c = false) :
    (front ++ c :: back).takeWhile p = front := by
  rw [List.takeWhile_append_of_pos hfront, List.takeWhile_cons_of_neg (by rw [hc]; decide),
    List.append_nil]

/-- A tag that starts with blanks, `@` and a keyword is read so. -/
theorem keyword_of_drop {s : Source} {start : Nat} {blanks keyword after : List Char} {c : Char}
    (hdrop : s.text.drop start = blanks ++ '@' :: (keyword ++ c :: after))
    (hblanks : allBlank blanks = true) (hkeyword : keyword.all isLetter = true)
    (hc : isLetter c = false) :
    blankCount (s.text.drop start) = blanks.length ∧
      s.at? (start + blanks.length) = some '@' ∧
      (s.text.drop (start + blanks.length + 1)).takeWhile isLetter = keyword := by
  refine ⟨?_, ?_, ?_⟩
  · unfold blankCount
    rw [hdrop, takeWhile_append_cons (List.all_eq_true.mp hblanks) (by decide)]
  · unfold Source.at?
    rw [← List.getElem?_drop, hdrop]
    simp
  · have hlength : (blanks ++ ['@']).length = blanks.length + 1 := List.length_append
    rw [Nat.add_assoc, ← List.drop_drop, hdrop, List.append_cons, List.drop_left' hlength,
      takeWhile_append_cons (List.all_eq_true.mp hkeyword) hc]

/-- A tag ends with its closing brace. -/
theorem TagFaithful.getLast?_text {x : Node} (hx : TagFaithful ctx x) :
    (ctx.source.textOf x.span).getLast? = some '\x7d' := by
  obtain ⟨close, hclose, hstop⟩ := hx.closes
  obtain ⟨hge, hbrace⟩ := Script.closingBrace?_some hclose
  have hlt := (List.getElem?_eq_some_iff.mp hbrace).1
  have hlast : x.span.start + (min x.span.stop ctx.source.text.length - x.span.start - 1) =
      close := by
    omega
  show (slice ctx.source.text x.span.start x.span.stop).getLast? = _
  rw [List.getLast?_eq_getElem?, length_slice, getElem?_slice, hlast, if_pos (by omega), hbrace]

/-- **What reads as an insertion is one.** -/
theorem readTag_insertion {x : Node} (hx : TagFaithful ctx x)
    (hreads : ReadsAsInsertion (ctx.source.textOf x.span)) :
    ∃ expression, x = .tag .rawHtml x.span expression := by
  obtain ⟨blanks, rest, htext, hblanks, hrest⟩ := hreads
  -- the tag ends with its closing brace, so there is a character after the keyword
  obtain ⟨c, later, rfl, hc⟩ : ∃ c later, rest = c :: later ∧ isLetter c = false := by
    cases rest with
    | cons c later => exact ⟨c, later, rfl, by simpa using hrest⟩
    | nil =>
      have hlast := hx.getLast?_text
      rw [htext, ← List.cons_append, List.getLast?_append] at hlast
      cases hlast
  have hslice : slice ctx.source.text x.span.start x.span.stop =
      '\x7b' :: (blanks ++ '@' :: (['h', 't', 'm', 'l'] ++ c :: later)) := htext
  have hdrop : ctx.source.text.drop (x.span.start + 1) = blanks ++ '@' ::
      (['h', 't', 'm', 'l'] ++ c :: (later ++ ctx.source.text.drop x.span.stop)) := by
    rw [drop_of_slice hslice, List.append_assoc]
    rfl
  obtain ⟨hlead, hat, hkeyword⟩ := keyword_of_drop hdrop hblanks (by decide) hc
  have hlen := congrArg List.length hslice
  rw [length_slice] at hlen
  simp only [List.length_cons, List.length_append] at hlen
  have hread := hx.read
  unfold readTag at hread
  dsimp only at hread
  rw [hlead, if_pos ⟨by omega, hat⟩, hkeyword] at hread
  have hread : (do return Node.tag .rawHtml x.span (some (← ctx.read _ _)) : Outcome Node) =
    .ok x := hread
  obtain ⟨expression, _, hread⟩ := bind_eq_ok.mp hread
  exact ⟨_, (pure_eq_ok.mp hread).symm⟩

/-! ## Components -/

/-- The template of the component shows all braces of its source; `root` is the grammar's tree. -/
structure ShowsBraces (s : Source) (root : Tree) (c : Component) : Prop where
  /-- Text that is no raw content holds no opening brace. -/
  braceless : ∀ x, (Node.fragment c.fragment).Holds x → ¬ RawText s root x →
    ∀ f ∈ x.fragments, Braceless f
  /-- Every opening brace is in a lifted script or style, or belongs to a node. -/
  owners : ∀ p, s.at? p = some '\x7b' → (∃ span ∈ c.lifted.spans, span.Has p) ∨
    ∃ x, (Node.fragment c.fragment).Holds x ∧ Owns s root x p
  /-- A tag that reads as an insertion is one. -/
  insertions : ∀ x, (Node.fragment c.fragment).Holds x → x.isTag = true →
    ReadsAsInsertion (s.textOf x.span) → ∃ expression, x = .tag .rawHtml x.span expression

/-- **No insertion of a component is taken for text**, if the grammar's tree is well-formed. -/
theorem parse_showsBraces {g : Grammars} {modern : Bool} {s : Source} {parsed : Parsed}
    {tree : Parse} (htree : g.parse Language.svelte.name (Markup.adapt s.text) = .ok tree)
    (hwf : WellFormed s tree.root) (hok : parse g modern s = .ok parsed) :
    ShowsBraces s tree.root parsed.component := by
  have hfaithful := documentOf_faithful hwf (parse_ok htree hok)
  refine ⟨?_, ?_, ?_⟩
  · intro x hx hraw f hf
    rcases holds_fragment hx with rfl | ⟨c, hc, hx⟩
    · obtain rfl := List.mem_singleton.mp hf
      exact hfaithful.braceless
    · exact (hfaithful.below c hc x hx).braceless hraw f hf
  · intro p hp
    obtain ⟨spans, htiles, hperm, _⟩ := hfaithful.tiles
    have hlt : p < s.size := (List.getElem?_eq_some_iff.mp hp).1
    obtain ⟨span, hspan, hhas⟩ := htiles.exists_has (Nat.zero_le p) hlt
    rcases List.mem_append.mp (hperm.subset hspan) with hspan | hspan
    · obtain ⟨c, hc, rfl⟩ := List.mem_map.mp hspan
      have htext : c.isText = false := by
        cases c with
        | text span raw data =>
          -- text of the root is as it is written, and holds no brace
          have hnot := hfaithful.braceless span raw data hc
          rw [(hfaithful.texts span raw data hc).2] at hnot
          exact absurd (mem_slice_iff.mpr ⟨p, hhas.1, hhas.2, hp⟩) hnot
        | _ => rfl
      obtain ⟨x, hx, howns⟩ := exists_owner c (hfaithful.below c hc) htext hhas hp
      exact Or.inr ⟨x, .child List.mem_cons_self hc hx, howns⟩
    · exact Or.inl ⟨span, hspan, hhas⟩
  · intro x hx htag hreads
    rcases holds_fragment hx with rfl | ⟨c, hc, hx⟩
    · exact (nomatch htag)
    · exact readTag_insertion ((hfaithful.below c hc x hx).tag htag) hreads

theorem showsBraces_sample : ∃ parsed, parse sampleGrammars false sampleSource = .ok parsed ∧
    ShowsBraces sampleSource sampleTree parsed.component := by
  obtain ⟨parsed, hparsed⟩ := sample_parses
  exact ⟨parsed, hparsed, parse_showsBraces parse_sampleTree sampleTree_wellFormed hparsed⟩

end RawHtmlLint.Template

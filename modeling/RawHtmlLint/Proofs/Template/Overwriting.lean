import RawHtmlLint.Proofs.Template.Found
import RawHtmlLint.Proofs.Text.Blank
import RawHtmlLint.Proofs.Text.Slice

/-!
# What the adaptation overwrites

Where the adaptation finds the beginning of a tag, it overwrites the keyword, or, if the tag is a
special one, everything from the sigil on. So the adapted text differs from the source in these
ranges only, and no range holds a brace.

Results:
* `adapt_reads`: what the adapted text reads at the beginning of a tag;
* `adapt_elsewhere`: the characters outside the beginnings of tags are kept;
* `adapt_overwritten`: which ranges are overwritten, and what they hold then.
-/

namespace RawHtmlLint.Template.Markup

open Text

/-! ## Changes of tags -/

/-- The open blocks after something found, if `blocks` are open before it: of each block it is told
whether its start was changed. -/
def Found.turn (s : List Char) (blocks : List Bool) : Found → List Bool
  | untouched .. => blocks
  | beginning start o => (change o (s.drop (start + o.length)) blocks).2

/-- The open blocks after everything that is in the list. -/
def blocksAfter (s : List Char) (list : List Found) : List Bool := list.foldl (Found.turn s) []

theorem spelling_ge (k : Keyword) : 2 ≤ k.length := by
  cases k <;> decide

/-- A change keeps the length. -/
theorem length_apply {o : Opening} {s : List Char} (h : s.length = o.length) (c : Change) :
    (c.apply o s).length = o.length := by
  have hk := spelling_ge o.keyword
  unfold Opening.length Opening.before at *
  cases c <;>
    simp only [Change.apply, Opening.before, List.length_append, List.length_take,
      List.length_cons, List.length_replicate] <;> omega

/-- What is done stays in the adapted text, at its place. -/
theorem slice_adaptFrom (blocks : List Bool) (done piece s : List Char) :
    slice (adaptFrom blocks (piece.reverse ++ done) s) done.length (done.length + piece.length) =
      piece := by
  obtain ⟨t, ht, _⟩ := adaptFrom_adapted blocks (piece.reverse ++ done) s
  rw [slice_add, ht, List.reverse_append, List.reverse_reverse, List.append_assoc,
    List.drop_left' List.length_reverse, List.take_left]

theorem length_reverse_append (piece done : List Char) :
    (piece.reverse ++ done).length = done.length + piece.length := by
  rw [List.length_append, List.length_reverse, Nat.add_comm]

theorem length_untouched {s : List Char} {n : Nat} (h : untouched? s = some n)
    (done : List Char) : ((s.take n).reverse ++ done).length = done.length + n := by
  rw [length_reverse_append, List.length_take, Nat.min_eq_left (untouched?_le h)]

theorem length_beginning {s : List Char} {o : Opening} (h : opening? s = some o) (c : Change)
    (done : List Char) :
    ((c.apply o (s.take o.length)).reverse ++ done).length = done.length + o.length := by
  rw [length_reverse_append, length_apply (List.length_take_of_le (opening?_le h))]

section

variable {src : List Char}

/-- Each beginning of a tag that is found is changed by what is open before it. -/
theorem adaptFrom_reads (s : List Char) (blocks : List Bool) (done : List Char)
    (hs : src.drop done.length = s) {before later : List Found} {start : Nat} {o : Opening}
    (hsplit : foundFrom done.length s = before ++ .beginning start o :: later) :
    slice (adaptFrom blocks done s) start (start + o.length) =
      (change o (src.drop (start + o.length)) (before.foldl (Found.turn src) blocks)).1.apply o
        (slice src start (start + o.length)) := by
  induction s using search_induction generalizing blocks done before with
  | nil =>
    rw [foundFrom] at hsplit
    exact absurd hsplit.symm (List.append_ne_nil_of_right_ne_nil _ (List.cons_ne_nil _ _))
  | untouched s n hu ih =>
    have hpiece := length_untouched hu done
    rw [foundFrom_untouched _ hu, ← hpiece] at hsplit
    rw [adaptFrom_untouched _ _ hu]
    obtain ⟨hnil, hhead⟩ | ⟨before', rfl, hrest⟩ := List.cons_eq_append_iff.mp hsplit
    · cases hhead
    · rw [List.foldl_cons, Found.turn]
      exact ih blocks _ (hpiece ▸ drop_add_of_drop hs n) hrest
  | beginning s o' hu ho ih =>
    have hafter := drop_add_of_drop hs o'.length
    have hpiece := length_beginning ho (change o' (s.drop o'.length) blocks).1 done
    rw [foundFrom_beginning _ hu ho] at hsplit
    rw [adaptFrom_beginning _ _ hu ho]
    obtain ⟨rfl, hhead⟩ | ⟨before', rfl, hrest⟩ := List.cons_eq_append_iff.mp hsplit
    · obtain ⟨⟨⟩, _⟩ := List.cons.inj hhead
      have hslice := slice_adaptFrom (change o (s.drop o.length) blocks).2 done
        ((change o (s.drop o.length) blocks).1.apply o (s.take o.length)) (s.drop o.length)
      rw [length_apply (List.length_take_of_le (opening?_le ho))] at hslice
      rw [hslice, slice_add, hs, hafter, List.foldl_nil]
    · rw [← hpiece] at hrest
      rw [List.foldl_cons, Found.turn, hafter]
      exact ih _ _ (hpiece ▸ hafter) hrest
  | pass c s hu ho ih =>
    rw [foundFrom_pass _ hu ho] at hsplit
    rw [adaptFrom_pass _ _ hu ho]
    exact ih blocks (c :: done) (drop_add_of_drop hs 1) hsplit

theorem adaptFrom_elsewhere (s : List Char) (blocks : List Bool) (done : List Char)
    (hs : src.drop done.length = s) {i : Nat} (hi : done.length ≤ i)
    (hout : ∀ start o, .beginning start o ∈ foundFrom done.length s →
      ¬ (start ≤ i ∧ i < start + o.length)) :
    (adaptFrom blocks done s)[i]? = src[i]? := by
  induction s using search_induction generalizing blocks done with
  | nil =>
    have hdone : done.reverse.length ≤ i := Nat.le_trans (Nat.le_of_eq List.length_reverse) hi
    rw [adaptFrom, List.getElem?_eq_none hdone,
      List.getElem?_eq_none (Nat.le_trans (List.drop_eq_nil_iff.mp hs) hi)]
  | untouched s n hu ih =>
    have hpiece := length_untouched hu done
    rw [foundFrom_untouched _ hu] at hout
    rw [adaptFrom_untouched _ _ hu]
    rcases Nat.lt_or_ge i (done.length + n) with hlt | hge
    · have hslice := slice_adaptFrom blocks done (s.take n) (s.drop n)
      rw [List.length_take_of_le (untouched?_le hu)] at hslice
      refine getElem?_congr_of_slice (hslice.trans ?_) hi hlt
      rw [slice_add, hs]
    · refine ih blocks _ (hpiece ▸ drop_add_of_drop hs n) (hpiece ▸ hge) ?_
      rw [hpiece]
      exact fun start o ho => hout start o (List.mem_cons_of_mem _ ho)
  | beginning s o hu ho ih =>
    have hpiece := length_beginning ho (change o (s.drop o.length) blocks).1 done
    rw [foundFrom_beginning _ hu ho] at hout
    rw [adaptFrom_beginning _ _ hu ho]
    have hge : done.length + o.length ≤ i :=
      Nat.le_of_not_lt fun hlt => hout _ _ List.mem_cons_self ⟨hi, hlt⟩
    refine ih _ _ (hpiece ▸ drop_add_of_drop hs o.length) (hpiece ▸ hge) ?_
    rw [hpiece]
    exact fun start o ho => hout start o (List.mem_cons_of_mem _ ho)
  | pass c s hu ho ih =>
    rw [foundFrom_pass _ hu ho] at hout
    rw [adaptFrom_pass _ _ hu ho]
    rcases Nat.eq_or_lt_of_le hi with rfl | hi
    · have hslice := slice_adaptFrom blocks done [c] s
      refine getElem?_congr_of_slice (hslice.trans ?_) (Nat.le_refl _) (Nat.lt_succ_self _)
      rw [List.length_singleton, slice_add, hs]
      rfl
    · exact ih blocks (c :: done) (drop_add_of_drop hs 1) hi hout

end

/-- **What the adapted text reads at the beginning of a tag.** -/
theorem adapt_reads {s : List Char} {before later : List Found} {start : Nat} {o : Opening}
    (h : found s = before ++ .beginning start o :: later) :
    slice (adapt s) start (start + o.length) =
      (change o (s.drop (start + o.length)) (blocksAfter s before)).1.apply o
        (slice s start (start + o.length)) :=
  adaptFrom_reads s [] [] rfl h

/-- **The characters outside the beginnings of tags are kept.** -/
theorem adapt_elsewhere {s : List Char} {i : Nat}
    (hout : ∀ start o, .beginning start o ∈ found s → ¬ (start ≤ i ∧ i < start + o.length)) :
    (adapt s)[i]? = s[i]? :=
  adaptFrom_elsewhere s [] [] rfl (Nat.zero_le i) hout

/-! ## Ranges that are overwritten -/

namespace Opening

/-- The characters before the range that can be overwritten: those before the sigil of a special
tag, and those before the keyword of a tag of a block. -/
def kept (o : Opening) : Nat :=
  match o.sigil with
  | .special => o.lead
  | .opening | .closing => o.before

/-- What the range is overwritten with. -/
def filling (o : Opening) : List Char :=
  match o.sigil with
  | .special => List.replicate (1 + o.gap + o.keyword.length) ' '
  | .opening | .closing => o.keyword.renamed

/-- The tag can be overwritten: it is one of a block, or one of those that are blanked. -/
def Overwritable (o : Opening) : Prop := o.sigil = .special → o.keyword.IsSpecial

/-- The tag can be left as it is if `after` follows its beginning: it is one of a block, not of a
snippet, and if it starts the block, its header has an `as`. -/
def MayStay (o : Opening) (after : List Char) : Prop :=
  o.sigil ≠ .special ∧ o.keyword ≠ .snippet ∧ (o.sigil = .opening → lacksAs after = false)

theorem kept_add_filling (o : Opening) : o.kept + o.filling.length = o.length := by
  have hrenamed : o.keyword.renamed.length = o.keyword.length := length_renamed o.keyword
  unfold kept filling Opening.length Opening.before
  split
  · rw [List.length_replicate]
    omega
  · rw [hrenamed]
  · rw [hrenamed]

theorem kept_pos {s : List Char} {o : Opening} (h : opening? s = some o) : 0 < o.kept := by
  obtain ⟨lead, _, _, _, hlead, _⟩ := opening?_head h
  unfold kept Opening.before
  split <;> omega

end Opening

theorem not_isSpecial {k : Keyword} (h : ¬ k.IsSpecial) : k = .snippet ∨ k = .each := by
  cases k with
  | snippet => exact .inl rfl
  | each => exact .inr rfl
  | render => exact absurd (.inl rfl) h
  | const => exact absurd (.inr (.inl rfl)) h
  | debug => exact absurd (.inr (.inr rfl)) h

/-- A tag that can be overwritten is, unless it may stay; any other one is kept. -/
theorem change_overwritable (o : Opening) (after : List Char) (blocks : List Bool) :
    (change o after blocks).1 = .keep ∧ (o.Overwritable → o.MayStay after) ∨
      o.Overwritable ∧
        ∀ s, (change o after blocks).1.apply o s = s.take o.kept ++ o.filling := by
  obtain ⟨lead, sigil, gap, keyword⟩ := o
  cases sigil with
  | special =>
    by_cases hk : keyword.IsSpecial
    · refine .inr ⟨fun _ => hk, fun s => ?_⟩
      rcases hk with rfl | rfl | rfl <;> rfl
    · refine .inl ⟨?_, fun h => absurd (h rfl) hk⟩
      rcases not_isSpecial hk with rfl | rfl <;> rfl
  | opening =>
    by_cases hsnippet : keyword = .snippet
    · subst hsnippet
      exact .inr ⟨nofun, fun _ => rfl⟩
    · have hchange : (change ⟨lead, .opening, gap, keyword⟩ after blocks).1 =
          if lacksAs after then .toIf else .keep := by
        cases keyword <;> first | rfl | exact absurd rfl hsnippet
      rw [hchange]
      cases hlacks : lacksAs after with
      | true => exact .inr ⟨nofun, fun _ => rfl⟩
      | false => exact .inl ⟨rfl, fun _ => ⟨nofun, hsnippet, fun _ => hlacks⟩⟩
  | closing =>
    by_cases hsnippet : keyword = .snippet
    · subst hsnippet
      exact .inr ⟨nofun, fun _ => rfl⟩
    · have hstay : Opening.MayStay ⟨lead, .closing, gap, keyword⟩ after := ⟨nofun, hsnippet, nofun⟩
      have hchange : (change ⟨lead, .closing, gap, keyword⟩ after blocks).1 =
          if blocks.head? = some true then .toIf else .keep := by
        cases keyword with
        | snippet => exact absurd rfl hsnippet
        | _ => rcases blocks with _ | ⟨_ | _, _⟩ <;> rfl
      rw [hchange]
      split
      · exact .inr ⟨nofun, fun _ => rfl⟩
      · exact .inl ⟨rfl, fun _ => hstay⟩

theorem length_adapt (s : List Char) : (adapt s).length = s.length := by
  rw [← (adapt_inPlace s).length_eq, List.length_zipIdx]

/-- **The range of a tag's beginning is overwritten or kept**, and the characters before it are
kept. -/
theorem range_cases {s : List Char} {start : Nat} {o : Opening}
    (h : .beginning start o ∈ found s) :
    slice (adapt s) start (start + o.kept) = slice s start (start + o.kept) ∧
      (slice (adapt s) (start + o.kept) (start + o.length) =
          slice s (start + o.kept) (start + o.length) ∧
        (o.Overwritable → o.MayStay (s.drop (start + o.length))) ∨
      o.Overwritable ∧ slice (adapt s) (start + o.kept) (start + o.length) = o.filling) := by
  obtain ⟨before, later, hsplit⟩ := List.append_of_mem h
  have hmade := adapt_reads hsplit
  have hkept : o.kept ≤ o.length := Nat.le.intro o.kept_add_filling
  have hparts : ∀ t : List Char, slice t start (start + o.length) =
      slice t start (start + o.kept) ++ slice t (start + o.kept) (start + o.length) := fun t =>
    (slice_append (Nat.le_add_right _ _) (Nat.add_le_add_left hkept start)).symm
  have hlength : (slice (adapt s) start (start + o.kept)).length =
      (slice s start (start + o.kept)).length := by
    rw [length_slice, length_slice, length_adapt]
  rcases change_overwritable o (s.drop (start + o.length)) (blocksAfter s before) with
    ⟨hkeep, hstay⟩ | ⟨hover, happly⟩
  · rw [hkeep, Change.apply, hparts, hparts] at hmade
    obtain ⟨hfront, hrange⟩ := List.append_inj hmade hlength
    exact ⟨hfront, .inl ⟨hrange, hstay⟩⟩
  · have hfront : (slice s start (start + o.length)).take o.kept =
        slice s start (start + o.kept) := by
      rw [slice_add, slice_add, List.take_take, Nat.min_eq_left hkept]
    rw [happly, hfront, hparts] at hmade
    obtain ⟨hfront, hrange⟩ := List.append_inj hmade hlength
    exact ⟨hfront, .inr ⟨hover, hrange⟩⟩

/-- A character that is changed is in a range that is overwritten. -/
theorem exists_range_of_ne {s : List Char} {i : Nat} (h : (adapt s)[i]? ≠ s[i]?) :
    ∃ start o, .beginning start o ∈ found s ∧ o.Overwritable ∧ start + o.kept ≤ i ∧
      i < start + o.length ∧
      slice (adapt s) (start + o.kept) (start + o.length) = o.filling := by
  by_contra hnone
  refine h (adapt_elsewhere fun start o ho hi => ?_)
  obtain ⟨hfront, hrange⟩ := range_cases ho
  rcases Nat.lt_or_ge i (start + o.kept) with hlt | hge
  · exact h (getElem?_congr_of_slice hfront hi.1 hlt)
  · rcases hrange with ⟨hsame, _⟩ | ⟨hover, hfilled⟩
    · exact h (getElem?_congr_of_slice hsame hge hi.2)
    · exact hnone ⟨start, o, ho, hover, hge, hi.2, hfilled⟩

/-! ## Braces and insertions -/

/-- One of the two braces. -/
def IsBrace (c : Char) : Prop := c = '\x7b' ∨ c = '\x7d'

instance (c : Char) : Decidable (IsBrace c) := inferInstanceAs (Decidable (_ ∨ _))

theorem not_isBrace_of_isBlank {c : Char} (h : isBlank c = true) : ¬ IsBrace c := by
  rintro (rfl | rfl) <;> revert h <;> decide

theorem not_isBrace_of_all {s : List Char} (h : (s.all fun c => !decide (IsBrace c)) = true) :
    ∀ c ∈ s, ¬ IsBrace c :=
  fun c hc => by simpa using List.all_eq_true.mp h c hc

theorem spelling_braceless (k : Keyword) : ∀ c ∈ k.spelling, ¬ IsBrace c :=
  not_isBrace_of_all (by cases k <;> rfl)

theorem renamed_braceless (k : Keyword) : ∀ c ∈ k.renamed, ¬ IsBrace c :=
  not_isBrace_of_all (by cases k <;> rfl)

theorem filling_braceless (o : Opening) : ∀ c ∈ o.filling, ¬ IsBrace c := by
  unfold Opening.filling
  split
  · intro c hc
    rw [List.eq_of_mem_replicate hc]
    decide
  · exact renamed_braceless o.keyword
  · exact renamed_braceless o.keyword

theorem sigil?_braceless {c : Char} {sigil : Sigil} (h : sigil? c = some sigil) : ¬ IsBrace c := by
  rcases sigil?_eq_some h with ⟨rfl, _⟩ | ⟨rfl, _⟩ | ⟨rfl, _⟩ <;> decide

/-- A text that starts like a tag with a sigil has no brace but the first, up to the end of the word
after the sigil. -/
theorem Signed.braceless {s lead gap word rest : List Char} {sign : Char}
    (h : Signed s lead sign gap (word ++ rest)) {sigil : Sigil} (hsign : sigil? sign = some sigil)
    (hword : ∀ c ∈ word, ¬ IsBrace c) {i : Nat} {c : Char} (hpos : 0 < i)
    (hi : i < lead.length + 2 + gap.length + word.length) (hc : s[i]? = some c) : ¬ IsBrace c := by
  have hsplit : s = '\x7b' :: ((lead ++ sign :: (gap ++ word)) ++ rest) := by
    rw [h.text_eq]
    simp only [List.cons_append, List.append_assoc]
  have hmem : c ∈ lead ++ sign :: (gap ++ word) := by
    rw [hsplit, List.getElem?_cons, if_neg (by omega), List.getElem?_append_left] at hc
    · exact List.mem_of_getElem? hc
    · simp only [List.length_append, List.length_cons]
      omega
  rcases List.mem_append.mp hmem with hmem | hmem
  · exact not_isBrace_of_isBlank (forall_of_allBlank h.lead_blank c hmem)
  · rcases List.mem_cons.mp hmem with rfl | hmem
    · exact sigil?_braceless hsign
    · rcases List.mem_append.mp hmem with hmem | hmem
      · exact not_isBrace_of_isBlank (forall_of_allBlank h.gap_blank c hmem)
      · exact hword c hmem

/-- There is no brace in the beginning of a tag but the one it starts with. -/
theorem opening?_braceless {s : List Char} {o : Opening} (h : opening? s = some o) {i : Nat}
    {c : Char} (hpos : 0 < i) (hi : i < o.length) (hc : s[i]? = some c) : ¬ IsBrace c := by
  obtain ⟨lead, sign, gap, after, hs, hlead, hgap, hsign⟩ := opening?_signed h
  refine hs.braceless hsign (spelling_braceless o.keyword) hpos ?_ hc
  unfold Opening.length Opening.before Keyword.length at hi
  omega

theorem opening?_brace {s : List Char} {o : Opening} (h : opening? s = some o) :
    s[0]? = some '\x7b' := by
  obtain ⟨_, _, _, _, rfl, _⟩ := opening?_eq_some h
  rfl

/-- If a character after a brace is changed and there is no other brace before it, it is in the range
of a tag that starts with this brace. -/
theorem exists_range_at {s : List Char} {place i : Nat} (hbrace : s[place]? = some '\x7b')
    (hi : place ≤ i)
    (hinside : ∀ j (c : Char), place < j → j < i → s[j]? = some c → ¬ IsBrace c)
    (h : (adapt s)[i]? ≠ s[i]?) :
    ∃ o, opening? (s.drop place) = some o ∧
      slice (adapt s) (place + o.kept) (place + o.length) = o.filling := by
  obtain ⟨start, o, ho, _, hge, hlt, hfilled⟩ := exists_range_of_ne h
  have hread := (mem_found ho).2
  have hpos := Opening.kept_pos hread
  rcases Nat.lt_trichotomy start place with hstart | rfl | hstart
  · -- the brace is inside of what another tag begins with
    have hat : (s.drop start)[place - start]? = some '\x7b' := by
      rw [List.getElem?_drop, Nat.add_sub_cancel' hstart.le, hbrace]
    exact absurd (.inl rfl) (opening?_braceless hread (by omega) (by omega) hat)
  · exact ⟨o, hread, hfilled⟩
  · -- the brace of the other tag is between the two places
    have hat := opening?_brace hread
    rw [List.getElem?_drop, Nat.add_zero] at hat
    exact absurd (.inl rfl) (hinside start _ hstart (by omega) hat)

/-- **Braces are kept**, and no new ones are written. -/
theorem brace_adapt_iff (s : List Char) (i : Nat) {c : Char} (hc : IsBrace c) :
    (adapt s)[i]? = some c ↔ s[i]? = some c := by
  by_cases heq : (adapt s)[i]? = s[i]?
  · rw [heq]
  · obtain ⟨start, o, ho, _, hge, hlt, hfilled⟩ := exists_range_of_ne heq
    have hread := (mem_found ho).2
    have hpos := Opening.kept_pos hread
    constructor
    · intro hi
      have hmem : c ∈ o.filling := hfilled ▸ mem_slice_iff.mpr ⟨i, hge, hlt, hi⟩
      exact absurd hc (filling_braceless o c hmem)
    · intro hi
      have hat : (s.drop start)[i - start]? = some c := by
        rw [List.getElem?_drop, Nat.add_sub_cancel' (by omega), hi]
      exact absurd hc (opening?_braceless hread (by omega) (by omega) hat)

/-- The beginning of a tag that inserts markup. -/
def insertionHead (lead gap : List Char) : List Char :=
  '\x7b' :: (lead ++ '@' :: (gap ++ ['h', 't', 'm', 'l']))

theorem insertionHead_signed {s lead gap : List Char} (hlead : allBlank lead = true)
    (hgap : allBlank gap = true) (h : insertionHead lead gap <+: s) :
    ∃ rest, Signed s lead '@' gap (['h', 't', 'm', 'l'] ++ rest) := by
  obtain ⟨rest, rfl⟩ := h
  refine ⟨rest, ?_, hlead, by decide, hgap, fun c hc => ?_⟩
  · simp only [insertionHead, List.cons_append, List.append_assoc]
  · cases hc
    decide

theorem read?_html (rest : List Char) : Keyword.read? (['h', 't', 'm', 'l'] ++ rest) = none := by
  by_contra hread
  obtain ⟨k, hk⟩ := Option.ne_none_iff_exists'.mp hread
  obtain ⟨after, hsplit, _⟩ := Keyword.read?_eq_some hk
  cases k <;> cases hsplit

/-- **The beginning of a tag that inserts markup is kept**: a range in it would be that of a tag which
starts with its brace, but no such tag is searched for. -/
theorem insertionHead_kept {s lead gap : List Char} {start : Nat} (hlead : allBlank lead = true)
    (hgap : allBlank gap = true) (h : insertionHead lead gap <+: s.drop start) :
    insertionHead lead gap <+: (adapt s).drop start := by
  obtain ⟨rest, hsigned⟩ := insertionHead_signed hlead hgap h
  rw [List.prefix_iff_eq_take, ← slice_add] at h ⊢
  refine h.trans (slice_congr fun i hi hlt => ?_)
  by_contra hne
  have hbrace : s[start]? = some '\x7b' := by
    rw [← Nat.add_zero start, ← List.getElem?_drop, hsigned.text_eq]
    rfl
  have hinside : ∀ j (c : Char), start < j → j < i → s[j]? = some c → ¬ IsBrace c := by
    intro j c hj hji hc
    rw [← Nat.add_sub_cancel' hj.le, ← List.getElem?_drop] at hc
    have hsigil : sigil? '@' = some .special := rfl
    refine hsigned.braceless hsigil (not_isBrace_of_all rfl) (by omega) ?_ hc
    simp only [insertionHead, List.length_cons, List.length_append] at hlt ⊢
    omega
  obtain ⟨o, hread, _⟩ := exists_range_at hbrace hi hinside (Ne.symm hne)
  rw [hsigned.opening?_eq, read?_html] at hread
  cases hread

/-! ## What is overwritten and what is kept -/

/-- What is left alone is kept, for no beginning of a tag is inside of it. -/
theorem untouched_kept {s : List Char} {start length : Nat}
    (h : .untouched start length ∈ found s) :
    slice (adapt s) start (start + length) = slice s start (start + length) := by
  refine slice_congr fun i hi hlt => adapt_elsewhere fun place o ho hin => ?_
  have hapart : start + length ≤ place ∨ place + o.length ≤ start :=
    found_apart s h ho Found.noConfusion
  omega

/-- The text `t` is `s` with the ranges of tags overwritten, and nothing else. -/
structure Overwritten (s t : List Char) : Prop where
  length_eq : t.length = s.length
  /-- Outside the ranges all characters are kept. -/
  outside : ∀ i, (∀ start o, .beginning start o ∈ found s → o.Overwritable →
    ¬ (start + o.kept ≤ i ∧ i < start + o.length)) → t[i]? = s[i]?
  /-- A range holds its filling, or what it held before if the tag may stay. -/
  inside : ∀ start o, .beginning start o ∈ found s → o.Overwritable →
    slice t (start + o.kept) (start + o.length) = o.filling ∨
      o.MayStay (s.drop (start + o.length)) ∧
        slice t (start + o.kept) (start + o.length) = slice s (start + o.kept) (start + o.length)
  /-- Comments, and script and style elements, are kept. -/
  untouched : ∀ start length, .untouched start length ∈ found s →
    slice t start (start + length) = slice s start (start + length)
  braces : ∀ (i : Nat) (c : Char), IsBrace c → (t[i]? = some c ↔ s[i]? = some c)
  /-- The beginnings of tags that insert markup are kept, wherever they stand. -/
  insertions : ∀ start lead gap, allBlank lead = true → allBlank gap = true →
    insertionHead lead gap <+: s.drop start → insertionHead lead gap <+: t.drop start

/-- **The adaptation overwrites the ranges of tags, and nothing else.** -/
theorem adapt_overwritten (s : List Char) : Overwritten s (adapt s) where
  length_eq := length_adapt s
  outside := by
    intro i hout
    by_contra hne
    obtain ⟨start, o, ho, hover, hge, hlt, _⟩ := exists_range_of_ne hne
    exact hout start o ho hover ⟨hge, hlt⟩
  inside := by
    intro start o ho hover
    rcases (range_cases ho).2 with ⟨hsame, hstay⟩ | ⟨_, hfilled⟩
    · exact .inr ⟨hstay hover, hsame⟩
    · exact .inl hfilled
  untouched _ _ h := untouched_kept h
  braces i _ hc := brace_adapt_iff s i hc
  insertions _ _ _ hlead hgap h := insertionHead_kept hlead hgap h

end RawHtmlLint.Template.Markup

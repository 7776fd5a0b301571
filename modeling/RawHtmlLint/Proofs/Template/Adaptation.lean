import RawHtmlLint.Proofs.Offset
import RawHtmlLint.Template.Markup

/-!
# Adapted markup in place

The adaptation works in place: each character is kept or has another one put in its place. What is
put in is a small letter or a space, so a character of one byte stays one of one byte. A character
of more bytes is replaced only if it is white space between `@` and the keyword of a tag that is
blanked; it then takes fewer bytes than before, and the bytes after it no longer belong to the
characters that they belong to in the source.

Results:
* `adapt_adapted`: what the adaptation does, by the tags of the text;
* `Adapted.inPlace`: each character is changed in place;
* `charOffset_adapt_iff`: bytes of the adapted text are those of the same characters of the source
  exactly if all characters of more than one byte are kept.
-/

namespace RawHtmlLint.Template.Markup

open Text

/-! ## What is changed -/

/-- The tags with these keywords are blanked. -/
def Keyword.IsSpecial (k : Keyword) : Prop := k = .render ∨ k = .const ∨ k = .debug

/-- As many spaces as the text has characters. -/
def spaces (s : List Char) : List Char := List.replicate s.length ' '

/-- What takes the place of a keyword that becomes `if`. -/
def Keyword.renamed (k : Keyword) : List Char := 'i' :: 'f' :: List.replicate (k.length - 2) ' '

/-- The second text is the first one with some tags changed in place: the keyword of a tag of a
block becomes `if`, and a special tag is blanked from its `@` to the end of its keyword. -/
inductive Adapted : List Char → List Char → Prop
  | nil : Adapted [] []
  | keep (c : Char) {s t : List Char} (hrest : Adapted s t) : Adapted (c :: s) (c :: t)
  | renamed {lead gap s t : List Char} {sign : Char} {k : Keyword}
      (hlead : ∀ c ∈ lead, isBlank c = true) (hgap : ∀ c ∈ gap, isBlank c = true)
      (hsign : sign = '#' ∨ sign = '/') (hword : endsWord s = true) (hrest : Adapted s t) :
      Adapted ('\x7b' :: (lead ++ sign :: (gap ++ (k.spelling ++ s))))
        ('\x7b' :: (lead ++ sign :: (gap ++ (k.renamed ++ t))))
  | blanked {lead gap s t : List Char} {k : Keyword}
      (hlead : ∀ c ∈ lead, isBlank c = true) (hgap : ∀ c ∈ gap, isBlank c = true)
      (hk : k.IsSpecial) (hword : endsWord s = true) (hrest : Adapted s t) :
      Adapted ('\x7b' :: (lead ++ '@' :: (gap ++ (k.spelling ++ s))))
        ('\x7b' :: (lead ++ ' ' :: (spaces gap ++ (spaces k.spelling ++ t))))

theorem Adapted.keepAll : ∀ (kept : List Char) {s t : List Char}, Adapted s t →
    Adapted (kept ++ s) (kept ++ t)
  | [], _, _, h => h
  | c :: kept, _, _, h => .keep c (keepAll kept h)

/-- A text starts with as much white space as is counted. -/
theorem exists_blanks (s : List Char) : ∃ blanks, s = blanks ++ s.drop (blankCount s) ∧
    blanks.length = blankCount s ∧ ∀ c ∈ blanks, isBlank c = true :=
  ⟨s.takeWhile isBlank, (List.prefix_iff_eq_append.mp (List.takeWhile_prefix _)).symm, rfl,
    List.all_eq_true.mp List.all_takeWhile⟩

theorem Keyword.read?_eq_some {s : List Char} {k : Keyword} (h : Keyword.read? s = some k) :
    ∃ after, s = k.spelling ++ after ∧ endsWord after = true := by
  have hk := List.find?_some h
  rw [Bool.and_eq_true, List.isPrefixOf_iff_prefix] at hk
  obtain ⟨⟨after, rfl⟩, hword⟩ := hk
  refine ⟨after, rfl, ?_⟩
  rwa [Keyword.length, List.drop_left] at hword

theorem sigil?_eq_some {c : Char} {sigil : Sigil} (h : sigil? c = some sigil) :
    c = '#' ∧ sigil = .opening ∨ c = '/' ∧ sigil = .closing ∨ c = '@' ∧ sigil = .special := by
  unfold sigil? at h
  split at h
  · cases h
    exact .inl ⟨rfl, rfl⟩
  · cases h
    exact .inr (.inl ⟨rfl, rfl⟩)
  · cases h
    exact .inr (.inr ⟨rfl, rfl⟩)
  · cases h

/-- The beginning of a tag is a brace, white space, the sigil, white space and the keyword. -/
theorem opening?_eq_some {s : List Char} {o : Opening} (h : opening? s = some o) :
    ∃ lead gap sign after,
      s = '\x7b' :: (lead ++ sign :: (gap ++ (o.keyword.spelling ++ after))) ∧
      lead.length + 1 = o.lead ∧ gap.length = o.gap ∧ sigil? sign = some o.sigil ∧
      (∀ c ∈ lead, isBlank c = true) ∧ (∀ c ∈ gap, isBlank c = true) ∧ endsWord after = true := by
  unfold opening? at h
  split at h
  · rename_i rest
    dsimp only at h
    obtain ⟨lead, hlead, hlength, hblank⟩ := exists_blanks rest
    split at h
    · cases h
    · rename_i sign rest' hsign
      obtain ⟨sigil, hsigil, h⟩ := Option.bind_eq_some_iff.mp h
      obtain ⟨k, hk, h⟩ := Option.bind_eq_some_iff.mp h
      cases h
      obtain ⟨gap, hgap, hgapLength, hgapBlank⟩ := exists_blanks rest'
      obtain ⟨after, hafter, hword⟩ := Keyword.read?_eq_some hk
      refine ⟨lead, gap, sign, after, ?_, by rw [hlength], hgapLength, hsigil, hblank, hgapBlank,
        hword⟩
      rw [hsign, hgap, hafter] at hlead
      rw [hlead]
  · cases h

/-- Tags of blocks are kept or renamed, special ones kept or blanked. -/
theorem change_cases (o : Opening) (after : List Char) (blocks : List Bool) :
    (change o after blocks).1 = .keep ∨
      (change o after blocks).1 = .toIf ∧ o.sigil ≠ .special ∨
      (change o after blocks).1 = .blank ∧ o.sigil = .special ∧ o.keyword.IsSpecial := by
  unfold change
  split
  · rename_i hsigil hk
    exact .inr (.inr ⟨rfl, hsigil, .inl hk⟩)
  · rename_i hsigil hk
    exact .inr (.inr ⟨rfl, hsigil, .inr (.inl hk)⟩)
  · rename_i hsigil hk
    exact .inr (.inr ⟨rfl, hsigil, .inr (.inr hk)⟩)
  · exact .inl rfl
  · rename_i hsigil
    exact .inr (.inl ⟨rfl, hsigil⟩)
  · rename_i hsigil _
    have hblock : o.sigil ≠ .special := fun h => nomatch hsigil.symm.trans h
    dsimp only
    split
    · exact .inr (.inl ⟨rfl, hblock⟩)
    · exact .inl rfl
  · rename_i hsigil _
    have hblock : o.sigil ≠ .special := fun h => nomatch hsigil.symm.trans h
    split
    · exact .inl rfl
    · dsimp only
      split
      · exact .inr (.inl ⟨rfl, hblock⟩)
      · exact .inl rfl

/-- What is left of a tag whose keyword becomes `if`. -/
theorem toIf_apply {o : Opening} {head : List Char} (h : head.length = o.before) :
    Change.toIf.apply o (head ++ o.keyword.spelling) = head ++ o.keyword.renamed := by
  rw [Change.apply, ← h, List.take_left]
  rfl

/-- What is left of a tag that is blanked. -/
theorem blank_apply {o : Opening} {head gap : List Char} (hhead : head.length = o.lead)
    (hgap : gap.length = o.gap) (sign : Char) :
    Change.blank.apply o (head ++ sign :: (gap ++ o.keyword.spelling)) =
      head ++ ' ' :: (spaces gap ++ spaces o.keyword.spelling) := by
  rw [Change.apply, ← hhead, List.take_left, ← hgap, Nat.add_assoc, Nat.add_comm 1,
    List.replicate_succ, List.replicate_add]
  rfl

/-- A tag is changed in place. -/
theorem opening_adapted {s t : List Char} {o : Opening} (after : List Char) (blocks : List Bool)
    (h : opening? s = some o) (hrest : Adapted (s.drop o.length) t) :
    Adapted s ((change o after blocks).1.apply o (s.take o.length) ++ t) := by
  obtain ⟨lead, gap, sign, rest, hs, hlead, hgap, hsign, hblank, hgapBlank, hword⟩ :=
    opening?_eq_some h
  have hhead : ('\x7b' :: lead).length = o.lead := hlead
  have hbefore : ('\x7b' :: lead ++ sign :: gap).length = o.before := by
    rw [List.length_append, hhead, List.length_cons, hgap, Opening.before]
    omega
  -- the beginning of the tag, and the rest of the text after it
  have hbegin : ('\x7b' :: lead ++ sign :: (gap ++ o.keyword.spelling)).length = o.length := by
    rw [Opening.length, ← hbefore, Keyword.length, ← List.length_append]
    simp only [List.cons_append, List.append_assoc]
  have hsplit : s = '\x7b' :: lead ++ sign :: (gap ++ o.keyword.spelling) ++ rest := by
    rw [hs]
    simp only [List.cons_append, List.append_assoc]
  have htake : s.take o.length = '\x7b' :: lead ++ sign :: (gap ++ o.keyword.spelling) := by
    rw [hsplit, ← hbegin, List.take_left]
  have hdrop : s.drop o.length = rest := by
    rw [hsplit, ← hbegin, List.drop_left]
  rw [hdrop] at hrest
  rw [htake]
  rcases change_cases o after blocks with hc | ⟨hc, hsigil⟩ | ⟨hc, hsigil, hk⟩
  · rw [hc, hsplit]
    exact .keepAll _ hrest
  · have hblock : sign = '#' ∨ sign = '/' := by
      rcases sigil?_eq_some hsign with ⟨rfl, _⟩ | ⟨rfl, _⟩ | ⟨_, hspecial⟩
      · exact .inl rfl
      · exact .inr rfl
      · exact absurd hspecial hsigil
    have happly := toIf_apply hbefore
    simp only [List.cons_append, List.append_assoc] at happly ⊢
    rw [hc, hs, happly]
    simp only [List.cons_append, List.append_assoc]
    exact .renamed hblank hgapBlank hblock hword hrest
  · obtain rfl : sign = '@' := by
      rw [hsigil] at hsign
      rcases sigil?_eq_some hsign with ⟨_, h⟩ | ⟨_, h⟩ | ⟨h, _⟩
      · cases h
      · cases h
      · exact h
    rw [hc, hs, blank_apply hhead hgap]
    simp only [List.cons_append, List.append_assoc]
    exact .blanked hblank hgapBlank hk hword hrest

/-! ## What is left alone -/

theorem closingTagEnd?_pos {name : List Char} : ∀ {s : List Char} {count n : Nat}, 0 < count →
    closingTagEnd? name count s = some n → 0 < n
  | [], _, _, _, h => (nomatch h)
  | c :: rest, count, n, hpos, h => by
    unfold closingTagEnd? at h
    split at h
    · cases h
      exact Nat.add_pos_left hpos _
    · exact closingTagEnd?_pos (Nat.succ_pos _) h

theorem rawElement?_pos {name s : List Char} {n : Nat} (h : rawElement? name s = some n) :
    0 < n := by
  unfold rawElement? at h
  dsimp only at h
  split at h
  · exact closingTagEnd?_pos (Nat.succ_pos _) h
  · cases h

/-- What is left alone is not empty. -/
theorem untouched?_pos {s : List Char} {n : Nat} (h : untouched? s = some n) : 0 < n := by
  unfold untouched? at h
  split at h
  · rename_i length hcomment
    cases h
    unfold comment? at hcomment
    split at hcomment
    · obtain ⟨_, _, rfl⟩ := Option.map_eq_some_iff.mp hcomment
      exact Nat.succ_pos _
    · cases hcomment
  · split at h
    · rename_i length hscript
      cases h
      exact rawElement?_pos hscript
    · exact rawElement?_pos h

theorem opening_length_pos (o : Opening) : 0 < o.length := by
  unfold Opening.length Opening.before
  omega

/-- The rest of the text is adapted after what is done. -/
theorem adaptFrom_adapted (blocks : List Bool) (done s : List Char) :
    ∃ t, adaptFrom blocks done s = done.reverse ++ t ∧ Adapted s t := by
  fun_induction adaptFrom blocks done s with
  | case1 blocks done => exact ⟨[], (List.append_nil _).symm, .nil⟩
  | case2 blocks done c rest length hlength ih =>
    obtain ⟨t, ht, hadapted⟩ := ih
    refine ⟨(c :: rest).take length ++ t, ?_, ?_⟩
    · rw [ht, List.reverse_append, List.reverse_reverse, List.append_assoc]
    · rw [← List.drop_succ_cons (a := c), Nat.sub_add_cancel (untouched?_pos hlength)] at hadapted
      have hsplit := Adapted.keepAll ((c :: rest).take length) hadapted
      rwa [List.take_append_drop] at hsplit
  | case3 blocks done c rest _ o ho changed blocks' hchange ih =>
    obtain ⟨t, ht, hadapted⟩ := ih
    refine ⟨changed.apply o ((c :: rest).take o.length) ++ t, ?_, ?_⟩
    · rw [ht, List.reverse_append, List.reverse_reverse, List.append_assoc]
    · rw [← List.drop_succ_cons (a := c), Nat.sub_add_cancel (opening_length_pos o)] at hadapted
      have hstep := opening_adapted ((c :: rest).drop o.length) blocks ho hadapted
      rwa [hchange] at hstep
  | case4 blocks done c rest _ _ ih =>
    obtain ⟨t, ht, hadapted⟩ := ih
    refine ⟨c :: t, ?_, .keep c hadapted⟩
    rw [ht, List.reverse_cons, List.append_assoc]
    rfl

/-- **What the adaptation does**, by the tags of the text. -/
theorem adapt_adapted (s : List Char) : Adapted s (adapt s) := by
  obtain ⟨t, ht, hadapted⟩ := adaptFrom_adapted [] [] s
  rw [adapt, ht]
  exact hadapted

/-! ## Characters of more than one byte -/

theorem spelling_narrow (k : Keyword) : ∀ c ∈ k.spelling, c.utf8Size = 1 := by
  have hall : (k.spelling.all fun c => c.utf8Size == 1) = true := by cases k <;> rfl
  exact fun c hc => beq_iff_eq.mp (List.all_eq_true.mp hall c hc)

theorem renamed_narrow (k : Keyword) : ∀ c ∈ k.renamed, c.utf8Size = 1 := by
  have hall : (k.renamed.all fun c => c.utf8Size == 1) = true := by cases k <;> rfl
  exact fun c hc => beq_iff_eq.mp (List.all_eq_true.mp hall c hc)

theorem length_renamed (k : Keyword) : k.renamed.length = k.spelling.length := by
  cases k <;> rfl

theorem spaces_narrow (s : List Char) : ∀ c ∈ spaces s, c.utf8Size = 1 := by
  intro c hc
  rw [List.eq_of_mem_replicate hc]
  decide

/-- At the offset stands white space between the `@` of a special tag and its keyword. -/
def GapAt (s : List Char) (i : Nat) : Prop :=
  ∃ (before lead gap after : List Char) (k : Keyword),
    s = before ++ '\x7b' :: (lead ++ '@' :: (gap ++ (k.spelling ++ after))) ∧ k.IsSpecial ∧
    (∀ c ∈ lead ++ gap, isBlank c = true) ∧ endsWord after = true ∧
    before.length + lead.length + 2 ≤ i ∧ i < before.length + lead.length + 2 + gap.length

/-- The character, given with its offset, is kept, or one of one byte is put in its place; and then
it takes one byte itself, or is in the gap of a special tag. -/
def InPlace (s : List Char) (c : Char × Nat) (d : Char) : Prop :=
  d = c.1 ∨ d.utf8Size = 1 ∧ (c.1.utf8Size = 1 ∨ GapAt s c.2)

theorem inPlace_kept (s : List Char) : ∀ (kept : List Char) (k : Nat),
    List.Forall₂ (InPlace s) (kept.zipIdx k) kept
  | [], _ => .nil
  | _ :: kept, k => .cons (.inl rfl) (inPlace_kept s kept (k + 1))

theorem inPlace_changed {s : List Char} : ∀ {old new : List Char} {k : Nat},
    new.length = old.length → (∀ d ∈ new, d.utf8Size = 1) →
    (∀ c ∈ old.zipIdx k, c.1.utf8Size = 1 ∨ GapAt s c.2) →
    List.Forall₂ (InPlace s) (old.zipIdx k) new
  | [], [], _, _, _, _ => .nil
  | c :: old, d :: new, k, hlength, hnew, hold => by
    rw [List.zipIdx_cons] at hold ⊢
    obtain ⟨hd, hnew⟩ := List.forall_mem_cons.mp hnew
    obtain ⟨hc, hold⟩ := List.forall_mem_cons.mp hold
    exact .cons (.inr ⟨hd, hc⟩) (inPlace_changed (Nat.succ.inj hlength) hnew hold)

theorem inPlace_narrow {s old new : List Char} {k : Nat} (hlength : new.length = old.length)
    (hnew : ∀ d ∈ new, d.utf8Size = 1) (hold : ∀ c ∈ old, c.utf8Size = 1) :
    List.Forall₂ (InPlace s) (old.zipIdx k) new :=
  inPlace_changed hlength hnew fun c hc => .inl (hold c.1 (List.fst_mem_of_mem_zipIdx hc))

/-- **Each character is changed in place**, and where it takes more than one byte, in a gap. -/
theorem Adapted.inPlace {s t : List Char} (h : Adapted s t) (before : List Char) :
    List.Forall₂ (InPlace (before ++ s)) (s.zipIdx before.length) t := by
  induction h generalizing before with
  | nil => exact .nil
  | keep c _ ih =>
    have ih := ih (before ++ [c])
    rw [List.append_assoc, List.length_append] at ih
    exact .cons (.inl rfl) ih
  | @renamed lead gap s t sign k _ _ _ _ _ ih =>
    have ih := ih (before ++ '\x7b' :: (lead ++ sign :: (gap ++ k.spelling)))
    simp only [List.append_assoc, List.cons_append, List.length_append, List.length_cons] at ih
    simp only [List.zipIdx_cons, List.zipIdx_append]
    refine .cons (.inl rfl) (List.rel_append (inPlace_kept _ _ _) (.cons (.inl rfl)
      (List.rel_append (inPlace_kept _ _ _) (List.rel_append ?_ ?_))))
    · exact inPlace_narrow (length_renamed k) (renamed_narrow k) (spelling_narrow k)
    · refine Eq.subst (motive := fun i => List.Forall₂ _ (s.zipIdx i) t) ?_ ih
      omega
  | @blanked lead gap s t k hlead hgap hk hword _ ih =>
    have ih := ih (before ++ '\x7b' :: (lead ++ '@' :: (gap ++ k.spelling)))
    simp only [List.append_assoc, List.cons_append, List.length_append, List.length_cons] at ih
    simp only [List.zipIdx_cons, List.zipIdx_append]
    refine .cons (.inl rfl) (List.rel_append (inPlace_kept _ _ _)
      (.cons (.inr ⟨by decide, .inl (show '@'.utf8Size = 1 by decide)⟩)
        (List.rel_append ?_ (List.rel_append ?_ ?_))))
    · refine inPlace_changed List.length_replicate (spaces_narrow gap) fun c hc => .inr ?_
      have hle := List.le_snd_of_mem_zipIdx hc
      have hlt := List.snd_lt_add_of_mem_zipIdx hc
      refine ⟨before, lead, gap, s, k, rfl, hk, ?_, hword, ?_, ?_⟩
      · exact List.forall_mem_append.mpr ⟨hlead, hgap⟩
      · omega
      · omega
    · exact inPlace_narrow List.length_replicate (spaces_narrow _) (spelling_narrow k)
    · refine Eq.subst (motive := fun i => List.Forall₂ _ (s.zipIdx i) t) ?_ ih
      omega

theorem adapt_inPlace (s : List Char) : List.Forall₂ (InPlace s) s.zipIdx (adapt s) :=
  (adapt_adapted s).inPlace []

/-! ## Bytes -/

/-- The texts are equally long, and each character of more than one byte is kept. -/
def KeepsWide (s t : List Char) : Prop := List.Forall₂ (fun c d => d = c ∨ c.utf8Size = 1) s t

theorem forall₂_of_zipIdx {R : Char → Char → Prop} {s t : List Char}
    (h : List.Forall₂ (fun c d => R c.1 d) s.zipIdx t) : List.Forall₂ R s t := by
  have hmap : List.Forall₂ R (s.zipIdx.map Prod.fst) t := List.forall₂_map_left_iff.mpr h
  rwa [List.zipIdx_map_fst] at hmap

theorem adapt_narrow (s : List Char) :
    List.Forall₂ (fun c d => d = c ∨ d.utf8Size = 1) s (adapt s) :=
  forall₂_of_zipIdx ((adapt_inPlace s).imp fun _ _ hcd => hcd.imp_right And.left)

/-- If only narrow characters are put in place, bytes stay with their characters only if wide ones
are kept. -/
theorem keepsWide_of_ownerOf_eq {s t : List Char}
    (h : List.Forall₂ (fun c d => d = c ∨ d.utf8Size = 1) s t)
    (hbytes : ∀ byte ≤ byteLength t, ownerOf s byte = ownerOf t byte) : KeepsWide s t := by
  induction h with
  | nil => exact .nil
  | @cons c d s t hcd _ ih =>
    have hsize : c.utf8Size = d.utf8Size := by
      rcases hcd with rfl | hd
      · rfl
      · -- otherwise the second byte is that of the first character in one text only
        by_contra hne
        have hpos := c.utf8Size_pos
        have hsecond := hbytes 1 (by rw [byteLength]; omega)
        rw [ownerOf_of_lt (by omega), ownerOf_of_le (Nat.le_of_eq hd)] at hsecond
        exact absurd hsecond (Nat.zero_ne_add_one _)
    refine .cons (hcd.imp_right hsize.trans) (ih fun byte hbyte => ?_)
    have hshift := hbytes (byte + c.utf8Size) (by rw [byteLength]; omega)
    rw [ownerOf_of_le (Nat.le_add_left _ _), hsize, ownerOf_of_le (Nat.le_add_left _ _),
      Nat.add_sub_cancel] at hshift
    exact Nat.succ.inj hshift

theorem ownerOf_adapt {s : List Char} (h : KeepsWide s (adapt s)) (byte : Nat) :
    ownerOf s byte = ownerOf (adapt s) byte := by
  refine ownerOf_congr (List.Forall₂.mp ?_ h (adapt_narrow s)) byte
  intro c d hwide hnarrow
  rcases hwide with rfl | hc
  · rfl
  · rcases hnarrow with rfl | hd
    · rfl
    · rw [hc, hd]

/-- If there is only white space of one byte after each `@`, wide characters are kept. -/
theorem keepsWide_adapt {s : List Char}
    (h : ∀ i c, GapAt s i → s[i]? = some c → c.utf8Size = 1) : KeepsWide s (adapt s) := by
  have hgap : ∀ c ∈ s.zipIdx, GapAt s c.2 → c.1.utf8Size = 1 := fun c hc hgap =>
    h c.2 c.1 hgap (List.mk_mem_zipIdx_iff_getElem?.mp hc)
  have hboth := (List.forall₂_and_left s.zipIdx (adapt s)).mpr ⟨hgap, adapt_inPlace s⟩
  refine forall₂_of_zipIdx (hboth.imp fun c d hcd => hcd.2.imp_right fun hd => ?_)
  exact hd.2.elim id hcd.1

/-- **Bytes of the adapted text are those of the same characters of the source** exactly if the
adaptation keeps all characters of more than one byte; and it does if there is only white space of
one byte between the `@` of a special tag and its keyword. -/
theorem charOffset_adapt_iff (s : Source) :
    ((∀ byte ≤ byteLength (adapt s.text), s.charOffset byte = ownerOf (adapt s.text) byte) ↔
      KeepsWide s.text (adapt s.text)) ∧
    ((∀ i c, GapAt s.text i → s.text[i]? = some c → c.utf8Size = 1) →
      KeepsWide s.text (adapt s.text)) := by
  refine ⟨⟨fun h => ?_, fun h byte _ => ?_⟩, keepsWide_adapt⟩
  · refine keepsWide_of_ownerOf_eq (adapt_narrow s.text) fun byte hbyte => ?_
    rw [← s.charOffset_eq_ownerOf, h byte hbyte]
  · rw [s.charOffset_eq_ownerOf, ownerOf_adapt h]

/-- A string in an insertion that reads like a special tag, with a no-break space, which takes two
bytes, in its gap. -/
def gapSource : Source := .ofText "Gap.svelte" "\x7b@html \"\x7b@\u00a0debug\x7d\"\x7d".toList

/-- Byte 11 is the second one of the no-break space, but the adapted text has its twelfth character
there; and where the adapted text ends, the source still has its last brace. -/
theorem charOffset_gapSource : byteLength (adapt gapSource.text) = 19 ∧
    gapSource.charOffset 11 = 10 ∧ ownerOf (adapt gapSource.text) 11 = 11 ∧
    gapSource.charOffset 19 = 18 ∧ ownerOf (adapt gapSource.text) 19 = 19 := by
  decide +kernel

end RawHtmlLint.Template.Markup

import RawHtmlLint.Proofs.Outcome
import RawHtmlLint.Proofs.Script.ClosingBrace
import RawHtmlLint.Proofs.Script.Complete
import RawHtmlLint.Proofs.Template.Pairing
import RawHtmlLint.Template.Block
import RawHtmlLint.Template.Parse

/-!
# The start of an each block, seen twice

The start of an each block is looked at by the adaptation, before there is a tree, and by the
conversion, which takes its header apart. The adaptation searches for the brace, the sigil and the
keyword at once, and scans for the closing brace from the end of the keyword; the conversion scans
from the opening brace and then reads the keyword. What is between the two mean nothing to the scan,
so both see one header: the keyword is overwritten exactly if the header has no `as`.

Results:
* `closingBrace?_inert`, `closingBrace?_drop`: where a scan for the closing brace may start;
* `opening?_of_header`: the beginning of the tag of a header;
* `found_of_opening`: a beginning of a tag is found unless it is inside of what is left alone;
* `overwritten_iff_lacksAs`: the adaptation and the conversion see the same header.
-/

namespace RawHtmlLint

open Text

namespace Script

/-! ## The closing brace from elsewhere -/

theorem Inert.plain {c : Char} (h : Inert c) (next : List Char) : Plain c next := by
  simp only [Inert, signs, List.mem_cons, List.not_mem_nil, or_false, not_or] at h
  simp [Plain, isOpening, isClosing, h]

theorem leads_inert {x : List Char} (hx : ∀ c ∈ x, Inert c) (y : List Char) :
    Leads false (x ++ y) false y := by
  induction x with
  | nil => exact .refl false y
  | cons c x ih =>
    obtain ⟨hc, hx⟩ := List.forall_mem_cons.mp hx
    exact (Item.plain (hc.plain (x ++ y))).leads.trans (ih hx)

/-- **A scan may start after characters that mean nothing to it.** -/
theorem closingBrace?_inert {text x : List Char} {start : Nat} (hx : ∀ c ∈ x, Inert c)
    (h : text.drop start = x ++ text.drop (start + x.length)) :
    closingBrace? text start = closingBrace? text (start + x.length) := by
  obtain ⟨n, hn, hcloses⟩ := leads_inert hx (text.drop (start + x.length))
  obtain rfl : n = x.length := by
    rw [List.length_append] at hn
    omega
  have hstart := hcloses start []
  rw [← h] at hstart
  exact hstart

theorem met_shift (k : Nat) : ∀ (s : List Char) (σ : State) (index : Nat),
    σ.met (k + index) s = (σ.met index s).map fun c => (k + c.1, c.2)
  | [], _, _ => rfl
  | c :: s, σ, index => by
    have ih := met_shift k s (σ.step c) (index + 1)
    cases hreads : σ.reads c s.head? with
    | true =>
      rw [State.met_cons_of_reads hreads, State.met_cons_of_reads hreads, List.map_cons, ← ih]
      rfl
    | false =>
      rw [State.met_cons_of_not hreads, State.met_cons_of_not hreads, ← ih]
      rfl

/-- The closing brace is the first one that is met outside of brackets. -/
theorem closingBrace?_eq (text : List Char) (start : Nat) :
    closingBrace? text start = (State.start.met start (text.drop start)).findSome? fun c =>
      if c.2 = 0 ∧ text[c.1]? = some '\x7d' then some c.1 else none := by
  have hmet : State.start.met start (text.drop start) =
      (Cursor.ofText text start).stops.map fun stop => (stop.index, stop.depth) :=
    (Cursor.map_stops (.ofText text start)).symm
  rw [closingBrace?, findCode?_eq_findSome?, hmet, List.findSome?_map]
  refine findSome?_congr fun stop hstop => ?_
  obtain ⟨n, hindex, hrest, _⟩ := stop_ahead hstop
  have hhead : stop.rest.head? = text[stop.index]? := by
    rw [hrest, hindex, Cursor.ofText, List.drop_drop, List.head?_drop]
  rw [Function.comp_apply, hhead]

/-- **A scan of the rest of a text** finds the same brace, counted from there. -/
theorem closingBrace?_drop (text : List Char) (start : Nat) :
    closingBrace? text start = (closingBrace? (text.drop start) 0).map (start + ·) := by
  rw [closingBrace?_eq, closingBrace?_eq, List.drop_zero, List.map_findSome?,
    ← Nat.add_zero start, met_shift, List.findSome?_map]
  refine findSome?_congr fun c _ => ?_
  dsimp only [Function.comp_apply]
  rw [Nat.add_zero, List.getElem?_drop]
  split <;> rfl

end Script

namespace Template

open Script Markup

/-! ## The beginning of the tag -/

/-- The characters before the end of a keyword mean nothing to the scan. -/
theorem inert_opening {lead : List Char} (hlead : allBlank lead = true) (k : Keyword) :
    ∀ c ∈ lead ++ '#' :: k.spelling, Inert c := by
  intro c hc
  rcases List.mem_append.mp hc with hc | hc
  · exact inert_of_allBlank hlead c hc
  · rcases List.mem_cons.mp hc with rfl | hc
    · decide
    · exact inert_of_class (by decide) (spelling_isWord k c hc)

section

variable {s : Source} {i : Nat} {h : Header} {k : Keyword}

/-- The text of a header that opens a block, up to the end of its keyword. -/
theorem signed_of_header (hbrace : s.at? i = some '\x7b') (hread : Header.read s i = .ok h)
    (hsigil : h.sigil = some '#') (hkeyword : h.keyword = k.spelling) :
    ∃ lead, Signed (s.text.drop i) lead '#' [] (k.spelling ++ s.text.drop h.rest) ∧
      h.rest = i + 1 + (lead ++ '#' :: k.spelling).length ∧ h.start = i ∧
      closingBrace? s.text (i + 1) = some h.close := by
  obtain ⟨close, hclose, hread⟩ := bind_eq_ok.mp hread
  cases pure_eq_ok.mp hread
  clear hread
  obtain ⟨lead, hlead, hlength, hblank⟩ := exists_blanks (s.text.drop (i + 1))
  rw [List.drop_drop, ← hlength] at hlead
  rw [← hlength] at hsigil hkeyword ⊢
  dsimp only at hsigil hkeyword ⊢
  split at hsigil
  · have hword := List.takeWhile_append_dropWhile (p := isLetter)
      (l := s.text.drop (i + 1 + lead.length + 1))
    have hrest : s.text.drop (i + 1 + lead.length + 1) = k.spelling ++
        s.text.drop (i + 1 + lead.length + 1 + k.spelling.length) := by
      rw [← List.drop_drop (i := k.spelling.length)]
      conv_lhs => rw [← hword, hkeyword]
      conv_rhs => rw [← hword, hkeyword, List.drop_left]
    rw [hkeyword]
    refine ⟨lead, ⟨?_, List.all_eq_true.mpr hblank, by decide, rfl, fun c hc => ?_⟩, ?_, rfl, ?_⟩
    · rw [drop_eq_cons hbrace, hlead, drop_eq_cons hsigil, List.nil_append, ← hrest]
    · revert hc
      cases k <;> (intro hc; cases hc; decide)
    · rw [List.length_append, List.length_cons]
      omega
    · unfold Source.closingBrace at hclose
      split at hclose
      · rename_i found hfound
        cases hclose
        exact hfound
      · exact absurd hclose reject_ne_ok
  · cases hsigil

/-- **The beginning of the tag of a header** that opens a block. -/
theorem opening?_of_header (hbrace : s.at? i = some '\x7b') (hread : Header.read s i = .ok h)
    (hsigil : h.sigil = some '#') (hkeyword : h.keyword = k.spelling)
    (hends : endsWord (s.text.drop h.rest) = true) :
    ∃ o, opening? (s.text.drop i) = some o ∧ o.sigil = .opening ∧ o.keyword = k ∧
      i + o.length = h.rest := by
  obtain ⟨lead, hsigned, hrest, _⟩ := signed_of_header hbrace hread hsigil hkeyword
  have hword : Keyword.read? (k.spelling ++ s.text.drop h.rest) = some k := by
    rw [Keyword.read?_eq_some_iff, List.takeWhile_append_of_pos (spelling_isWord k),
      takeWhile_of_endsWord hends, List.append_nil]
  refine ⟨⟨lead.length + 1, .opening, 0, k⟩, ?_, rfl, rfl, ?_⟩
  · rw [hsigned.opening?_eq, hword]
    rfl
  · rw [hrest, List.length_append, List.length_cons]
    show i + (lead.length + 1 + 1 + 0 + k.spelling.length) = _
    omega

/-- A scan from the end of the keyword finds the closing brace of the header. -/
theorem closingBrace?_of_header (hbrace : s.at? i = some '\x7b') (hread : Header.read s i = .ok h)
    (hsigil : h.sigil = some '#') (hkeyword : h.keyword = k.spelling) :
    ∃ n, closingBrace? (s.text.drop h.rest) 0 = some n ∧ h.rest + n = h.close := by
  obtain ⟨lead, hsigned, hrest, _, hclose⟩ := signed_of_header hbrace hread hsigil hkeyword
  have hsplit : s.text.drop (i + 1) =
      (lead ++ '#' :: k.spelling) ++ s.text.drop (i + 1 + (lead ++ '#' :: k.spelling).length) := by
    rw [← hrest, ← List.drop_drop, hsigned.text_eq]
    simp only [List.drop_succ_cons, List.drop_zero, List.nil_append, List.append_assoc,
      List.cons_append]
  rw [closingBrace?_inert (inert_opening hsigned.lead_blank k) hsplit, ← hrest,
    closingBrace?_drop] at hclose
  exact Option.map_eq_some_iff.mp hclose

/-- The adaptation misses `as` in the header where the conversion does. -/
theorem lacksAs_of_header (hbrace : s.at? i = some '\x7b') (hread : Header.read s i = .ok h)
    (hsigil : h.sigil = some '#') (hkeyword : h.keyword = k.spelling) :
    lacksAs (s.text.drop h.rest) = (topLevel? Separator.eachAs (h.body s) 0).isNone := by
  obtain ⟨n, hclose, hend⟩ := closingBrace?_of_header hbrace hread hsigil hkeyword
  have hbody : h.body s = (s.text.drop h.rest).take n := by
    rw [Header.body, Source.slice, ← hend, slice_add]
  unfold lacksAs
  rw [hclose, hbody]

/-! ## What is found -/

/-- **A beginning of a tag is found** unless it is inside of what is left alone. -/
theorem found_of_opening {text : List Char} {o : Opening} (ho : opening? (text.drop i) = some o)
    (hout : ∀ start length, .untouched start length ∈ found text →
      ¬ (start ≤ i ∧ i < start + length)) : .beginning i o ∈ found text := by
  have hbrace := opening?_brace ho
  rw [List.getElem?_drop, Nat.add_zero] at hbrace
  by_contra hnot
  have hfirst := found_first (List.getElem?_eq_some_iff.mp hbrace).1 fun f hf hin => ?_
  · rw [ho] at hfirst
    exact nomatch hfirst.2
  · cases f with
    | untouched start length => exact hout start length hf hin
    | beginning start o' =>
      have hread : opening? (text.drop start) = some o' := (mem_found hf).2
      obtain ⟨hle : start ≤ i, hlt : i < start + o'.length⟩ := hin
      rcases Nat.eq_or_lt_of_le hle with rfl | hlt'
      · cases hread.symm.trans ho
        exact hnot hf
      · -- the tag would start inside of another one, which has no brace there
        refine opening?_braceless hread (Nat.sub_pos_of_lt hlt')
          (Nat.sub_lt_left_of_lt_add hle hlt) ?_
          (.inl rfl)
        rw [List.getElem?_drop, Nat.add_sub_cancel' hle, hbrace]

end

/-! ## The header without `as` -/

/-- The component is rejected with the code, if at all. -/
def RejectedAs (code : String) : Failure → Prop
  | .malformed d => d.code = code
  | _ => False

theorem not_rejectedAs_reject {α : Type} {s : Source} {cause : Cause} {offset : Nat} {code : String}
    {P : α → Prop} (h : cause.code ≠ code) :
    Meets (fun failure => ¬ RejectedAs code failure) P (s.reject cause offset) := h

/-- Reading an expression never misses `as`. -/
theorem read_not_expectedAs (s : Source) (g : Grammar.Grammars) (language : String)
    (start stop : Nat) : Meets (fun failure => ¬ RejectedAs "expected-as" failure)
      (fun _ => True) (Expression.read s g language start stop) := by
  have hparse : Meets (fun failure => ¬ RejectedAs "expected-as" failure) (fun _ => True)
      (g.parse language (Expression.wrapped (s.slice start stop))) := by
    unfold Grammar.Grammars.parse
    split
    · exact id
    · split
      · trivial
      · exact id
  unfold Expression.read
  dsimp only
  split
  · exact not_rejectedAs_reject (by decide)
  · refine hparse.bind fun parse _ => ?_
    split
    · trivial
    · exact not_rejectedAs_reject (show "invalid-expression" ≠ "expected-as" by decide)

section

variable {ctx : Context} {body : List Char} {rest start : Nat}

/-- **Without `as`** the older dialect rejects the header, and the newer one reads all of it. -/
theorem readEach_of_lacking (h : topLevel? Separator.eachAs body 0 = none) :
    readEach ctx body rest start =
      if ctx.modern then (ctx.read rest (rest + body.length)).map fun e => { expression := e }
      else ctx.reject .eachWithoutAs start := by
  unfold readEach
  rw [h]
  dsimp only
  cases ctx.read rest (rest + body.length) <;> rfl

/-- **With `as`** the header is not rejected for missing it, and it has a context. -/
theorem readEach_of_some (hread : ∀ start stop, Meets
      (fun failure => ¬ RejectedAs "expected-as" failure) (fun _ => True) (ctx.read start stop))
    (h : topLevel? Separator.eachAs body 0 ≠ none) :
    Meets (fun failure => ¬ RejectedAs "expected-as" failure) (fun each => each.context ≠ none)
      (readEach ctx body rest start) := by
  obtain ⟨⟨before, after, _⟩, hsome⟩ := Option.ne_none_iff_exists'.mp h
  have hkey : ∀ text offset, Meets (fun failure => ¬ RejectedAs "expected-as" failure)
      (fun _ => True) (readKey ctx text offset start) := by
    intro text offset
    unfold readKey
    split
    · trivial
    · dsimp only
      split
      · exact (hread _ _).bind fun _ _ => trivial
      · exact not_rejectedAs_reject (by decide)
  have hindex : ∀ text, Meets (fun failure => ¬ RejectedAs "expected-as" failure)
      (fun _ => True) (readIndex ctx text start) := by
    intro text
    unfold readIndex
    split
    · trivial
    · dsimp only
      split
      · trivial
      · exact not_rejectedAs_reject (by decide)
  unfold readEach
  rw [hsome]
  refine (hread _ _).bind fun e _ => (hkey _ _).bind fun key _ => (hindex _).bind fun index _ => ?_
  dsimp only
  split
  · exact not_rejectedAs_reject (by decide)
  · exact Option.some_ne_none _

end

/-! ## One header -/

/-- What the adaptation and the conversion make of one header that starts an each block: the first
one finds the beginning `o` of its tag and overwrites the keyword or not, the second one has read
it. -/
structure SeenAlike (s : Source) (h : Header) (o : Opening) : Prop where
  sigil_eq : o.sigil = .opening
  keyword_eq : o.keyword = .each
  found : .beginning h.start o ∈ found s.text
  rest_eq : h.start + o.length = h.rest
  /-- Both see the same closing brace and the same body. -/
  closes : ∃ n, closingBrace? (s.text.drop (h.start + o.length)) 0 = some n ∧
    h.start + o.length + n = h.close ∧ (s.text.drop (h.start + o.length)).take n = h.body s
  overwritten_iff : slice (adapt s.text) (h.start + o.before) (h.start + o.length) =
    o.keyword.renamed ↔ topLevel? Separator.eachAs (h.body s) 0 = none
  kept_iff : slice (adapt s.text) (h.start + o.before) (h.start + o.length) =
    o.keyword.spelling ↔ topLevel? Separator.eachAs (h.body s) 0 ≠ none

/-- What the two dialects make of the header of an each block. -/
structure ReadByDialect (s : Source) (h : Header) (g : Grammar.Grammars)
    (language : Grammar.Language) : Prop where
  rejected_iff : (∃ failure, readEach (contextFor g s false language) (h.body s) h.rest h.start =
    .error failure ∧ RejectedAs "expected-as" failure) ↔
      topLevel? Separator.eachAs (h.body s) 0 = none
  read_all : topLevel? Separator.eachAs (h.body s) 0 = none →
    readEach (contextFor g s true language) (h.body s) h.rest h.start =
      ((contextFor g s true language).read h.rest h.close).map fun e => { expression := e }
  context_iff : ∀ each, readEach (contextFor g s true language) (h.body s) h.rest h.start =
    .ok each → (each.context = none ↔ topLevel? Separator.eachAs (h.body s) 0 = none)

section

variable {s : Source} {i : Nat} {h : Header}

/-- The keyword in the adapted text tells whether the header has `as`. -/
theorem keyword_of_header {o : Opening} (hmem : .beginning i o ∈ found s.text)
    (hopening : o.sigil = .opening) (heach : o.keyword = .each)
    (hlacks : lacksAs (s.text.drop (i + o.length)) =
      (topLevel? Separator.eachAs (h.body s) 0).isNone) :
    slice (adapt s.text) (i + o.before) (i + o.length) =
      if topLevel? Separator.eachAs (h.body s) 0 = none then o.keyword.renamed
      else o.keyword.spelling := by
  obtain ⟨before, later, hfound⟩ := List.append_of_mem hmem
  have hside : o.sigil.side? = some .start := by
    rw [hopening]
    rfl
  rw [reads_keyword hfound (ne_special_of_side? hside), change_of_start hside heach, hlacks]
  cases topLevel? Separator.eachAs (h.body s) 0 <;> rfl

/-- **The adaptation sees the header as the conversion does**, unless it is inside of what is left
alone. -/
theorem seenAlike_of_header (hbrace : s.at? i = some '\x7b') (hread : Header.read s i = .ok h)
    (hsigil : h.sigil = some '#') (hkeyword : h.keyword = Keyword.each.spelling)
    (hends : endsWord (s.text.drop h.rest) = true)
    (hout : ∀ start length, .untouched start length ∈ found s.text →
      ¬ (start ≤ i ∧ i < start + length)) : ∃ o, SeenAlike s h o := by
  obtain ⟨_, _, _, rfl, _⟩ := signed_of_header hbrace hread hsigil hkeyword
  obtain ⟨o, ho, hopening, heach, hrest⟩ := opening?_of_header hbrace hread hsigil hkeyword hends
  obtain ⟨n, hclose, hend⟩ := closingBrace?_of_header hbrace hread hsigil hkeyword
  have hlacks := lacksAs_of_header hbrace hread hsigil hkeyword
  have hmem := found_of_opening ho hout
  rw [← hrest] at hlacks
  have hkept := keyword_of_header hmem hopening heach hlacks
  refine ⟨o, hopening, heach, hmem, hrest, ⟨n, hrest ▸ hclose, hrest ▸ hend, ?_⟩, ?_, ?_⟩
  · rw [Header.body, Source.slice, ← hend, slice_add, hrest]
  · rw [hkept]
    split
    · rename_i hnone
      exact iff_of_true rfl hnone
    · rename_i hsome
      exact iff_of_false (spelling_ne_renamed _) hsome
  · rw [hkept]
    split
    · rename_i hnone
      exact iff_of_false (spelling_ne_renamed _).symm fun hsome => hsome hnone
    · rename_i hsome
      exact iff_of_true rfl hsome

/-- The body of a header is all of it from its keyword to its closing brace. -/
theorem SeenAlike.length_body {o : Opening} (hseen : SeenAlike s h o) :
    h.rest + (h.body s).length = h.close := by
  obtain ⟨n, hclose, hend, hbody⟩ := hseen.closes
  obtain ⟨_, hbrace⟩ := closingBrace?_some hclose
  rw [hseen.rest_eq] at hend hbody hbrace
  have hlt := (List.getElem?_eq_some_iff.mp hbrace).1
  rw [← hbody, List.length_take, Nat.min_eq_left (Nat.le_of_lt hlt), hend]

theorem readByDialect (hlength : h.rest + (h.body s).length = h.close) (g : Grammar.Grammars)
    (language : Grammar.Language) : ReadByDialect s h g language := by
  have hmeets : ∀ modern start stop, Meets (fun failure => ¬ RejectedAs "expected-as" failure)
      (fun _ => True) ((contextFor g s modern language).read start stop) :=
    fun _ => read_not_expectedAs s g language.name
  constructor
  · constructor
    · rintro ⟨failure, herror, hcode⟩
      by_contra hsome
      exact (readEach_of_some (hmeets false) hsome).of_error herror hcode
    · intro hnone
      rw [readEach_of_lacking hnone]
      exact ⟨_, rfl, rfl⟩
  · intro hnone
    rw [readEach_of_lacking hnone, hlength]
    rfl
  · intro each hok
    constructor
    · intro hcontext
      by_contra hsome
      exact (readEach_of_some (hmeets true) hsome).of_ok hok hcontext
    · intro hnone
      rw [readEach_of_lacking hnone] at hok
      cases hread : (contextFor g s true language).read h.rest (h.rest + (h.body s).length) with
      | error failure =>
        rw [hread] at hok
        cases hok
      | ok e =>
        rw [hread] at hok
        cases hok
        rfl

/-- **The keyword of an each block is overwritten exactly if its header has no `as`**: the
adaptation sees the same header as the conversion, which rejects it in the older dialect and reads
it without a context in the newer one. The conversion reads headers only where a brace stands
(`headersAt`). -/
theorem each_overwritten_iff_lacksAs (hbrace : s.at? i = some '\x7b')
    (hout : ∀ start length, .untouched start length ∈ found s.text →
      ¬ (start ≤ i ∧ i < start + length))
    (hread : Header.read s i = .ok h) (hsigil : h.sigil = some '#')
    (hkeyword : h.keyword = Keyword.each.spelling) (hends : endsWord (s.text.drop h.rest) = true) :
    (∃ o, SeenAlike s h o) ∧ ∀ g language, ReadByDialect s h g language := by
  obtain ⟨o, hseen⟩ := seenAlike_of_header hbrace hread hsigil hkeyword hends hout
  exact ⟨⟨o, hseen⟩, readByDialect hseen.length_body⟩

end

/-- A block without `as`, once in a comment and once after it. -/
def hiddenEach : Source :=
  .ofText "Hidden.svelte" "<!--\x7b#each a\x7d-->\x7b#each a\x7d".toList

/-- The one in the comment is kept, the other one overwritten. -/
theorem hiddenEach_overwritten : ∃ h o, Header.read hiddenEach 16 = .ok h ∧
    SeenAlike hiddenEach h o ∧ (∀ g language, ReadByDialect hiddenEach h g language) ∧
    topLevel? Separator.eachAs (h.body hiddenEach) 0 = none ∧
    adapt hiddenEach.text = "<!--\x7b#each a\x7d-->\x7b#if   a\x7d".toList := by
  obtain ⟨h, hread, hfields⟩ := exists_ok_of_any (x := Header.read hiddenEach 16)
    (p := (· == ⟨16, 24, some '#', Keyword.each.spelling, 22⟩)) (by decide +kernel)
  obtain rfl := beq_iff_eq.mp hfields
  have hfound : found hiddenEach.text =
      [.untouched 0 16, .beginning 16 ⟨1, .opening, 0, .each⟩] := by
    decide +kernel
  obtain ⟨⟨o, hseen⟩, hread'⟩ := each_overwritten_iff_lacksAs (i := 16) (by decide +kernel)
    (fun start length hmem => by
      rw [hfound, List.mem_cons, List.mem_singleton] at hmem
      rcases hmem with hmem | hmem
      · cases hmem
        decide
      · cases hmem)
    hread rfl rfl (by decide +kernel)
  exact ⟨_, o, hread, hseen, hread', by decide +kernel, by decide +kernel⟩

end Template

end RawHtmlLint

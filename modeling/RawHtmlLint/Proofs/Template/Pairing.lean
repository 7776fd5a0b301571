import RawHtmlLint.Proofs.Template.BlockTags
import RawHtmlLint.Proofs.Template.Overwriting

/-!
# Starts and ends of blocks are overwritten in pairs

Whether the end of an `each` block is overwritten depends on the start that was found last and has
had no end yet. Starts and ends are searched for in the plain text, also inside of other tags. So if
something inside of a tag, such as a string, reads like a start or an end, the ends after it are
taken for those of other blocks. If there is none, an end is overwritten exactly if the start that
it closes is.

Results:
* `foundFrom_tagsFrom`: where all tags are quiet, what is found is what the tags begin with;
* `foldl_turns_of_balanced`: balanced blocks leave open what was open before them;
* `adapt_pairs`: in each balanced block, both tags or none are overwritten, and blocks stay balanced;
* `quotedEach_unpaired`: a string that reads like a start breaks this.
-/

namespace RawHtmlLint.Template.Markup

open Text Script

/-! ## What the open blocks depend on -/

/-- The tag starts or ends a block that is kept track of. -/
def Opening.counts (o : Opening) : Bool := o.sigil != .special && o.keyword != .snippet

def Found.counts : Found → Bool
  | untouched .. => false
  | beginning _ o => o.counts

/-- Nothing else changes what is open. -/
theorem turn_of_not_counts {s : List Char} {f : Found} (h : f.counts = false)
    (blocks : List Bool) : f.turn s blocks = blocks := by
  cases f with
  | untouched => rfl
  | beginning start o =>
    obtain ⟨lead, sigil, gap, keyword⟩ := o
    cases sigil <;> cases keyword <;> first | rfl | exact (nomatch h)

theorem blocksAfter_filter (s : List Char) (list : List Found) :
    blocksAfter s list = (list.filter Found.counts).foldl (Found.turn s) [] := by
  rw [blocksAfter, List.foldl_filter]
  congr 1
  funext blocks f
  split
  · rfl
  · rename_i hcounts
    exact turn_of_not_counts (by simpa using hcounts) blocks

section

variable {o : Opening}

theorem change_of_start (hside : o.sigil.side? = some .start) (hk : o.keyword = .each)
    (after : List Char) (blocks : List Bool) :
    change o after blocks = (if lacksAs after then .toIf else .keep, lacksAs after :: blocks) := by
  obtain ⟨lead, sigil, gap, keyword⟩ := o
  cases hk
  cases sigil <;> first | rfl | exact (nomatch hside)

theorem change_of_stop (hside : o.sigil.side? = some .stop) (hk : o.keyword = .each)
    (after : List Char) (changed : Bool) (blocks : List Bool) :
    change o after (changed :: blocks) = (if changed then .toIf else .keep, blocks) := by
  obtain ⟨lead, sigil, gap, keyword⟩ := o
  cases hk
  cases sigil <;> first | rfl | exact (nomatch hside)

theorem ne_special_of_side? {side : Side} (hside : o.sigil.side? = some side) :
    o.sigil ≠ .special := by
  intro h
  rw [h] at hside
  cases hside

theorem counts_of_each {side : Side} (hside : o.sigil.side? = some side) (hk : o.keyword = .each) :
    o.counts = true := by
  obtain ⟨lead, sigil, gap, keyword⟩ := o
  cases hk
  cases sigil <;> first | rfl | exact (nomatch hside)

end

/-! ## What is found, and the tags -/

/-- What the tag begins with, if it counts. -/
def Tag.turn? (s : List Char) (tag : Tag) : Option Found :=
  ((opening? (s.drop tag.start)).filter Opening.counts).map (.beginning tag.start)

/-- What the tags begin with, as far as it counts. -/
def turns (s : List Char) (list : List Tag) : List Found := list.filterMap (Tag.turn? s)

theorem turns_append (s : List Char) (list more : List Tag) :
    turns s (list ++ more) = turns s list ++ turns s more :=
  List.filterMap_append

theorem turns_cons (s : List Char) (tag : Tag) (list : List Tag) :
    turns s (tag :: list) = (tag.turn? s).toList ++ turns s list := by
  unfold turns
  rw [List.filterMap_cons]
  cases tag.turn? s <;> rfl

/-- What is inside of the tag stays inside: a comment, or a script or style element, that starts
there ends there, and nothing reads like the start or end of an `each` block. -/
def Tag.Quiet (s : List Char) (tag : Tag) : Prop :=
  ∀ j < tag.close, tag.start < j → (∀ n ∈ untouched? (s.drop j), j + n ≤ tag.close) ∧
    ∀ o ∈ opening? (s.drop j), o.counts = false

instance (s : List Char) (tag : Tag) : Decidable (tag.Quiet s) :=
  inferInstanceAs (Decidable (∀ j < tag.close, tag.start < j →
    (∀ n ∈ untouched? (s.drop j), j + n ≤ tag.close) ∧
      ∀ o ∈ opening? (s.drop j), o.counts = false))

section

variable {src : List Char}

theorem drop_eq_cons {s : List Char} {i : Nat} {c : Char} (h : s[i]? = some c) :
    s.drop i = c :: s.drop (i + 1) := by
  obtain ⟨hlt, rfl⟩ := List.getElem?_eq_some_iff.mp h
  exact List.drop_eq_getElem_cons hlt

/-- The beginning of a tag ends before the next closing brace. -/
theorem opening?_le_brace {p q : Nat} {o : Opening} (h : opening? (src.drop p) = some o)
    (hpq : p ≤ q) (hq : src[q]? = some '\x7d') : p + o.length ≤ q := by
  by_contra hlt
  have hat : (src.drop p)[q - p]? = some '\x7d' := by
    rw [List.getElem?_drop, Nat.add_sub_cancel' hpq, hq]
  rcases Nat.eq_or_lt_of_le hpq with rfl | hpq
  · have hbrace := opening?_brace h
    rw [← Nat.sub_self p, hat] at hbrace
    cases hbrace
  · exact opening?_braceless h (by omega) (by omega) hat (.inr rfl)

/-- Inside of a quiet tag, up to its closing brace, the search finds nothing that counts. -/
theorem foundFrom_inside {p q : Nat} (hpq : p ≤ q) (hq : src[q]? = some '\x7d')
    (hquiet : ∀ j < q, p ≤ j → (∀ n ∈ untouched? (src.drop j), j + n ≤ q) ∧
      ∀ o ∈ opening? (src.drop j), o.counts = false) :
    ∃ inner, foundFrom p (src.drop p) = inner ++ foundFrom (q + 1) (src.drop (q + 1)) ∧
      ∀ f ∈ inner, f.counts = false := by
  generalize hsize : q - p = size
  induction size using Nat.strong_induction_on generalizing p with
  | _ size ih =>
    rcases Nat.eq_or_lt_of_le hpq with rfl | hlt
    · rw [drop_eq_cons hq, foundFrom_pass p rfl rfl]
      exact ⟨[], rfl, fun _ h => absurd h List.not_mem_nil⟩
    · obtain ⟨huntouched, ho⟩ := hquiet p hlt (Nat.le_refl p)
      -- the search goes on further inside of the tag
      have hnext : ∀ n, 0 < n → p + n ≤ q → ∃ inner,
          foundFrom (p + n) (src.drop (p + n)) =
            inner ++ foundFrom (q + 1) (src.drop (q + 1)) ∧ ∀ f ∈ inner, f.counts = false :=
        fun n hn hle => ih (q - (p + n)) (by omega) hle
          (fun j hj hpj => hquiet j hj (by omega)) rfl
      cases hu : untouched? (src.drop p) with
      | some n =>
        obtain ⟨inner, hinner, hcounts⟩ := hnext n (untouched?_pos hu) (huntouched n hu)
        refine ⟨.untouched p n :: inner, ?_, List.forall_mem_cons.mpr ⟨rfl, hcounts⟩⟩
        rw [foundFrom_untouched p hu, List.drop_drop, hinner, List.cons_append]
      | none =>
        cases hopening : opening? (src.drop p) with
        | some o =>
          obtain ⟨inner, hinner, hcounts⟩ :=
            hnext o.length (opening_length_pos o) (opening?_le_brace hopening hpq hq)
          refine ⟨.beginning p o :: inner, ?_, List.forall_mem_cons.mpr ⟨ho o hopening, hcounts⟩⟩
          rw [foundFrom_beginning p hu hopening, List.drop_drop, hinner, List.cons_append]
        | none =>
          obtain ⟨c, hc⟩ : ∃ c, src[p]? = some c := by
            have hbound := (List.getElem?_eq_some_iff.mp hq).1
            exact ⟨_, List.getElem?_eq_getElem (Nat.lt_trans hlt hbound)⟩
          rw [drop_eq_cons hc] at hu hopening ⊢
          rw [foundFrom_pass p hu hopening]
          exact hnext 1 Nat.one_pos hlt

/-- Of what is found in a quiet tag, only its beginning can count. -/
theorem foundFrom_tag {index inside : Nat} {rest : List Char}
    (hs : src.drop index = '\x7b' :: rest) (hu : untouched? ('\x7b' :: rest) = none)
    (hclose : closingBrace? rest 0 = some inside)
    (hquiet : Tag.Quiet src ⟨index, index + 1 + inside⟩) :
    ∃ inner, foundFrom index ('\x7b' :: rest) =
        ((opening? (src.drop index)).map (.beginning index)).toList ++
          (inner ++ foundFrom (index + 1 + inside + 1) (rest.drop (inside + 1))) ∧
      ∀ f ∈ inner, f.counts = false := by
  have hrest : src.drop (index + 1) = rest := drop_add_of_drop hs 1
  have hbrace : src[index + 1 + inside]? = some '\x7d' := by
    rw [← List.getElem?_drop, hrest]
    exact (closingBrace?_some hclose).2
  have hend : src.drop (index + 1 + inside + 1) = rest.drop (inside + 1) := by
    rw [Nat.add_assoc, ← List.drop_drop, hrest]
  have hinside : ∀ p, index < p → p ≤ index + 1 + inside → ∃ inner,
      foundFrom p (src.drop p) =
        inner ++ foundFrom (index + 1 + inside + 1) (rest.drop (inside + 1)) ∧
      ∀ f ∈ inner, f.counts = false := by
    intro p hp hle
    rw [← hend]
    exact foundFrom_inside hle hbrace fun j hj hpj => hquiet j hj (Nat.lt_of_lt_of_le hp hpj)
  rw [hs]
  cases ho : opening? ('\x7b' :: rest) with
  | none =>
    have hnext := hinside (index + 1) (Nat.lt_succ_self _) (by omega)
    rw [hrest] at hnext
    rw [foundFrom_pass index hu ho]
    exact hnext
  | some o =>
    have hpos := opening_length_pos o
    have hle := opening?_le_brace (hs ▸ ho) (by omega) hbrace
    obtain ⟨inner, hinner, hcounts⟩ := hinside (index + o.length) (by omega) hle
    refine ⟨inner, ?_, hcounts⟩
    rw [foundFrom_beginning index hu ho, ← drop_add_of_drop hs, hinner]
    rfl

theorem opening?_of_ne {c : Char} (hc : c ≠ '\x7b') (s : List Char) : opening? (c :: s) = none :=
  Option.eq_none_iff_forall_ne_some.mpr fun _ ho => hc (Option.some.inj (opening?_brace ho))

/-- **Where all tags are quiet, what counts of what is found is what the tags begin with**, up to a
brace that is not closed; and the beginning of each tag is found. -/
theorem foundFrom_tagsFrom (index : Nat) (s : List Char) (hs : src.drop index = s)
    (hquiet : ∀ t ∈ tagsFrom index s, t.Quiet src) :
    (∃ later, (foundFrom index s).filter Found.counts = turns src (tagsFrom index s) ++ later) ∧
      ∀ t ∈ tagsFrom index s, ∀ o ∈ opening? (src.drop t.start),
        .beginning t.start o ∈ foundFrom index s := by
  fun_induction tagsFrom index s with
  | case1 index => exact ⟨⟨[], by rw [foundFrom]; rfl⟩, fun _ h => absurd h List.not_mem_nil⟩
  | case2 index c rest length hu ih =>
    obtain ⟨_, _, ⟨⟩, hrest⟩ := exists_cons_drop (untouched?_pos hu) (untouched?_le hu)
    obtain ⟨hfilter, hmem⟩ := ih ((drop_add_of_drop hs length).trans hrest.symm) hquiet
    rw [foundFrom, hu]
    exact ⟨hfilter, fun t ht o ho => List.mem_cons_of_mem _ (hmem t ht o ho)⟩
  | case3 index rest inside hclose hu ih =>
    obtain ⟨hhead, hquiet⟩ := List.forall_mem_cons.mp hquiet
    have hrest : src.drop (index + 1 + inside + 1) = rest.drop (inside + 1) := by
      rw [Nat.add_assoc, ← List.drop_drop, drop_add_of_drop hs 1]
      rfl
    obtain ⟨⟨later, hlater⟩, hmem⟩ := ih hrest hquiet
    obtain ⟨inner, hfound, hcounts⟩ := foundFrom_tag hs hu hclose hhead
    have hinner : inner.filter Found.counts = [] :=
      List.filter_eq_nil_iff.mpr fun f hf => by rw [hcounts f hf]; exact Bool.false_ne_true
    rw [hfound]
    refine ⟨⟨later, ?_⟩, List.forall_mem_cons.mpr ⟨fun o ho => ?_, fun t ht o ho => ?_⟩⟩
    · rw [List.filter_append, List.filter_append, hinner, hlater, turns_cons, Tag.turn?,
        List.nil_append, List.append_assoc]
      congr 1
      cases opening? (src.drop index) with
      | none => rfl
      | some o => cases hcase : o.counts <;> simp [Option.filter, Found.counts, hcase]
    · rw [Option.mem_def.mp ho]
      exact List.mem_append_left _ (List.mem_singleton_self _)
    · exact List.mem_append_right _ (List.mem_append_right _ (hmem t ht o ho))
  | case4 index rest hclose hu => exact ⟨⟨_, rfl⟩, fun _ h => absurd h List.not_mem_nil⟩
  | case5 index c rest hu hc ih =>
    rw [foundFrom_pass index hu (opening?_of_ne hc rest)]
    exact ih (drop_add_of_drop hs 1) hquiet

end

/-! ## What balanced blocks leave open -/

/-- If the tag is one of a block, its name is none of the keywords of special tags. -/
def Tag.Plain (s : List Char) (tag : Tag) : Prop :=
  ∀ r ∈ tag.block? s s, ∀ k ∈ [Keyword.render, .const, .debug], r.2 ≠ k.spelling

instance (s : List Char) (tag : Tag) : Decidable (tag.Plain s) :=
  inferInstanceAs (Decidable (∀ r ∈ tag.block? s s, ∀ k ∈ [Keyword.render, .const, .debug],
    r.2 ≠ k.spelling))

section

variable {s : List Char} {tag : Tag}

theorem Tag.each?_eq_some_iff {side : Side} {name : List Char} :
    tag.each? s = some (side, name) ↔
      tag.block? s s = some (side, name) ∧ name = Keyword.each.spelling := by
  unfold Tag.each?
  rw [Option.filter_eq_some_iff, decide_eq_true_iff]

/-- A tag of an `each` block counts. -/
theorem Tag.turn?_of_each? {side : Side} {name : List Char}
    (h : tag.each? s = some (side, name)) :
    ∃ o, opening? (s.drop tag.start) = some o ∧ o.sigil.side? = some side ∧ o.keyword = .each ∧
      tag.turn? s = some (.beginning tag.start o) := by
  obtain ⟨hblock, rfl⟩ := Tag.each?_eq_some_iff.mp h
  obtain ⟨o, ho, hside, hk⟩ := Tag.block?_eq_some_iff.mp hblock
  refine ⟨o, ho, hside, hk, ?_⟩
  rw [Tag.turn?, ho, Option.filter_some, if_pos (counts_of_each hside hk), Option.map_some]

/-- Where special keywords name no blocks, no other tag counts. -/
theorem Tag.turn?_of_not_each? (hplain : tag.Plain s) (h : tag.each? s = none) :
    tag.turn? s = none := by
  unfold Tag.turn?
  cases ho : opening? (s.drop tag.start) with
  | none => rfl
  | some o =>
    rw [Option.filter_some]
    split
    · rename_i hcounts
      exfalso
      unfold Opening.counts at hcounts
      obtain ⟨hsigil, hsnippet⟩ := Bool.and_eq_true_iff.mp hcounts
      obtain ⟨side, hside⟩ : ∃ side, o.sigil.side? = some side := by
        cases hcase : o.sigil with
        | opening => exact ⟨_, rfl⟩
        | closing => exact ⟨_, rfl⟩
        | special => rw [hcase] at hsigil; exact (nomatch hsigil)
      have hblock := Tag.block?_eq_some_iff.mpr ⟨o, ho, hside, rfl⟩
      have hkeyword := hplain _ hblock
      cases hk : o.keyword with
      | each =>
        have heach := Tag.each?_eq_some_iff.mpr ⟨hblock, congrArg Keyword.spelling hk⟩
        rw [h] at heach
        cases heach
      | snippet => rw [hk] at hsnippet; exact (nomatch hsnippet)
      | render => exact hkeyword .render (by decide) (congrArg Keyword.spelling hk)
      | const => exact hkeyword .const (by decide) (congrArg Keyword.spelling hk)
      | debug => exact hkeyword .debug (by decide) (congrArg Keyword.spelling hk)
    · rfl

/-- **Balanced blocks leave open what was open before them**: each start adds a block, and the end
that closes it takes the block away again. -/
theorem foldl_turns_of_balanced {list : List Tag} (h : Balanced (Tag.each? s) list)
    (hplain : ∀ t ∈ list, t.Plain s) (blocks : List Bool) :
    (turns s list).foldl (Found.turn s) blocks = blocks := by
  induction h generalizing blocks with
  | nil => rfl
  | pass ha _ ih =>
    obtain ⟨hhead, hplain⟩ := List.forall_mem_cons.mp hplain
    rw [turns_cons, Tag.turn?_of_not_each? hhead ha]
    exact ih hplain blocks
  | @block a b inner rest name ha _ hb _ ihInner ihRest =>
    obtain ⟨_, hplain⟩ := List.forall_mem_cons.mp hplain
    obtain ⟨hinner, hplain⟩ := List.forall_mem_append.mp hplain
    obtain ⟨_, hrest⟩ := List.forall_mem_cons.mp hplain
    obtain ⟨o, _, hstart, hk, hturn⟩ := Tag.turn?_of_each? ha
    obtain ⟨o', _, hstop, hk', hturn'⟩ := Tag.turn?_of_each? hb
    rw [turns_cons, hturn, turns_append, turns_cons, hturn']
    simp only [Option.toList_some, List.cons_append, List.nil_append, List.foldl_cons,
      List.foldl_append, Found.turn, change_of_start hstart hk, ihInner hinner,
      change_of_stop hstop hk', ihRest hrest]

/-! ## Which tags are overwritten -/

/-- The keyword of the tag becomes `if`. -/
def Tag.Renamed (s : List Char) (tag : Tag) : Prop :=
  ∃ o ∈ opening? (s.drop tag.start),
    slice (adapt s) (tag.start + o.before) (tag.start + o.length) = o.keyword.renamed

instance (s : List Char) (tag : Tag) : Decidable (tag.Renamed s) :=
  inferInstanceAs (Decidable (∃ o ∈ opening? (s.drop tag.start),
    slice (adapt s) (tag.start + o.before) (tag.start + o.length) = o.keyword.renamed))

theorem spelling_ne_renamed (k : Keyword) : k.spelling ≠ k.renamed := by
  cases k <;> decide

/-- The keyword at the beginning of a tag of a block is renamed by the change to `if`, and kept
otherwise. -/
theorem reads_keyword {before later : List Found} {start : Nat} {o : Opening}
    (h : found s = before ++ .beginning start o :: later) (hsigil : o.sigil ≠ .special) :
    slice (adapt s) (start + o.before) (start + o.length) =
      if (change o (s.drop (start + o.length)) (blocksAfter s before)).1 = .toIf then
        o.keyword.renamed
      else o.keyword.spelling := by
  have hmem : .beginning start o ∈ found s := h ▸ List.mem_append_right _ List.mem_cons_self
  have hread : opening? (s.drop start) = some o := (mem_found hmem).2
  obtain ⟨lead, gap, sign, hhead, hlead, hgap⟩ := opening?_head hread
  have hbefore : ('\x7b' :: (lead ++ sign :: gap)).length = o.before := by
    rw [List.length_cons, List.length_append, List.length_cons, Opening.before]
    omega
  have hsplit : slice s start (start + o.length) =
      '\x7b' :: (lead ++ sign :: gap) ++ o.keyword.spelling := by
    rw [slice_add, hhead]
    simp only [List.cons_append, List.append_assoc]
  rw [slice_drop, adapt_reads h, hsplit]
  rcases change_cases o (s.drop (start + o.length)) (blocksAfter s before) with
    hc | ⟨hc, _⟩ | ⟨_, hspecial, _⟩
  · rw [hc, if_neg Change.noConfusion, Change.apply, List.drop_left' hbefore]
  · rw [hc, if_pos rfl, toIf_apply hbefore, List.drop_left' hbefore]
  · exact absurd hspecial hsigil

/-- The keyword at the beginning of a tag of a block becomes `if` by the change to `if` only. -/
theorem reads_renamed_iff {before later : List Found} {start : Nat} {o : Opening}
    (h : found s = before ++ .beginning start o :: later) (hsigil : o.sigil ≠ .special) :
    slice (adapt s) (start + o.before) (start + o.length) = o.keyword.renamed ↔
      (change o (s.drop (start + o.length)) (blocksAfter s before)).1 = .toIf := by
  rw [reads_keyword h hsigil]
  split
  · rename_i hc
    exact iff_of_true rfl hc
  · rename_i hc
    exact iff_of_false (spelling_ne_renamed _) hc

theorem exists_split_of_filter {p : Found → Bool} {list before later : List Found} {f : Found}
    (h : list.filter p = before ++ f :: later) :
    ∃ front back, list = front ++ f :: back ∧ front.filter p = before := by
  obtain ⟨front, rest, rfl, hfront, hrest⟩ := List.filter_eq_append_iff.mp h
  obtain ⟨between, back, rfl, hbetween, _⟩ := List.filter_eq_cons_iff.mp hrest
  refine ⟨front ++ between, back, (List.append_assoc _ _ _).symm, ?_⟩
  rw [List.filter_append, hfront, List.filter_eq_nil_iff.mpr hbetween, List.append_nil]

/-- A tag that counts is renamed as what the tags before it leave open says. -/
theorem Tag.renamed_iff (hquiet : ∀ t ∈ tags s, t.Quiet s) {front back : List Tag}
    (htags : tags s = front ++ tag :: back) {o : Opening} (ho : opening? (s.drop tag.start) = some o)
    {side : Side} (hside : o.sigil.side? = some side)
    (hturn : tag.turn? s = some (.beginning tag.start o)) :
    tag.Renamed s ↔ (change o (s.drop (tag.start + o.length))
      ((turns s front).foldl (Found.turn s) [])).1 = .toIf := by
  obtain ⟨later, hlater⟩ := (foundFrom_tagsFrom 0 s rfl hquiet).1
  have hfilter : (found s).filter Found.counts =
      turns s front ++ .beginning tag.start o :: (turns s back ++ later) := by
    rw [found, hlater, ← tags, htags, turns_append, turns_cons, hturn]
    simp only [Option.toList_some, List.cons_append, List.nil_append, List.append_assoc]
  obtain ⟨before, after, hfound, hbefore⟩ := exists_split_of_filter hfilter
  have hsigil := ne_special_of_side? hside
  rw [← hbefore, ← blocksAfter_filter, ← reads_renamed_iff hfound hsigil]
  constructor
  · rintro ⟨o', ho', hreads⟩
    cases ho.symm.trans ho'
    exact hreads
  · exact fun hreads => ⟨o, ho, hreads⟩

/-- **Of a balanced `each` block, both tags or none become those of an `if` block.** -/
theorem renamed_iff_of_closes (hquiet : ∀ t ∈ tags s, t.Quiet s) (hplain : ∀ t ∈ tags s, t.Plain s)
    {a b : Tag} (h : Closes (Tag.each? s) (tags s) a b) : a.Renamed s ↔ b.Renamed s := by
  obtain ⟨front, inner, back, name, htags, ha, hinner, hb⟩ := h
  obtain ⟨o, ho, hstart, hk, hturn⟩ := Tag.turn?_of_each? ha
  obtain ⟨o', ho', hstop, hk', hturn'⟩ := Tag.turn?_of_each? hb
  have hb' : tags s = (front ++ a :: inner) ++ b :: back := by
    rw [htags]
    simp only [List.append_assoc, List.cons_append]
  have hplainInner : ∀ t ∈ inner, t.Plain s := fun t ht => hplain t (by simp [htags, ht])
  rw [Tag.renamed_iff hquiet htags ho hstart hturn, Tag.renamed_iff hquiet hb' ho' hstop hturn',
    turns_append, turns_cons, hturn]
  simp only [Option.toList_some, List.cons_append, List.nil_append, List.foldl_append,
    List.foldl_cons, Found.turn, change_of_start hstart hk,
    foldl_turns_of_balanced hinner hplainInner, change_of_stop hstop hk']

/-! ## Names of blocks -/

theorem takeWhile_congr {p : Char → Bool} : ∀ {s t : List Char},
    (∀ i ≤ (s.takeWhile p).length, t[i]? = s[i]?) → t.takeWhile p = s.takeWhile p
  | [], t, h => by
    have hnil := h 0 (Nat.zero_le _)
    rw [List.getElem?_nil, List.getElem?_eq_none_iff] at hnil
    rw [List.eq_nil_of_length_eq_zero (Nat.le_zero.mp hnil)]
  | c :: s, [], h => nomatch h 0 (Nat.zero_le _)
  | c :: s, d :: t, h => by
    obtain rfl : d = c := Option.some.inj (h 0 (Nat.zero_le _))
    by_cases hp : p d = true
    · rw [List.takeWhile_cons_of_pos hp] at h ⊢
      rw [List.takeWhile_cons_of_pos hp]
      exact congrArg (d :: ·) (takeWhile_congr fun i hi => h (i + 1) (Nat.succ_le_succ hi))
    · rw [List.takeWhile_cons_of_neg hp, List.takeWhile_cons_of_neg hp]

theorem not_isBrace_of_isWord {c : Char} (h : isWord c = true) : ¬ IsBrace c := by
  rintro (rfl | rfl) <;> revert h <;> decide

/-- From its brace to the end of its name, the beginning of a tag of a block has no other brace. -/
theorem side?_braceless {u : List Char} {side : Side} {place i : Nat} {c : Char}
    (h : side? u = some (side, place)) (hpos : 0 < i)
    (hi : i < place + ((u.drop place).takeWhile isWord).length) (hc : u[i]? = some c) :
    ¬ IsBrace c := by
  obtain ⟨lead, sign, gap, after, sigil, hs, hsigil, _, _, rfl⟩ := side?_eq_some h
  rw [hs.drop_eq] at hi
  rw [← List.takeWhile_append_dropWhile (p := isWord) (l := after)] at hs
  refine hs.braceless hsigil (fun d hd => not_isBrace_of_isWord ?_) hpos hi hc
  exact List.all_eq_true.mp List.all_takeWhile d hd

/-- A tag of a block that is not renamed keeps its name and the character after it. -/
theorem word_kept {side : Side} {place i : Nat} (h : side? (s.drop tag.start) = some (side, place))
    (hrenamed : ¬ tag.Renamed s) (hi : tag.start + place ≤ i)
    (hle : i ≤ tag.start + place + ((s.drop (tag.start + place)).takeWhile isWord).length) :
    (adapt s)[i]? = s[i]? := by
  by_contra hne
  have hbrace : s[tag.start]? = some '\x7b' := by
    obtain ⟨lead, sign, gap, after, _, hs, _⟩ := side?_eq_some h
    rw [← Nat.add_zero tag.start, ← List.getElem?_drop, hs.text_eq]
    rfl
  have hinside : ∀ j (c : Char), tag.start < j → j < i → s[j]? = some c → ¬ IsBrace c := by
    intro j c hj hji hc
    rw [← Nat.add_sub_cancel' hj.le, ← List.getElem?_drop] at hc
    rw [← List.drop_drop] at hle
    exact side?_braceless h (by omega) (by omega) hc
  obtain ⟨o, hread, hfilled⟩ := exists_range_at hbrace (Nat.le_of_add_right_le hi) hinside hne
  obtain ⟨hside, rfl⟩ := side?_of_opening? h hread
  refine hrenamed ⟨o, hread, ?_⟩
  have hrange : o.kept = o.before ∧ o.filling = o.keyword.renamed := by
    unfold Opening.kept Opening.filling
    cases hsigil : o.sigil with
    | opening => exact ⟨rfl, rfl⟩
    | closing => exact ⟨rfl, rfl⟩
    | special => exact absurd hsigil (ne_special_of_side? hside)
  rw [hrange.1, hrange.2] at hfilled
  exact hfilled

/-- The name of a block's tag in the adapted text. -/
theorem Tag.block?_adapt {side : Side} {name : List Char}
    (h : tag.block? s s = some (side, name)) :
    tag.Renamed s ∧ tag.block? s (adapt s) = some (side, ['i', 'f']) ∨
      ¬ tag.Renamed s ∧ tag.block? s (adapt s) = some (side, name) := by
  unfold Tag.block? at h ⊢
  obtain ⟨⟨side', place⟩, hside, h⟩ := Option.map_eq_some_iff.mp h
  obtain ⟨rfl, rfl⟩ := Prod.mk.inj h
  rw [hside]
  simp only [Option.map_some]
  by_cases hrenamed : tag.Renamed s
  · refine .inl ⟨hrenamed, ?_⟩
    obtain ⟨o, ho, hreads⟩ := hrenamed
    obtain ⟨_, rfl⟩ := side?_of_opening? hside ho
    have hparts : (adapt s).drop (tag.start + o.before) =
        o.keyword.renamed ++ (adapt s).drop (tag.start + o.length) := by
      rw [← hreads, slice_append_drop]
      exact Nat.add_le_add_left (Nat.le_add_right _ _) tag.start
    rw [hparts]
    cases o.keyword <;> rfl
  · refine .inr ⟨hrenamed, ?_⟩
    rw [takeWhile_congr fun i hi => ?_]
    rw [List.getElem?_drop, List.getElem?_drop]
    exact word_kept hside hrenamed (Nat.le_add_right _ _) (Nat.add_le_add_left hi _)

/-- The tags of snippets are always renamed. -/
theorem renamed_of_snippet (hquiet : ∀ t ∈ tags s, t.Quiet s) (hmem : tag ∈ tags s) {side : Side}
    (h : tag.block? s s = some (side, Keyword.snippet.spelling)) : tag.Renamed s := by
  obtain ⟨o, ho, hside, hk⟩ := Tag.block?_eq_some_iff.mp h
  obtain ⟨before, later, hfound⟩ :=
    List.append_of_mem ((foundFrom_tagsFrom 0 s rfl hquiet).2 tag hmem o ho)
  have hsigil := ne_special_of_side? hside
  refine ⟨o, ho, (reads_renamed_iff hfound hsigil).mpr ?_⟩
  obtain ⟨lead, sigil, gap, keyword⟩ := o
  cases hk
  cases sigil <;> first | rfl | exact absurd rfl hsigil

/-- No tag of a block with another name is. -/
theorem name_of_renamed (hplain : tag.Plain s) {side : Side} {name : List Char}
    (h : tag.block? s s = some (side, name)) (hrenamed : tag.Renamed s) :
    name = Keyword.each.spelling ∨ name = Keyword.snippet.spelling := by
  obtain ⟨o, ho, _⟩ := hrenamed
  have hblock := h
  unfold Tag.block? at hblock
  obtain ⟨⟨side', place⟩, hside, _⟩ := Option.map_eq_some_iff.mp hblock
  have hspelling := Tag.block?_eq_some_iff.mpr ⟨o, ho, (side?_of_opening? hside ho).1, rfl⟩
  rw [h] at hspelling
  cases hspelling
  have hnot := hplain _ h
  cases hk : o.keyword with
  | each => exact .inl rfl
  | snippet => exact .inr rfl
  | render => exact absurd (congrArg Keyword.spelling hk) (hnot .render (by decide))
  | const => exact absurd (congrArg Keyword.spelling hk) (hnot .const (by decide))
  | debug => exact absurd (congrArg Keyword.spelling hk) (hnot .debug (by decide))

/-- **Blocks that are balanced stay so**, under the names that they have in the adapted text. -/
theorem balanced_adapt (hquiet : ∀ t ∈ tags s, t.Quiet s) (hplain : ∀ t ∈ tags s, t.Plain s)
    (h : Balanced (Tag.block? s s) (tags s)) : Balanced (Tag.block? s (adapt s)) (tags s) := by
  refine h.of_closes (fun a _ ha => ?_) fun a b hclose => ?_
  · unfold Tag.block? at ha ⊢
    rw [Option.map_eq_none_iff] at ha ⊢
    exact ha
  · obtain ⟨front, inner, back, name, htags, ha, hinner, hb⟩ := hclose
    have hamem : a ∈ tags s := by simp [htags]
    have hbmem : b ∈ tags s := by simp [htags]
    have hpair : a.Renamed s ↔ b.Renamed s := by
      by_cases heach : name = Keyword.each.spelling
      · have hfilter := hinner.filter fun word => word = Keyword.each.spelling
        exact renamed_iff_of_closes hquiet hplain ⟨front, inner, back, name, htags,
          Tag.each?_eq_some_iff.mpr ⟨ha, heach⟩, hfilter, Tag.each?_eq_some_iff.mpr ⟨hb, heach⟩⟩
      · by_cases hsnippet : name = Keyword.snippet.spelling
        · subst hsnippet
          exact iff_of_true (renamed_of_snippet hquiet hamem ha)
            (renamed_of_snippet hquiet hbmem hb)
        · have hnot := not_or.mpr ⟨heach, hsnippet⟩
          exact iff_of_false (fun hr => hnot (name_of_renamed (hplain a hamem) ha hr))
            fun hr => hnot (name_of_renamed (hplain b hbmem) hb hr)
    rcases Tag.block?_adapt ha with ⟨hra, ha'⟩ | ⟨hra, ha'⟩
    · rcases Tag.block?_adapt hb with ⟨_, hb'⟩ | ⟨hrb, _⟩
      · exact ⟨_, ha', hb'⟩
      · exact absurd (hpair.mp hra) hrb
    · rcases Tag.block?_adapt hb with ⟨hrb, _⟩ | ⟨_, hb'⟩
      · exact absurd (hpair.mpr hrb) hra
      · exact ⟨_, ha', hb'⟩

end

/-! ## Pairs -/

/-- **Starts and ends of `each` blocks are overwritten in pairs**, if nothing inside of a tag reads
like one: each end has a start that it closes, and becomes `if` exactly if that start does. So
balanced blocks stay balanced. -/
theorem adapt_pairs {s : List Char} (hquiet : ∀ t ∈ tags s, t.Quiet s)
    (hplain : ∀ t ∈ tags s, t.Plain s) (hbalanced : Balanced (Tag.each? s) (tags s)) :
    (∀ b ∈ tags s, ∀ name, b.each? s = some (.stop, name) →
        ∃ a, Closes (Tag.each? s) (tags s) a b) ∧
      (∀ a b, Closes (Tag.each? s) (tags s) a b → (a.Renamed s ↔ b.Renamed s)) ∧
      (Balanced (Tag.block? s s) (tags s) → Balanced (Tag.block? s (adapt s)) (tags s)) := by
  refine ⟨fun b hb name hname => ?_, fun a b hclose => ?_, fun hblocks => ?_⟩
  · exact hbalanced.exists_closes hb hname
  · exact renamed_iff_of_closes hquiet hplain hclose
  · exact balanced_adapt hquiet hplain hblocks

/-- A block without `as` in one with `as`. -/
def nestedEach : List Char :=
  "\x7b#each xs as x\x7d\x7b#each x\x7d\x7b/each\x7d\x7b/each\x7d".toList

/-- The inner block becomes an `if` block, the outer one is kept. -/
theorem adapt_pairs_nestedEach :
    (∀ t ∈ tags nestedEach, t.Quiet nestedEach) ∧ (∀ t ∈ tags nestedEach, t.Plain nestedEach) ∧
      Balanced (Tag.each? nestedEach) (tags nestedEach) ∧
      Balanced (Tag.block? nestedEach (adapt nestedEach)) (tags nestedEach) ∧
      adapt nestedEach =
        "\x7b#each xs as x\x7d\x7b#if   x\x7d\x7b/if  \x7d\x7b/each\x7d".toList := by
  have hquiet : ∀ t ∈ tags nestedEach, t.Quiet nestedEach := by decide +kernel
  have hplain : ∀ t ∈ tags nestedEach, t.Plain nestedEach := by decide +kernel
  have htags : tags nestedEach = ⟨0, 14⟩ :: ([⟨15, 23⟩, ⟨24, 30⟩] ++ ⟨31, 37⟩ :: []) := by
    decide +kernel
  have hblocks : Balanced (Tag.block? nestedEach nestedEach) (tags nestedEach) := by
    have hread : ∀ r ∈ [(0, 14, Side.start), (15, 23, .start), (24, 30, .stop), (31, 37, .stop)],
        Tag.block? nestedEach nestedEach ⟨r.1, r.2.1⟩ = some (r.2.2, Keyword.each.spelling) := by
      decide +kernel
    simp only [List.forall_mem_cons] at hread
    obtain ⟨hstart, hstart', hstop', hstop, -⟩ := hread
    rw [htags]
    exact .block hstart (.block hstart' .nil hstop' .nil) hstop .nil
  have heach := hblocks.filter fun word => word = Keyword.each.spelling
  exact ⟨hquiet, hplain, heach, (adapt_pairs hquiet hplain heach).2.2 hblocks, by decide +kernel⟩

/-- A string that reads like the start of a block, in a block. -/
def quotedEach : List Char :=
  "\x7b#each xs as x\x7d\x7b\"\x7b#each y\x7d\"\x7d\x7b/each\x7d".toList

/-- The end of the block is taken for that of the string and becomes `if`, but its start is kept. -/
theorem quotedEach_unpaired :
    Balanced (Tag.each? quotedEach) (tags quotedEach) ∧
      (∀ t ∈ tags quotedEach, t.Plain quotedEach) ∧
      Closes (Tag.each? quotedEach) (tags quotedEach) ⟨0, 14⟩ ⟨28, 34⟩ ∧
      ¬ Tag.Renamed quotedEach ⟨0, 14⟩ ∧ Tag.Renamed quotedEach ⟨28, 34⟩ ∧
      adapt quotedEach =
        "\x7b#each xs as x\x7d\x7b\"\x7b#if   y\x7d\"\x7d\x7b/if  \x7d".toList := by
  have htags : tags quotedEach = ⟨0, 14⟩ :: ([⟨15, 27⟩] ++ ⟨28, 34⟩ :: []) := by decide +kernel
  have hstart : Tag.each? quotedEach ⟨0, 14⟩ = some (.start, Keyword.each.spelling) := by
    decide +kernel
  have hstop : Tag.each? quotedEach ⟨28, 34⟩ = some (.stop, Keyword.each.spelling) := by
    decide +kernel
  have hinner : Balanced (Tag.each? quotedEach) [⟨15, 27⟩] := .pass (by decide +kernel) .nil
  refine ⟨htags ▸ .block hstart hinner hstop .nil, by decide +kernel, ?_, by decide +kernel,
    by decide +kernel, by decide +kernel⟩
  exact ⟨[], _, [], _, htags, hstart, hinner, hstop⟩

end RawHtmlLint.Template.Markup

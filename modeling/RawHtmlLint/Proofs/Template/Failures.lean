import RawHtmlLint.Proofs.Template.Fidelity
import RawHtmlLint.Proofs.Template.Reach

/-!
# How reading can fail

Whatever is read of a component either succeeds or fails in one of a few ways: the component is
rejected at an offset of its source, an expression or a script cannot be read, a text has no
decoded form, or a block has no tag of its own. Nothing is supposed of the grammar's tree, whose
nodes may span anything. `Admits` names these ways; each function that reads something is
described once in terms of it. None of them rejects the component for a flaw of a tree: only the
whole component and the scripts are asked for one.

Results:
* `Cause.code_ne_of_isFlaw_eq_false`: no other cause has a code of the flaws;
* `readAttributes_meets`: how attributes are read;
* `headers_meets`, `headers_eq_nil`: the tags of a block lie in the source, and there are some;
* `readTag_meets`, `ElementTag.read_meets`, `lift_meets`, `readBlock_meets`: how tags, opening tags,
  scripts and styles, and blocks are read.
-/

namespace RawHtmlLint

/-! ## Flaws -/

namespace Cause

/-- A grammar could not read all of the component, or of a script. -/
def isFlaw : Cause → Bool
  | missingNode _ | endOfInput | unreadable _ | invalidScript => true
  | _ => false

/-- A code for something out of its place is no code that ends otherwise. -/
theorem placement_ne (word : String) {code : String}
    (h : ¬ "-placement".toList <:+ code.toList) : "invalid-" ++ word ++ "-placement" ≠ code := by
  rintro rfl
  rw [String.toList_append] at h
  exact h (List.suffix_append _ _)

/-- **No other cause has a code of the flaws.** -/
theorem code_ne_of_isFlaw_eq_false {cause : Cause} (h : cause.isFlaw = false) :
    cause.code ≠ "invalid-syntax" ∧ cause.code ≠ "invalid-script" := by
  cases cause with
  | missingNode | endOfInput | unreadable | invalidScript => exact (nomatch h)
  | strayContinuation | awaitBranchOutside | awaitBranchOutOfOrder =>
    exact ⟨placement_ne _ (by decide), placement_ne _ (by decide)⟩
  | _ => simp [code]

end Cause

namespace Template

open Grammar Script Text

/-- A part of the block starts where the block does. -/
def StartsWithPart (s : Source) (t : Tree) : Prop :=
  ∃ p ∈ parts s (s.span t).start (s.span t).stop t, (s.span p.2).start = (s.span t).start

/-- The failures that `F` holds of include all rejections inside the source that are not for a flaw
of a tree, and all that can go wrong in what the reading of the tree relies on. -/
structure Admits (F : Failure → Prop) (ctx : Context) (root : Tree) : Prop where
  rejected : ∀ cause offset, cause.isFlaw = false → offset ≤ ctx.source.size →
    F (.malformed (ctx.source.diagnose cause offset))
  read : ∀ start stop, start ≤ ctx.source.size → Meets F (fun _ => True) (ctx.read start stop)
  checkScript : ∀ language start stop, language ≠ .svelte → start ≤ ctx.source.size →
    Meets F (fun _ => True) (ctx.checkScript language start stop)
  undecoded : ∀ start stop, decode (slice ctx.source.text start stop) = none →
    F .oversizedReference
  headless : ∀ t, Mapped ctx.source root (.block, t) → StartsWithPart ctx.source t →
    F .headlessBlock

/-- The failures that `F` holds of include all rejections inside the source that are not for a flaw
of a tree, and those in which the reading of an expression ends. -/
structure AdmitsReading (F : Failure → Prop) (ctx : Context) : Prop where
  rejected : ∀ cause offset, cause.isFlaw = false → offset ≤ ctx.source.size →
    F (.malformed (ctx.source.diagnose cause offset))
  read : ∀ start stop, start ≤ ctx.source.size → Meets F (fun _ => True) (ctx.read start stop)

theorem Admits.reading {F : Failure → Prop} {ctx : Context} {root : Tree}
    (admits : Admits F ctx root) : AdmitsReading F ctx :=
  ⟨admits.rejected, admits.read⟩

theorem span_start_le_size (s : Source) (t : Tree) : (s.span t).start ≤ s.size :=
  s.charOffset_le_size t.label.startByte

/-! ## Attributes -/

section

variable {F : Failure → Prop} {ctx : Context} (reads : AdmitsReading F ctx)

include reads

theorem AdmitsReading.reject {α : Type} {P : α → Prop} {cause : Cause} {offset : Nat}
    (hcause : cause.isFlaw = false) (hle : offset ≤ ctx.source.size) :
    Meets F P (ctx.reject cause offset : Outcome α) :=
  reads.rejected cause offset hcause hle

theorem closingBrace_meets {opening : Nat} (hle : opening ≤ ctx.source.size) :
    Meets F (fun close => opening < close ∧ close < ctx.source.size)
      (ctx.source.closingBrace opening) := by
  unfold Source.closingBrace
  split
  · rename_i close hclose
    obtain ⟨hlt, hsize, _⟩ := closingBrace?_inside hclose
    exact ⟨hlt, hsize⟩
  · exact reads.reject rfl hle

theorem checkGroups_meets : ∀ {braces : List Nat} {next : Nat},
    (∀ brace ∈ braces, brace < ctx.source.size) →
    Meets F (fun _ => True) (checkGroups ctx next braces)
  | [], _, _ => trivial
  | brace :: braces, next, hin => by
    have hrest : ∀ b ∈ braces, b < ctx.source.size := fun b hb => hin b (List.mem_cons_of_mem _ hb)
    have hbrace := hin brace List.mem_cons_self
    unfold checkGroups
    split
    · exact checkGroups_meets hrest
    · refine (closingBrace_meets reads (Nat.le_of_lt hbrace)).bind fun close _ => ?_
      exact (reads.read _ _ hbrace).bind fun _ _ => checkGroups_meets hrest

omit reads in
/-- The dots of a spread are in the text from the brace on. -/
theorem dots_isInfix {text : List Char} {start close : Nat} {dots : List Char}
    (h : dots.isPrefixOf (trim (slice text (start + 1) close)) = true) :
    dots <:+: text.drop start := by
  have hslice : slice text (start + 1) close <+: text.drop (start + 1) :=
    (List.take_prefix close text).drop (start + 1)
  have hdrop : text.drop (start + 1) <:+ text.drop start := by
    rw [← List.drop_drop]
    exact List.drop_suffix _ _
  exact (List.isPrefixOf_iff_prefix.mp h).isInfix.trans
    ((trim_isInfix _).trans (hslice.isInfix.trans hdrop.isInfix))

theorem checkShorthand_meets {start : Nat} (hstart : start ≤ ctx.source.size) :
    Meets F (fun _ => True) (checkShorthand ctx start) := by
  unfold checkShorthand
  refine (closingBrace_meets reads hstart).bind fun close _ => ?_
  dsimp only
  split
  · rename_i hdots
    have hle := before_add_length_le (by decide) (dots_isInfix hdots)
    have hsize : start ≤ ctx.source.text.length := hstart
    rw [List.length_drop, List.length_cons, List.length_cons, List.length_cons, List.length_nil]
      at hle
    have hread : start + before ['.', '.', '.'] (ctx.source.text.drop start) + 3 ≤
        ctx.source.text.length := by omega
    exact (reads.read _ _ hread).bind fun _ _ => trivial
  · split
    · exact reads.reject rfl hstart
    · trivial

theorem checkAttribute_meets {name : List Char} {value : Option (List Char)} {span : Span}
    (hstart : span.start ≤ ctx.source.size) :
    Meets F (fun _ => True) (checkAttribute ctx name value span) := by
  unfold checkAttribute
  split
  · exact checkShorthand_meets reads hstart
  · split
    · trivial
    · refine checkGroups_meets reads fun brace hbrace => ?_
      obtain ⟨_, _, c, hget, _⟩ := mem_positions_iff.mp hbrace
      exact lt_size_of_at? hget

theorem readAttribute_meets (t : Tree) : Meets F (fun _ => True) (readAttribute ctx t) := by
  unfold readAttribute
  dsimp only
  -- the name and the value do not matter here
  split
  all_goals exact
    (checkAttribute_meets reads (span_start_le_size ctx.source t)).bind fun _ _ => trivial

theorem readAttributes_meets (tag : Tree) : Meets F (fun _ => True) (readAttributes ctx tag) :=
  (Meets.mapM fun t _ => readAttribute_meets reads t).imp fun _ _ => trivial

end

section

variable {F : Failure → Prop} {ctx : Context} {root : Tree} (admits : Admits F ctx root)

include admits

theorem Admits.reject {α : Type} {P : α → Prop} {cause : Cause} {offset : Nat}
    (hcause : cause.isFlaw = false) (hle : offset ≤ ctx.source.size) :
    Meets F P (ctx.reject cause offset : Outcome α) :=
  admits.reading.reject hcause hle

/-! ## The tags of blocks -/

theorem Header.read_meets {start : Nat} (hle : start ≤ ctx.source.size) :
    Meets F (Header.Fits ctx.source) (Header.read ctx.source start) := by
  have hread : Meets F (fun _ => True) (Header.read ctx.source start) :=
    (closingBrace_meets admits.reading hle).bind fun close _ => trivial
  exact hread.and_ok.imp fun h hh => Header.read_fits hh.2

theorem headersAt_meets : ∀ {braces : List Nat} {next : Nat},
    (∀ brace ∈ braces, brace ≤ ctx.source.size) →
    Meets F (fun hs => ∀ h ∈ hs, h.Fits ctx.source) (headersAt ctx.source next braces)
  | [], _, _ => fun h hh => absurd hh List.not_mem_nil
  | brace :: braces, next, hin => by
    have hrest : ∀ b ∈ braces, b ≤ ctx.source.size := fun b hb => hin b (List.mem_cons_of_mem _ hb)
    unfold headersAt
    split
    · exact headersAt_meets hrest
    · refine (Header.read_meets admits (hin brace List.mem_cons_self)).bind fun tag htag => ?_
      refine (headersAt_meets hrest).bind fun later hlater h hh => ?_
      rcases List.mem_cons.mp hh with rfl | hh
      · exact htag
      · exact hlater h hh

theorem headersBetween_meets : ∀ {spans : List Span} {cursor : Nat},
    Meets F (fun hs => ∀ h ∈ hs, h.Fits ctx.source) (headersBetween ctx.source cursor spans)
  | [], _ => fun h hh => absurd hh List.not_mem_nil
  | span :: spans, cursor => by
    unfold headersBetween
    refine (headersAt_meets admits fun brace hbrace => ?_).bind fun here hhere => ?_
    · obtain ⟨_, _, c, hget, _⟩ := mem_positions_iff.mp hbrace
      exact Nat.le_of_lt (lt_size_of_at? hget)
    · refine headersBetween_meets.bind fun later hlater h hh => ?_
      exact (List.mem_append.mp hh).elim (hhere h) (hlater h)

/-- **The tags between parts lie in the source.** -/
theorem headers_meets (low high : Nat) (ps : List (Part × Tree)) :
    Meets F (fun hs => ∀ h ∈ hs, h.Fits ctx.source) (headers ctx.source low high ps) :=
  headersBetween_meets admits

theorem rejectHeaders_meets (low high : Nat) (ps : List (Part × Tree)) :
    Meets F (fun _ => True) (rejectHeaders ctx.source low high ps) := by
  refine (headers_meets admits low high ps).bind fun hs hfits => ?_
  cases hs with
  | nil => trivial
  | cons h later =>
    have hle := (hfits h List.mem_cons_self).start_le
    dsimp only [Header.stray]
    split
    · exact admits.reject rfl hle
    · split <;> exact admits.reject rfl hle

omit admits in
/-- **A block has a tag of its own**, the one it starts with, unless a part starts there. -/
theorem headers_eq_nil {s : Source} {t : Tree} (hrole : role s t = .part .block)
    (hok : headers s (s.span t).start (s.span t).stop
      (parts s (s.span t).start (s.span t).stop t) = .ok []) : StartsWithPart s t := by
  obtain ⟨hopens, hlt⟩ := opens_of_role_block hrole
  -- the search up to the first part, or up to the end, has found nothing
  have hfirst : ∀ {span : Span} {spans : List Span},
      headersBetween s (s.span t).start (span :: spans) = .ok [] →
        span.start ≤ (s.span t).start := by
    intro span spans hok
    obtain ⟨here, hhere, hok⟩ := bind_eq_ok.mp hok
    obtain ⟨later, _, hok⟩ := bind_eq_ok.mp hok
    obtain ⟨rfl, _⟩ := List.append_eq_nil_iff.mp (pure_eq_ok.mp hok)
    refine Nat.le_of_not_lt fun hlt => ?_
    have hmem : (s.span t).start ∈ positions (· == '\x7b') s.text (s.span t).start span.start :=
      mem_positions_iff.mpr ⟨Nat.le_refl _, hlt, '\x7b', hopens, rfl⟩
    rcases headersAt_covers hhere (positions_sorted _ _ _ _) _ hmem with hself | ⟨h, hh, _⟩
    · exact absurd hself (Nat.lt_irrefl _)
    · exact absurd hh List.not_mem_nil
  unfold headers at hok
  cases hparts : parts s (s.span t).start (s.span t).stop t with
  | nil =>
    rw [hparts] at hok
    exact absurd hlt (Nat.not_lt_of_le (hfirst hok))
  | cons p ps =>
    have hp : p ∈ parts s (s.span t).start (s.span t).stop t := hparts ▸ List.mem_cons_self
    rw [hparts] at hok
    exact ⟨p, hp, Nat.le_antisymm (hfirst hok) (mem_partsAmong hp).2.2.1⟩

/-! ## Tags -/

omit admits in
/-- The node is no insertion without an expression. -/
def Complete (x : Node) : Prop := ∀ span, x ≠ .tag .rawHtml span none

theorem readSpecialTag_meets {keyword : List Char} {rest : Nat} {span : Span}
    (hstart : span.start ≤ ctx.source.size) (hrest : rest ≤ ctx.source.size) :
    Meets F Complete (readSpecialTag ctx keyword rest span) := by
  unfold readSpecialTag
  dsimp only
  split
  · exact (admits.read _ _ hrest).bind fun e _ _ h => (nomatch h)
  · refine (admits.read _ _ hrest).bind fun e _ => ?_
    split
    · exact fun _ h => (nomatch h)
    · exact admits.reject rfl hstart
  · split
    · exact fun _ h => (nomatch h)
    · exact admits.reject rfl hstart
  · split
    · refine (admits.read _ _ hrest).bind fun e _ => ?_
      split
      · exact fun _ h => (nomatch h)
      · exact admits.reject rfl hstart
    · exact admits.reject rfl hstart
  · exact admits.reject rfl hstart

/-- **A tag is read with its expression.** -/
theorem readTag_meets {t : Tree} (hrole : role ctx.source t = .part .tag) :
    Meets F Complete (readTag ctx (ctx.source.span t)) := by
  obtain ⟨hopens, close, hclose, hstop⟩ := braces_of_role_tag hrole
  obtain ⟨_, hsize, hcloses⟩ := closingBrace?_inside hclose
  have hstart : (ctx.source.span t).start < ctx.source.size := lt_size_of_at? hopens
  unfold readTag
  dsimp only
  split
  · rename_i hlead
    have hlead := hlead.1
    rw [hstop, Nat.add_sub_cancel] at hlead
    exact readSpecialTag_meets admits (Nat.le_of_lt hstart)
      (Nat.le_trans (rest_le_of_closes hlead hcloses) (Nat.le_of_lt hsize))
  · exact (admits.read _ _ hstart).bind fun e _ _ h => (nomatch h)

/-! ## Opening tags -/

/-- **The content of an element starts in the source.** -/
theorem ElementTag.read_meets (t : Tree) :
    Meets F (fun e => e.span = ctx.source.span t ∧ e.content.start ≤ ctx.source.size)
      (ElementTag.read ctx t) := by
  have hstart := span_start_le_size ctx.source t
  unfold ElementTag.read
  dsimp only
  split
  · exact admits.reject rfl hstart
  · rename_i tag _
    -- the name is that of the tag or empty, and does not matter here
    split
    all_goals
      split
      · exact admits.reject rfl hstart
      · refine (readAttributes_meets admits.reading tag).bind fun attributes _ => ⟨rfl, ?_⟩
        dsimp only
        split
        · exact span_stop_le_size ctx.source t
        · exact span_stop_le_size ctx.source tag

omit admits in
/-- A choice between the two script languages is a script language. -/
theorem ite_ne_svelte (p : Prop) [Decidable p] :
    (if p then Language.typescript else .javascript) ≠ .svelte := by
  split <;> decide

theorem liftScript_meets {e : ElementTag} {lifted : Lifted}
    (hstart : e.span.start ≤ ctx.source.size) (hcontent : e.content.start ≤ ctx.source.size) :
    Meets F (fun _ => True) (liftScript ctx e lifted) := by
  unfold liftScript
  dsimp only
  split
  · exact admits.reject rfl hstart
  · split
    · exact admits.reject rfl hstart
    · refine (admits.checkScript _ _ _ (ite_ne_svelte _) hcontent).bind fun _ _ => ?_
      split <;> trivial

theorem lift_meets {e : ElementTag} {lifted : Lifted}
    (hstart : e.span.start ≤ ctx.source.size) (hcontent : e.content.start ≤ ctx.source.size) :
    Meets F (fun _ => True) (lift ctx e lifted) := by
  unfold lift
  split
  · split
    · exact admits.reject rfl hstart
    · trivial
  · exact liftScript_meets admits hstart hcontent

/-! ## Blocks -/

theorem readKey_meets {text : List Char} {offset start : Nat}
    (hstart : start ≤ ctx.source.size) (hoffset : offset + text.length ≤ ctx.source.size) :
    Meets F (fun _ => True) (readKey ctx text offset start) := by
  unfold readKey
  split
  · trivial
  · rename_i before after _ hfound
    have hle := (topLevel?_le (fun _ _ _ => Separator.openParenthesis_le) hfound).2
    dsimp only
    split
    · exact (admits.read _ _ (by omega)).bind fun _ _ => trivial
    · exact admits.reject rfl hstart

theorem readIndex_meets {text : List Char} {start : Nat} (hstart : start ≤ ctx.source.size) :
    Meets F (fun _ => True) (readIndex ctx text start) := by
  unfold readIndex
  split
  · trivial
  · dsimp only
    split
    · trivial
    · exact admits.reject rfl hstart

theorem readEach_meets {body : List Char} {rest start : Nat} (hstart : start ≤ ctx.source.size)
    (hrest : rest + body.length ≤ ctx.source.size) :
    Meets F (fun _ => True) (readEach ctx body rest start) := by
  have hle : rest ≤ ctx.source.size := Nat.le_trans (Nat.le_add_right _ _) hrest
  unfold readEach
  split
  · split
    · exact (admits.read _ _ hle).bind fun _ _ => trivial
    · exact admits.reject rfl hstart
  · rename_i before after _ hfound
    have hafter := (topLevel?_le (fun _ _ _ => Separator.eachAs_le) hfound).2
    refine (admits.read _ _ hle).bind fun expression _ => ?_
    refine (readKey_meets admits hstart ?_).bind fun key _ => ?_
    · rw [List.length_drop]
      omega
    · refine (readIndex_meets admits hstart).bind fun index _ => ?_
      dsimp only
      split
      · exact admits.reject rfl hstart
      · trivial

theorem openBlock_meets {h : Header} {stop : Nat} (hfits : h.Fits ctx.source)
    (hsigil : h.sigil.isSome = true) :
    Meets F (fun f => f.span.start ≤ ctx.source.size) (openBlock ctx h stop) := by
  have hstart := hfits.start_le
  have hbody := hfits.rest_add_length hsigil
  have hclose := hfits.close_lt_size
  have hrest : h.rest ≤ ctx.source.size := by omega
  unfold openBlock
  dsimp only
  split
  · exact (admits.read _ _ hrest).bind fun _ _ => hstart
  · exact (readEach_meets admits hstart (by omega)).bind fun _ _ => hstart
  · split
    · exact (admits.read _ _ hrest).bind fun _ _ => hstart
    · refine (admits.read _ _ hrest).bind fun _ _ => ?_
      split <;> exact hstart
  · exact (admits.read _ _ hrest).bind fun _ _ => hstart
  · split
    · split
      · exact hstart
      · exact admits.reject rfl hstart
    · exact admits.reject rfl hstart
  · exact admits.reject rfl hstart

theorem continueElse_meets {f : Frame} {h : Header} (hfits : h.Fits ctx.source)
    (hsigil : h.sigil.isSome = true) : Meets F (fun _ => True) (continueElse ctx f h) := by
  have hstart := hfits.start_le
  have hbody := hfits.rest_add_length hsigil
  have hclose := hfits.close_lt_size
  unfold continueElse
  dsimp only
  split
  · split
    · exact admits.reject rfl hstart
    · split
      · rename_i length hlength
        have hle := Separator.keyword?_le hlength
        exact (admits.read _ _ (by omega)).bind fun _ _ => trivial
      · split
        · trivial
        · exact admits.reject rfl hstart
  · split
    · exact admits.reject rfl hstart
    · split
      · exact admits.reject rfl hstart
      · trivial
  · exact admits.reject rfl hstart

theorem continueAwait_meets {f : Frame} {h : Header} {settlement : Settlement}
    (hfits : h.Fits ctx.source) : Meets F (fun _ => True) (continueAwait ctx f h settlement) := by
  have hstart := hfits.start_le
  unfold continueAwait
  split
  · dsimp only
    split
    · exact admits.reject rfl hstart
    · trivial
  · exact admits.reject rfl hstart

theorem continueBlock_meets {f : Frame} {h : Header} (hfits : h.Fits ctx.source)
    (hsigil : h.sigil.isSome = true) : Meets F (fun _ => True) (continueBlock ctx f h) := by
  unfold continueBlock
  split
  · exact continueElse_meets admits hfits hsigil
  · exact continueAwait_meets admits hfits
  · exact continueAwait_meets admits hfits
  · exact admits.reject rfl hfits.start_le

theorem addBranch_meets {f : Frame} {h : Header} (hfits : h.Fits ctx.source)
    (hspan : f.span.start ≤ ctx.source.size) :
    Meets F (fun f' => f'.span.start ≤ ctx.source.size) (addBranch ctx f h) := by
  have hstart := hfits.start_le
  have hadd : Meets F (fun _ => True) (addBranch ctx f h) := by
    unfold addBranch
    split
    · rename_i hsigil
      exact continueBlock_meets admits hfits (by rw [hsigil, Option.isSome_some])
    · split <;> exact admits.reject rfl hstart
  refine hadd.and_ok.imp fun f' hf' => ?_
  obtain ⟨_, shape, label, test, rfl, _⟩ := addBranch_ok hf'.2
  show ({ f with shape }.endBranch h.start).span.start ≤ _
  rw [span_endBranch]
  exact hspan

theorem closeBlock_meets {f : Frame} {later : List Header}
    (hfits : ∀ h ∈ later, h.Fits ctx.source) (hspan : f.span.start ≤ ctx.source.size) :
    Meets F (fun _ => True) (closeBlock ctx f later) := by
  unfold closeBlock
  dsimp only
  split
  · exact admits.reject rfl hspan
  · rename_i closing hclosing
    split
    · exact admits.reject rfl hspan
    · split
      · exact admits.reject rfl (hfits closing (List.mem_of_getLast? hclosing)).start_le
      · trivial

/-- **A block is read into branches without items**, if it has a tag of its own. -/
theorem readBlock_meets {t : Tree} {hs : List Header} (hfits : ∀ h ∈ hs, h.Fits ctx.source)
    (hheaded : hs = [] → F .headlessBlock) :
    Meets F (fun f => ∀ b ∈ f.branches, b.items = []) (readBlock ctx (ctx.source.span t) hs) := by
  have hread : Meets F (fun _ => True) (readBlock ctx (ctx.source.span t) hs) := by
    match hs with
    | [] => exact hheaded rfl
    | opening :: later =>
      have hlater : ∀ h ∈ later, h.Fits ctx.source := fun h hh =>
        hfits h (List.mem_cons_of_mem _ hh)
      rw [readBlock]
      split
      · exact admits.reject rfl (span_start_le_size ctx.source t)
      · rename_i hopening
        have hsigil : opening.sigil = some '#' := Decidable.not_not.mp (not_or.mp hopening).1
        refine (openBlock_meets admits (hfits opening List.mem_cons_self)
          (by rw [hsigil, Option.isSome_some])).bind fun f hf => ?_
        have hfold : Meets F (fun g => g.span.start ≤ ctx.source.size)
            (later.dropLast.foldlM (addBranch ctx) f) := Meets.foldlM hf fun g h hh hg =>
          addBranch_meets admits (hlater h (List.mem_of_mem_dropLast hh)) hg
        exact hfold.bind fun g hg => closeBlock_meets admits hlater hg
  refine hread.and_ok.imp fun f hf => ?_
  obtain ⟨_, _, _, _, _, _, _, _, _, _, _, hempty⟩ := readBlock_ok hf.2
  exact hempty

end

end Template

end RawHtmlLint

import RawHtmlLint.Proofs.Template.Reach
import RawHtmlLint.Proofs.Template.TagNodes

/-!
# No tag out of nothing

Every tag of a component is read from a node of the grammar's tree that has the role of a tag, and
each such node that is visited becomes a tag: there are no insertions but those. What kind of tag
it is, the source alone says.

The tags are in the order of the visits, except that the parts of a block are grouped by its
branches. This makes a difference only where the parts of a block do not come in the order of the
source, as in a tree that the grammar did not make.

Results:
* `readTag_word`: the kind of a tag is the word after its brace;
* `documentOf_tags`: the tags of a document are read from its parts;
* `parse_tagsRead`: the same of a component, and the order of its tags;
* `parse_tags_in_order`: the tags of a well-formed tree are in the order of the visits.
-/

namespace RawHtmlLint.Template

open Grammar Text

/-! ## The kind of a tag -/

/-- The word of a tag, from what follows its brace: the small letters after an `@`, if that is the
first character that is not white space. -/
def tagWord (text : List Char) : Option String :=
  match trimStart text with
  | '@' :: rest => some (String.ofList (rest.takeWhile isLetter))
  | _ => none

/-- The word that a tag of this kind is written with, if there is one. -/
def Node.word? : Node → Option String
  | .tag .rawHtml .. => some "html"
  | .tag .const .. => some "const"
  | .tag .render .. => some "render"
  | .debugTag .. => some "debug"
  | _ => none

theorem readSpecialTag_word {ctx : Context} {keyword : List Char} {rest : Nat} {span : Span}
    {x : Node} (hok : readSpecialTag ctx keyword rest span = .ok x) :
    x.word? = some (String.ofList keyword) := by
  unfold readSpecialTag at hok
  dsimp only at hok
  split at hok
  · rename_i hword
    obtain ⟨expression, _, hok⟩ := bind_eq_ok.mp hok
    obtain rfl := pure_eq_ok.mp hok
    rw [hword]
    rfl
  · rename_i hword
    obtain ⟨expression, _, hok⟩ := bind_eq_ok.mp hok
    split at hok
    · obtain rfl := pure_eq_ok.mp hok
      rw [hword]
      rfl
    · exact absurd hok reject_ne_ok
  · rename_i hword
    split at hok
    · obtain rfl := pure_eq_ok.mp hok
      rw [hword]
      rfl
    · exact absurd hok reject_ne_ok
  · rename_i hword
    split at hok
    · obtain ⟨expression, _, hok⟩ := bind_eq_ok.mp hok
      split at hok
      · obtain rfl := pure_eq_ok.mp hok
        rw [hword]
        rfl
      · exact absurd hok reject_ne_ok
    · exact absurd hok reject_ne_ok
  · exact absurd hok reject_ne_ok

/-- **The kind of a tag is the word after its brace.** -/
theorem readTag_word {ctx : Context} {span : Span} {x : Node} {close : Nat}
    (hclose : Script.closingBrace? ctx.source.text (span.start + 1) = some close)
    (hstop : span.stop = close + 1) (hok : readTag ctx span = .ok x) :
    x.word? = tagWord (ctx.source.text.drop (span.start + 1)) := by
  obtain ⟨hle, hbrace⟩ := Script.closingBrace?_some hclose
  obtain ⟨hltClose, hatClose⟩ := List.getElem?_eq_some_iff.mp hbrace
  unfold readTag at hok
  dsimp only at hok
  rw [hstop, Nat.add_sub_cancel] at hok
  -- the white space after the brace ends before the closing brace at the latest
  have hblank : span.start + 1 + blankCount (ctx.source.text.drop (span.start + 1)) ≤ close := by
    refine Nat.add_le_of_le_sub' hle (length_takeWhile_le (c := '\x7d') ?_ (by decide))
    rw [List.getElem?_drop, Nat.add_sub_cancel' hle, hbrace]
  have htrim := drop_blankCount (ctx.source.text.drop (span.start + 1))
  rw [List.drop_drop] at htrim
  generalize span.start + 1 + blankCount _ = lead at hok htrim hblank
  have hlt : lead < ctx.source.text.length := by omega
  rw [tagWord, ← htrim, List.drop_eq_getElem_cons hlt]
  split at hok
  · rename_i hat
    rw [(List.getElem?_eq_some_iff.mp hat.2).2]
    exact readSpecialTag_word hok
  · rename_i hnot
    obtain ⟨expression, _, hok⟩ := bind_eq_ok.mp hok
    obtain rfl := pure_eq_ok.mp hok
    split
    · rename_i heq
      have hat : ctx.source.text[lead] = '@' := (List.cons.inj heq).1
      have hne : lead ≠ close := fun he => by
        subst he
        rw [hat] at hatClose
        exact absurd hatClose (by decide)
      exact absurd ⟨by omega, List.getElem?_eq_some_iff.mpr ⟨hlt, hat⟩⟩ hnot
    · rfl

/-! ## Where the tags are read from -/

/-- The tag stands where the source has it: it starts with a brace and ends with the brace that
closes it, and the word after the brace tells its kind. -/
structure TagPlaced (s : Source) (x : Node) : Prop where
  opens : s.at? x.span.start = some '\x7b'
  closes : Script.closingBrace? s.text (x.span.start + 1) = some (x.span.stop - 1)
  word : x.word? = tagWord (s.text.drop (x.span.start + 1))

/-- What is read from a node of tag role stands where the source has it. -/
theorem ReadFrom.placed {ctx : Context} {t : Tree} {x : Node} (h : ReadFrom ctx t x) :
    TagPlaced ctx.source x := by
  obtain ⟨hopens, close, hclose, hstop⟩ := braces_of_role_tag h.1
  have hspan := (readTag_ok h.2).1
  refine ⟨hspan ▸ hopens, ?_, ?_⟩
  · rw [hspan, hstop, hclose, Nat.add_sub_cancel]
  · rw [hspan]
    exact readTag_word hclose hstop h.2

theorem forall_placed {ctx : Context} {ts : List Tree} {tags : List Node}
    (h : List.Forall₂ (ReadFrom ctx) ts tags) : ∀ x ∈ tags, TagPlaced ctx.source x := by
  induction h with
  | nil => exact fun _ hx => absurd hx List.not_mem_nil
  | cons hread _ ih => exact List.forall_mem_cons.mpr ⟨hread.placed, ih⟩

/-- A tag inserts markup exactly if its word is `html`. -/
theorem TagPlaced.rawHtml_iff {s : Source} {x : Node} (h : TagPlaced s x) :
    (∃ span expression, x = .tag .rawHtml span expression) ↔
      tagWord (s.text.drop (x.span.start + 1)) = some "html" := by
  rw [← h.word]
  constructor
  · rintro ⟨span, expression, rfl⟩
    rfl
  · intro hword
    cases x with
    | tag kind span expression =>
      cases kind with
      | rawHtml => exact ⟨span, expression, rfl⟩
      | mustache | const | render => exact absurd hword (by simp [Node.word?])
    | debugTag => exact absurd hword (by simp [Node.word?])
    | _ => exact (nomatch hword)

/-- **The tags of a document are read from its parts**, those of each block by branches. -/
theorem documentOf_tags {ctx : Context} {root : Tree} {f : Fragment Node} {lifted : Lifted}
    (hok : documentOf ctx root = .ok (f, lifted)) :
    List.Forall₂ (ReadFrom ctx)
      (tagTrees ((grouped ctx).preorder (parts ctx.source 0 ctx.source.size root)))
      (Node.fragment f).tagsBelow := by
  obtain ⟨_, _, hok⟩ := bind_eq_ok.mp hok
  obtain ⟨⟨items, lifted⟩, hitems, hok⟩ := bind_eq_ok.mp hok
  obtain ⟨children, hfill, hok⟩ := bind_eq_ok.mp hok
  cases hok
  rw [Node.tagsBelow_eq, Node.fragments, List.flatMap_singleton, Node.tagsIn, fill_tags hfill]
  exact forall₂_tags (itemsOf_delivers role_of_mem_parts hitems)

/-! ## The order of the visits -/

/-- The parts that the conversion of a document visits, in order. -/
def visits (ctx : Context) (root : Tree) : List (Part × Tree) :=
  visited ctx (2 * root.size) (.running {} (bottom ctx root) [])

/-- A conversion that succeeds visits the parts of the document in preorder. -/
theorem visits_eq_preorder {ctx : Context} {root : Tree} {answer : Fragment Node × Lifted}
    (hok : documentOf ctx root = .ok answer) : visits ctx root =
      (pendingWithin ctx).preorder (parts ctx.source 0 ctx.source.size root) := by
  rw [← convertDocument_eq] at hok
  obtain ⟨_, _, hok⟩ := bind_eq_ok.mp hok
  obtain ⟨_, hconvert, _⟩ := bind_eq_ok.mp hok
  rw [visits, visited_eq_preorder _ (weight_bottom_le ctx root) hconvert, List.flatMap_singleton]
  rfl

/-- The parts within a part come in the order of the source. -/
def Sorted (ctx : Context) (p : Part × Tree) : Prop :=
  (pendingOf ctx p).Pairwise fun q r => (ctx.source.span q.2).start ≤ (ctx.source.span r.2).start

/-- The parts of a block that come in the order of the source are in the order of its branches. -/
theorem groupedOf_of_sorted {ctx : Context} {p : Part × Tree} (h : p.1 = .block → Sorted ctx p) :
    groupedOf ctx p = pendingOf ctx p := by
  unfold groupedOf
  split
  · rename_i hblock
    exact deal_of_sorted _ (h hblock)
  · rfl

/-- The tags of a document, as the source and the visits to the tree determine them. -/
structure TagsRead (ctx : Context) (root : Tree) (tags : List Node) : Prop where
  /-- The source has a tag where it stands, and tells its kind. -/
  placed : ∀ x ∈ tags, TagPlaced ctx.source x
  /-- The tags that insert markup are those with the word `html`. -/
  insertions : ∀ x ∈ tags, (∃ span expression, x = .tag .rawHtml span expression) ↔
    tagWord (ctx.source.text.drop (x.span.start + 1)) = some "html"
  /-- The tags are, in order, those of the parts in preorder, the parts of each block by
  branches. -/
  byBranches : List.Forall₂ (ReadFrom ctx)
    (tagTrees ((grouped ctx).preorder (parts ctx.source 0 ctx.source.size root))) tags
  /-- These are the nodes of tag role that are visited. -/
  visited_perm : (tagTrees ((grouped ctx).preorder
    (parts ctx.source 0 ctx.source.size root))).Perm (tagTrees (visits ctx root))
  /-- The tags are in the order of the visits, if the parts of each block that is visited are in the
  order of the source. -/
  inOrder : (∀ p ∈ visits ctx root, p.1 = .block → Sorted ctx p) →
    List.Forall₂ (ReadFrom ctx) (tagTrees (visits ctx root)) tags

theorem documentOf_tagsRead {ctx : Context} {root : Tree} {f : Fragment Node} {lifted : Lifted}
    (hok : documentOf ctx root = .ok (f, lifted)) :
    TagsRead ctx root (Node.fragment f).tagsBelow := by
  have hgrouped := documentOf_tags hok
  have hplaced := forall_placed hgrouped
  refine ⟨hplaced, fun x hx => (hplaced x hx).rawHtml_iff, hgrouped, ?_, ?_⟩
  · rw [visits_eq_preorder hok]
    exact ((Within.preorder_perm (groupedOf_perm ctx) _).filter _).map _
  · intro hsorted
    rw [visits_eq_preorder hok] at hsorted ⊢
    rw [Within.preorder_congr fun p hp => groupedOf_of_sorted (hsorted p hp)] at hgrouped
    exact hgrouped

/-- **The tags of a component** stand where the source has them and are of the kind that it tells.
They are read from exactly the nodes of tag role that the conversion visits, each read once. -/
theorem parse_tagsRead {g : Grammars} {modern : Bool} {s : Source} {parsed : Parsed}
    {tree : Parse} (htree : g.parse Language.svelte.name (Markup.adapt s.text) = .ok tree)
    (hok : parse g modern s = .ok parsed) :
    TagsRead (contextFor g s modern parsed.language) tree.root
      (Node.fragment parsed.component.fragment).tagsBelow :=
  documentOf_tagsRead (parse_ok htree hok)

theorem tagsRead_sample : ∃ parsed, parse sampleGrammars false sampleSource = .ok parsed ∧
    TagsRead (contextFor sampleGrammars sampleSource false parsed.language) sampleTree
      (Node.fragment parsed.component.fragment).tagsBelow := by
  obtain ⟨parsed, hparsed⟩ := sample_parses
  exact ⟨parsed, hparsed, parse_tagsRead parse_sampleTree hparsed⟩

/-! ## Well-formed trees -/

theorem mapped_pendingOf {ctx : Context} {root : Tree} {p : Part × Tree}
    (h : Mapped ctx.source root p) : ∀ q ∈ pendingOf ctx p, Mapped ctx.source root q := by
  unfold pendingOf
  split
  · exact mapped_parts h
  · split
    · split
      · exact fun _ hq => absurd hq List.not_mem_nil
      · exact mapped_parts h
    · exact fun _ hq => absurd hq List.not_mem_nil
  · exact fun _ hq => absurd hq List.not_mem_nil

/-- The parts of a block of a well-formed tree come in the order of the source. -/
theorem sorted_of_wellFormed {ctx : Context} {p : Part × Tree} (hwf : WellFormed ctx.source p.2)
    (hblock : p.1 = .block) : Sorted ctx p := by
  obtain ⟨part, t⟩ := p
  obtain rfl : part = .block := hblock
  exact (parts_apart hwf.nests _ _).imp_of_mem fun hq _ hqr =>
    Nat.le_trans (start_le_stop_of_mem_parts hwf hq) hqr

/-- **The tags of a component are in the order of the visits**, if the grammar's tree is
well-formed. -/
theorem parse_tags_in_order {g : Grammars} {modern : Bool} {s : Source} {parsed : Parsed}
    {tree : Parse} (htree : g.parse Language.svelte.name (Markup.adapt s.text) = .ok tree)
    (hwf : WellFormed s tree.root) (hok : parse g modern s = .ok parsed) :
    List.Forall₂ (ReadFrom (contextFor g s modern parsed.language))
      (tagTrees (visits (contextFor g s modern parsed.language) tree.root))
      (Node.fragment parsed.component.fragment).tagsBelow := by
  have hdocument := parse_ok htree hok
  refine (documentOf_tagsRead hdocument).inOrder fun p hp => ?_
  rw [visits_eq_preorder hdocument] at hp
  have hmapped : Mapped s tree.root p :=
    Within.forall_preorder (w := pendingWithin _) (fun _ => mapped_pendingOf) (fun _ => .outer) p hp
  exact sorted_of_wellFormed (hwf.of_mem hmapped.mem_nodes)

/-! ## Parts that are out of order -/

def routedSource : Source := .ofText "Routed.svelte"
  "\x7b#each x as \x7b@html x\x7d\x7d\x7b:else\x7d\x7b@html x\x7d\x7b/each\x7d".toList

/-- A tree of the markup in which the tag of the second branch comes before that of the first. -/
def routedTree : Tree :=
  sampleNode "document" 0 45 [
    sampleNode "each_statement" 0 45 [
      sampleNode "html_expr" 29 38 [],
      sampleNode "html_expr" 12 21 []]]

theorem spans_of_readFrom {ctx : Context} {ts : List Tree} {tags : List Node}
    (h : List.Forall₂ (ReadFrom ctx) ts tags) : tags.map Node.span = ts.map ctx.source.span := by
  induction h with
  | nil => rfl
  | cons hread _ ih => rw [List.map_cons, List.map_cons, (readTag_ok hread.2).1, ih]

/-- **The tags can be in another order than the visits**, in a tree whose parts are out of order:
each tag is in the branch that it stands in. -/
theorem routed_tags_out_of_order : ∃ parsed,
    parse (grammarsOf routedTree) false routedSource = .ok parsed ∧
      ¬ List.Forall₂ (ReadFrom (contextFor (grammarsOf routedTree) routedSource false
          parsed.language))
        (tagTrees (visits (contextFor (grammarsOf routedTree) routedSource false parsed.language)
          routedTree))
        (Node.fragment parsed.component.fragment).tagsBelow := by
  obtain ⟨parsed, hparsed, hrun⟩ := exists_ok_of_any
    (x := parse (grammarsOf routedTree) false routedSource)
    (p := fun parsed => parsed.language = .javascript ∧
      (Node.fragment parsed.component.fragment).tagsBelow.map Node.span = [⟨12, 21⟩, ⟨29, 38⟩])
    (by decide +kernel)
  obtain ⟨hlanguage, hspans⟩ := of_decide_eq_true hrun
  refine ⟨parsed, hparsed, fun h => ?_⟩
  have hvisits : (tagTrees (visits (contextFor (grammarsOf routedTree) routedSource false
      .javascript) routedTree)).map routedSource.span = [⟨29, 38⟩, ⟨12, 21⟩] := by
    decide +kernel
  rw [hlanguage] at h
  have hsame := spans_of_readFrom h
  rw [hspans] at hsame
  exact absurd (hsame.trans hvisits) (by decide)

end RawHtmlLint.Template

import RawHtmlLint.Proofs.Template.Fidelity
import RawHtmlLint.Template.Parse

/-!
# The template tiles the source

Text is not in the grammar's tree: it is what stands between the parts. So the template is the
source cut into pieces, and no piece is lost, none is there twice. The children of the root
fragment and the scripts and styles that were lifted out of it make up the whole source; the
children of every other fragment make up its span.

Results:
* `documentOf_faithful`: the conversion of a document is faithful to its source;
* `parse_tilesSource`: the template of a component tiles its source.
-/

namespace RawHtmlLint.Template

open Grammar Text

/-- What a document became is faithful to the source: everything in it is, and together with what
was lifted it tiles the source. -/
structure DocumentFaithful (ctx : Context) (root : Tree) (f : Fragment Node) (lifted : Lifted) :
    Prop where
  span_eq : f.span = ⟨0, ctx.source.size⟩
  below : ∀ c ∈ f.children, Everywhere (Faithful ctx root) c
  texts : ∀ span raw data, Node.text span raw data ∈ f.children →
    raw ≠ "" ∧ raw.toList = ctx.source.textOf span
  braceless : Braceless f
  tiles : ∃ spans, Tiles ctx.source.size 0 spans ∧
    spans.Perm (f.children.map Node.span ++ lifted.spans) ∧
    (f.children.map Node.span).Sublist spans

/-- **The conversion of a document is faithful to its source.** -/
theorem documentOf_faithful {ctx : Context} {root : Tree} {f : Fragment Node} {lifted : Lifted}
    (hwf : WellFormed ctx.source root) (hok : documentOf ctx root = .ok (f, lifted)) :
    DocumentFaithful ctx root f lifted := by
  obtain ⟨_, hreject, hok⟩ := bind_eq_ok.mp hok
  obtain ⟨⟨items, lifted⟩, hitems, hok⟩ := bind_eq_ok.mp hok
  obtain ⟨children, hfill, hok⟩ := bind_eq_ok.mp hok
  cases hok
  have hfaithful := itemsOf_faithful hwf (fun p hp => .outer hp) hitems
  obtain ⟨hplaced, happ⟩ := items_placed hwf hfaithful.spans_eq
  have hspaced : Spaced ctx.source.size 0 (items.map (·.span)) := by
    refine Spaced.of_apart (Nat.zero_le _) ?_ (List.pairwise_map.mpr happ)
    intro c hc
    obtain ⟨item, hitem, rfl⟩ := List.mem_map.mp hc
    exact hplaced item hitem
  obtain ⟨pieces, hlaid⟩ := fill_laid hfill hspaced
  have hlaid : Laid ctx.source.text (Span.stop ⟨0, ctx.source.size⟩)
    (Span.start ⟨0, ctx.source.size⟩) items pieces children := hlaid
  have hbraces : BracesIn ctx.source ⟨0, ctx.source.size⟩ items := by
    intro p hp hbrace
    obtain ⟨c, hc, hhas⟩ := rejectHeaders_ok hwf hreject hp.1 hp.2 hbrace
    rw [← hfaithful.spans_eq] at hc
    obtain ⟨item, hitem, rfl⟩ := List.mem_map.mp hc
    exact ⟨item, hitem, hhas⟩
  obtain ⟨hbelow, htexts⟩ :=
    hlaid.children_clear hfaithful.faithful (Nat.le_refl _) hbraces
  have hmap := hlaid.map_span_children hfaithful.faithful
  refine ⟨rfl, hbelow, fun span raw data hc => (htexts span raw data hc).1,
    fun span raw data hc => (htexts span raw data hc).2, pieces.map (·.span), hlaid.tiles, ?_, ?_⟩
  · -- the pieces are those with a node and those without, and the latter were lifted
    have hlifted : lifted.spans.Perm ((pieces.filter (·.node.isNone)).map (·.span)) := by
      rw [hlaid.lifted_eq]
      exact hfaithful.lifted_perm.trans (.of_eq (List.append_nil _))
    have hsplit : (pieces.filter (·.node.isSome) ++ pieces.filter (·.node.isNone)).Perm pieces := by
      have hperm := List.filter_append_perm (fun piece : Item => piece.node.isSome) pieces
      simpa only [Option.not_isSome] using hperm
    show (pieces.map (·.span)).Perm (children.map Node.span ++ lifted.spans)
    rw [hmap]
    refine .trans ?_ (hlifted.symm.append_left _)
    rw [← List.map_append]
    exact (hsplit.map _).symm
  · show (children.map Node.span).Sublist _
    rw [hmap]
    exact List.filter_sublist.map _

/-! ## Components -/

/-- The scripts and styles that were lifted out of the markup of the component. -/
def Component.lifted (c : Component) : Lifted := ⟨c.instanceScript, c.moduleScript, c.style⟩

/-- What is parsed is what the grammar's tree was converted to. -/
theorem parse_ok {g : Grammars} {modern : Bool} {s : Source} {parsed : Parsed}
    {tree : Parse} (htree : g.parse Language.svelte.name (Markup.adapt s.text) = .ok tree)
    (hok : parse g modern s = .ok parsed) :
    documentOf (contextFor g s modern parsed.language) tree.root =
      .ok (parsed.component.fragment, parsed.component.lifted) := by
  obtain ⟨tree', htree', hok⟩ := bind_eq_ok.mp hok
  cases htree.symm.trans htree'
  split at hok
  · exact absurd hok reject_ne_ok
  · obtain ⟨⟨fragment, lifted⟩, hconvert, hok⟩ := bind_eq_ok.mp hok
    obtain rfl := pure_eq_ok.mp hok
    rw [← convertDocument_eq]
    exact hconvert

/-- The template of the component is its source cut into pieces. -/
structure TilesSource (s : Source) (c : Component) : Prop where
  /-- The children of a fragment are in the order of the source. -/
  ordered : ∀ x, (Node.fragment c.fragment).Holds x → ∀ f ∈ x.fragments,
    (∀ y ∈ f.children, y.span.start ≤ y.span.stop) ∧
      f.children.Pairwise fun y z => y.span.Precedes z.span
  /-- Text is not empty, and as it is written. -/
  texts : ∀ x, (Node.fragment c.fragment).Holds x → ∀ f ∈ x.fragments,
    ∀ span raw data, Node.text span raw data ∈ f.children →
      raw ≠ "" ∧ raw.toList = s.textOf span
  /-- The children of a fragment below the root tile it, unless it ends before it starts. -/
  nested : ∀ y ∈ c.fragment.children, ∀ x, y.Holds x → ∀ f ∈ x.fragments,
    f.span.start ≤ f.span.stop → Tiles f.span.stop f.span.start (f.children.map Node.span)
  /-- The children of the root and what was lifted tile the source. -/
  root : c.fragment.span = ⟨0, s.size⟩ ∧ ∃ spans, Tiles s.size 0 spans ∧
    spans.Perm (c.fragment.children.map Node.span ++ c.lifted.spans) ∧
    (c.fragment.children.map Node.span).Sublist spans
  /-- Each offset is in exactly one child of the root or one lifted script or style. -/
  once : ∀ p < s.size, c.fragment.children.countP (fun y => decide (y.span.Has p)) +
    c.lifted.spans.countP (fun span => decide (span.Has p)) = 1
  /-- The fragments of a node are in order, do not overlap, and lie in its span. -/
  fragments : ∀ x, (Node.fragment c.fragment).Holds x →
    (x.fragments.Pairwise fun f g => f.span.start ≤ f.span.stop ∧ f.span.Precedes g.span) ∧
      ∀ f ∈ x.fragments, f.span.Inside x.span

/-- A node below a fragment is the fragment, or is held by one of its children. -/
theorem holds_fragment {f : Fragment Node} {x : Node} (h : (Node.fragment f).Holds x) :
    x = .fragment f ∨ ∃ c ∈ f.children, c.Holds x := by
  cases h with
  | self => exact Or.inl rfl
  | child hf hc hy =>
    obtain rfl := List.mem_singleton.mp hf
    exact Or.inr ⟨_, hc, hy⟩

theorem FragmentFaithful.ordered {s : Source} {f : Fragment Node} (h : FragmentFaithful s f) :
    (∀ y ∈ f.children, y.span.start ≤ y.span.stop) ∧
      f.children.Pairwise fun y z => y.span.Precedes z.span := by
  rcases Nat.lt_or_ge f.span.stop f.span.start with hlt | hle
  · rw [h.empty hlt]
    exact ⟨fun _ h => absurd h List.not_mem_nil, .nil⟩
  · exact ⟨fun y hy => ((h.tiles hle).inside _ (List.mem_map_of_mem hy)).1,
      List.pairwise_map.mp (h.tiles hle).apart⟩

/-! ## A sample

A component with a script, a block of two branches, an element, and an insertion in it. -/

/-- The text of the sample. -/
def sampleText : List Char :=
  ("<script>1</script>\x7b#if a\x7dt<b>\x7b@html x\x7d</b>" ++
    "\x7b:else\x7d<!--c-->\x7b/if\x7d").toList

def sampleSource : Source := .ofText "Sample.svelte" sampleText

/-- A node of a sample tree. -/
def sampleNode (kind : String) (start stop : Nat) (children : List Tree) : Tree :=
  .node ⟨kind, start, stop, true, false, []⟩ children

/-- The tree of the sample's markup. -/
def sampleTree : Tree :=
  sampleNode "document" 0 62 [
    sampleNode "script_element" 0 18 [
      sampleNode "start_tag" 0 8 [sampleNode "tag_name" 1 7 []],
      sampleNode "raw_text" 8 9 [],
      sampleNode "end_tag" 9 18 []],
    sampleNode "if_statement" 18 62 [
      sampleNode "if_start_expr" 18 25 [],
      sampleNode "text" 25 26 [],
      sampleNode "element" 26 42 [
        sampleNode "start_tag" 26 29 [sampleNode "tag_name" 27 28 []],
        sampleNode "html_expr" 29 38 [],
        sampleNode "end_tag" 38 42 []],
      sampleNode "else_block" 42 57 [
        sampleNode "else_expr" 42 49 [],
        sampleNode "comment" 49 57 []],
      sampleNode "if_end_expr" 57 62 []]]

/-- The tree of a name in parentheses, with a line feed before the second one. -/
def sampleExpression (stop : Nat) : Tree :=
  sampleNode "program" 0 stop [
    sampleNode "expression_statement" 0 stop [
      sampleNode "parenthesized_expression" 0 stop [sampleNode "identifier" 1 (stop - 2) []]]]

/-- A context in which every text is read as a name. -/
def sampleContext (s : Source) : Context :=
  contextFor { tree? := fun _ text => some ⟨sampleExpression text.length, false⟩ } s false
    .javascript

/-- Grammars that know the sample, and take every other text for a name in parentheses. -/
def sampleGrammars : Grammars where
  tree? language text := match language with
    | .svelte => some ⟨sampleTree, false⟩
    | _ => some ⟨sampleExpression text.length, false⟩

/-- Grammars that know a tree of markup, and take every other text for a name in parentheses. -/
def grammarsOf (tree : Tree) : Grammars where
  tree? language text := match language with
    | .svelte => some ⟨tree, false⟩
    | _ => some ⟨sampleExpression text.length, false⟩

theorem parse_sampleTree : sampleGrammars.parse Language.svelte.name
    (Markup.adapt sampleSource.text) = .ok ⟨sampleTree, false⟩ := rfl

theorem sampleTree_wellFormed : WellFormed sampleSource sampleTree := by decide +kernel

theorem sample_parses : ∃ parsed, parse sampleGrammars false sampleSource = .ok parsed := by
  obtain ⟨parsed, hparsed, _⟩ := exists_ok_of_any (x := parse sampleGrammars false sampleSource)
    (p := fun _ => true) (by decide +kernel)
  exact ⟨parsed, hparsed⟩

/-! ## All of the source -/

/-- **The template of a component tiles its source**, if the grammar's tree is well-formed. -/
theorem parse_tilesSource {g : Grammars} {modern : Bool} {s : Source} {parsed : Parsed}
    {tree : Parse} (htree : g.parse Language.svelte.name (Markup.adapt s.text) = .ok tree)
    (hwf : WellFormed s tree.root) (hok : parse g modern s = .ok parsed) :
    TilesSource s parsed.component := by
  have hfaithful := documentOf_faithful hwf (parse_ok htree hok)
  obtain ⟨spans, htiles, hperm, hsub⟩ := hfaithful.tiles
  refine ⟨?_, ?_, ?_,
    ⟨hfaithful.span_eq, spans, htiles, hperm, hsub⟩, ?_, ?_⟩
  · intro x hx f hf
    rcases holds_fragment hx with rfl | ⟨c, hc, hx⟩
    · obtain rfl := List.mem_singleton.mp hf
      refine ⟨?_, List.pairwise_map.mp (htiles.apart.sublist hsub)⟩
      intro y hy
      exact (htiles.inside _ (hsub.subset (List.mem_map_of_mem hy))).1
    · exact ((hfaithful.below c hc x hx).fragments f hf).ordered
  · intro x hx f hf
    rcases holds_fragment hx with rfl | ⟨c, hc, hx⟩
    · obtain rfl := List.mem_singleton.mp hf
      exact hfaithful.texts
    · exact ((hfaithful.below c hc x hx).fragments f hf).texts
  · intro y hy x hx f hf
    exact ((hfaithful.below y hy x hx).fragments f hf).tiles
  · intro p hp
    have hcount := htiles.countP_has (p := p)
    rw [hperm.countP_eq, List.countP_append, List.countP_map, if_pos ⟨Nat.zero_le _, hp⟩] at hcount
    exact hcount
  · intro x hx
    rcases holds_fragment hx with rfl | ⟨c, hc, hx⟩
    · refine ⟨List.pairwise_singleton _ _, ?_⟩
      intro f hf
      obtain rfl := List.mem_singleton.mp hf
      exact ⟨Nat.le_refl _, Nat.le_refl _⟩
    · have hx := hfaithful.below c hc x hx
      exact ⟨hx.ordered, hx.inside⟩

theorem tilesSource_sample : ∃ parsed, parse sampleGrammars false sampleSource = .ok parsed ∧
    TilesSource sampleSource parsed.component := by
  obtain ⟨parsed, hparsed⟩ := sample_parses
  exact ⟨parsed, hparsed, parse_tilesSource parse_sampleTree sampleTree_wellFormed hparsed⟩

end RawHtmlLint.Template

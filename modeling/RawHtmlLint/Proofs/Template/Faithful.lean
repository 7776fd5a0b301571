import RawHtmlLint.Proofs.Template.Descent
import RawHtmlLint.Proofs.Template.Layout
import RawHtmlLint.Proofs.Template.Tags
import RawHtmlLint.Template.Conversion

/-!
# Trees that are faithful to the source

What is true of each node of a template that a well-formed tree was converted to: its fragments
lie in order inside its span, the children of a fragment tile it, text is as it is written, and
no brace is hidden. A brace is either in what is not text, or in a tag of a block, or it belongs
to an element whose content is raw.

Results:
* `fragment_faithful`: a fragment that is filled with faithful items is faithful;
* `everywhere_of_children`: what holds of a node and everywhere below it.
-/

namespace RawHtmlLint.Template

open Grammar Text

/-! ## Faithful nodes -/

/-- The node is a tag. -/
def Node.isTag : Node → Bool
  | .tag .. | .debugTag .. => true
  | _ => false

/-- The node is a block. -/
def Node.isBlock : Node → Bool
  | .ifBlock .. | .eachBlock .. | .awaitBlock .. | .keyBlock .. | .snippetBlock .. => true
  | _ => false

/-- The node is text. -/
def Node.isText : Node → Bool
  | .text .. => true
  | _ => false

/-- The content of the element is raw text: it is named so, or it is what a script or style of
the grammar's tree became. -/
def RawText (s : Source) (root : Tree) : Node → Prop
  | .element _ span name _ _ =>
    String.ofList (lower name.toList) ∈ ["script", "style"] ∨
      ∃ t, Mapped s root (.element, t) ∧ t.kind ∈ ["script_element", "style_element"] ∧
        s.span t = span
  | _ => False

/-- A tag that opens, continues or closes a block starts at the first offset, and the second
offset is in it. -/
def InTagAt (s : Source) (start p : Nat) : Prop :=
  ∃ h, Header.read s start = .ok h ∧ h.sigil.any blockSigils.contains = true ∧ h.span.Has p

/-- The offset is in a tag of the block: one that stands where the block starts or where one of
its fragments ends. -/
def InTagOf (s : Source) (x : Node) (p : Nat) : Prop :=
  InTagAt s x.span.start p ∨ ∃ f ∈ x.fragments, InTagAt s f.span.stop p

/-- The node is a tag that was read from its span: the span starts with a brace and ends with the
brace that closes it. -/
structure TagFaithful (ctx : Context) (x : Node) : Prop where
  read : readTag ctx x.span = .ok x
  opens : ctx.source.at? x.span.start = some '\x7b'
  closes : ∃ close, Script.closingBrace? ctx.source.text (x.span.start + 1) = some close ∧
    x.span.stop = close + 1

/-- The children tile the fragment, and text is as it is written. -/
structure FragmentFaithful (s : Source) (f : Fragment Node) : Prop where
  tiles : f.span.start ≤ f.span.stop → Tiles f.span.stop f.span.start (f.children.map Node.span)
  empty : f.span.stop < f.span.start → f.children = []
  texts : ∀ span raw data, Node.text span raw data ∈ f.children →
    raw ≠ "" ∧ raw.toList = s.textOf span

/-- No text of the fragment holds an opening brace. -/
def Braceless (f : Fragment Node) : Prop :=
  ∀ span raw data, Node.text span raw data ∈ f.children → '\x7b' ∉ raw.toList

/-- The node is what the source says at its span. -/
structure Faithful (ctx : Context) (root : Tree) (x : Node) : Prop where
  ordered : x.fragments.Pairwise fun f g =>
    f.span.start ≤ f.span.stop ∧ f.span.Precedes g.span
  inside : ∀ f ∈ x.fragments, f.span.Inside x.span
  fragments : ∀ f ∈ x.fragments, FragmentFaithful ctx.source f
  braceless : ¬ RawText ctx.source root x → ∀ f ∈ x.fragments, Braceless f
  tag : x.isTag = true → TagFaithful ctx x
  block : x.isBlock = true → ∀ p, x.span.Has p → ctx.source.at? p = some '\x7b' →
    (∃ f ∈ x.fragments, f.span.Has p) ∨ InTagOf ctx.source x p

/-- The node and all nodes below it have the property. -/
def Everywhere (P : Node → Prop) (x : Node) : Prop := ∀ y, x.Holds y → P y

theorem everywhere_of_children {P : Node → Prop} {x : Node} (hx : P x)
    (hchildren : ∀ f ∈ x.fragments, ∀ c ∈ f.children, Everywhere P c) : Everywhere P x := by
  intro y hy
  cases hy with
  | self => exact hx
  | child hf hc hy => exact hchildren _ hf _ hc y hy

variable {ctx : Context} {root : Tree}

/-- A node without fragments is faithful if it is no block, and read from its span if it is a
tag. -/
theorem leaf_faithful {x : Node} (hleaf : x.fragments = []) (hblock : x.isBlock = false)
    (htag : x.isTag = true → TagFaithful ctx x) : Everywhere (Faithful ctx root) x := by
  have hnone : ∀ f, f ∉ x.fragments := fun f hf => by
    rw [hleaf] at hf
    exact absurd hf List.not_mem_nil
  refine everywhere_of_children ⟨?_, fun f hf => absurd hf (hnone f),
    fun f hf => absurd hf (hnone f), fun _ f hf => absurd hf (hnone f), htag, ?_⟩
    fun f hf => absurd hf (hnone f)
  · rw [hleaf]
    exact .nil
  · intro h
    rw [hblock] at h
    exact (nomatch h)

/-! ## Faithful fragments -/

/-- The node of the item, if there is one, is no text, spans what the item does, and is
faithful. -/
def ItemFaithful (ctx : Context) (root : Tree) (item : Item) : Prop :=
  ∀ x, item.node = some x →
    x.span = item.span ∧ x.isText = false ∧ Everywhere (Faithful ctx root) x

/-- The fragment is faithful with all that is below it, and hides no brace. -/
structure FragmentClear (ctx : Context) (root : Tree) (f : Fragment Node) : Prop where
  faithful : FragmentFaithful ctx.source f
  below : ∀ c ∈ f.children, Everywhere (Faithful ctx root) c
  braceless : Braceless f

/-- Every brace of the range is in one of the items. -/
def BracesIn (s : Source) (range : Span) (items : List Item) : Prop :=
  ∀ p, range.Has p → s.at? p = some '\x7b' → ∃ item ∈ items, item.span.Has p

theorem size_eq_length (s : Source) : s.size = s.text.length := rfl

/-- What is written between two offsets of the source, the first one before the second, is not
empty. -/
theorem textOf_ne_nil {s : Source} {span : Span} (hlt : span.start < span.stop)
    (hstop : span.stop ≤ s.size) : s.textOf span ≠ [] := by
  intro hnil
  have hlen := length_slice s.text span.start span.stop
  rw [show slice s.text span.start span.stop = s.textOf span from rfl, hnil, List.length_nil]
    at hlen
  rw [size_eq_length] at hstop
  omega

/-- What a piece of a fragment's layout becomes. -/
theorem piece_faithful {items pieces : List Item} {range : Span} {children : List Node}
    {c : Node} (hitems : ∀ item ∈ items, ItemFaithful ctx root item)
    (hlaid : Laid ctx.source.text range.stop range.start items pieces children)
    (hc : c ∈ children) : ∃ piece ∈ pieces, piece.node = some c ∧ c.span = piece.span ∧
      Everywhere (Faithful ctx root) c ∧
      (c.isText = false ∨ IsGap ctx.source.text items piece) := by
  rw [hlaid.children_eq] at hc
  obtain ⟨piece, hpiece, hnode⟩ := List.mem_filterMap.mp hc
  refine ⟨piece, hpiece, hnode, ?_⟩
  rcases hlaid.item_or_gap piece hpiece with hitem | hgap
  · obtain ⟨hspan, htext, hfaithful⟩ := hitems piece hitem c hnode
    exact ⟨hspan, hfaithful, Or.inl htext⟩
  · obtain ⟨_, _, data, _, htext⟩ := id hgap
    rw [hnode] at htext
    cases htext
    exact ⟨rfl, leaf_faithful rfl rfl fun h => (nomatch h), Or.inr hgap⟩

/-- The children of a layout span what the pieces that have a node do. -/
theorem Laid.map_span_children {items pieces : List Item} {range : Span} {children : List Node}
    (hitems : ∀ item ∈ items, ItemFaithful ctx root item)
    (hlaid : Laid ctx.source.text range.stop range.start items pieces children) :
    children.map Node.span = (pieces.filter (·.node.isSome)).map (·.span) := by
  have hspans : ∀ ps : List Item, (∀ piece ∈ ps, piece ∈ pieces) →
      (ps.filterMap (·.node)).map Node.span = (ps.filter (·.node.isSome)).map (·.span) := by
    intro ps hps
    induction ps with
    | nil => rfl
    | cons piece ps ih =>
      have htail := ih fun q hq => hps q (List.mem_cons_of_mem _ hq)
      cases hnode : piece.node with
      | none =>
        rw [List.filterMap_cons_none hnode, List.filter_cons, hnode]
        exact htail
      | some x =>
        have hspan : x.span = piece.span := by
          rcases hlaid.item_or_gap piece (hps piece List.mem_cons_self) with hitem | hgap
          · exact (hitems piece hitem x hnode).1
          · obtain ⟨_, _, data, _, htext⟩ := hgap
            rw [hnode] at htext
            cases htext
            rfl
        rw [List.filterMap_cons_some hnode, List.filter_cons, hnode, List.map_cons, htail, hspan]
        rfl
  rw [hlaid.children_eq]
  exact hspans pieces fun _ h => h

/-- The children of a layout: text is as it is written, holds no brace, and all is faithful. -/
theorem Laid.children_clear {items pieces : List Item} {range : Span} {children : List Node}
    (hitems : ∀ item ∈ items, ItemFaithful ctx root item)
    (hstop : range.stop ≤ ctx.source.size) (hbraces : BracesIn ctx.source range items)
    (hlaid : Laid ctx.source.text range.stop range.start items pieces children) :
    (∀ c ∈ children, Everywhere (Faithful ctx root) c) ∧
      ∀ span raw data, Node.text span raw data ∈ children →
        (raw ≠ "" ∧ raw.toList = ctx.source.textOf span) ∧ '\x7b' ∉ raw.toList := by
  constructor
  · intro c hc
    obtain ⟨_, _, _, _, hfaithful, _⟩ := piece_faithful hitems hlaid hc
    exact hfaithful
  · intro span raw data hc
    obtain ⟨piece, hpiece, hnode, _, _, htext | hgap⟩ := piece_faithful hitems hlaid hc
    · exact (nomatch htext)
    · obtain ⟨hlt, hapart, data, _, htext⟩ := hgap
      rw [hnode] at htext
      cases htext
      have hin := (hlaid.tiles.inside _ (List.mem_map_of_mem hpiece)).2
      have hraw : (String.ofList (slice ctx.source.text piece.span.start piece.span.stop)).toList =
          ctx.source.textOf piece.span := String.toList_ofList
      refine ⟨⟨?_, hraw⟩, ?_⟩
      · intro hempty
        rw [hempty] at hraw
        exact textOf_ne_nil hlt (Nat.le_trans hin.2 hstop) hraw.symm
      · -- a brace in the gap would be in an item, and a gap touches none
        rw [hraw]
        intro hbrace
        obtain ⟨p, hle, hlt, hp⟩ := mem_slice_iff.mp hbrace
        obtain ⟨item, hitem, hge, hlt'⟩ :=
          hbraces p ⟨Nat.le_trans hin.1 hle, Nat.lt_of_lt_of_le hlt hin.2⟩ hp
        rcases hapart item hitem with hbefore | hafter
        · exact absurd hlt' (Nat.not_lt_of_le (Nat.le_trans hbefore hle))
        · exact absurd hge (Nat.not_le_of_lt (Nat.lt_of_lt_of_le hlt hafter))

/-- **A fragment that is filled with faithful items is faithful.** The items stand in order in
its range, each has a node, and outside them there is no brace. -/
theorem fragment_faithful {items : List Item} {range : Span} {children : List Node}
    (hfill : fill ctx.source.text range.stop range.start items = .ok children)
    (hitems : ∀ item ∈ items, ItemFaithful ctx root item ∧ item.node.isSome = true)
    (hin : ∀ item ∈ items, item.span.start ≤ item.span.stop ∧ item.span.Inside range)
    (happ : items.Pairwise fun i j => i.span.Precedes j.span)
    (hstop : range.stop ≤ ctx.source.size) (hbraces : BracesIn ctx.source range items) :
    FragmentClear ctx root ⟨range, children⟩ := by
  rcases Nat.lt_or_ge range.stop range.start with hlt | hle
  · -- an inverted range holds no item
    have hnil : items = [] := by
      rw [List.eq_nil_iff_forall_not_mem]
      intro item hitem
      obtain ⟨hspan, hstart, hstop⟩ := hin item hitem
      omega
    subst hnil
    obtain rfl := fill_nil_of_lt hfill hlt
    exact ⟨⟨fun h => absurd hlt (Nat.not_lt_of_le h), fun _ => rfl,
      fun _ _ _ h => absurd h List.not_mem_nil⟩, fun _ h => absurd h List.not_mem_nil,
      fun _ _ _ h => absurd h List.not_mem_nil⟩
  · have hspaced : Spaced range.stop range.start (items.map (·.span)) := by
      refine Spaced.of_apart hle ?_ (List.pairwise_map.mpr happ)
      intro c hc
      obtain ⟨item, hitem, rfl⟩ := List.mem_map.mp hc
      exact hin item hitem
    obtain ⟨pieces, hlaid⟩ := fill_laid hfill hspaced
    have hfaithful := fun item hitem => (hitems item hitem).1
    obtain ⟨hbelow, htexts⟩ := hlaid.children_clear hfaithful hstop hbraces
    refine ⟨⟨?_, fun h => absurd hle (Nat.not_le_of_lt h),
      fun span raw data hc => (htexts span raw data hc).1⟩, hbelow,
      fun span raw data hc => (htexts span raw data hc).2⟩
    intro _
    have hsome : pieces.filter (·.node.isSome) = pieces := by
      rw [List.filter_eq_self]
      intro piece hpiece
      rcases hlaid.item_or_gap piece hpiece with hitem | ⟨_, _, data, _, htext⟩
      · exact (hitems piece hitem).2
      · rw [htext]
        rfl
    rw [hlaid.map_span_children hfaithful, hsome]
    exact hlaid.tiles

end RawHtmlLint.Template

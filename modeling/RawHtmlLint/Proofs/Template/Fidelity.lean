import RawHtmlLint.Proofs.Offset
import RawHtmlLint.Proofs.Template.Recursion
import RawHtmlLint.Proofs.Template.Row

/-!
# The conversion is faithful to the source

Every node that a part of a well-formed tree becomes is faithful, with all nodes below it. The
proof follows the recursion of the conversion: the items of an element or block are faithful, and
so is what is built from them.

Results:
* `readTag_ok`: a tag is a node without fragments that spans what it is read from;
* `element_faithful`, `block_item_faithful`: elements and blocks with faithful items are faithful;
* `itemsOf_faithful`: parts become faithful items.
-/

namespace RawHtmlLint.Template

open Grammar Text

variable {ctx : Context} {root : Tree}

theorem span_stop_le_size (s : Source) (t : Tree) : (s.span t).stop ≤ s.size :=
  s.charOffset_le_size t.label.stopByte

/-! ## Leaves -/

/-- A tag spans what it is read from, and it is a node of the kinds of tags. -/
theorem readTag_ok {span : Span} {x : Node} (hok : readTag ctx span = .ok x) :
    x.span = span ∧ x.isTag = true := by
  unfold readTag at hok
  dsimp only at hok
  split at hok
  · unfold readSpecialTag at hok
    dsimp only at hok
    split at hok
    · obtain ⟨expression, _, hok⟩ := bind_eq_ok.mp hok
      obtain rfl := pure_eq_ok.mp hok
      exact ⟨rfl, rfl⟩
    · obtain ⟨expression, _, hok⟩ := bind_eq_ok.mp hok
      split at hok
      · obtain rfl := pure_eq_ok.mp hok
        exact ⟨rfl, rfl⟩
      · exact absurd hok reject_ne_ok
    · split at hok
      · obtain rfl := pure_eq_ok.mp hok
        exact ⟨rfl, rfl⟩
      · exact absurd hok reject_ne_ok
    · split at hok
      · obtain ⟨expression, _, hok⟩ := bind_eq_ok.mp hok
        split at hok
        · obtain rfl := pure_eq_ok.mp hok
          exact ⟨rfl, rfl⟩
        · exact absurd hok reject_ne_ok
      · exact absurd hok reject_ne_ok
    · exact absurd hok reject_ne_ok
  · obtain ⟨expression, _, hok⟩ := bind_eq_ok.mp hok
    obtain rfl := pure_eq_ok.mp hok
    exact ⟨rfl, rfl⟩

/-- What is taken for a tag starts with a brace and ends with the brace that closes it. -/
theorem braces_of_role_tag {s : Source} {t : Tree} (h : role s t = .part .tag) :
    s.at? (s.span t).start = some '\x7b' ∧
      ∃ close, Script.closingBrace? s.text ((s.span t).start + 1) = some close ∧
        (s.span t).stop = close + 1 := by
  unfold role at h
  split at h
  · cases h
  · split at h
    · cases h
    · split at h
      · cases h
      · split at h
        · cases h
        · split at h
          · rename_i hopens
            refine ⟨hopens, ?_⟩
            unfold braceRole at h
            split at h
            · cases h
            · rename_i close hclose
              refine ⟨close, hclose, ?_⟩
              split at h
              · cases h
              · dsimp only at h
                split at h
                · rename_i hstop
                  exact hstop
                · split at h <;> cases h
          · split at h <;> cases h

theorem Node.fragments_of_isTag {x : Node} (h : x.isTag = true) :
    x.fragments = [] ∧ x.isBlock = false ∧ x.isText = false := by
  cases x <;> first | exact ⟨rfl, rfl, rfl⟩ | exact (nomatch h)

/-! ## Elements -/

/-- What stands between the opening tag of an element and its end. -/
def contentOf (s : Source) (t tag : Tree) : Span :=
  if tag.kind = "self_closing_tag" then ⟨(s.span t).stop, (s.span t).stop⟩
  else ⟨(s.span tag).stop, match t.childOfKind? ["end_tag"] with
    | some closing => (s.span closing).start
    | none => (s.span t).stop⟩

theorem contentOf_inside {s : Source} {t tag : Tree} (hwf : WellFormed s t)
    (htag : tag ∈ t.children) : (contentOf s t tag).Inside (s.span t) := by
  unfold contentOf
  split
  · exact ⟨hwf.self.start_le_stop, Nat.le_refl _⟩
  · refine ⟨Nat.le_trans (hwf.self.nested tag htag).1 (hwf.child htag).self.start_le_stop, ?_⟩
    dsimp only
    split
    · rename_i closing hclosing
      have hmem : closing ∈ t.children := List.mem_of_find?_eq_some hclosing
      exact Nat.le_trans (hwf.child hmem).self.start_le_stop (hwf.self.nested closing hmem).2
    · exact Nat.le_refl _

/-- An element spans what its node does, and its content starts after one of the children. -/
theorem ElementTag.read_spans {t : Tree} {e : ElementTag} (hok : ElementTag.read ctx t = .ok e) :
    e.span = ctx.source.span t ∧ ∃ tag ∈ t.children, e.content = contentOf ctx.source t tag := by
  unfold ElementTag.read at hok
  dsimp only at hok
  split at hok
  · exact absurd hok reject_ne_ok
  · rename_i tag htag
    have hmem : tag ∈ t.children := List.mem_of_find?_eq_some htag
    -- the name is that of the tag or empty, and does not matter here
    split at hok
    all_goals
      split at hok
      · exact absurd hok reject_ne_ok
      · obtain ⟨attributes, _, hok⟩ := bind_eq_ok.mp hok
        obtain rfl := pure_eq_ok.mp hok
        exact ⟨rfl, tag, hmem, rfl⟩

/-- The content of an element lies inside it. -/
theorem ElementTag.read_ok {t : Tree} {e : ElementTag} (hwf : WellFormed ctx.source t)
    (hok : ElementTag.read ctx t = .ok e) :
    e.span = ctx.source.span t ∧ e.content.Inside e.span := by
  obtain ⟨hspan, tag, htag, hcontent⟩ := ElementTag.read_spans hok
  refine ⟨hspan, ?_⟩
  rw [hspan, hcontent]
  exact contentOf_inside hwf htag

/-- An element is faithful if its content is a faithful fragment inside it; the content holds no
brace in its text, or it is raw. -/
theorem element_faithful_of_content {kind : ElementKind} {span : Span} {name : String}
    {attributes : List Attribute} {f : Fragment Node} (hin : f.span.Inside span)
    (hf : FragmentFaithful ctx.source f)
    (hbraceless : ¬ RawText ctx.source root (.element kind span name attributes (some f)) →
      Braceless f)
    (hbelow : ∀ c ∈ f.children, Everywhere (Faithful ctx root) c) :
    Everywhere (Faithful ctx root) (.element kind span name attributes (some f)) := by
  refine everywhere_of_children ⟨List.pairwise_singleton _ _, ?_, ?_, ?_,
    fun h => (nomatch h), fun h => (nomatch h)⟩ ?_
  · intro g hg
    obtain rfl := List.mem_singleton.mp hg
    exact hin
  · intro g hg
    obtain rfl := List.mem_singleton.mp hg
    exact hf
  · intro hraw g hg
    obtain rfl := List.mem_singleton.mp hg
    exact hbraceless hraw
  · intro g hg
    obtain rfl := List.mem_singleton.mp hg
    exact hbelow

/-- The text of a range as the only child of a fragment, if it is not empty. -/
def rawChildren (s : Source) (range : Span) : List Node :=
  let raw := String.ofList (s.textOf range)
  if raw = "" then [] else [.text range raw raw]

theorem rawChildren_faithful {s : Source} {range : Span} (hstop : range.stop ≤ s.size) :
    FragmentFaithful s ⟨range, rawChildren s range⟩ := by
  unfold rawChildren
  dsimp only
  split
  · rename_i hempty
    have hge : range.stop ≤ range.start := Nat.le_of_not_lt fun hlt =>
      textOf_ne_nil hlt hstop (String.ofList_eq_empty_iff.mp hempty)
    exact ⟨fun hle => Nat.le_antisymm hle hge, fun _ => rfl,
      fun _ _ _ h => absurd h List.not_mem_nil⟩
  · rename_i hraw
    refine ⟨fun hle => ⟨rfl, hle, rfl⟩, fun hlt => absurd ?_ hraw, ?_⟩
    · refine String.ofList_eq_empty_iff.mpr (List.eq_nil_of_length_eq_zero ?_)
      rw [Source.textOf, Source.slice, length_slice]
      dsimp only at hlt
      omega
    · intro span raw data hmem
      cases List.mem_singleton.mp hmem
      exact ⟨hraw, String.toList_ofList⟩

/-- What is taken for an element is of one of the kinds of elements. -/
theorem kind_of_role_element {s : Source} {t : Tree} (h : role s t = .part .element) :
    t.kind ∈ elementKinds := by
  unfold role at h
  split at h
  · cases h
  · split at h
    · rename_i hkind
      exact List.contains_iff_mem.mp hkind
    · split at h
      · cases h
      · split at h
        · cases h
        · split at h
          · unfold braceRole at h
            split at h
            · cases h
            · split at h
              · cases h
              · dsimp only at h
                split at h
                · split at h <;> cases h
                · split at h <;> cases h
          · split at h <;> cases h

/-- The element with raw content is faithful. -/
theorem rawNode_faithful {t : Tree} {e : ElementTag} (hwf : WellFormed ctx.source root)
    (hmapped : Mapped ctx.source root (.element, t)) (hok : ElementTag.read ctx t = .ok e)
    (hraw : t.kind ≠ "element" ∨ e.isRaw = true) :
    Everywhere (Faithful ctx root) (e.rawNode ctx.source) := by
  obtain ⟨hspan, hin⟩ := ElementTag.read_ok (hwf.of_mem hmapped.mem_nodes) hok
  have hstop : e.content.stop ≤ ctx.source.size :=
    Nat.le_trans hin.2 (hspan ▸ span_stop_le_size ctx.source t)
  show Everywhere _ (.element e.kind e.span (String.ofList e.name) e.attributes
    (some ⟨e.content, rawChildren ctx.source e.content⟩))
  refine element_faithful_of_content hin (rawChildren_faithful hstop) (fun hnot => absurd ?_ hnot)
    ?_
  · rcases hraw with hkind | hname
    · right
      refine ⟨t, hmapped, ?_, hspan.symm⟩
      have hmem := kind_of_role_element hmapped.role_eq
      exact (List.mem_cons.mp hmem).resolve_left hkind
    · left
      rw [String.toList_ofList]
      exact List.contains_iff_mem.mp hname
  · intro c hc
    unfold rawChildren at hc
    dsimp only at hc
    split at hc
    · exact absurd hc List.not_mem_nil
    · obtain rfl := List.mem_singleton.mp hc
      exact leaf_faithful rfl rfl fun h => (nomatch h)

/-! ## Items -/

/-- The spans of the scripts and styles that were lifted. -/
def Lifted.spans (l : Lifted) : List Span :=
  (l.instanceScript.map (·.span)).toList ++ (l.moduleScript.map (·.span)).toList ++
    (l.style.map (·.span)).toList

/-- The items that parts with these spans become: they span what the parts do, their nodes are
faithful, and what has no node was lifted, which happens at the top only. -/
structure ItemsFaithful (ctx : Context) (root : Tree) (topLevel : Bool) (lifted lifted' : Lifted)
    (spans : List Span) (items : List Item) : Prop where
  spans_eq : items.map (·.span) = spans
  faithful : ∀ item ∈ items, ItemFaithful ctx root item
  nested : topLevel = false → ∀ item ∈ items, item.node.isSome = true
  lifted_perm : lifted'.spans.Perm
    ((items.filter (·.node.isNone)).map (·.span) ++ lifted.spans)

theorem ItemsFaithful.nil (topLevel : Bool) (lifted : Lifted) :
    ItemsFaithful ctx root topLevel lifted lifted [] [] where
  spans_eq := rfl
  faithful _ h := absurd h List.not_mem_nil
  nested _ _ h := absurd h List.not_mem_nil
  lifted_perm := .refl _

theorem ItemsFaithful.lifted_of_nested {lifted lifted' : Lifted} {spans : List Span}
    {items : List Item} (h : ItemsFaithful ctx root false lifted lifted' spans items) :
    lifted'.spans.Perm lifted.spans := by
  have hnone : items.filter (·.node.isNone) = [] := by
    rw [List.filter_eq_nil_iff]
    intro item hitem hnone
    have hsome := h.nested rfl item hitem
    rw [Option.isNone_iff_eq_none.mp hnone] at hsome
    exact (nomatch hsome)
  have hperm := h.lifted_perm
  rw [hnone] at hperm
  exact hperm

/-- An item with a faithful node. -/
theorem ItemsFaithful.node {topLevel : Bool} {lifted lifted' : Lifted} {span : Span} {x : Node}
    (hspan : x.span = span) (htext : x.isText = false) (hx : Everywhere (Faithful ctx root) x)
    (hlifted : lifted'.spans.Perm lifted.spans) :
    ItemsFaithful ctx root topLevel lifted lifted' [span] [⟨span, some x⟩] where
  spans_eq := rfl
  faithful item hitem y hy := by
    obtain rfl := List.mem_singleton.mp hitem
    cases hy
    exact ⟨hspan, htext, hx⟩
  nested _ item hitem := by
    obtain rfl := List.mem_singleton.mp hitem
    rfl
  lifted_perm := hlifted

/-- A gap that an element left which was lifted at the top. -/
theorem ItemsFaithful.gap {lifted lifted' : Lifted} {span : Span}
    (hlifted : lifted'.spans.Perm (span :: lifted.spans)) :
    ItemsFaithful ctx root true lifted lifted' [span] [⟨span, none⟩] where
  spans_eq := rfl
  faithful item hitem y hy := by
    obtain rfl := List.mem_singleton.mp hitem
    exact (nomatch hy)
  nested htop := (nomatch htop)
  lifted_perm := hlifted

/-- Items one after the other. -/
theorem ItemsFaithful.append {topLevel : Bool} {lifted₁ lifted₂ lifted₃ : Lifted}
    {spans spans' : List Span} {items items' : List Item}
    (h : ItemsFaithful ctx root topLevel lifted₁ lifted₂ spans items)
    (h' : ItemsFaithful ctx root topLevel lifted₂ lifted₃ spans' items') :
    ItemsFaithful ctx root topLevel lifted₁ lifted₃ (spans ++ spans') (items ++ items') where
  spans_eq := by rw [List.map_append, h.spans_eq, h'.spans_eq]
  faithful item hitem := (List.mem_append.mp hitem).elim (h.faithful item) (h'.faithful item)
  nested htop item hitem :=
    (List.mem_append.mp hitem).elim (h.nested htop item) (h'.nested htop item)
  lifted_perm := by
    rw [List.filter_append, List.map_append]
    refine h'.lifted_perm.trans ((h.lifted_perm.append_left _).trans ?_)
    rw [← List.append_assoc]
    exact List.perm_append_comm.append_right _

theorem liftScript_spans {e : ElementTag} {lifted lifted' : Lifted}
    (hok : liftScript ctx e lifted = .ok lifted') :
    lifted'.spans.Perm (e.span :: lifted.spans) := by
  unfold liftScript at hok
  dsimp only at hok
  generalize (decide (valueOf? e.attributes "context" = some "module") ||
    (valueOf? e.attributes "module").isSome) = isModule at hok
  split at hok
  · exact absurd hok reject_ne_ok
  · rename_i hmodule
    split at hok
    · exact absurd hok reject_ne_ok
    · rename_i hinstance
      unfold Lifted.spans
      cases isModule with
      | true =>
        rw [Bool.true_and, Bool.not_eq_true, Option.isSome_eq_false_iff, Option.isNone_iff_eq_none]
          at hmodule
        -- the language does not matter here
        split at hok
        all_goals
          obtain ⟨_, _, hok⟩ := bind_eq_ok.mp hok
          obtain rfl := pure_eq_ok.mp hok
          rw [hmodule, Option.map_none, Option.toList_none, List.append_nil, List.append_assoc]
          exact List.perm_middle
      | false =>
        rw [Bool.not_false, Bool.true_and, Bool.not_eq_true, Option.isSome_eq_false_iff,
          Option.isNone_iff_eq_none] at hinstance
        split at hok
        all_goals
          obtain ⟨_, _, hok⟩ := bind_eq_ok.mp hok
          obtain rfl := pure_eq_ok.mp hok
          rw [hinstance]
          exact .refl _

/-- What is lifted is the span of the element, in addition to what was lifted before. -/
theorem lift_spans {e : ElementTag} {lifted lifted' : Lifted}
    (hok : lift ctx e lifted = .ok lifted') : lifted'.spans.Perm (e.span :: lifted.spans) := by
  unfold lift at hok
  split at hok
  · split at hok
    · exact absurd hok reject_ne_ok
    · rename_i hnone
      cases hok
      rw [Option.not_isSome_iff_eq_none] at hnone
      unfold Lifted.spans
      rw [hnone, Option.map_none, Option.toList_none, List.append_nil]
      exact List.perm_append_singleton _ _
  · exact liftScript_spans hok

/-- The items of the parts of a node lie where the parts do, in order. -/
theorem items_placed {s : Source} {t : Tree} {low high : Nat} {items : List Item}
    (hwf : WellFormed s t) (hspans : items.map (·.span) = spansOf s (parts s low high t)) :
    (∀ item ∈ items, item.span.start ≤ item.span.stop ∧ item.span.Inside ⟨low, high⟩) ∧
      items.Pairwise fun i j => i.span.Precedes j.span := by
  refine ⟨?_, List.pairwise_map.mp ?_⟩
  · intro item hitem
    have hmem : item.span ∈ spansOf s (parts s low high t) :=
      hspans ▸ List.mem_map_of_mem hitem
    obtain ⟨p, hp, hspan⟩ := List.mem_map.mp hmem
    rw [← hspan]
    exact ⟨start_le_stop_of_mem_parts hwf hp, (mem_partsAmong hp).2.2⟩
  · rw [hspans]
    exact List.pairwise_map.mpr (parts_apart hwf.nests low high)

/-- **An element with faithful items is faithful.** -/
theorem element_faithful {t : Tree} {e : ElementTag} {lifted lifted' : Lifted} {u : Unit}
    {items : List Item} {children : List Node} (hwf : WellFormed ctx.source t)
    (hread : ElementTag.read ctx t = .ok e)
    (hreject : rejectHeaders ctx.source e.content.start e.content.stop
      (parts ctx.source e.content.start e.content.stop t) = .ok u)
    (hitems : ItemsFaithful ctx root false lifted lifted'
      (spansOf ctx.source (parts ctx.source e.content.start e.content.stop t)) items)
    (hfill : fill ctx.source.text e.content.stop e.content.start items = .ok children) :
    Everywhere (Faithful ctx root) (.element e.kind e.span (String.ofList e.name) e.attributes
      (some ⟨e.content, children⟩)) := by
  obtain ⟨hspan, hin⟩ := ElementTag.read_ok hwf hread
  obtain ⟨hplaced, happ⟩ := items_placed hwf hitems.spans_eq
  have hclear : FragmentClear ctx root ⟨e.content, children⟩ := by
    refine fragment_faithful hfill
      (fun item hitem => ⟨hitems.faithful item hitem, hitems.nested rfl item hitem⟩) hplaced happ
      (Nat.le_trans hin.2 (hspan ▸ span_stop_le_size ctx.source t)) ?_
    intro p hp hbrace
    obtain ⟨c, hc, hhas⟩ := rejectHeaders_ok hwf hreject hp.1 hp.2 hbrace
    rw [← hitems.spans_eq] at hc
    obtain ⟨item, hitem, rfl⟩ := List.mem_map.mp hc
    exact ⟨item, hitem, hhas⟩
  exact element_faithful_of_content hin hclear.faithful (fun _ => hclear.braceless) hclear.below

/-! ## Blocks -/

/-- The spans of the parts of a block. -/
def blockSpans (s : Source) (t : Tree) : List Span :=
  spansOf s (parts s (s.span t).start (s.span t).stop t)

theorem Row.map_give {s : Source} {stop : Nat} {h : Header} {hs : List Header}
    {bs : List Branch} (hrow : Row s stop h hs bs) (items : List Item) :
    Row s stop h hs (bs.map (Branch.give items)) where
  headed := hrow.headed.map_give items
  inOrder := hrow.inOrder
  tags := hrow.tags
  covers p hle hlt hp := by
    rcases hrow.covers p hle hlt hp with hk | ⟨b, hb, hhas⟩
    · exact Or.inl hk
    · exact Or.inr ⟨b.give items, List.mem_map_of_mem hb, hhas⟩

/-- Two branches of a row that share an offset are one. -/
theorem Row.branch_unique {s : Source} {stop p : Nat} {h : Header} {hs : List Header}
    {bs : List Branch} (hrow : Row s stop h hs bs) {b c : Branch} (hb : b ∈ bs) (hc : c ∈ bs)
    (hbp : b.span.Has p) (hcp : c.span.Has p) : b = c := by
  have happ := hrow.headed.apart hrow.inOrder
  have hany : b = c ∨ Apart b c ∨ Apart c b :=
    List.Pairwise.forall_of_forall_of_flip (R := fun b c => b = c ∨ Apart b c ∨ Apart c b)
      (fun _ _ => Or.inl rfl) (happ.imp fun h => Or.inr (Or.inl h))
      (happ.imp fun h => Or.inr (Or.inr h)) hb hc
  refine hany.resolve_right ?_
  intro hapart
  obtain ⟨hbstart, hbstop⟩ := hbp
  obtain ⟨hcstart, hcstop⟩ := hcp
  unfold Branch.span at hbstart hbstop hcstart hcstop
  unfold Apart at hapart
  dsimp only at hbstart hbstop hcstart hcstop
  omega

/-- The tags of a block and the branches between them are a row, each part of the block lies in
one of the branches, and each brace in a tag or a part. -/
theorem readBlock_row {t : Tree} {hs : List Header} {f : Frame} (hwf : WellFormed ctx.source t)
    (hrole : role ctx.source t = .part .block)
    (hheaders : headers ctx.source (ctx.source.span t).start (ctx.source.span t).stop
      (parts ctx.source (ctx.source.span t).start (ctx.source.span t).stop t) = .ok hs)
    (hframe : readBlock ctx (ctx.source.span t) hs = .ok f) :
    ∃ h later, h.start = (ctx.source.span t).start ∧
      Row ctx.source (ctx.source.span t).stop h later f.branches ∧
      (∀ c ∈ blockSpans ctx.source t, ∃ b ∈ f.branches, c.Inside b.span) ∧
      ∀ p, h.start ≤ p → p < (ctx.source.span t).stop → ctx.source.at? p = some '\x7b' →
        (∃ k ∈ h :: later, k.span.Has p) ∨ ∃ c ∈ blockSpans ctx.source t, c.Has p := by
  have htagged : Tagged ctx.source (ctx.source.span t).start (ctx.source.span t).stop
    (blockSpans ctx.source t) hs := headers_tagged hwf hheaders
  have hbetween : ∀ c ∈ blockSpans ctx.source t, ∃ pair ∈ hs.zip hs.tail,
      c.Inside ⟨pair.1.stop, pair.2.start⟩ := by
    intro c hc
    obtain ⟨p, hp, rfl⟩ := List.mem_map.mp hc
    have hmem : hs ∈ (headers ctx.source (ctx.source.span t).start (ctx.source.span t).stop
        (parts ctx.source (ctx.source.span t).start (ctx.source.span t).stop t)).toOption := by
      rw [hheaders]
      rfl
    exact hwf.self.between hrole hs hmem p hp
  have hspans : ∀ c ∈ blockSpans ctx.source t, c.start ≤ c.stop := by
    intro c hc
    obtain ⟨p, hp, rfl⟩ := List.mem_map.mp hc
    exact start_le_stop_of_mem_parts hwf hp
  obtain ⟨_, _, opening, middle, closing, rfl, hstart, hopening, hclosing, hmiddle, hheaded, _⟩ :=
    readBlock_ok hframe
  have hin : ∀ c ∈ blockSpans ctx.source t, ∃ b ∈ f.branches, c.Inside b.span := by
    intro c hc
    obtain ⟨pair, hpair, hcin⟩ := hbetween c hc
    obtain ⟨b, hb, hbspan⟩ := hheaded.exists_branch pair hpair
    exact ⟨b, hb, hbspan ▸ hcin⟩
  refine ⟨opening, middle ++ [closing], hstart, ⟨hheaded, ⟨htagged.apart hspans hbetween,
    fun k hk => Header.start_lt_stop (htagged.read k hk)⟩, ?_, ?_⟩, hin, ?_⟩
  · intro k hk
    refine ⟨htagged.read k hk, ?_, (htagged.inside k hk).2⟩
    rcases List.mem_cons.mp hk with rfl | hk
    · rw [hopening]
      decide
    · rcases List.mem_append.mp hk with hk | hk
      · rw [hmiddle k hk]
        decide
      · rw [List.mem_singleton.mp hk, hclosing]
        decide
  · intro p hle hlt hp
    rw [hstart] at hle
    rcases htagged.covers p hle hlt hp with ⟨c, hc, hhas⟩ | hk
    · obtain ⟨b, hb, hcin⟩ := hin c hc
      exact Or.inr ⟨b, hb, Nat.le_trans hcin.1 hhas.1, Nat.lt_of_lt_of_le hhas.2 hcin.2⟩
    · exact Or.inl hk
  · intro p hle hlt hp
    rw [hstart] at hle
    exact (htagged.covers p hle hlt hp).symm

/-- A branch of a row that is given the items of the block becomes a faithful fragment. -/
theorem give_clear {stop : Nat} {h : Header} {hs : List Header} {bs : List Branch} {b : Branch}
    {items : List Item} (hrow : Row ctx.source stop h hs bs) (hb : b ∈ bs)
    (hempty : b.items = []) (hstop : stop ≤ ctx.source.size)
    (hitems : ∀ item ∈ items, ItemFaithful ctx root item ∧ item.node.isSome = true)
    (hplaced : ∀ item ∈ items, item.span.start ≤ item.span.stop)
    (happ : items.Pairwise fun i j => i.span.Precedes j.span)
    (hin : ∀ item ∈ items, ∃ b ∈ bs, item.span.Inside b.span)
    (hcovers : ∀ p, h.start ≤ p → p < stop → ctx.source.at? p = some '\x7b' →
      (∃ k ∈ h :: hs, k.span.Has p) ∨ ∃ item ∈ items, item.span.Has p) :
    BranchClear ctx root (b.give items) := by
  intro f hf
  obtain ⟨children, hfill, hf⟩ := bind_eq_ok.mp hf
  obtain rfl := pure_eq_ok.mp hf
  refine ⟨rfl, ?_⟩
  have hgiven : (b.give items).items.reverse =
      items.filter fun i => i.span.within b.start b.stop := by
    rw [Branch.give, hempty, List.append_nil, List.reverse_reverse]
  rw [hgiven] at hfill
  obtain ⟨hge, hle, k, hk, hend⟩ := hrow.headed.starts_after hrow.inOrder b hb
  have hkstop := (hrow.tags k (List.mem_cons_of_mem _ hk)).2.2
  have hhstart := hrow.inOrder.2 h List.mem_cons_self
  have hsub : ∀ item ∈ items.filter fun i => i.span.within b.start b.stop,
      item ∈ items ∧ item.span.Inside b.span := fun item hitem => by
    obtain ⟨hmem, hwithin⟩ := List.mem_filter.mp hitem
    exact ⟨hmem, Span.within_iff.mp hwithin⟩
  show FragmentClear ctx root ⟨b.span, children⟩
  refine fragment_faithful hfill (fun item hitem => hitems item (hsub item hitem).1)
    (fun item hitem => ⟨hplaced item (hsub item hitem).1, (hsub item hitem).2⟩)
    (happ.filter _) ?_ ?_
  · show b.stop ≤ _
    omega
  · intro p hp hbrace
    -- a brace in the branch is in no tag, so it is in an item, and that lies in this branch
    have hlow : b.start ≤ p := hp.1
    have hhigh : p < b.stop := hp.2
    rcases hcovers p (by omega) (by omega) hbrace with ⟨l, hl, hhas⟩ | ⟨item, hitem, hhas⟩
    · rcases hrow.headed.disjoint hrow.inOrder l hl b hb with hbefore | hafter
      · exact absurd hhas.2 (Nat.not_lt_of_le (Nat.le_trans hbefore hlow))
      · exact absurd hhas.1 (Nat.not_le_of_lt (Nat.lt_of_lt_of_le hhigh hafter))
    · obtain ⟨c, hc, hcin⟩ := hin item hitem
      have hcp : c.span.Has p := ⟨Nat.le_trans hcin.1 hhas.1, Nat.lt_of_lt_of_le hhas.2 hcin.2⟩
      obtain rfl := hrow.branch_unique hc hb hcp hp
      exact ⟨item, List.mem_filter.mpr ⟨hitem, Span.within_iff.mpr hcin⟩, hhas⟩

/-- **A block with faithful items is faithful.** -/
theorem block_item_faithful {t : Tree} {hs : List Header} {f : Frame} {items : List Item}
    {lifted lifted' : Lifted} {x : Node} (hwf : WellFormed ctx.source t)
    (hrole : role ctx.source t = .part .block)
    (hheaders : headers ctx.source (ctx.source.span t).start (ctx.source.span t).stop
      (parts ctx.source (ctx.source.span t).start (ctx.source.span t).stop t) = .ok hs)
    (hframe : readBlock ctx (ctx.source.span t) hs = .ok f)
    (hitems : ItemsFaithful ctx root false lifted lifted' (blockSpans ctx.source t) items)
    (hbuild : (items.foldl Frame.add f).build ctx.source.text = .ok x) :
    x.span = ctx.source.span t ∧ x.isText = false ∧ Everywhere (Faithful ctx root) x := by
  obtain ⟨h, later, hstart, hrow, hin, hcovers⟩ := readBlock_row hwf hrole hheaders hframe
  obtain ⟨hspan, hallowed, _, _, _, _, _, _, _, _, _, hempty⟩ := readBlock_ok hframe
  obtain ⟨hplaced, happ⟩ := items_placed hwf hitems.spans_eq
  have hinside : ∀ item ∈ items, ∃ b ∈ f.branches, item.span.Inside b.span := fun item hitem =>
    hin item.span (hitems.spans_eq ▸ List.mem_map_of_mem hitem)
  have hgiven := branches_foldl_add (hrow.headed.apart hrow.inOrder)
    fun item hitem => ⟨(hplaced item hitem).1, hinside item hitem⟩
  have hlabels : (items.foldl Frame.add f).labels = f.labels := by
    rw [Frame.labels, hgiven, List.map_map]
    rfl
  have hclear : ∀ b ∈ (items.foldl Frame.add f).branches, BranchClear ctx root b := by
    intro b hb
    rw [hgiven] at hb
    obtain ⟨c, hc, rfl⟩ := List.mem_map.mp hb
    refine give_clear hrow hc (hempty c hc) (span_stop_le_size ctx.source t)
      (fun item hitem => ⟨hitems.faithful item hitem, hitems.nested rfl item hitem⟩)
      (fun item hitem => (hplaced item hitem).1) happ hinside ?_
    intro p hle hlt hp
    rcases hcovers p hle hlt hp with hk | ⟨d, hd, hhas⟩
    · exact Or.inl hk
    · rw [← hitems.spans_eq] at hd
      obtain ⟨item, hitem, rfl⟩ := List.mem_map.mp hd
      exact Or.inr ⟨item, hitem, hhas⟩
  have hspan' : (items.foldl Frame.add f).span = ctx.source.span t := by
    rw [span_foldl_add, hspan]
  have hrow' : Row ctx.source (items.foldl Frame.add f).span.stop h later
      (items.foldl Frame.add f).branches := by
    rw [hgiven, hspan']
    exact hrow.map_give items
  have hallowed' : Allowed (items.foldl Frame.add f).shape (items.foldl Frame.add f).labels := by
    rw [shape_foldl_add, hlabels]
    exact hallowed
  obtain ⟨hx, htext, hfaithful⟩ :=
    build_faithful (by rw [hspan', hstart]) hrow' hallowed' hclear hbuild
  exact ⟨hx.trans hspan', htext, hfaithful⟩

/-! ## The recursion -/

theorem mapped_parts {s : Source} {part : Part} {t : Tree} {low high : Nat}
    (h : Mapped s root (part, t)) : ∀ p ∈ parts s low high t, Mapped s root p :=
  fun _ hp => .inner h hp

mutual

/-- **A part becomes a faithful item.** -/
theorem itemOf_faithful (hwf : WellFormed ctx.source root) {topLevel : Bool}
    {lifted lifted' : Lifted} {part : Part} {t : Tree} {item : Item}
    (hmapped : Mapped ctx.source root (part, t))
    (hok : itemOf ctx lifted topLevel part t = .ok (item, lifted')) :
    ItemsFaithful ctx root topLevel lifted lifted' [ctx.source.span t] [item] := by
  have ht := hwf.of_mem hmapped.mem_nodes
  match part, hok with
  | .comment, hok =>
    rw [itemOf] at hok
    cases hok
    exact .node rfl rfl (leaf_faithful rfl rfl fun h => (nomatch h)) (.refl _)
  | .strayClosingTag, hok =>
    rw [itemOf] at hok
    exact absurd hok reject_ne_ok
  | .tag, hok =>
    rw [itemOf] at hok
    obtain ⟨x, hx, hok⟩ := bind_eq_ok.mp hok
    cases hok
    obtain ⟨hspan, htag⟩ := readTag_ok hx
    obtain ⟨hleaf, hblock, htext⟩ := Node.fragments_of_isTag htag
    obtain ⟨hopens, hcloses⟩ := braces_of_role_tag hmapped.role_eq
    have hfaithful : TagFaithful ctx x := by
      rw [← hspan] at hx hopens hcloses
      exact ⟨hx, hopens, hcloses⟩
    exact .node hspan htext (leaf_faithful hleaf hblock fun _ => hfaithful) (.refl _)
  | .element, hok =>
    rw [itemOf] at hok
    obtain ⟨e, he, hok⟩ := bind_eq_ok.mp hok
    have hspan := (ElementTag.read_ok ht he).1
    split at hok
    · rename_i hraw
      split at hok
      · rename_i htop
        obtain ⟨lifted₁, hlift, hok⟩ := bind_eq_ok.mp hok
        cases hok
        rw [Bool.and_eq_true] at htop
        rw [htop.1, ← hspan]
        exact .gap (lift_spans hlift)
      · cases hok
        rw [← hspan]
        exact .node rfl rfl (rawNode_faithful hwf hmapped he hraw) (.refl _)
    · obtain ⟨_, hreject, hok⟩ := bind_eq_ok.mp hok
      obtain ⟨⟨items, lifted₁⟩, hitems, hok⟩ := bind_eq_ok.mp hok
      obtain ⟨children, hfill, hok⟩ := bind_eq_ok.mp hok
      cases hok
      have hinner := itemsOf_faithful hwf (mapped_parts hmapped) hitems
      rw [← hspan]
      exact .node rfl rfl (element_faithful ht he hreject hinner hfill) hinner.lifted_of_nested
  | .block, hok =>
    rw [itemOf] at hok
    obtain ⟨hs, hheaders, hok⟩ := bind_eq_ok.mp hok
    obtain ⟨f, hframe, hok⟩ := bind_eq_ok.mp hok
    obtain ⟨⟨items, lifted₁⟩, hitems, hok⟩ := bind_eq_ok.mp hok
    obtain ⟨x, hbuild, hok⟩ := bind_eq_ok.mp hok
    cases hok
    have hinner := itemsOf_faithful hwf (mapped_parts hmapped) hitems
    obtain ⟨hspan, htext, hx⟩ :=
      block_item_faithful ht hmapped.role_eq hheaders hframe hinner hbuild
    rw [(readBlock_ok hframe).1]
    exact .node hspan htext hx hinner.lifted_of_nested
termination_by 2 * t.size
decreasing_by
  · have := sizeOfParts_lt ctx.source e.content.start e.content.stop t
    omega
  · have := sizeOfParts_lt ctx.source (ctx.source.span t).start (ctx.source.span t).stop t
    omega

theorem itemsOf_faithful (hwf : WellFormed ctx.source root) {topLevel : Bool}
    {lifted lifted' : Lifted} {ps : List (Part × Tree)} {items : List Item}
    (hmapped : ∀ p ∈ ps, Mapped ctx.source root p)
    (hok : itemsOf ctx lifted topLevel ps = .ok (items, lifted')) :
    ItemsFaithful ctx root topLevel lifted lifted' (spansOf ctx.source ps) items := by
  match ps, hok with
  | [], hok =>
    rw [itemsOf] at hok
    cases hok
    exact .nil topLevel lifted
  | (part, t) :: ps, hok =>
    rw [itemsOf] at hok
    obtain ⟨⟨item, lifted₁⟩, hitem, hok⟩ := bind_eq_ok.mp hok
    obtain ⟨⟨items₁, lifted₂⟩, hitems, hok⟩ := bind_eq_ok.mp hok
    cases hok
    exact (itemOf_faithful hwf (hmapped _ List.mem_cons_self) hitem).append
      (itemsOf_faithful hwf (fun p hp => hmapped p (List.mem_cons_of_mem _ hp)) hitems)
termination_by 2 * sizeOfParts ps + 1
decreasing_by
  · simp only [sizeOfParts_cons]
    omega
  · simp only [sizeOfParts_cons, Tree.size_eq t]
    omega

end

end RawHtmlLint.Template

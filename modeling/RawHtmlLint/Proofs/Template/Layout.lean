import RawHtmlLint.Proofs.Outcome
import RawHtmlLint.Proofs.Template.WellFormed
import RawHtmlLint.Template.Frame

/-!
# How a fragment is laid out

The items of a fragment that stand in order leave gaps, and each gap becomes text. Items and gaps
together tile the fragment: they follow one another without gap or overlap from its start to its
end. Of the branches of a frame, an item is given to the one it lies in.

Results:
* `Tiles.countP_has`: each offset of a tiled range is in exactly one tile;
* `fill_laid`: items and gaps tile the fragment, and a gap touches no item;
* `branches_foldl_add`: each branch of a frame gets the items that lie in it.
-/

namespace RawHtmlLint.Template

open Text

/-! ## Tiles -/

/-- The spans follow one another without gap or overlap, from the first offset to the second. -/
def Tiles (stop : Nat) : Nat → List Span → Prop
  | cursor, [] => cursor = stop
  | cursor, span :: spans =>
    span.start = cursor ∧ span.start ≤ span.stop ∧ Tiles stop span.stop spans

theorem Tiles.le {stop : Nat} : ∀ {spans : List Span} {cursor : Nat}, Tiles stop cursor spans →
    cursor ≤ stop
  | [], _, h => Nat.le_of_eq h
  | _ :: _, _, ⟨hstart, hle, h⟩ => hstart ▸ Nat.le_trans hle h.le

/-- A tile lies in the tiled range. -/
theorem Tiles.inside {stop : Nat} : ∀ {spans : List Span} {cursor : Nat},
    Tiles stop cursor spans → ∀ c ∈ spans, c.start ≤ c.stop ∧ c.Inside ⟨cursor, stop⟩
  | [], _, _, c, hc => absurd hc List.not_mem_nil
  | span :: spans, _, ⟨hstart, hle, h⟩, c, hc => by
    rcases List.mem_cons.mp hc with rfl | hc
    · exact ⟨hle, Nat.le_of_eq hstart.symm, h.le⟩
    · obtain ⟨hc, hin⟩ := h.inside c hc
      refine ⟨hc, ?_, hin.2⟩
      exact hstart ▸ Nat.le_trans hle hin.1

theorem Tiles.apart {stop : Nat} : ∀ {spans : List Span} {cursor : Nat},
    Tiles stop cursor spans → spans.Pairwise Span.Precedes
  | [], _, _ => .nil
  | _ :: _, _, ⟨_, _, h⟩ => List.pairwise_cons.mpr ⟨fun c hc => (h.inside c hc).2.1, h.apart⟩

theorem Tiles.append {middle stop : Nat} {ys : List Span} : ∀ {xs : List Span} {cursor : Nat},
    Tiles middle cursor xs → Tiles stop middle ys → Tiles stop cursor (xs ++ ys)
  | [], _, hxs, hys => by
    cases hxs
    exact hys
  | _ :: _, _, ⟨hstart, hle, hxs⟩, hys => ⟨hstart, hle, hxs.append hys⟩

/-- **Each offset of a tiled range is in exactly one tile.** -/
theorem Tiles.countP_has {stop : Nat} : ∀ {spans : List Span} {cursor : Nat} {p : Nat},
    Tiles stop cursor spans →
    spans.countP (fun c => decide (c.Has p)) = if cursor ≤ p ∧ p < stop then 1 else 0
  | [], cursor, p, h => by
    rw [List.countP_nil, if_neg]
    rintro ⟨hle, hlt⟩
    exact absurd (h ▸ hle) (Nat.not_le_of_lt hlt)
  | span :: spans, cursor, p, ⟨hstart, hle, h⟩ => by
    have hstop := h.le
    rw [List.countP_cons, h.countP_has]
    by_cases hhas : span.Has p
    · obtain ⟨hge, hlt⟩ := hhas
      rw [if_neg (by omega), if_pos (decide_eq_true ⟨hge, hlt⟩), if_pos (by omega)]
    · have hout : ¬ (span.start ≤ p ∧ p < span.stop) := hhas
      rw [decide_eq_false hhas, if_neg Bool.false_ne_true, Nat.add_zero]
      split
      · rw [if_pos (by omega)]
      · rw [if_neg (by omega)]

/-- Each offset of a tiled range is in a tile. -/
theorem Tiles.exists_has {stop cursor p : Nat} {spans : List Span} (h : Tiles stop cursor spans)
    (hle : cursor ≤ p) (hlt : p < stop) : ∃ c ∈ spans, c.Has p := by
  have hpos : 0 < spans.countP fun c => decide (c.Has p) := by
    rw [h.countP_has, if_pos ⟨hle, hlt⟩]
    exact Nat.one_pos
  obtain ⟨c, hc, hhas⟩ := List.countP_pos_iff.mp hpos
  exact ⟨c, hc, of_decide_eq_true hhas⟩

/-! ## Items and gaps -/

/-- The spans stand in order in the range, with or without gaps. -/
def Spaced (stop : Nat) : Nat → List Span → Prop
  | cursor, [] => cursor ≤ stop
  | cursor, span :: spans =>
    cursor ≤ span.start ∧ span.start ≤ span.stop ∧ Spaced stop span.stop spans

theorem Spaced.of_apart {stop : Nat} : ∀ {spans : List Span} {cursor : Nat}, cursor ≤ stop →
    (∀ c ∈ spans, c.start ≤ c.stop ∧ c.Inside ⟨cursor, stop⟩) → spans.Pairwise Span.Precedes →
    Spaced stop cursor spans
  | [], _, hle, _, _ => hle
  | span :: spans, cursor, _, hin, happ => by
    obtain ⟨hspan, hspanin⟩ := hin span List.mem_cons_self
    obtain ⟨hfirst, happ⟩ := List.pairwise_cons.mp happ
    refine ⟨hspanin.1, hspan, Spaced.of_apart hspanin.2 ?_ happ⟩
    intro c hc
    obtain ⟨hle, hcin⟩ := hin c (List.mem_cons_of_mem _ hc)
    exact ⟨hle, hfirst c hc, hcin.2⟩

theorem Spaced.start_le {stop : Nat} : ∀ {spans : List Span} {cursor : Nat},
    Spaced stop cursor spans → ∀ c ∈ spans, cursor ≤ c.start
  | [], _, _, c, hc => absurd hc List.not_mem_nil
  | span :: spans, cursor, ⟨hle, hspan, h⟩, c, hc => by
    rcases List.mem_cons.mp hc with rfl | hc
    · exact hle
    · exact Nat.le_trans hle (Nat.le_trans hspan (h.start_le c hc))

/-- The piece is text that is written between the items. -/
def IsGap (text : List Char) (items : List Item) (piece : Item) : Prop :=
  piece.span.start < piece.span.stop ∧
    (∀ item ∈ items, item.span.Precedes piece.span ∨ piece.span.Precedes item.span) ∧
    ∃ data, decode (slice text piece.span.start piece.span.stop) = some data ∧
      piece.node = some (.text piece.span
        (String.ofList (slice text piece.span.start piece.span.stop)) (String.ofList data))

/-- What is laid out between two offsets: the children are the nodes of the pieces, and the
pieces are the items and the gaps. -/
structure Laid (text : List Char) (stop cursor : Nat) (items pieces : List Item)
    (children : List Node) : Prop where
  children_eq : children = pieces.filterMap (·.node)
  tiles : Tiles stop cursor (pieces.map (·.span))
  items_sublist : items.Sublist pieces
  item_or_gap : ∀ piece ∈ pieces, piece ∈ items ∨ IsGap text items piece
  lifted_eq : pieces.filter (·.node.isNone) = items.filter (·.node.isNone)

/-- A gap becomes one piece, or none if it is empty. -/
theorem gap_laid {text : List Char} {cursor stop : Nat} {nodes : List Node} (hle : cursor ≤ stop)
    (h : gap text cursor stop = .ok nodes) : ∃ pieces, Laid text stop cursor [] pieces nodes := by
  unfold gap at h
  split at h
  · rename_i hlt
    obtain ⟨node, hnode, h⟩ := bind_eq_ok.mp h
    obtain rfl := pure_eq_ok.mp h
    unfold textNode at hnode
    dsimp only at hnode
    split at hnode
    · rename_i data hdata
      cases hnode
      refine ⟨[⟨⟨cursor, stop⟩, some _⟩], rfl, ⟨rfl, hle, rfl⟩, List.nil_sublist _, ?_, rfl⟩
      intro piece hpiece
      obtain rfl := List.mem_singleton.mp hpiece
      exact Or.inr ⟨hlt, fun item hitem => absurd hitem List.not_mem_nil, data, hdata, rfl⟩
    · cases hnode
  · rename_i hge
    cases h
    refine ⟨[], rfl, Nat.le_antisymm hle (Nat.le_of_not_lt hge), .slnil, ?_, rfl⟩
    exact fun piece hpiece => absurd hpiece List.not_mem_nil

theorem Laid.cons {text : List Char} {stop cursor : Nat} {item : Item}
    {items gaps pieces : List Item} {before after : List Node}
    (hspaced : Spaced stop cursor ((item :: items).map (·.span)))
    (hgaps : Laid text item.span.start cursor [] gaps before)
    (hrest : Laid text stop item.span.stop items pieces after) :
    Laid text stop cursor (item :: items) (gaps ++ item :: pieces)
      (before ++ item.node.toList ++ after) where
  children_eq := by
    rw [hgaps.children_eq, hrest.children_eq, List.filterMap_append, List.filterMap_cons]
    cases item.node with
    | none => rw [Option.toList_none, List.append_nil]
    | some node => rw [Option.toList_some, List.append_assoc, List.singleton_append]
  tiles := by
    rw [List.map_append]
    exact hgaps.tiles.append ⟨rfl, hspaced.2.1, hrest.tiles⟩
  items_sublist := (hrest.items_sublist.cons_cons item).trans (List.sublist_append_right _ _)
  item_or_gap piece hpiece := by
    obtain ⟨_, hitem, hspaced⟩ := hspaced
    rcases List.mem_append.mp hpiece with hpiece | hpiece
    · rcases hgaps.item_or_gap piece hpiece with hnone | ⟨hlt, _, hdata⟩
      · exact absurd hnone List.not_mem_nil
      · have hin := (hgaps.tiles.inside _ (List.mem_map_of_mem hpiece)).2.2
        refine Or.inr ⟨hlt, fun other hother => Or.inr ?_, hdata⟩
        rcases List.mem_cons.mp hother with rfl | hother
        · exact hin
        · have hle := hspaced.start_le _ (List.mem_map_of_mem hother)
          exact Nat.le_trans hin (Nat.le_trans hitem hle)
    · rcases List.mem_cons.mp hpiece with rfl | hpiece
      · exact Or.inl List.mem_cons_self
      · rcases hrest.item_or_gap piece hpiece with hmem | ⟨hlt, hapart, hdata⟩
        · exact Or.inl (List.mem_cons_of_mem _ hmem)
        · have hin := (hrest.tiles.inside _ (List.mem_map_of_mem hpiece)).2.1
          refine Or.inr ⟨hlt, ?_, hdata⟩
          intro other hother
          rcases List.mem_cons.mp hother with rfl | hother
          · exact Or.inl hin
          · exact hapart other hother
  lifted_eq := by
    rw [List.filter_append, hgaps.lifted_eq, List.filter_nil, List.nil_append, List.filter_cons,
      List.filter_cons, hrest.lifted_eq]

/-- **Items and gaps tile the fragment.** -/
theorem fill_laid {text : List Char} {stop : Nat} : ∀ {items : List Item} {cursor : Nat}
    {children : List Node}, fill text stop cursor items = .ok children →
    Spaced stop cursor (items.map (·.span)) → ∃ pieces, Laid text stop cursor items pieces children
  | [], _, _, h, hspaced => gap_laid hspaced h
  | item :: items, cursor, children, h, hspaced => by
    obtain ⟨before, hbefore, h⟩ := bind_eq_ok.mp h
    obtain ⟨after, hafter, h⟩ := bind_eq_ok.mp h
    obtain rfl := pure_eq_ok.mp h
    obtain ⟨hle, hitem, hrest⟩ := hspaced
    rw [Nat.max_eq_right (Nat.le_trans hle hitem)] at hafter
    obtain ⟨gaps, hgaps⟩ := gap_laid hle hbefore
    obtain ⟨pieces, hpieces⟩ := fill_laid hafter hrest
    exact ⟨gaps ++ item :: pieces, Laid.cons ⟨hle, hitem, hrest⟩ hgaps hpieces⟩

/-- Nothing is laid out in a range that ends before it starts. -/
theorem fill_nil_of_lt {text : List Char} {stop cursor : Nat} {children : List Node}
    (h : fill text stop cursor [] = .ok children) (hlt : stop < cursor) : children = [] := by
  rw [fill, gap, if_neg (Nat.lt_asymm hlt)] at h
  cases h
  rfl

end RawHtmlLint.Template

import RawHtmlLint.Proofs.Template.Dealing
import RawHtmlLint.Proofs.Template.Ownership
import RawHtmlLint.Proofs.Template.SourceOrder
import RawHtmlLint.Proofs.Template.Visits

/-!
# The tags of a template

A fragment lists the tags of its items, in order, and adds none: what is written between the items
is text. A block lists those of its branches, and an item of a block is in the branch that it was
dealt to. So the tags of a template are those that were read from the parts of the tree, and they
are in preorder of the parts once the parts of each block are grouped by branches.

Results:
* `Node.tagsBelow_eq`: the listing by recursion;
* `build_tags`: a block lists the tags of the items of its frame;
* `itemsOf_delivers`: the tags of items are read from their parts.
-/

namespace RawHtmlLint.Template

open Grammar Text

/-! ## Listing the tags -/

namespace Node

/-- The tags below a node, in the order in which the nodes below it are listed. -/
def tagsBelow (x : Node) : List Node := (x.descendants.filterMap Visit.node?).filter isTag

/-- The tags among a node and the nodes below it. -/
def tags (x : Node) : List Node := [x].filter isTag ++ x.tagsBelow

/-- The tags of the children of a fragment. -/
def tagsIn (f : Fragment Node) : List Node := f.children.flatMap tags

theorem flatMap_zipIdx {α β : Type} (l : List α) (g : α → List β) :
    (l.zipIdx.flatMap fun p => g p.1) = l.flatMap g := by
  rw [← List.flatMap_map Prod.fst g, List.zipIdx_map_fst]

theorem listed_eq (x : Node) : x.descendants.filterMap Visit.node? =
    x.fragments.flatMap fun f => f.children.flatMap fun c =>
      c :: c.descendants.filterMap Visit.node? := by
  rw [descendants_eq, List.filterMap_flatMap, ← flatMap_zipIdx x.fragments]
  refine List.flatMap_congr fun f hf => ?_
  rw [List.filterMap_flatMap, ← flatMap_zipIdx f.1.children]
  refine List.flatMap_congr fun c hc => ?_
  have hnode : Visit.node? ⟨[(f.2, c.2)], f.1.children, c.2⟩ = some c.1 :=
    List.mem_zipIdx_iff_getElem?.mp hc
  rw [List.filterMap_cons_some hnode, List.filterMap_map]
  rfl

/-- **The tags below a node** are those of its fragments. -/
theorem tagsBelow_eq (x : Node) : x.tagsBelow = x.fragments.flatMap tagsIn := by
  rw [tagsBelow, listed_eq, List.filter_flatMap]
  refine List.flatMap_congr fun f _ => ?_
  rw [List.filter_flatMap, tagsIn]
  refine List.flatMap_congr fun c _ => ?_
  rw [tags, tagsBelow, ← List.filter_append]
  rfl

theorem tags_of_isTag {x : Node} (h : x.isTag = true) : x.tags = [x] := by
  rw [tags, tagsBelow_eq, (fragments_of_isTag h).1, List.filter_cons_of_pos h]
  rfl

theorem tags_of_not {x : Node} (h : x.isTag = false) : x.tags = x.fragments.flatMap tagsIn := by
  rw [tags, tagsBelow_eq, List.filter_cons_of_neg (by rw [h]; exact Bool.false_ne_true)]
  rfl

end Node

/-! ## Fragments -/

/-- The tags of the node of an item. -/
def Item.tags (item : Item) : List Node := item.node.toList.flatMap Node.tags

theorem Item.tags_some (span : Span) (x : Node) : Item.tags ⟨span, some x⟩ = x.tags :=
  List.flatMap_singleton ..

theorem gap_tags {text : List Char} {cursor stop : Nat} {children : List Node}
    (hok : gap text cursor stop = .ok children) : children.flatMap Node.tags = [] := by
  unfold gap at hok
  split at hok
  · obtain ⟨node, hnode, hok⟩ := bind_eq_ok.mp hok
    obtain rfl := pure_eq_ok.mp hok
    unfold textNode at hnode
    dsimp only at hnode
    split at hnode
    · cases hnode
      rw [List.flatMap_singleton, Node.tags_of_not rfl]
      rfl
    · cases hnode
  · cases hok
    rfl

/-- **A fragment has the tags of its items**, in order. -/
theorem fill_tags {text : List Char} {stop : Nat} : ∀ {items : List Item} {cursor : Nat}
    {children : List Node}, fill text stop cursor items = .ok children →
    children.flatMap Node.tags = items.flatMap Item.tags
  | [], _, _, hok => gap_tags hok
  | item :: items, cursor, children, hok => by
    obtain ⟨before, hbefore, hok⟩ := bind_eq_ok.mp hok
    obtain ⟨after, hafter, hok⟩ := bind_eq_ok.mp hok
    obtain rfl := pure_eq_ok.mp hok
    rw [List.flatMap_append, List.flatMap_append, gap_tags hbefore, fill_tags hafter,
      List.nil_append, List.flatMap_cons]
    rfl

theorem freeze_tags {text : List Char} {b : Branch} {f : Fragment Node}
    (hok : b.freeze text = .ok f) : Node.tagsIn f = b.items.reverse.flatMap Item.tags := by
  obtain ⟨children, hfill, hok⟩ := bind_eq_ok.mp hok
  obtain rfl := pure_eq_ok.mp hok
  exact fill_tags hfill

/-! ## Blocks -/

theorem further_tags (alternate : Option (Fragment Node)) :
    alternate.toList.flatMap Node.tagsIn =
      (further alternate).flatMap fun branch => Node.tagsIn branch.2 := by
  fun_induction further alternate with
  | case1 span elseIfSpan test content alternate ih =>
    show Node.tagsIn _ ++ [] = _
    rw [List.append_nil, Node.tagsIn, List.flatMap_singleton, Node.tags_of_not rfl,
      List.flatMap_cons, ← ih]
    rfl
  | case2 => rfl
  | case3 => rfl

/-- A node has the tags of its branches. -/
theorem Node.fragments_tags (x : Node) : x.fragments.flatMap Node.tagsIn =
    x.branches.flatMap fun branch => Node.tagsIn branch.2 := by
  unfold Node.branches
  split
  · rw [List.flatMap_append, ← further_tags, List.flatMap_map, Node.fragments, List.flatMap_append]
  · rw [List.flatMap_map]

theorem becomes_tags {text : List Char} {bs : List Branch}
    {read : List (Option Expression × Fragment Node)} (h : List.Forall₂ (Becomes text) bs read) :
    read.flatMap (fun branch => Node.tagsIn branch.2) =
      (bs.map (·.items.reverse)).flatten.flatMap Item.tags := by
  induction h with
  | nil => rfl
  | cons hb _ ih =>
    rw [List.flatMap_cons, List.map_cons, List.flatten_cons, List.flatMap_append, ih,
      freeze_tags hb.1]

theorem branches_of_isTag {x : Node} (h : x.isTag = true) : x.branches = [] := by
  cases x <;> first | rfl | exact (nomatch h)

/-- **A block has the tags of the items of its frame**, branch by branch. -/
theorem build_tags {text : List Char} {f : Frame} {x : Node}
    (hallowed : Allowed f.shape f.labels) (hplain : f.Each Item.Plain)
    (hok : f.build text = .ok x) : x.tags = f.contents.flatten.flatMap Item.tags := by
  have howns := build_owns hallowed hplain hok
  have hnot : x.isTag = false := by
    cases htag : x.isTag with
    | false => rfl
    | true =>
      rw [branches_of_isTag htag] at howns
      exact (nomatch howns)
  rw [Node.tags_of_not hnot, Node.fragments_tags, becomes_tags howns, Frame.contents]

/-! ## Parts by branches -/

/-- Where the branches of a block start but the first one, the newest one first: each at the end of
its tag. -/
def laterStarts (s : Source) (t : Tree) : List Nat :=
  match blockHeaders s t with
  | .ok hs => (hs.dropLast.tail.map Header.stop).reverse
  | .error _ => []

/-- The parts within a part, those of a block grouped by the branches that they are given to. -/
def groupedOf (ctx : Context) (p : Part × Tree) : List (Part × Tree) :=
  match p.1 with
  | .block => (deal (fun q => (ctx.source.span q.2).start) (laterStarts ctx.source p.2)
      (pendingOf ctx p)).flatten
  | _ => pendingOf ctx p

theorem groupedOf_perm (ctx : Context) (p : Part × Tree) :
    (groupedOf ctx p).Perm (pendingOf ctx p) := by
  unfold groupedOf
  split
  · exact deal_perm _ _ _
  · exact .refl _

theorem sizeOfParts_perm {ps qs : List (Part × Tree)} (h : ps.Perm qs) :
    sizeOfParts ps = sizeOfParts qs := by
  induction h with
  | nil => rfl
  | cons p _ ih => rw [sizeOfParts_cons, sizeOfParts_cons, ih]
  | swap p q ps => simp only [sizeOfParts_cons, Nat.add_left_comm]
  | trans _ _ ih ih' => exact ih.trans ih'

/-- The parts of what is opened, those of a block grouped by branches. -/
def grouped (ctx : Context) : Within where
  of := groupedOf ctx
  size_lt p := by
    rw [sizeOfParts_perm (groupedOf_perm ctx p)]
    exact pendingOf_lt ctx p

theorem Headed.starts : ∀ {hs : List Header} {bs : List Branch}, Headed hs bs →
    bs.map (·.start) = hs.dropLast.map Header.stop
  | [_], [], _ => rfl
  | _ :: h :: hs, _ :: _, ⟨hb, hheaded⟩ => by
    rw [List.map_cons, hheaded.starts, hb.2.1]
    rfl

/-- The branches of a block start at the ends of their tags. -/
theorem starts_readBlock {ctx : Context} {t : Tree} {hs : List Header} {f : Frame}
    (hheaders : blockHeaders ctx.source t = .ok hs)
    (hframe : readBlock ctx (ctx.source.span t) hs = .ok f) :
    f.later.map (·.start) = laterStarts ctx.source t := by
  obtain ⟨_, _, _, _, _, _, _, _, _, _, hheaded, _⟩ := readBlock_ok hframe
  have hstarts := congrArg List.tail hheaded.starts
  rw [Frame.branches, List.map_cons, List.tail_cons, List.map_reverse, ← List.map_tail] at hstarts
  rw [laterStarts, hheaders]
  show _ = (hs.dropLast.tail.map Header.stop).reverse
  rw [← hstarts, List.reverse_reverse]

/-! ## The conversion -/

/-- The nodes of tag role among the parts. -/
def tagTrees (ps : List (Part × Tree)) : List Tree := (ps.filter (·.1 = .tag)).map (·.2)

/-- The node is what is read from a node of tag role in the grammar's tree. -/
def ReadFrom (ctx : Context) (t : Tree) (x : Node) : Prop :=
  role ctx.source t = .part .tag ∧ readTag ctx (ctx.source.span t) = .ok x

/-- The item stands where the part does, and its tags are read from what is within the part. -/
structure Delivers (ctx : Context) (p : Part × Tree) (item : Item) : Prop where
  start_eq : (ctx.source.span p.2).start = item.span.start
  tags : List.Forall₂ (ReadFrom ctx) (tagTrees (p :: (grouped ctx).preorder (groupedOf ctx p)))
    item.tags

/-- Items that are delivered one by one have the tags of all the parts. -/
theorem forall₂_tags {ctx : Context} {ps : List (Part × Tree)} {items : List Item}
    (h : List.Forall₂ (Delivers ctx) ps items) :
    List.Forall₂ (ReadFrom ctx) (tagTrees ((grouped ctx).preorder ps))
      (items.flatMap Item.tags) := by
  induction h with
  | nil =>
    rw [Within.preorder]
    exact .nil
  | @cons p item ps items hp _ ih =>
    rw [Within.preorder, List.flatMap_cons, ← List.cons_append, tagTrees, List.filter_append,
      List.map_append]
    exact List.rel_append hp.tags ih

theorem rawNode_tags (s : Source) (e : ElementTag) : (e.rawNode s).tags = [] := by
  rw [Node.tags_of_not rfl]
  show Node.tagsIn ⟨e.content, rawChildren s e.content⟩ ++ [] = []
  unfold rawChildren
  dsimp only
  split
  · rfl
  · rw [List.append_nil, Node.tagsIn, List.flatMap_singleton, Node.tags_of_not rfl]
    rfl

/-- A part that opens nothing, and is no tag, delivers no tags. -/
theorem Delivers.none {ctx : Context} {p : Part × Tree} {item : Item}
    (hstart : (ctx.source.span p.2).start = item.span.start) (hp : p.1 ≠ .tag)
    (hwithin : groupedOf ctx p = []) (hitem : item.tags = []) : Delivers ctx p item where
  start_eq := hstart
  tags := by
    rw [hwithin, Within.preorder, hitem, tagTrees, List.filter_cons_of_neg (by simpa using hp)]
    exact .nil

/-- A part that opens something delivers the tags of the items of that. -/
theorem Delivers.opened {ctx : Context} {p : Part × Tree} {item : Item} {items : List Item}
    (hstart : (ctx.source.span p.2).start = item.span.start) (hp : p.1 ≠ .tag)
    (hwithin : List.Forall₂ (Delivers ctx) (groupedOf ctx p) items)
    (hitem : item.tags = items.flatMap Item.tags) : Delivers ctx p item where
  start_eq := hstart
  tags := by
    rw [hitem, tagTrees, List.filter_cons_of_neg (by simpa using hp)]
    exact forall₂_tags hwithin

/-- A block delivers the tags of the items that its branches are dealt. -/
theorem block_delivers {ctx : Context} {t : Tree} {hs : List Header} {f : Frame}
    {items : List Item} {x : Node} (hheaders : blockHeaders ctx.source t = .ok hs)
    (hframe : readBlock ctx (ctx.source.span t) hs = .ok f)
    (hitems : List.Forall₂ (Delivers ctx) (pendingOf ctx (.block, t)) items)
    (hplain : ∀ item ∈ items, item.Plain)
    (hbuild : (items.foldl Frame.add f).build ctx.source.text = .ok x) :
    Delivers ctx (.block, t) ⟨f.span, some x⟩ := by
  obtain ⟨hspan, hallowed, _, _, _, _, _, _, _, _, _, hempty⟩ := readBlock_ok hframe
  have hnone : f.Each Item.Plain := Frame.each_of_empty hempty
  have htags := build_tags (by
    rw [shape_foldl_add, labels_foldl_add]
    exact hallowed) (Frame.each_foldl_add hnone hplain) hbuild
  rw [Frame.contents_foldl_add items hempty, starts_readBlock hheaders hframe] at htags
  have hdealt := deal_forall₂ (fun p item (h : Delivers ctx p item) => h.start_eq)
    (laterStarts ctx.source t) hitems
  refine .opened (by rw [hspan]) (fun h => (nomatch h)) (List.rel_flatten hdealt) ?_
  exact (Item.tags_some ..).trans htags

theorem role_of_mem_parts {s : Source} {low high : Nat} {t : Tree} :
    ∀ p ∈ parts s low high t, role s p.2 = .part p.1 :=
  fun _ hp => (mem_partsAmong hp).2.1

mutual

/-- **The tags of an item are read from its part**, and from what is within the part. -/
theorem itemOf_delivers {ctx : Context} {topLevel : Bool} {lifted lifted' : Lifted} {part : Part}
    {t : Tree} {item : Item} (hrole : role ctx.source t = .part part)
    (hok : itemOf ctx lifted topLevel part t = .ok (item, lifted')) :
    Delivers ctx (part, t) item := by
  match part, hok with
  | .comment, hok =>
    rw [itemOf] at hok
    cases hok
    refine .none rfl (fun h => (nomatch h)) rfl ?_
    rw [Item.tags_some, readComment, Node.tags_of_not rfl]
    rfl
  | .strayClosingTag, hok =>
    rw [itemOf] at hok
    exact absurd hok reject_ne_ok
  | .tag, hok =>
    rw [itemOf] at hok
    obtain ⟨x, hx, hok⟩ := bind_eq_ok.mp hok
    cases hok
    refine ⟨rfl, ?_⟩
    rw [Item.tags_some, Node.tags_of_isTag (readTag_ok hx).2]
    show List.Forall₂ _ (tagTrees ((.tag, t) :: (grouped ctx).preorder [])) _
    rw [Within.preorder]
    exact .cons ⟨hrole, hx⟩ .nil
  | .element, hok =>
    rw [itemOf] at hok
    obtain ⟨e, he, hok⟩ := bind_eq_ok.mp hok
    have hspan := (ElementTag.read_spans he).1
    have hwithin : groupedOf ctx (.element, t) = _ := pendingOf_element he
    split at hok
    · rename_i hraw
      rw [if_pos hraw] at hwithin
      split at hok
      · obtain ⟨lifted₁, _, hok⟩ := bind_eq_ok.mp hok
        cases hok
        exact .none (by rw [hspan]) (fun h => (nomatch h)) hwithin rfl
      · cases hok
        exact .none (by rw [hspan]) (fun h => (nomatch h)) hwithin
          ((Item.tags_some ..).trans (rawNode_tags ctx.source e))
    · rename_i hraw
      rw [if_neg hraw] at hwithin
      obtain ⟨_, _, hok⟩ := bind_eq_ok.mp hok
      obtain ⟨⟨items, lifted₁⟩, hitems, hok⟩ := bind_eq_ok.mp hok
      obtain ⟨children, hfill, hok⟩ := bind_eq_ok.mp hok
      cases hok
      have hinner := itemsOf_delivers role_of_mem_parts hitems
      rw [← hwithin] at hinner
      refine .opened (by rw [hspan]) (fun h => (nomatch h)) hinner ?_
      rw [Item.tags_some, Node.tags_of_not rfl,
        ← fill_tags hfill]
      exact List.flatMap_singleton ..
  | .block, hok =>
    rw [itemOf] at hok
    obtain ⟨hs, hheaders, hok⟩ := bind_eq_ok.mp hok
    obtain ⟨f, hframe, hok⟩ := bind_eq_ok.mp hok
    obtain ⟨⟨items, lifted₁⟩, hitems, hok⟩ := bind_eq_ok.mp hok
    obtain ⟨x, hbuild, hok⟩ := bind_eq_ok.mp hok
    cases hok
    have hinner := itemsOf_delivers role_of_mem_parts hitems
    exact block_delivers hheaders hframe hinner (itemsOf_plain hitems) hbuild
termination_by 2 * t.size
decreasing_by
  · have := sizeOfParts_lt ctx.source e.content.start e.content.stop t
    omega
  · have := sizeOfParts_lt ctx.source (ctx.source.span t).start (ctx.source.span t).stop t
    omega

/-- The same of parts one after the other. -/
theorem itemsOf_delivers {ctx : Context} {topLevel : Bool} {lifted lifted' : Lifted}
    {ps : List (Part × Tree)} {items : List Item}
    (hroles : ∀ p ∈ ps, role ctx.source p.2 = .part p.1)
    (hok : itemsOf ctx lifted topLevel ps = .ok (items, lifted')) :
    List.Forall₂ (Delivers ctx) ps items := by
  match ps, hok with
  | [], hok =>
    rw [itemsOf] at hok
    cases hok
    exact .nil
  | (part, t) :: ps, hok =>
    rw [itemsOf] at hok
    obtain ⟨⟨item, lifted₁⟩, hitem, hok⟩ := bind_eq_ok.mp hok
    obtain ⟨⟨items₁, lifted₂⟩, hitems, hok⟩ := bind_eq_ok.mp hok
    cases hok
    exact .cons (itemOf_delivers (hroles _ List.mem_cons_self) hitem)
      (itemsOf_delivers (fun p hp => hroles p (List.mem_cons_of_mem _ hp)) hitems)
termination_by 2 * sizeOfParts ps + 1
decreasing_by
  · simp only [sizeOfParts_cons]
    omega
  · simp only [sizeOfParts_cons, Tree.size_eq t]
    omega

end

end RawHtmlLint.Template

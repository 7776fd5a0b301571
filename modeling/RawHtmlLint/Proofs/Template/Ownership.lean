import RawHtmlLint.Proofs.Template.BranchLabels
import RawHtmlLint.Proofs.Template.Sound
import RawHtmlLint.Proofs.Template.Tiling

/-!
# No branch of a block is lost

The node of a block owns the fragments of its branches. An if block owns only two of them itself:
each further `else if` is an if block in the alternate of the one before it, alone there, and it
has the test of its own branch. So the branches can be read back from the node (`Node.branches`).
An `else` branch is not taken for an `else if`, since no block that is written in a fragment is
one (`itemsOf_plain`).

Results:
* `branches_bare`: what is given to a frame changes its branches only in their items;
* `build_owns`: the branches that are read back from a node are those of its frame;
* `visit_keeps_branches`: the same of a block, from its tags to its node.
-/

namespace RawHtmlLint.Template

open Grammar

/-! ## Reading the branches back -/

/-- The node is an `else if`. -/
def Node.isElseIf : Node → Bool
  | .ifBlock _ _ _ _ elseIf => elseIf
  | _ => false

/-- The branches in the alternate of an if block, with their tests: an `else if` that stands alone
there has the next ones in its own alternate. -/
def further : Option (Fragment Node) → List (Option Expression × Fragment Node)
  | some ⟨_, [.ifBlock _ test (some content) alternate true]⟩ => (test, content) :: further alternate
  | some f => [(none, f)]
  | none => []
termination_by alternate => Node.sizeOfOptional alternate
decreasing_by
  simp only [Node.sizeOfOptional, Node.sizeOfFragment, Node.sizeAll, Node.size]
  omega

/-- The branches of a block in order, each fragment with its test. -/
def Node.branches : Node → List (Option Expression × Fragment Node)
  | .ifBlock _ test consequent alternate _ =>
    consequent.toList.map (test, ·) ++ further alternate
  | x => x.fragments.map (none, ·)

/-- The fragment is what the branch has become, with the test of the branch. -/
def Becomes (text : List Char) (b : Branch) (read : Option Expression × Fragment Node) : Prop :=
  b.freeze text = .ok read.2 ∧ (b.label = .consequent ∨ b.label = .elseIf → read.1 = b.test)

/-- A fragment that is no single `else if` is an `else`. -/
theorem further_of_plain {f : Fragment Node} (h : ∀ c ∈ f.children, c.isElseIf = false) :
    further (some f) = [(none, f)] := by
  unfold further
  split
  · rename_i heq
    cases heq
    exact nomatch h _ List.mem_cons_self
  · rename_i heq
    cases heq
    rfl
  · rename_i heq
    cases heq

/-! ## What is written in a fragment is no `else if` -/

/-- The item does not put an `else if` into a branch. -/
def Item.Plain (item : Item) : Prop := ∀ x, item.node = some x → x.isElseIf = false

theorem gap_plain {text : List Char} {cursor stop : Nat} {children : List Node}
    (hok : gap text cursor stop = .ok children) : ∀ c ∈ children, c.isElseIf = false := by
  unfold gap at hok
  split at hok
  · obtain ⟨node, hnode, hok⟩ := bind_eq_ok.mp hok
    obtain rfl := pure_eq_ok.mp hok
    unfold textNode at hnode
    dsimp only at hnode
    split at hnode
    · cases hnode
      intro c hc
      obtain rfl := List.mem_singleton.mp hc
      rfl
    · cases hnode
  · cases hok
    exact fun c hc => absurd hc List.not_mem_nil

theorem fill_plain {text : List Char} {stop : Nat} : ∀ {items : List Item} {cursor : Nat}
    {children : List Node}, (∀ item ∈ items, item.Plain) →
    fill text stop cursor items = .ok children → ∀ c ∈ children, c.isElseIf = false
  | [], _, _, _, hok => gap_plain hok
  | item :: items, cursor, children, hitems, hok => by
    obtain ⟨before, hbefore, hok⟩ := bind_eq_ok.mp hok
    obtain ⟨after, hafter, hok⟩ := bind_eq_ok.mp hok
    obtain rfl := pure_eq_ok.mp hok
    intro c hc
    rcases List.mem_append.mp hc with hc | hc
    · rcases List.mem_append.mp hc with hc | hc
      · exact gap_plain hbefore c hc
      · exact hitems item List.mem_cons_self c (Option.mem_toList.mp hc)
    · exact fill_plain (fun i hi => hitems i (List.mem_cons_of_mem _ hi)) hafter c hc

theorem freeze_plain {text : List Char} {b : Branch} {f : Fragment Node}
    (hitems : ∀ item ∈ b.items, item.Plain) (hok : b.freeze text = .ok f) :
    ∀ c ∈ f.children, c.isElseIf = false := by
  obtain ⟨children, hfill, hok⟩ := bind_eq_ok.mp hok
  obtain rfl := pure_eq_ok.mp hok
  exact fill_plain (fun item hitem => hitems item (List.mem_reverse.mp hitem)) hfill

/-- The node that a frame becomes is no `else if`. -/
theorem build_plain {text : List Char} {f : Frame} {x : Node} (hok : f.build text = .ok x) :
    x.isElseIf = false := by
  unfold Frame.build at hok
  split at hok
  · obtain ⟨content, _, hok⟩ := bind_eq_ok.mp hok
    obtain rfl := pure_eq_ok.mp hok
    rfl
  · obtain ⟨content, _, hok⟩ := bind_eq_ok.mp hok
    obtain rfl := pure_eq_ok.mp hok
    rfl
  · obtain ⟨alternate, _, hok⟩ := bind_eq_ok.mp hok
    obtain ⟨content, _, hok⟩ := bind_eq_ok.mp hok
    obtain rfl := pure_eq_ok.mp hok
    rfl
  · obtain ⟨body, _, hok⟩ := bind_eq_ok.mp hok
    obtain ⟨fallback, _, hok⟩ := bind_eq_ok.mp hok
    obtain rfl := pure_eq_ok.mp hok
    rfl
  · obtain ⟨pending, _, hok⟩ := bind_eq_ok.mp hok
    obtain ⟨fulfilled, _, hok⟩ := bind_eq_ok.mp hok
    obtain ⟨rejected, _, hok⟩ := bind_eq_ok.mp hok
    obtain rfl := pure_eq_ok.mp hok
    rfl
  · obtain ⟨content, _, hok⟩ := bind_eq_ok.mp hok
    obtain rfl := pure_eq_ok.mp hok
    rfl
  · obtain ⟨body, _, hok⟩ := bind_eq_ok.mp hok
    obtain rfl := pure_eq_ok.mp hok
    rfl

/-- **What parts become is no `else if`.** -/
theorem itemOf_plain {ctx : Context} {lifted lifted' : Lifted} {topLevel : Bool} {part : Part}
    {t : Tree} {item : Item} (hok : itemOf ctx lifted topLevel part t = .ok (item, lifted')) :
    item.Plain := by
  match part, hok with
  | .comment, hok =>
    rw [itemOf] at hok
    cases hok
    rintro x ⟨⟩
    rfl
  | .strayClosingTag, hok =>
    rw [itemOf] at hok
    exact absurd hok reject_ne_ok
  | .tag, hok =>
    rw [itemOf] at hok
    obtain ⟨x, hx, hok⟩ := bind_eq_ok.mp hok
    cases hok
    have htag := (readTag_ok hx).2
    rintro _ ⟨⟩
    cases x <;> first | rfl | exact (nomatch htag)
  | .element, hok =>
    rw [itemOf] at hok
    obtain ⟨e, he, hok⟩ := bind_eq_ok.mp hok
    split at hok
    · split at hok
      · obtain ⟨lifted₁, hlift, hok⟩ := bind_eq_ok.mp hok
        cases hok
        exact fun x hx => (nomatch hx)
      · cases hok
        rintro x ⟨⟩
        rfl
    · obtain ⟨_, hreject, hok⟩ := bind_eq_ok.mp hok
      obtain ⟨⟨items, lifted₁⟩, hitems, hok⟩ := bind_eq_ok.mp hok
      obtain ⟨children, hfill, hok⟩ := bind_eq_ok.mp hok
      cases hok
      rintro x ⟨⟩
      rfl
  | .block, hok =>
    rw [itemOf] at hok
    obtain ⟨hs, hheaders, hok⟩ := bind_eq_ok.mp hok
    obtain ⟨f, hframe, hok⟩ := bind_eq_ok.mp hok
    obtain ⟨⟨items, lifted₁⟩, hitems, hok⟩ := bind_eq_ok.mp hok
    obtain ⟨x, hbuild, hok⟩ := bind_eq_ok.mp hok
    cases hok
    rintro _ ⟨⟩
    exact build_plain hbuild

theorem itemsOf_plain {ctx : Context} : ∀ {ps : List (Part × Tree)} {lifted lifted' : Lifted}
    {topLevel : Bool} {items : List Item},
    itemsOf ctx lifted topLevel ps = .ok (items, lifted') → ∀ item ∈ items, item.Plain
  | [], _, _, _, _, hok => by
    rw [itemsOf] at hok
    cases hok
    exact fun item hitem => absurd hitem List.not_mem_nil
  | (part, t) :: ps, _, _, _, _, hok => by
    rw [itemsOf] at hok
    obtain ⟨⟨item, lifted₁⟩, hitem, hok⟩ := bind_eq_ok.mp hok
    obtain ⟨⟨items, lifted₂⟩, hitems, hok⟩ := bind_eq_ok.mp hok
    cases hok
    intro i hi
    rcases List.mem_cons.mp hi with rfl | hi
    · exact itemOf_plain hitem
    · exact itemsOf_plain hitems i hi

/-! ## What a frame keeps while it is given items -/

/-- The branch without its items. -/
def Branch.bare (b : Branch) : Branch := { b with items := [] }

theorem addToNewest_bare {item : Item} : ∀ {bs bs' : List Branch},
    addToNewest item bs = some bs' → bs'.map Branch.bare = bs.map Branch.bare
  | [], _, h => (nomatch h)
  | b :: bs, bs', h => by
    rw [addToNewest] at h
    split at h
    · cases h
      rfl
    · obtain ⟨newer, hnewer, rfl⟩ := Option.map_eq_some_iff.mp h
      rw [List.map_cons, List.map_cons, addToNewest_bare hnewer]

theorem branches_bare_add (f : Frame) (item : Item) :
    (f.add item).branches.map Branch.bare = f.branches.map Branch.bare := by
  unfold Frame.add
  split
  · rename_i later hlater
    show f.opening.bare :: later.reverse.map Branch.bare =
      f.opening.bare :: f.later.reverse.map Branch.bare
    rw [List.map_reverse, List.map_reverse, addToNewest_bare hlater]
  · rfl

/-- **Items change nothing else in a frame.** -/
theorem branches_bare : ∀ (items : List Item) (f : Frame),
    (items.foldl Frame.add f).branches.map Branch.bare = f.branches.map Branch.bare
  | [], _ => rfl
  | item :: items, f => by rw [List.foldl_cons, branches_bare items, branches_bare_add]

theorem labels_foldl_add (items : List Item) (f : Frame) :
    (items.foldl Frame.add f).labels = f.labels := by
  have hlabels : ∀ bs : List Branch, bs.map (·.label) = (bs.map Branch.bare).map (·.label) :=
    fun bs => (List.map_map (f := Branch.bare) (g := Branch.label) (l := bs)).symm
  rw [Frame.labels, Frame.labels, hlabels, branches_bare, ← hlabels]

/-! ## From the frame to the node -/

/-- **The further branches of an if block** can be read back from what they become. -/
theorem further_alternateOf {text : List Char} {stop : Nat} : ∀ {bs : List Branch}
    {alternate : Option (Fragment Node)}, ElseChain (bs.map (·.label)) →
    (∀ b ∈ bs, ∀ item ∈ b.items, item.Plain) → alternateOf text stop bs = .ok alternate →
    List.Forall₂ (Becomes text) bs (further alternate)
  | [], alternate, _, _, hok => by
    cases hok
    rw [further]
    exact .nil
  | b :: bs, alternate, hchain, hplain, hok => by
    obtain ⟨rest, hrest, hok⟩ := bind_eq_ok.mp hok
    obtain ⟨content, hcontent, hok⟩ := bind_eq_ok.mp hok
    have hlabels : ElseChain (b.label :: bs.map (·.label)) := hchain
    rcases elseChain_cons hlabels with ⟨helse, hnil⟩ | ⟨helseIf, hchain⟩
    · rw [if_pos helse] at hok
      obtain rfl := pure_eq_ok.mp hok
      obtain rfl := List.map_eq_nil_iff.mp hnil
      rw [further_of_plain (freeze_plain (hplain b List.mem_cons_self) hcontent)]
      refine .cons ⟨hcontent, fun h => ?_⟩ .nil
      rw [helse] at h
      rcases h with h | h <;> cases h
    · rw [if_neg (by rw [helseIf]; decide)] at hok
      obtain rfl := pure_eq_ok.mp hok
      rw [further]
      exact .cons ⟨hcontent, fun _ => rfl⟩
        (further_alternateOf hchain (fun c hc => hplain c (List.mem_cons_of_mem _ hc)) hrest)

/-- The fragments that are found by their labels, in order, are all the branches have become; no
other block than an if block has branches with a test. -/
theorem becomes_of_found {text : List Char} {bs : List Branch} {order : List Label}
    {found : List (Option (Fragment Node))} (hnodup : order.Nodup)
    (hlabels : (bs.map (·.label)).Sublist order)
    (htests : Label.consequent ∉ order ∧ Label.elseIf ∉ order) (hfound : Found text bs order found) :
    List.Forall₂ (Becomes text) bs ((found.flatMap Option.toList).map (none, ·)) := by
  rw [List.forall₂_map_right_iff]
  have hmem : ∀ b ∈ bs, b.label ∈ order := fun b hb => hlabels.subset (List.mem_map_of_mem hb)
  have hfrozen := freeze_of_found hnodup hlabels hfound
  refine ((List.forall₂_and_left bs _).mpr ⟨hmem, hfrozen⟩).imp ?_
  rintro b f ⟨hb, hf⟩
  refine ⟨hf, fun h => ?_⟩
  rcases h with h | h
  · exact absurd (h ▸ hb) htests.1
  · exact absurd (h ▸ hb) htests.2

/-- **The node of a block owns all its branches**, each once and in order. -/
theorem build_owns {text : List Char} {f : Frame} {x : Node}
    (hallowed : Allowed f.shape f.labels) (hplain : f.Each Item.Plain)
    (hok : f.build text = .ok x) : List.Forall₂ (Becomes text) f.branches x.branches := by
  unfold Frame.build at hok
  unfold Allowed at hallowed
  cases hshape : f.shape with
  | document | element =>
    rw [hshape] at hallowed
    exact hallowed.elim
  | ifBlock =>
    rw [hshape] at hok hallowed
    obtain ⟨alternate, halternate, hok⟩ := bind_eq_ok.mp hok
    obtain ⟨content, hcontent, hok⟩ := bind_eq_ok.mp hok
    obtain rfl := pure_eq_ok.mp hok
    rw [alternate_eq_alternateOf] at halternate
    have hchain : ElseChain (f.later.reverse.map (·.label)) := by
      obtain ⟨n, hn | hn⟩ := hallowed
      · exact ⟨n, Or.inl (List.cons.inj hn).2⟩
      · exact ⟨n, Or.inr (List.cons.inj hn).2⟩
    exact .cons ⟨hcontent, fun _ => rfl⟩
      (further_alternateOf hchain (fun b hb => hplain b (List.mem_cons_of_mem _ hb)) halternate)
  | eachBlock header =>
    rw [hshape] at hok hallowed
    obtain ⟨body, hbody, hok⟩ := bind_eq_ok.mp hok
    obtain ⟨fallback, hfallback, hok⟩ := bind_eq_ok.mp hok
    obtain rfl := pure_eq_ok.mp hok
    have hbecomes := becomes_of_found (Shape.nodup_order _) hallowed (by simp [Shape.order])
      (.cons hbody (.cons hfallback .nil))
    simpa [Node.branches, Node.fragments] using hbecomes
  | awaitBlock expression value error =>
    rw [hshape] at hok hallowed
    obtain ⟨pending, hpending, hok⟩ := bind_eq_ok.mp hok
    obtain ⟨fulfilled, hfulfilled, hok⟩ := bind_eq_ok.mp hok
    obtain ⟨rejected, hrejected, hok⟩ := bind_eq_ok.mp hok
    obtain rfl := pure_eq_ok.mp hok
    have hbecomes := becomes_of_found (Shape.nodup_order _) hallowed (by simp [Shape.order])
      (.cons hpending (.cons hfulfilled (.cons hrejected .nil)))
    simpa [Node.branches, Node.fragments] using hbecomes
  | keyBlock expression =>
    rw [hshape] at hok hallowed
    obtain ⟨content, hcontent, hok⟩ := bind_eq_ok.mp hok
    obtain rfl := pure_eq_ok.mp hok
    have hbecomes := becomes_of_found (Shape.nodup_order _) hallowed (by simp [Shape.order])
      (.cons hcontent .nil)
    simpa [Node.branches, Node.fragments] using hbecomes
  | snippetBlock name parameters =>
    rw [hshape] at hok hallowed
    obtain ⟨body, hbody, hok⟩ := bind_eq_ok.mp hok
    obtain rfl := pure_eq_ok.mp hok
    have hbecomes := becomes_of_found (Shape.nodup_order _) hallowed (by simp [Shape.order])
      (.cons hbody .nil)
    simpa [Node.branches, Node.fragments] using hbecomes

/-! ## From the tags to the node -/

/-- The tags of a block, between and around its parts. -/
def blockHeaders (s : Source) (t : Tree) : Outcome (List Header) :=
  headers s (s.span t).start (s.span t).stop (parts s (s.span t).start (s.span t).stop t)

/-- **No branch of a block is lost.** A block that is accepted has a branch for each of its tags
but the last one. The branches are those that the tags ask for, in a form that such a block can
have. Whatever its parts become, the node of the block owns what these branches have become, each
once and in order, and in an if block each with its own test. A block whose tags ask for other
branches is rejected. If they do not, the tags need only enclose the block, and the tests be
readable, for it to be accepted. -/
theorem visit_keeps_branches (ctx : Context) (lifted : Lifted) (topLevel : Bool) (t : Tree) :
    (∀ inner, visit ctx lifted topLevel .block t = .ok (.opened inner) →
      ∃ opening later first, blockHeaders ctx.source t = .ok (opening :: later) ∧
        openBlock ctx opening (ctx.source.span t).stop = .ok first ∧
        inner.frame.branches.length + 1 = (opening :: later).length ∧
        Asks ctx.source first later inner.frame.labels ∧
        ∀ items lifted' x, itemsOf ctx lifted false inner.pending = .ok (items, lifted') →
          (items.foldl Frame.add inner.frame).build ctx.source.text = .ok x →
          (items.foldl Frame.add inner.frame).branches.map Branch.bare = inner.frame.branches ∧
            List.Forall₂ (Becomes ctx.source.text) (items.foldl Frame.add inner.frame).branches
              x.branches) ∧
    ∀ opening later first, blockHeaders ctx.source t = .ok (opening :: later) →
      openBlock ctx opening (ctx.source.span t).stop = .ok first →
      ((¬ ∃ labels, Asks ctx.source first later labels) →
        ∃ failure, visit ctx lifted topLevel .block t = .error failure ∧ Rejection ctx failure) ∧
      ((∃ labels, Asks ctx.source first later labels) →
        Encloses ctx.source (ctx.source.span t) first.shape opening later →
        (∀ h ∈ later.dropLast, h.TestRead ctx first.shape) →
        ∃ inner, visit ctx lifted topLevel .block t = .ok (.opened inner)) := by
  constructor
  · intro inner hvisit
    obtain ⟨hs, hheaders, hvisit⟩ := bind_eq_ok.mp hvisit
    obtain ⟨f, hframe, hvisit⟩ := bind_eq_ok.mp hvisit
    obtain ⟨⟩ := pure_eq_ok.mp hvisit
    obtain ⟨_, hallowed, _, _, _, _, _, _, _, _, _, hempty⟩ := readBlock_ok hframe
    match hs, hframe with
    | opening :: later, hframe =>
      obtain ⟨first, hfirst, _, hlength, hasks⟩ := labels_readBlock hframe
      refine ⟨opening, later, first, hheaders, hfirst, congrArg (· + 1) hlength, hasks, ?_⟩
      intro items lifted' x hitems hbuild
      constructor
      · rw [branches_bare]
        calc f.branches.map Branch.bare = f.branches.map id :=
              List.map_congr_left fun b hb => by rw [Branch.bare, ← hempty b hb]; rfl
          _ = f.branches := List.map_id _
      · -- no branch has an item yet, so all that the branches get comes from the parts
        have hnone : f.Each Item.Plain := fun b hb item hitem => by
          rw [hempty b hb] at hitem
          exact absurd hitem List.not_mem_nil
        refine build_owns ?_ (Frame.each_foldl_add hnone (itemsOf_plain hitems)) hbuild
        rw [shape_foldl_add, labels_foldl_add]
        exact hallowed
  · intro opening later first hheaders hfirst
    refine ⟨fun hnot => ?_, fun ⟨labels, hasks⟩ hencloses htests => ?_⟩
    · obtain ⟨failure, hfails, hrejection⟩ := readBlock_rejected hfirst hnot
      refine ⟨failure, ?_, hrejection⟩
      unfold visit
      dsimp only
      unfold blockHeaders at hheaders
      rw [hheaders]
      show (readBlock ctx (ctx.source.span t) (opening :: later) >>= _) = _
      rw [hfails]
      rfl
    · obtain ⟨f, hframe⟩ := readBlock_accepted hfirst hencloses hasks htests
      exact ⟨_, bind_eq_ok.mpr ⟨_, hheaders, bind_eq_ok.mpr ⟨f, hframe, rfl⟩⟩⟩

/-- An if block with three branches, the first two with a test. -/
def chainSource : Source :=
  .ofText "Chain.svelte" "\x7b#if a\x7d1\x7b:else if b\x7d2\x7b:else\x7d3\x7b/if\x7d".toList

/-- An if block with a tag that belongs into another block. -/
def oddSource : Source := .ofText "Odd.svelte" "\x7b#if a\x7d1\x7b:then\x7d2\x7b/if\x7d".toList

/-- The tag that does not belong there. -/
def oddTag : Header := ⟨8, 14, some ':', "then".toList, 14⟩

/-- Which branches have a test, and where the branches are. -/
def Node.outline (x : Node) : List (Bool × Span) :=
  x.branches.map fun b => (b.1.isSome, b.2.span)

/-- The visit opens a block without parts, whose node has the outline. -/
def Visit.opensAs {t : Tree} (text : List Char) (outline : List (Bool × Span)) : Visit t → Bool
  | .item .. => false
  | .opened inner =>
    inner.pending.isEmpty && (inner.frame.build text).toOption.any (·.outline == outline)

theorem visit_keeps_branches_samples :
    (∃ inner, ∃ x : Node,
      visit (sampleContext chainSource) {} true .block (sampleNode "if_block" 0 34 []) =
        .ok (.opened inner) ∧
      List.Forall₂ (Becomes chainSource.text) inner.frame.branches x.branches ∧
      x.outline = [(true, ⟨7, 8⟩), (true, ⟨20, 21⟩), (false, ⟨28, 29⟩)]) ∧
    ∃ failure, visit (sampleContext oddSource) {} true .block (sampleNode "if_block" 0 21 []) =
      .error failure ∧ Rejection (sampleContext oddSource) failure := by
  constructor
  · obtain ⟨found, hvisit, hopens⟩ := exists_ok_of_any
      (x := visit (sampleContext chainSource) {} true .block (sampleNode "if_block" 0 34 []))
      (p := Visit.opensAs chainSource.text [(true, ⟨7, 8⟩), (true, ⟨20, 21⟩), (false, ⟨28, 29⟩)])
      (by decide +kernel)
    cases found with
    | item => cases hopens
    | opened inner =>
      obtain ⟨hpending, hbuilt⟩ := Bool.and_eq_true_iff.mp hopens
      obtain ⟨x, hbuild, houtline⟩ := exists_ok_of_any hbuilt
      obtain ⟨_, _, _, _, _, _, _, howns⟩ :=
        (visit_keeps_branches (sampleContext chainSource) {} true _).1 inner hvisit
      have hitems : itemsOf (sampleContext chainSource) {} false inner.pending = .ok ([], {}) := by
        rw [List.isEmpty_iff.mp hpending, itemsOf]
        rfl
      exact ⟨inner, x, hvisit, (howns [] {} x hitems hbuild).2, beq_iff_eq.mp houtline⟩
  · obtain ⟨hs, hheaders, hhs⟩ := exists_ok_of_any
      (x := blockHeaders oddSource (sampleNode "if_block" 0 21 []))
      (p := (· == [⟨0, 6, some '#', "if".toList, 4⟩, oddTag,
        ⟨16, 20, some '/', "if".toList, 20⟩])) (by decide +kernel)
    obtain rfl := beq_iff_eq.mp hhs
    obtain ⟨first, hfirst, hshape⟩ := exists_ok_of_any
      (x := openBlock (sampleContext oddSource) ⟨0, 6, some '#', "if".toList, 4⟩ 21)
      (p := (·.shape.continuation? oddSource oddTag == none)) (by decide +kernel)
    refine ((visit_keeps_branches (sampleContext oddSource) {} true _).2 _ _ first hheaders
      hfirst).1 ?_
    rintro ⟨labels, _, rest, _, hasks⟩
    cases rest with
    | nil => cases hasks
    | cons label rest => cases (beq_iff_eq.mp hshape).symm.trans (List.cons.inj hasks).1

end RawHtmlLint.Template

import RawHtmlLint.Proofs.Outcome
import RawHtmlLint.Proofs.Template.WellFormed
import RawHtmlLint.Template.Block

/-!
# The branches of a block

The tags of a block are read into branches: each branch reaches from the end of one tag to the
start of the next one. Which branches a block can have depends on its kind. An item that lies in
a branch is given to it, and to no other.

Results:
* `readBlock_ok`: the branches lie between the tags, and are such as the block can have;
* `branches_foldl_add`: each branch of a frame gets the items that lie in it.
-/

namespace RawHtmlLint.Template

/-! ## Items in branches -/

/-- What the branch spans, its tag not included. -/
def Branch.span (b : Branch) : Span := ⟨b.start, b.stop⟩

/-- The branch with those of the items that lie in it. -/
def Branch.give (items : List Item) (b : Branch) : Branch :=
  { b with items := (items.filter fun i => i.span.within b.start b.stop).reverse ++ b.items }

theorem Branch.give_give (xs ys : List Item) (b : Branch) :
    (b.give xs).give ys = b.give (xs ++ ys) := by
  simp only [Branch.give, List.filter_append, List.reverse_append, List.append_assoc]

theorem Branch.give_of_inside {item : Item} {b : Branch} (h : item.span.Inside b.span) :
    b.give [item] = b.add item := by
  unfold Branch.give
  rw [List.filter_cons, if_pos (Span.within_iff.mpr h)]
  rfl

theorem Branch.give_of_not_inside {item : Item} {b : Branch} (h : ¬ item.span.Inside b.span) :
    b.give [item] = b := by
  unfold Branch.give
  rw [List.filter_cons, if_neg (fun hin => h (Span.within_iff.mp hin))]
  rfl

/-- The branches do not touch: there is a tag between them. -/
def Apart (b c : Branch) : Prop := b.stop < c.start

theorem not_inside_of_apart {item : Item} {b c : Branch} (h : Apart b c)
    (hc : c.start ≤ item.span.start) (hitem : item.span.start ≤ item.span.stop) :
    ¬ item.span.Inside b.span := by
  rintro ⟨_, hstop⟩
  unfold Apart at h
  unfold Branch.span at hstop
  dsimp only at hstop
  omega

theorem map_give_eq_self {item : Item} {bs : List Branch}
    (h : ∀ b ∈ bs, ¬ item.span.Inside b.span) : bs.map (Branch.give [item]) = bs := by
  calc bs.map (Branch.give [item]) = bs.map id :=
        List.map_congr_left fun b hb => Branch.give_of_not_inside (h b hb)
    _ = bs := List.map_id bs

/-- An item that lies in one of the branches, the newest of which comes first, is added to it. -/
theorem addToNewest_eq_some {item : Item} (hitem : item.span.start ≤ item.span.stop) :
    ∀ {bs : List Branch}, (bs.Pairwise fun c b => Apart b c) →
      (∃ b ∈ bs, item.span.Inside b.span) →
      addToNewest item bs = some (bs.map (Branch.give [item]))
  | [], _, ⟨b, hb, _⟩ => absurd hb List.not_mem_nil
  | c :: bs, happ, ⟨b, hb, hin⟩ => by
    obtain ⟨hc, happ⟩ := List.pairwise_cons.mp happ
    rw [addToNewest, List.map_cons]
    split
    · rename_i hstart
      have holder : ∀ b ∈ bs, ¬ item.span.Inside b.span :=
        fun b hb => not_inside_of_apart (hc b hb) hstart hitem
      rcases List.mem_cons.mp hb with rfl | hb
      · rw [map_give_eq_self holder, Branch.give_of_inside hin]
      · exact absurd hin (holder b hb)
    · rename_i hstart
      rcases List.mem_cons.mp hb with rfl | hb
      · exact absurd hin.1 hstart
      · rw [addToNewest_eq_some hitem happ ⟨b, hb, hin⟩,
          Branch.give_of_not_inside fun hin => hstart hin.1]
        rfl

theorem addToNewest_eq_none {item : Item} : ∀ {bs : List Branch},
    (∀ b ∈ bs, item.span.start < b.start) → addToNewest item bs = none
  | [], _ => rfl
  | c :: bs, h => by
    rw [addToNewest, if_neg (Nat.not_le_of_lt (h c List.mem_cons_self)),
      addToNewest_eq_none fun b hb => h b (List.mem_cons_of_mem _ hb)]
    rfl

theorem branches_add {f : Frame} {item : Item} (hitem : item.span.start ≤ item.span.stop)
    (happ : f.branches.Pairwise Apart) (hin : ∃ b ∈ f.branches, item.span.Inside b.span) :
    (f.add item).branches = f.branches.map (Branch.give [item]) := by
  obtain ⟨hopening, hlater⟩ := List.pairwise_cons.mp happ
  rw [List.pairwise_reverse] at hlater
  obtain ⟨b, hb, hin⟩ := hin
  rcases List.mem_cons.mp hb with rfl | hb
  · -- later branches start only after the item
    have hafter : ∀ c ∈ f.later, item.span.start < c.start := fun c hc => by
      have happ : f.opening.stop < c.start := hopening c (List.mem_reverse.mpr hc)
      have hstop : item.span.stop ≤ f.opening.stop := hin.2
      omega
    have hnot : ∀ c ∈ f.later.reverse, ¬ item.span.Inside c.span := fun c hc hcin =>
      absurd hcin.1 (Nat.not_le_of_lt (hafter c (List.mem_reverse.mp hc)))
    unfold Frame.add
    rw [addToNewest_eq_none hafter]
    show f.opening.add item :: f.later.reverse = (f.opening :: f.later.reverse).map _
    rw [List.map_cons, Branch.give_of_inside hin, map_give_eq_self hnot]
  · have hnot : ¬ item.span.Inside f.opening.span :=
      not_inside_of_apart (hopening b hb) hin.1 hitem
    unfold Frame.add
    rw [addToNewest_eq_some hitem hlater ⟨b, List.mem_reverse.mp hb, hin⟩]
    show f.opening :: (f.later.map (Branch.give [item])).reverse =
      (f.opening :: f.later.reverse).map _
    rw [List.map_cons, Branch.give_of_not_inside hnot, List.map_reverse]

theorem shape_add (f : Frame) (item : Item) : (f.add item).shape = f.shape := by
  unfold Frame.add
  split <;> rfl

theorem shape_foldl_add : ∀ (items : List Item) (f : Frame),
    (items.foldl Frame.add f).shape = f.shape
  | [], _ => rfl
  | item :: items, f => by rw [List.foldl_cons, shape_foldl_add items, shape_add]

/-- **Each branch gets the items that lie in it**, if each item lies in one. -/
theorem branches_foldl_add : ∀ {items : List Item} {f : Frame}, f.branches.Pairwise Apart →
    (∀ item ∈ items, item.span.start ≤ item.span.stop ∧
      ∃ b ∈ f.branches, item.span.Inside b.span) →
    (items.foldl Frame.add f).branches = f.branches.map (Branch.give items)
  | [], f, _, _ => (List.map_id f.branches).symm
  | item :: items, f, happ, hin => by
    obtain ⟨hitem, hfirst⟩ := hin item List.mem_cons_self
    have hadd := branches_add hitem happ hfirst
    have happ' : (f.add item).branches.Pairwise Apart := by
      rw [hadd]
      exact List.pairwise_map.mpr happ
    rw [List.foldl_cons, branches_foldl_add happ' fun other hother => ?_]
    · rw [hadd, List.map_map]
      exact List.map_congr_left fun b _ => Branch.give_give [item] items b
    · obtain ⟨hother', b, hb, hbin⟩ := hin other (List.mem_cons_of_mem _ hother)
      refine ⟨hother', b.give [item], ?_, hbin⟩
      rw [hadd]
      exact List.mem_map_of_mem hb

/-! ## Labels -/

/-- The labels that the branches of a block can have, in order; those of an if block apart. -/
def Shape.order : Shape → List Label
  | .document | .element .. | .keyBlock _ => [.content]
  | .ifBlock => [.consequent, .elseIf, .alternate]
  | .eachBlock _ => [.body, .fallback]
  | .awaitBlock .. => [.pending, .settled .fulfilled, .settled .rejected]
  | .snippetBlock .. => [.body]

theorem Shape.nodup_order (shape : Shape) : shape.order.Nodup := by
  cases shape <;> simp [order]

/-- The branches with these labels are such as a block can have: an if block has any number of
`else if` branches and perhaps an `else` after them, all other blocks have some of their branches
in order. -/
def Allowed : Shape → List Label → Prop
  | .document, _ | .element .., _ => False
  | .ifBlock, labels => ∃ n, labels = .consequent :: List.replicate n .elseIf ∨
      labels = .consequent :: (List.replicate n .elseIf ++ [.alternate])
  | shape, labels => labels.Sublist shape.order

/-- If some labels are not among the ones in order, others may follow. -/
theorem sublist_of_forall_not_mem {ls : List Label} (front back : List Label)
    (h : ls.Sublist (front ++ back))
    (hback : ∀ l ∈ back, l ∉ ls) : ls.Sublist front := by
  obtain ⟨xs, ys, rfl, hxs, hys⟩ := List.sublist_append_iff.mp h
  cases ys with
  | nil =>
    rw [List.append_nil]
    exact hxs
  | cons y ys =>
    have hy : y ∈ back := hys.subset List.mem_cons_self
    exact absurd (List.mem_append_right _ List.mem_cons_self) (hback y hy)

/-! ## The tags of a block -/

/-- The branches lie between the tags: each reaches from the end of its own tag to the start of
the next one. -/
def Headed : List Header → List Branch → Prop
  | [_], [] => True
  | g :: h :: hs, b :: bs =>
    (b.tagStart = g.start ∧ b.start = g.stop ∧ b.stop = h.start) ∧ Headed (h :: hs) bs
  | _, _ => False

theorem openBlock_ok {ctx : Context} {h : Header} {stop : Nat} {f : Frame}
    (hok : openBlock ctx h stop = .ok f) : f.span = ⟨h.start, stop⟩ ∧ f.later = [] ∧
      ∃ label test, f.opening = h.branch label test ∧ Allowed f.shape [label] := by
  unfold openBlock at hok
  dsimp only at hok
  split at hok
  · obtain ⟨test, _, hok⟩ := bind_eq_ok.mp hok
    obtain rfl := pure_eq_ok.mp hok
    exact ⟨rfl, rfl, _, _, rfl, 0, Or.inl rfl⟩
  · obtain ⟨header, _, hok⟩ := bind_eq_ok.mp hok
    obtain rfl := pure_eq_ok.mp hok
    exact ⟨rfl, rfl, _, _, rfl, by simp [Allowed, Shape.order]⟩
  · split at hok
    · obtain ⟨expression, _, hok⟩ := bind_eq_ok.mp hok
      obtain rfl := pure_eq_ok.mp hok
      exact ⟨rfl, rfl, _, _, rfl, by simp [Allowed, Shape.order]⟩
    · obtain ⟨expression, _, hok⟩ := bind_eq_ok.mp hok
      split at hok
      · obtain rfl := pure_eq_ok.mp hok
        exact ⟨rfl, rfl, _, _, rfl, by simp [Allowed, Shape.order]⟩
      · obtain rfl := pure_eq_ok.mp hok
        exact ⟨rfl, rfl, _, _, rfl, by simp [Allowed, Shape.order]⟩
  · obtain ⟨expression, _, hok⟩ := bind_eq_ok.mp hok
    obtain rfl := pure_eq_ok.mp hok
    exact ⟨rfl, rfl, _, _, rfl, by simp [Allowed, Shape.order]⟩
  · split at hok
    · split at hok
      · obtain rfl := pure_eq_ok.mp hok
        exact ⟨rfl, rfl, _, _, rfl, by simp [Allowed, Shape.order]⟩
      · exact absurd hok reject_ne_ok
    · exact absurd hok reject_ne_ok
  · exact absurd hok reject_ne_ok

/-- The second frame is the first one after a tag that starts another branch; the kind of block
stays, what is bound may become known. -/
def Continued (f : Frame) (h : Header) (f' : Frame) : Prop :=
  ∃ shape label test, f' = { f with shape }.nextBranch (h.branch label test) ∧
    (Allowed f.shape f.labels → Allowed shape (f.labels ++ [label]))

theorem allowed_elseIf {labels : List Label} (h : Allowed .ifBlock labels)
    (hnot : Label.alternate ∉ labels) : Allowed .ifBlock (labels ++ [.elseIf]) ∧
      Allowed .ifBlock (labels ++ [.alternate]) := by
  obtain ⟨n, rfl | rfl⟩ := h
  · refine ⟨⟨n + 1, Or.inl ?_⟩, n, Or.inr rfl⟩
    rw [List.replicate_succ', List.cons_append]
  · exact absurd (List.mem_cons_of_mem _ (List.mem_append_right _ List.mem_cons_self)) hnot

theorem continueElse_ok {ctx : Context} {f f' : Frame} {h : Header}
    (hok : continueElse ctx f h = .ok f') : Continued f h f' := by
  unfold continueElse at hok
  dsimp only at hok
  split at hok
  · rename_i hshape
    split at hok
    · exact absurd hok reject_ne_ok
    · rename_i hnot
      have hallowed : Allowed f.shape f.labels → Allowed f.shape (f.labels ++ [.elseIf]) ∧
          Allowed f.shape (f.labels ++ [.alternate]) := by
        rw [hshape]
        exact fun hall => allowed_elseIf hall fun hmem => hnot (List.contains_iff_mem.mpr hmem)
      split at hok
      · obtain ⟨test, _, hok⟩ := bind_eq_ok.mp hok
        obtain rfl := pure_eq_ok.mp hok
        exact ⟨f.shape, _, _, rfl, fun hall => (hallowed hall).1⟩
      · split at hok
        · obtain rfl := pure_eq_ok.mp hok
          exact ⟨f.shape, _, _, rfl, fun hall => (hallowed hall).2⟩
        · exact absurd hok reject_ne_ok
  · rename_i header hshape
    split at hok
    · exact absurd hok reject_ne_ok
    · split at hok
      · exact absurd hok reject_ne_ok
      · rename_i hnot
        obtain rfl := pure_eq_ok.mp hok
        refine ⟨f.shape, _, _, rfl, ?_⟩
        rw [hshape]
        intro hall
        refine (sublist_of_forall_not_mem [.body] [.fallback] hall ?_).append_right _
        intro l hl hmem
        obtain rfl := List.mem_singleton.mp hl
        rw [List.contains_iff_mem.mpr hmem] at hnot
        exact hnot rfl
  · exact absurd hok reject_ne_ok

theorem continueAwait_ok {ctx : Context} {f f' : Frame} {h : Header} {settlement : Settlement}
    (hok : continueAwait ctx f h settlement = .ok f') : Continued f h f' := by
  unfold continueAwait at hok
  dsimp only at hok
  split at hok
  · rename_i expression value error hshape
    split at hok
    · exact absurd hok reject_ne_ok
    · rename_i hnot
      cases hok
      cases settlement with
      | fulfilled =>
        refine ⟨_, _, _, rfl, ?_⟩
        rw [hshape]
        intro hall
        refine (sublist_of_forall_not_mem [.pending]
          [.settled .fulfilled, .settled .rejected] hall ?_).append
            (List.singleton_sublist.mpr List.mem_cons_self)
        intro l hl hmem
        refine hnot ?_
        rcases List.mem_cons.mp hl with rfl | hl
        · rw [List.contains_iff_mem.mpr hmem, Bool.true_or]
        · obtain rfl := List.mem_singleton.mp hl
          rw [List.contains_iff_mem.mpr hmem, Bool.or_eq_true]
          exact Or.inr rfl
      | rejected =>
        refine ⟨_, _, _, rfl, ?_⟩
        rw [hshape]
        intro hall
        refine (sublist_of_forall_not_mem [.pending, .settled .fulfilled] [.settled .rejected] hall
          ?_).append_right _
        intro l hl hmem
        refine hnot ?_
        obtain rfl := List.mem_singleton.mp hl
        rw [List.contains_iff_mem.mpr hmem, Bool.true_or]
  · exact absurd hok reject_ne_ok

theorem addBranch_ok {ctx : Context} {f f' : Frame} {h : Header}
    (hok : addBranch ctx f h = .ok f') : h.sigil = some ':' ∧ Continued f h f' := by
  unfold addBranch at hok
  split at hok
  · rename_i hsigil
    refine ⟨hsigil, ?_⟩
    unfold continueBlock at hok
    split at hok
    · exact continueElse_ok hok
    · exact continueAwait_ok hok
    · exact continueAwait_ok hok
    · exact absurd hok reject_ne_ok
  · split at hok <;> exact absurd hok reject_ne_ok

/-! ## The tags of a whole block -/

theorem branches_endBranch {f : Frame} {older : List Branch} {c : Branch}
    (h : f.branches = older ++ [c]) (stop : Nat) :
    (f.endBranch stop).branches = older ++ [{ c with stop }] := by
  obtain ⟨shape, span, opening, later⟩ := f
  cases later with
  | nil =>
    have h : [] ++ [opening] = older ++ [c] := h
    obtain ⟨rfl, hc⟩ := List.append_inj' h rfl
    cases hc
    rfl
  | cons newest later =>
    have h : opening :: (newest :: later).reverse = older ++ [c] := h
    rw [List.reverse_cons, ← List.cons_append] at h
    obtain ⟨rfl, hc⟩ := List.append_inj' h rfl
    cases hc
    show opening :: ({ c with stop } :: later).reverse = _
    rw [List.reverse_cons]
    rfl

theorem branches_nextBranch {f : Frame} {older : List Branch} {c : Branch}
    (h : f.branches = older ++ [c]) (b : Branch) :
    (f.nextBranch b).branches = older ++ [{ c with stop := b.tagStart }] ++ [b] := by
  rw [← branches_endBranch h b.tagStart]
  show (f.endBranch b.tagStart).opening :: (b :: (f.endBranch b.tagStart).later).reverse = _
  rw [List.reverse_cons]
  rfl

theorem labels_endBranch (f : Frame) (stop : Nat) : (f.endBranch stop).labels = f.labels := by
  obtain ⟨older, c, h⟩ : ∃ older c, f.branches = older ++ [c] :=
    ⟨_, _, (List.dropLast_concat_getLast (List.cons_ne_nil _ _)).symm⟩
  unfold Frame.labels
  rw [branches_endBranch h, h, List.map_append, List.map_append]
  rfl

theorem labels_nextBranch (f : Frame) (b : Branch) :
    (f.nextBranch b).labels = f.labels ++ [b.label] := by
  rw [← labels_endBranch f b.tagStart]
  show ((f.endBranch b.tagStart).opening :: (b :: (f.endBranch b.tagStart).later).reverse).map _ = _
  rw [List.reverse_cons, ← List.cons_append, List.map_append]
  rfl

theorem shape_endBranch (f : Frame) (stop : Nat) : (f.endBranch stop).shape = f.shape := by
  unfold Frame.endBranch
  split <;> rfl

theorem shape_nextBranch (f : Frame) (b : Branch) : (f.nextBranch b).shape = f.shape :=
  shape_endBranch f b.tagStart

theorem span_endBranch (f : Frame) (stop : Nat) : (f.endBranch stop).span = f.span := by
  unfold Frame.endBranch
  split <;> rfl

/-- The branch starts with the tag and has no items yet. -/
def StartsWith (h : Header) (c : Branch) : Prop :=
  c.tagStart = h.start ∧ c.start = h.stop ∧ c.items = []

theorem Headed.map_give (items : List Item) : ∀ {hs : List Header} {bs : List Branch},
    Headed hs bs → Headed hs (bs.map (Branch.give items))
  | [_], [], _ => trivial
  | _ :: _ :: _, _ :: _, ⟨hb, hheaded⟩ => ⟨hb, hheaded.map_give items⟩

/-- The frame of a block after its last tag: from the branch on that was open before the
`middle` tags, the branches lie between the tags. -/
theorem foldlM_addBranch_ok {ctx : Context} (closing : Header) :
    ∀ {middle : List Header} {g : Header} {f f' : Frame} {older : List Branch} {c : Branch},
      middle.foldlM (addBranch ctx) f = .ok f' →
      f.branches = older ++ [c] → StartsWith g c → Allowed f.shape f.labels →
      f'.span = f.span ∧ Allowed f'.shape f'.labels ∧ (∀ h ∈ middle, h.sigil = some ':') ∧
        ∃ bs, (f'.endBranch closing.start).branches = older ++ bs ∧
          Headed (g :: middle ++ [closing]) bs ∧ ∀ b ∈ bs, b.items = []
  | [], g, f, f', older, c, hfold, hbranches, hstarts, hall => by
    cases hfold
    refine ⟨rfl, hall, fun h hh => absurd hh List.not_mem_nil, _,
      branches_endBranch hbranches closing.start, ⟨⟨hstarts.1, hstarts.2.1, rfl⟩, trivial⟩, ?_⟩
    intro b hb
    obtain rfl := List.mem_singleton.mp hb
    exact hstarts.2.2
  | h :: middle, g, f, f', older, c, hfold, hbranches, hstarts, hall => by
    rw [List.foldlM_cons] at hfold
    obtain ⟨f₀, hadd, hfold⟩ := bind_eq_ok.mp hfold
    obtain ⟨hsigil, shape, label, test, rfl, hallowed⟩ := addBranch_ok hadd
    have hnext := branches_nextBranch (f := { f with shape }) hbranches (h.branch label test)
    have hall₀ : Allowed shape ({ f with shape }.nextBranch (h.branch label test)).labels := by
      rw [labels_nextBranch]
      exact hallowed hall
    obtain ⟨hspan, hall', hsigils, bs, hbs, hheaded, hempty⟩ :=
      foldlM_addBranch_ok closing hfold hnext ⟨rfl, rfl, rfl⟩ (by
        rw [shape_nextBranch]
        exact hall₀)
    refine ⟨?_, hall', ?_, { c with stop := h.start } :: bs, ?_, ⟨?_, hheaded⟩, ?_⟩
    · rw [hspan]
      exact span_endBranch _ _
    · intro k hk
      rcases List.mem_cons.mp hk with rfl | hk
      · exact hsigil
      · exact hsigils k hk
    · rw [hbs, List.append_assoc]
      rfl
    · exact ⟨hstarts.1, hstarts.2.1, rfl⟩
    · intro b hb
      rcases List.mem_cons.mp hb with rfl | hb
      · exact hstarts.2.2
      · exact hempty b hb

/-- **The branches of a block lie between its tags**, and they are such as the block can have. -/
theorem readBlock_ok {ctx : Context} {span : Span} {hs : List Header} {f : Frame}
    (hok : readBlock ctx span hs = .ok f) : f.span = span ∧ Allowed f.shape f.labels ∧
      ∃ opening middle closing, hs = opening :: middle ++ [closing] ∧
        opening.start = span.start ∧ opening.sigil = some '#' ∧ closing.sigil = some '/' ∧
        (∀ h ∈ middle, h.sigil = some ':') ∧ Headed hs f.branches ∧
        ∀ b ∈ f.branches, b.items = [] := by
  match hs, hok with
  | [], hok => exact (nomatch hok)
  | opening :: later, hok =>
    rw [readBlock] at hok
    split at hok
    · exact absurd hok reject_ne_ok
    · rename_i hopening
      obtain ⟨hsigil, hstart⟩ := not_or.mp hopening
      rw [ne_eq, Decidable.not_not] at hsigil hstart
      obtain ⟨f₀, hf₀, hok⟩ := bind_eq_ok.mp hok
      obtain ⟨f₁, hf₁, hok⟩ := bind_eq_ok.mp hok
      obtain ⟨hspan, hlater, label, test, hbranch, hall⟩ := openBlock_ok hf₀
      unfold closeBlock at hok
      dsimp only at hok
      split at hok
      · exact absurd hok reject_ne_ok
      · rename_i closing hclosing
        split at hok
        · exact absurd hok reject_ne_ok
        · rename_i hslash
          split at hok
          · exact absurd hok reject_ne_ok
          · cases hok
            obtain ⟨middle, rfl⟩ := List.getLast?_eq_some_iff.mp hclosing
            rw [List.dropLast_concat] at hf₁
            have hbranches : f₀.branches = [] ++ [opening.branch label test] := by
              rw [Frame.branches, hlater, hbranch]
              rfl
            have hlabels : f₀.labels = [label] := by
              rw [Frame.labels, hbranches]
              rfl
            obtain ⟨hspan₁, hall₁, hsigils, bs, hbs, hheaded, hempty⟩ :=
              foldlM_addBranch_ok (g := opening) closing hf₁ hbranches ⟨rfl, rfl, rfl⟩
                (by rw [hlabels]; exact hall)
            rw [List.nil_append] at hbs
            refine ⟨?_, ?_, opening, middle, closing, rfl, hstart, hsigil, ?_, hsigils, ?_, ?_⟩
            · rw [span_endBranch, hspan₁, hspan, hstart]
            · rw [shape_endBranch, labels_endBranch]
              exact hall₁
            · rw [ne_eq, Decidable.not_not] at hslash
              exact hslash
            · rw [hbs]
              exact hheaded
            · rw [hbs]
              exact hempty

end RawHtmlLint.Template

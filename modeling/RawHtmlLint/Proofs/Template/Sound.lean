import RawHtmlLint.Proofs.Template.Failures

/-!
# Templates are sound, or reading has failed

The conversion of a tree of any shape either fails in one of the ways that are admitted, or makes
a template in which every insertion has an expression, and every text but that of a script or
style is what the references in it decode to. One pass over the recursion of the conversion shows
both.

Results:
* `build_meets`: what is built from sound items is sound;
* `itemsOf_meets`: parts become sound items;
* `documentOf_meets`: so a document becomes a sound fragment.
-/

namespace RawHtmlLint.Template

open Grammar Text

/-! ## Sound nodes -/

/-- The node is text with its references replaced. -/
def DecodedText (x : Node) : Prop :=
  ∃ span raw data, x = .text span raw data ∧ decode raw.toList = some data.toList

/-- All text of the fragment has its references replaced, unless it is raw: then it is all there
is in the fragment. -/
def Decoded (f : Fragment Node) : Prop :=
  ∀ c ∈ f.children, c.isText = true → DecodedText c ∨ f.children = [c]

/-- The node is no insertion without an expression, and its text is decoded. -/
structure Sound (x : Node) : Prop where
  complete : Complete x
  decoded : ∀ f ∈ x.fragments, Decoded f

/-- The fragment and all that is below it is sound. -/
structure FragmentSound (f : Fragment Node) : Prop where
  decoded : Decoded f
  below : ∀ c ∈ f.children, Everywhere Sound c

/-- The node of the item, if there is one, is sound with all that is below it, and no text. -/
def ItemSound (item : Item) : Prop :=
  ∀ x, item.node = some x → x.isText = false ∧ Everywhere Sound x

theorem everywhere_sound {x : Node} (hx : Complete x)
    (hf : ∀ f ∈ x.fragments, FragmentSound f) : Everywhere Sound x :=
  everywhere_of_children ⟨hx, fun f hmem => (hf f hmem).decoded⟩ fun f hmem => (hf f hmem).below

theorem leaf_sound {x : Node} (hx : Complete x) (hleaf : x.fragments = []) :
    Everywhere Sound x := by
  refine everywhere_sound hx fun f hf => ?_
  rw [hleaf] at hf
  exact absurd hf List.not_mem_nil

theorem complete_of_isTag {x : Node} (h : x.isTag = false) : Complete x := by
  rintro span rfl
  exact (nomatch h)

theorem itemSound_of_node {span : Span} {x : Node} (htext : x.isText = false)
    (hx : Everywhere Sound x) : ItemSound ⟨span, some x⟩ := by
  intro y hy
  cases hy
  exact ⟨htext, hx⟩

/-- A fragment that is one sound node is sound. -/
theorem singleton_sound {span : Span} {x : Node} (htext : x.isText = false)
    (hx : Everywhere Sound x) : FragmentSound ⟨span, [x]⟩ where
  decoded c hc hctext := by
    obtain rfl := List.mem_singleton.mp hc
    rw [htext] at hctext
    exact (nomatch hctext)
  below c hc := by
    obtain rfl := List.mem_singleton.mp hc
    exact hx

theorem ifBlock_sound {span : Span} {test : Option Expression} {content : Fragment Node}
    {alternate : Option (Fragment Node)} {elseIf : Bool} (hcontent : FragmentSound content)
    (halternate : ∀ g ∈ alternate.toList, FragmentSound g) :
    Everywhere Sound (.ifBlock span test (some content) alternate elseIf) := by
  refine everywhere_sound (complete_of_isTag rfl) fun g hg => ?_
  rcases List.mem_cons.mp hg with rfl | hg
  · exact hcontent
  · exact halternate g hg

/-- An element with raw content is sound. -/
theorem rawNode_sound (s : Source) (e : ElementTag) : Everywhere Sound (e.rawNode s) := by
  refine everywhere_sound (complete_of_isTag rfl) fun f hf => ?_
  obtain rfl := List.mem_singleton.mp hf
  show FragmentSound ⟨e.content, rawChildren s e.content⟩
  unfold rawChildren
  dsimp only
  split
  · exact ⟨fun c hc => absurd hc List.not_mem_nil, fun c hc => absurd hc List.not_mem_nil⟩
  · constructor
    · intro c hc _
      obtain rfl := List.mem_singleton.mp hc
      exact Or.inr rfl
    · intro c hc
      obtain rfl := List.mem_singleton.mp hc
      exact leaf_sound (complete_of_isTag rfl) rfl

/-! ## Items of a frame -/

/-- The property holds of the items of all branches. -/
def Frame.Each (P : Item → Prop) (f : Frame) : Prop := ∀ b ∈ f.branches, ∀ item ∈ b.items, P item

variable {P : Item → Prop}

theorem Frame.each_of_empty {f : Frame} (hempty : ∀ b ∈ f.branches, b.items = []) : f.Each P := by
  intro b hb item hitem
  rw [hempty b hb] at hitem
  exact absurd hitem List.not_mem_nil

theorem Branch.each_add {b : Branch} {item : Item} (hb : ∀ i ∈ b.items, P i) (hitem : P item) :
    ∀ i ∈ (b.add item).items, P i := by
  intro i hi
  rcases List.mem_cons.mp hi with rfl | hi
  · exact hitem
  · exact hb i hi

theorem addToNewest_each {item : Item} (hitem : P item) : ∀ {bs bs' : List Branch},
    (∀ b ∈ bs, ∀ i ∈ b.items, P i) → addToNewest item bs = some bs' →
    ∀ b ∈ bs', ∀ i ∈ b.items, P i
  | [], _, _, h => (nomatch h)
  | c :: bs, bs', hbs, h => by
    have hc := hbs c List.mem_cons_self
    have hrest : ∀ b ∈ bs, ∀ i ∈ b.items, P i := fun b hb => hbs b (List.mem_cons_of_mem _ hb)
    rw [addToNewest] at h
    split at h
    · cases h
      intro b hb
      rcases List.mem_cons.mp hb with rfl | hb
      · exact Branch.each_add hc hitem
      · exact hrest b hb
    · obtain ⟨newer, hnewer, rfl⟩ := Option.map_eq_some_iff.mp h
      intro b hb
      rcases List.mem_cons.mp hb with rfl | hb
      · exact hc
      · exact addToNewest_each hitem hrest hnewer b hb

theorem Frame.each_add {f : Frame} {item : Item} (hf : f.Each P) (hitem : P item) :
    (f.add item).Each P := by
  have hopening : ∀ i ∈ f.opening.items, P i := hf _ List.mem_cons_self
  have hlater : ∀ b ∈ f.later, ∀ i ∈ b.items, P i := fun b hb =>
    hf b (List.mem_cons_of_mem _ (List.mem_reverse.mpr hb))
  unfold Frame.add
  split
  · rename_i later hsome
    intro b hb
    rcases List.mem_cons.mp hb with rfl | hb
    · exact hopening
    · exact addToNewest_each hitem hlater hsome b (List.mem_reverse.mp hb)
  · intro b hb
    rcases List.mem_cons.mp hb with rfl | hb
    · exact Branch.each_add hopening hitem
    · exact hlater b (List.mem_reverse.mp hb)

/-- **Items that are given to a frame** are all there is in it, besides what it had. -/
theorem Frame.each_foldl_add : ∀ {items : List Item} {f : Frame}, f.Each P →
    (∀ item ∈ items, P item) → (items.foldl Frame.add f).Each P
  | [], _, hf, _ => hf
  | item :: items, f, hf, hitems => by
    rw [List.foldl_cons]
    exact Frame.each_foldl_add (Frame.each_add hf (hitems item List.mem_cons_self))
      fun i hi => hitems i (List.mem_cons_of_mem _ hi)

/-! ## What is built -/

section

variable {F : Failure → Prop} {ctx : Context} {root : Tree} (admits : Admits F ctx root)

include admits

theorem gap_meets (cursor stop : Nat) :
    Meets F (fun children => ∀ c ∈ children, DecodedText c) (gap ctx.source.text cursor stop) := by
  unfold gap
  split
  · have htext : Meets F DecodedText (textNode ctx.source.text cursor stop) := by
      unfold textNode
      dsimp only
      split
      · rename_i data hdata
        refine ⟨_, _, _, rfl, ?_⟩
        rw [String.toList_ofList, String.toList_ofList]
        exact hdata
      · rename_i hnone
        exact admits.undecoded _ _ hnone
    refine htext.bind fun x hx c hc => ?_
    obtain rfl := List.mem_singleton.mp hc
    exact hx
  · exact fun c hc => absurd hc List.not_mem_nil

theorem fill_meets : ∀ {items : List Item} {stop cursor : Nat}, (∀ item ∈ items, ItemSound item) →
    Meets F (fun children => ∀ c ∈ children,
      DecodedText c ∨ c.isText = false ∧ Everywhere Sound c) (fill ctx.source.text stop cursor items)
  | [], _, _, _ => (gap_meets admits _ _).imp fun children h c hc => Or.inl (h c hc)
  | item :: items, stop, cursor, hitems => by
    have hrest : ∀ i ∈ items, ItemSound i := fun i hi => hitems i (List.mem_cons_of_mem _ hi)
    unfold fill
    refine (gap_meets admits _ _).bind fun before hbefore => ?_
    refine (fill_meets hrest).bind fun after hafter c hc => ?_
    rcases List.mem_append.mp hc with hc | hc
    · rcases List.mem_append.mp hc with hc | hc
      · exact Or.inl (hbefore c hc)
      · exact Or.inr (hitems item List.mem_cons_self c (Option.mem_toList.mp hc))
    · exact hafter c hc

/-- **A fragment that is filled with sound items is sound.** -/
theorem fill_sound {items : List Item} {stop cursor : Nat} (hitems : ∀ item ∈ items, ItemSound item)
    (span : Span) :
    Meets F (fun children => FragmentSound ⟨span, children⟩)
      (fill ctx.source.text stop cursor items) := by
  refine (fill_meets admits hitems).imp fun children hchildren => ⟨fun c hc htext => ?_, ?_⟩
  · refine Or.inl ((hchildren c hc).resolve_right fun h => ?_)
    rw [h.1] at htext
    exact (nomatch htext)
  · intro c hc
    rcases hchildren c hc with ⟨span, raw, data, rfl, _⟩ | hsound
    · exact leaf_sound (complete_of_isTag rfl) rfl
    · exact hsound.2

theorem freeze_meets {b : Branch} (hitems : ∀ item ∈ b.items, ItemSound item) :
    Meets F FragmentSound (b.freeze ctx.source.text) :=
  (fill_sound admits (fun item hitem => hitems item (List.mem_reverse.mp hitem)) _).bind
    fun _ hchildren => hchildren

theorem fragment?_meets {f : Frame} (hitems : f.Each ItemSound) (label : Label) :
    Meets F (fun o => ∀ g ∈ o.toList, FragmentSound g) (f.fragment? ctx.source.text label) := by
  unfold Frame.fragment?
  split
  · rename_i b hb
    refine (freeze_meets admits (hitems b (List.mem_of_find?_eq_some hb))).bind fun g hg h hh => ?_
    obtain rfl := List.mem_singleton.mp hh
    exact hg
  · exact fun g hg => absurd hg List.not_mem_nil

theorem alternateOf_meets (stop : Nat) : ∀ {bs : List Branch},
    (∀ b ∈ bs, ∀ item ∈ b.items, ItemSound item) →
    Meets F (fun o => ∀ g ∈ o.toList, FragmentSound g) (alternateOf ctx.source.text stop bs)
  | [], _ => fun g hg => absurd hg List.not_mem_nil
  | b :: bs, hitems => by
    unfold alternateOf
    refine (alternateOf_meets stop fun c hc => hitems c (List.mem_cons_of_mem _ hc)).bind
      fun alternate halternate => ?_
    refine (freeze_meets admits (hitems b List.mem_cons_self)).bind fun content hcontent => ?_
    split
    · intro g hg
      obtain rfl := List.mem_singleton.mp hg
      exact hcontent
    · intro g hg
      obtain rfl := List.mem_singleton.mp hg
      exact singleton_sound rfl (ifBlock_sound hcontent halternate)

/-- **What is built from sound items is sound.** -/
theorem build_meets {f : Frame} (hitems : f.Each ItemSound) :
    Meets F (fun x => x.isText = false ∧ Everywhere Sound x) (f.build ctx.source.text) := by
  have hopening : Meets F FragmentSound (f.opening.freeze ctx.source.text) :=
    freeze_meets admits (hitems _ List.mem_cons_self)
  have hfound := fragment?_meets admits hitems
  unfold Frame.build
  split
  · refine hopening.bind fun g hg => ⟨rfl, everywhere_sound (complete_of_isTag rfl) ?_⟩
    intro h hh
    obtain rfl := List.mem_singleton.mp hh
    exact hg
  · refine hopening.bind fun g hg => ⟨rfl, everywhere_sound (complete_of_isTag rfl) ?_⟩
    intro h hh
    obtain rfl := List.mem_singleton.mp hh
    exact hg
  · rw [alternate_eq_alternateOf]
    refine (alternateOf_meets admits _ fun b hb =>
      hitems b (List.mem_cons_of_mem _ hb)).bind fun alternate halternate => ?_
    exact hopening.bind fun content hcontent => ⟨rfl, ifBlock_sound hcontent halternate⟩
  · refine (hfound _).bind fun body hbody => ?_
    refine (hfound _).bind fun fallback hfallback => ⟨rfl, ?_⟩
    exact everywhere_sound (complete_of_isTag rfl) fun g hg =>
      (List.mem_append.mp hg).elim (hbody g) (hfallback g)
  · refine (hfound _).bind fun pending hpending => ?_
    refine (hfound _).bind fun fulfilled hfulfilled => ?_
    refine (hfound _).bind fun rejected hrejected => ⟨rfl, ?_⟩
    exact everywhere_sound (complete_of_isTag rfl) fun g hg => (List.mem_append.mp hg).elim
      (fun hg => (List.mem_append.mp hg).elim (hpending g) (hfulfilled g)) (hrejected g)
  · exact (hfound _).bind fun content hcontent =>
      ⟨rfl, everywhere_sound (complete_of_isTag rfl) hcontent⟩
  · exact (hfound _).bind fun body hbody =>
      ⟨rfl, everywhere_sound (complete_of_isTag rfl) hbody⟩

end

/-! ## The recursion -/

variable {F : Failure → Prop} {ctx : Context} {root : Tree}

mutual

/-- **A part becomes a sound item.** -/
theorem itemOf_meets (admits : Admits F ctx root) {topLevel : Bool} {lifted : Lifted} {part : Part} {t : Tree}
    (hmapped : Mapped ctx.source root (part, t)) :
    Meets F (fun answer => ItemSound answer.1) (itemOf ctx lifted topLevel part t) := by
  have hstart := span_start_le_size ctx.source t
  match part with
  | .comment =>
    rw [itemOf]
    exact itemSound_of_node rfl (leaf_sound (complete_of_isTag rfl) rfl)
  | .strayClosingTag =>
    rw [itemOf]
    exact admits.reject rfl hstart
  | .tag =>
    rw [itemOf]
    refine (readTag_meets admits hmapped.role_eq).bind_ok fun x hx hcomplete => ?_
    obtain ⟨hleaf, _, htext⟩ := Node.fragments_of_isTag (readTag_ok hx).2
    exact itemSound_of_node htext (leaf_sound hcomplete hleaf)
  | .element =>
    rw [itemOf]
    refine (ElementTag.read_meets admits t).bind fun e he => ?_
    obtain ⟨hspan, hcontent⟩ := he
    split
    · split
      · refine (lift_meets admits ?_ hcontent).bind fun _ _ y hy => (nomatch hy)
        rw [hspan]
        exact hstart
      · exact itemSound_of_node rfl (rawNode_sound ctx.source e)
    · refine (rejectHeaders_meets admits _ _ _).bind fun _ _ => ?_
      refine (itemsOf_meets admits fun p hp => mapped_parts hmapped p hp).bind fun answer hitems => ?_
      refine (fill_sound admits hitems e.content).bind fun children hchildren => ?_
      refine itemSound_of_node rfl (everywhere_sound (complete_of_isTag rfl) fun f hf => ?_)
      obtain rfl := List.mem_singleton.mp hf
      exact hchildren
  | .block =>
    rw [itemOf]
    refine (headers_meets admits _ _ _).bind_ok fun hs hheaders hfits => ?_
    refine (readBlock_meets admits hfits ?_).bind fun frame hempty => ?_
    · rintro rfl
      exact admits.headless t hmapped (headers_eq_nil hmapped.role_eq hheaders)
    · refine (itemsOf_meets admits fun p hp => mapped_parts hmapped p hp).bind fun answer hitems => ?_
      have hframe : frame.Each ItemSound := Frame.each_of_empty hempty
      refine (build_meets admits (Frame.each_foldl_add hframe hitems)).bind fun x hx => ?_
      exact itemSound_of_node hx.1 hx.2
termination_by 2 * t.size
decreasing_by
  · have := sizeOfParts_lt ctx.source e.content.start e.content.stop t
    omega
  · have := sizeOfParts_lt ctx.source (ctx.source.span t).start (ctx.source.span t).stop t
    omega

/-- **Parts become sound items.** -/
theorem itemsOf_meets (admits : Admits F ctx root) {topLevel : Bool} {lifted : Lifted} {ps : List (Part × Tree)}
    (hmapped : ∀ p ∈ ps, Mapped ctx.source root p) :
    Meets F (fun answer => ∀ item ∈ answer.1, ItemSound item) (itemsOf ctx lifted topLevel ps) := by
  match ps with
  | [] =>
    rw [itemsOf]
    exact fun item hitem => absurd hitem List.not_mem_nil
  | (part, t) :: ps =>
    rw [itemsOf]
    refine (itemOf_meets admits (hmapped _ List.mem_cons_self)).bind fun first hfirst => ?_
    refine (itemsOf_meets admits fun p hp => hmapped p (List.mem_cons_of_mem _ hp)).bind
      fun others hothers item hitem => ?_
    rcases List.mem_cons.mp hitem with rfl | hitem
    · exact hfirst
    · exact hothers item hitem
termination_by 2 * sizeOfParts ps + 1
decreasing_by
  · simp only [sizeOfParts_cons]
    omega
  · simp only [sizeOfParts_cons, Tree.size_eq t]
    omega

end

/-- **A document becomes a sound fragment**, or its conversion fails in a way that is admitted. -/
theorem documentOf_meets (admits : Admits F ctx root) :
    Meets F (fun answer => FragmentSound answer.1) (documentOf ctx root) := by
  unfold documentOf
  refine (rejectHeaders_meets admits _ _ _).bind fun _ _ => ?_
  refine (itemsOf_meets admits fun p hp => Mapped.outer hp).bind fun answer hitems => ?_
  exact (fill_sound admits hitems _).bind fun children hchildren => hchildren

end RawHtmlLint.Template

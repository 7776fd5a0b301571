import RawHtmlLint.Proofs.Template.Tiling

/-!
# Nodes in the order of the source

In the template of a component the spans nest: fragments follow one another inside their owner, and
children inside their fragment. So whatever the listing of a tree has after a node without
fragments stands after it in the source as well.

Results:
* `span_inside`: what a node holds lies inside it;
* `descendants_apart`: what is listed after a node without fragments stands after it;
* `documentOf_spansNest`: in the template of a component the spans nest.
-/

namespace RawHtmlLint.Template

open Grammar

/-- The fragments of the node follow one another inside it, and the children of each fragment
inside that. -/
structure SpansNest (x : Node) : Prop where
  fragments : x.fragments.Pairwise fun f g => f.span.Precedes g.span
  inside : ∀ f ∈ x.fragments, f.span.Inside x.span
  nested : ∀ f ∈ x.fragments, ∀ c ∈ f.children, c.span.Inside f.span
  apart : ∀ f ∈ x.fragments, f.children.Pairwise fun c d => c.span.Precedes d.span

theorem Span.Inside.trans {a b c : Span} (hab : a.Inside b) (hbc : b.Inside c) : a.Inside c :=
  ⟨Nat.le_trans hbc.1 hab.1, Nat.le_trans hab.2 hbc.2⟩

/-- What lies inside the first span precedes what lies inside the second. -/
theorem Span.Precedes.of_inside {a b c d : Span} (h : a.Precedes b) (hc : c.Inside a)
    (hd : d.Inside b) : c.Precedes d :=
  Nat.le_trans hc.2 (Nat.le_trans h hd.1)

/-- **What a node holds lies inside it.** -/
theorem span_inside {x y : Node} (hx : Everywhere SpansNest x) (h : x.Holds y) :
    y.span.Inside x.span := by
  induction h with
  | self x => exact ⟨Nat.le_refl _, Nat.le_refl _⟩
  | @child x c y f hf hc hy ih =>
    have hself := hx x (.self x)
    have hbelow : Everywhere SpansNest c := fun z hz => hx z (.child hf hc hz)
    exact (ih hbelow).trans ((hself.nested f hf c hc).trans (hself.inside f hf))

/-! ## The listing -/

/-- The visited node. -/
def Node.Visit.node? (v : Node.Visit) : Option Node := v.siblings[v.index]?

theorem holds_of_leads {x : Node} {v : Node.Visit} (h : x.Leads v) :
    ∃ y, v.node? = some y ∧ x.Holds y := by
  induction h with
  | @child x i j f hf hj =>
    have hget : f.children[j]? = some f.children[j] := List.getElem?_eq_getElem hj
    exact ⟨_, hget, .child (List.mem_of_getElem? hf) (List.getElem_mem hj) (.self _)⟩
  | @deeper x c i j f v hf hc _ ih =>
    obtain ⟨y, hy, hholds⟩ := ih
    exact ⟨y, hy, .child (List.mem_of_getElem? hf) (List.mem_of_getElem? hc) hholds⟩

/-- What is listed for a child is the child or below it. -/
theorem holds_of_mem_listed {c y : Node} {i j : Nat} {siblings : List Node} {v : Node.Visit}
    (hc : siblings[j]? = some c)
    (h : v ∈ (⟨[(i, j)], siblings, j⟩ : Node.Visit) ::
      c.descendants.map (Node.Visit.under (i, j))) (hy : v.node? = some y) : c.Holds y := by
  rcases List.mem_cons.mp h with rfl | h
  · cases hc.symm.trans hy
    exact .self _
  · obtain ⟨w, hw, rfl⟩ := List.mem_map.mp h
    obtain ⟨z, hz, hholds⟩ := holds_of_leads (Node.leads_of_mem_descendants hw)
    cases hz.symm.trans hy
    exact hholds

/-- What is below a node nests like the node. -/
theorem everywhere_child {x c : Node} (hx : Everywhere SpansNest x) {f : Fragment Node}
    (hf : f ∈ x.fragments) (hc : c ∈ f.children) : Everywhere SpansNest c :=
  fun y hy => hx y (.child hf hc hy)

/-- What is listed for a child lies inside the child. -/
theorem inside_child {c y : Node} {i j : Nat} {siblings : List Node} {v : Node.Visit}
    (hbelow : Everywhere SpansNest c) (hc : siblings[j]? = some c)
    (h : v ∈ (⟨[(i, j)], siblings, j⟩ : Node.Visit) ::
      c.descendants.map (Node.Visit.under (i, j))) (hy : v.node? = some y) :
    y.span.Inside c.span :=
  span_inside hbelow (holds_of_mem_listed hc h hy)

/-- What is listed for a fragment lies inside the fragment. -/
theorem inside_fragment {x y : Node} (hx : Everywhere SpansNest x) {f : Fragment Node × Nat}
    (hf : f.1 ∈ x.fragments) {v : Node.Visit} (h : v ∈ f.1.children.zipIdx.flatMap fun c =>
      (⟨[(f.2, c.2)], f.1.children, c.2⟩ : Node.Visit) ::
        c.1.descendants.map (Node.Visit.under (f.2, c.2))) (hy : v.node? = some y) :
    y.span.Inside f.1.span := by
  obtain ⟨c, hc, hv⟩ := List.mem_flatMap.mp h
  have hmem := List.fst_mem_of_mem_zipIdx hc
  have hchild := inside_child (everywhere_child hx hf hmem)
    (List.mem_zipIdx_iff_getElem?.mp hc) hv hy
  exact hchild.trans ((hx x (.self x)).nested f.1 hf c.1 hmem)

theorem pairwise_zipIdx {α : Type} {R : α → α → Prop} {l : List α} (h : l.Pairwise R) :
    l.zipIdx.Pairwise fun a b => R a.1 b.1 := by
  have hmap : (l.zipIdx.map Prod.fst).Pairwise R := by rwa [List.zipIdx_map_fst]
  exact List.pairwise_map.mp hmap

/-- If the first visited node has no fragments, it precedes the second one in the source. -/
def LeafPrecedes (v w : Node.Visit) : Prop :=
  ∀ y z, v.node? = some y → w.node? = some z → y.fragments = [] → y.span.Precedes z.span

/-- **What is listed after a node without fragments stands after it in the source.** -/
theorem descendants_apart (x : Node) (hx : Everywhere SpansNest x) :
    x.descendants.Pairwise LeafPrecedes := by
  induction x using Node.descendants.induct with
  | case1 x ih =>
    have hself := hx x (.self x)
    rw [Node.descendants_eq, List.pairwise_flatMap]
    refine ⟨fun f hf => ?_, ?_⟩
    · have hmem := List.fst_mem_of_mem_zipIdx hf
      have hbelow := fun c hc => @everywhere_child x c hx f.1 hmem hc
      rw [List.pairwise_flatMap]
      refine ⟨fun c hc => ?_, ?_⟩
      · refine List.pairwise_cons.mpr ⟨?_, List.pairwise_map.mpr ?_⟩
        · -- a child without fragments has nothing below it
          intro w hw y z hy _ hleaf
          cases (List.mem_zipIdx_iff_getElem?.mp hc).symm.trans hy
          rw [Node.descendants_eq, hleaf] at hw
          exact absurd hw List.not_mem_nil
        · exact ih ⟨f, hf⟩ ⟨c, hc⟩ (hbelow c.1 (List.fst_mem_of_mem_zipIdx hc))
      · -- two children of one fragment
        refine (pairwise_zipIdx (hself.apart f.1 hmem)).imp_of_mem ?_
        intro c d hc hd hprecedes v hv w hw y z hy hz _
        have hcy := inside_child (hbelow c.1 (List.fst_mem_of_mem_zipIdx hc))
          (List.mem_zipIdx_iff_getElem?.mp hc) hv hy
        have hdz := inside_child (hbelow d.1 (List.fst_mem_of_mem_zipIdx hd))
          (List.mem_zipIdx_iff_getElem?.mp hd) hw hz
        exact hprecedes.of_inside hcy hdz
    · -- two fragments
      refine (pairwise_zipIdx hself.fragments).imp_of_mem ?_
      intro f g hf hg hprecedes v hv w hw y z hy hz _
      have hfy := inside_fragment hx (List.fst_mem_of_mem_zipIdx hf) hv hy
      have hgz := inside_fragment hx (List.fst_mem_of_mem_zipIdx hg) hw hz
      exact hprecedes.of_inside hfy hgz

/-! ## Components -/

theorem Faithful.spansNest {ctx : Context} {root : Tree} {x : Node} (h : Faithful ctx root x) :
    SpansNest x where
  fragments := h.ordered.imp And.right
  inside := h.inside
  nested f hf c hc := by
    have hfaithful := h.fragments f hf
    rcases Nat.lt_or_ge f.span.stop f.span.start with hlt | hle
    · rw [hfaithful.empty hlt] at hc
      exact absurd hc List.not_mem_nil
    · exact ((hfaithful.tiles hle).inside _ (List.mem_map_of_mem hc)).2
  apart f hf := (h.fragments f hf).ordered.2

/-- **In the template of a component the spans nest**, if the grammar's tree is well-formed. -/
theorem documentOf_spansNest {ctx : Context} {root : Tree} {f : Fragment Node} {lifted : Lifted}
    (hwf : WellFormed ctx.source root) (hok : documentOf ctx root = .ok (f, lifted)) :
    Everywhere SpansNest (.fragment f) := by
  have hfaithful := documentOf_faithful hwf hok
  obtain ⟨spans, htiles, _, hsub⟩ := hfaithful.tiles
  refine everywhere_of_children ⟨List.pairwise_singleton _ _, ?_, ?_, ?_⟩ ?_
  · intro g hg
    obtain rfl := List.mem_singleton.mp hg
    exact ⟨Nat.le_refl _, Nat.le_refl _⟩
  · intro g hg c hc
    obtain rfl := List.mem_singleton.mp hg
    rw [hfaithful.span_eq]
    exact (htiles.inside _ (hsub.subset (List.mem_map_of_mem hc))).2
  · intro g hg
    obtain rfl := List.mem_singleton.mp hg
    exact List.pairwise_map.mp (htiles.apart.sublist hsub)
  · intro g hg c hc y hy
    obtain rfl := List.mem_singleton.mp hg
    exact (hfaithful.below c hc y hy).spansNest

end RawHtmlLint.Template

import RawHtmlLint.Proofs.Text.Slice
import RawHtmlLint.Template.Node

/-!
# The nodes below a node

A node has below it the children of its fragments, and what those have below them. Each is found
by a path: step by step which fragment of the node, and which of its children. `Node.descendants`
lists all of them by structural recursion, a node before what is below it and what is on the left
before what is on the right.

Results:
* `mem_descendants_iff`: the listing holds exactly what a path leads to;
* `descendants_sorted`: it is in the order of the paths;
* `nodup_paths`: no node is listed twice.
-/

namespace RawHtmlLint.Template.Node

/-- A way down a tree: of each node on it the number of the fragment, and of the child in it. -/
abbrev Path := List (Nat × Nat)

/-- The first path is met before the second: it is the beginning of it, or turns off further to
the left. -/
def Path.Before (p q : Path) : Prop := List.Lex (Prod.Lex (· < ·) (· < ·)) p q

/-- A node at the end of a path, by its siblings and its index among them. -/
structure Visit where
  path : Path
  siblings : List Node
  index : Nat

/-- The same node seen from one step further up. -/
def Visit.under (step : Nat × Nat) (v : Visit) : Visit := { v with path := step :: v.path }

/-- A path leads from the node to the visited one. -/
inductive Leads : Node → Visit → Prop
  | child {x : Node} {i j : Nat} {f : Fragment Node} (hf : x.fragments[i]? = some f)
      (hj : j < f.children.length) : Leads x ⟨[(i, j)], f.children, j⟩
  | deeper {x c : Node} {i j : Nat} {f : Fragment Node} {v : Visit}
      (hf : x.fragments[i]? = some f) (hc : f.children[j]? = some c) (hv : Leads c v) :
      Leads x (v.under (i, j))

/-- The second node is the first one or is below it. -/
inductive Holds : Node → Node → Prop
  | self (x : Node) : Holds x x
  | child {x c y : Node} {f : Fragment Node} (hf : f ∈ x.fragments) (hc : c ∈ f.children)
      (hy : Holds c y) : Holds x y

theorem size_le_sizeAll_of_mem {c : Node} : ∀ {cs : List Node}, c ∈ cs → c.size ≤ sizeAll cs
  | x :: cs, h => by
    rw [sizeAll]
    rcases List.mem_cons.mp h with rfl | h
    · exact Nat.le_add_right _ _
    · exact Nat.le_trans (size_le_sizeAll_of_mem h) (Nat.le_add_left _ _)

theorem size_lt_sizeOfFragment {c : Node} {f : Fragment Node} (h : c ∈ f.children) :
    c.size < sizeOfFragment f := by
  cases f
  rw [sizeOfFragment]
  exact Nat.lt_succ_of_le (size_le_sizeAll_of_mem h)

theorem sizeOfFragment_le_of_mem {f : Fragment Node} {o : Option (Fragment Node)}
    (h : f ∈ o.toList) : sizeOfFragment f ≤ sizeOfOptional o := by
  rw [Option.mem_toList] at h
  exact Nat.le_of_eq (by rw [h, sizeOfOptional])

theorem sizeOfFragment_lt {x : Node} {f : Fragment Node} (h : f ∈ x.fragments) :
    sizeOfFragment f < x.size := by
  cases x with
  | fragment g =>
    rw [fragments, List.mem_singleton] at h
    rw [h, size]
    exact Nat.lt_succ_self _
  | element _ _ _ _ content =>
    have := sizeOfFragment_le_of_mem h
    rw [size]
    omega
  | ifBlock _ _ consequent alternate _ =>
    rw [size]
    rcases List.mem_append.mp h with h | h <;> have := sizeOfFragment_le_of_mem h <;> omega
  | eachBlock _ _ _ _ _ body fallback =>
    rw [size]
    rcases List.mem_append.mp h with h | h <;> have := sizeOfFragment_le_of_mem h <;> omega
  | awaitBlock _ _ _ _ pending fulfilled rejected =>
    rw [size]
    rcases List.mem_append.mp h with h | h
    · rcases List.mem_append.mp h with h | h <;> have := sizeOfFragment_le_of_mem h <;> omega
    · have := sizeOfFragment_le_of_mem h
      omega
  | keyBlock _ _ content =>
    have := sizeOfFragment_le_of_mem h
    rw [size]
    omega
  | snippetBlock _ _ _ body =>
    have := sizeOfFragment_le_of_mem h
    rw [size]
    omega
  | tag _ _ _ | debugTag _ _ | comment _ _ _ | text _ _ _ => exact absurd h List.not_mem_nil

/-- A child of one of its fragments is smaller than a node. -/
theorem size_lt_of_mem_children {x c : Node} {f : Fragment Node} (hf : f ∈ x.fragments)
    (hc : c ∈ f.children) : c.size < x.size :=
  Nat.lt_trans (size_lt_sizeOfFragment hc) (sizeOfFragment_lt hf)

/-- All nodes below a node, by structural recursion. -/
def descendants (x : Node) : List Visit :=
  x.fragments.zipIdx.attach.flatMap fun f =>
    f.1.1.children.zipIdx.attach.flatMap fun c =>
      ⟨[(f.1.2, c.1.2)], f.1.1.children, c.1.2⟩ ::
        (descendants c.1.1).map (Visit.under (f.1.2, c.1.2))
termination_by x.size
decreasing_by
  exact size_lt_of_mem_children (List.fst_mem_of_mem_zipIdx f.2) (List.fst_mem_of_mem_zipIdx c.2)

theorem descendants_eq (x : Node) : x.descendants = x.fragments.zipIdx.flatMap fun f =>
    f.1.children.zipIdx.flatMap fun c =>
      ⟨[(f.2, c.2)], f.1.children, c.2⟩ :: c.1.descendants.map (Visit.under (f.2, c.2)) := by
  rw [descendants]
  simp only [List.flatMap_subtype, List.unattach_attach]

/-! ## What is listed -/

theorem leads_of_mem_descendants {x : Node} {v : Visit} (h : v ∈ x.descendants) : x.Leads v := by
  induction x using descendants.induct generalizing v with
  | case1 x ih =>
    rw [descendants_eq] at h
    obtain ⟨f, hf, h⟩ := List.mem_flatMap.mp h
    obtain ⟨c, hc, h⟩ := List.mem_flatMap.mp h
    have hget := List.mem_zipIdx_iff_getElem?.mp hc
    rcases List.mem_cons.mp h with rfl | h
    · exact .child (List.mem_zipIdx_iff_getElem?.mp hf) (List.getElem?_eq_some_iff.mp hget).1
    · obtain ⟨w, hw, rfl⟩ := List.mem_map.mp h
      exact .deeper (List.mem_zipIdx_iff_getElem?.mp hf) hget (ih ⟨f, hf⟩ ⟨c, hc⟩ hw)

theorem mem_descendants_of_leads {x : Node} {v : Visit} (h : x.Leads v) : v ∈ x.descendants := by
  induction h with
  | @child x i j f hf hj =>
    rw [descendants_eq]
    refine List.mem_flatMap.mpr ⟨(f, i), List.mk_mem_zipIdx_iff_getElem?.mpr hf, ?_⟩
    have hget : f.children[j]? = some f.children[j] := List.getElem?_eq_getElem hj
    exact List.mem_flatMap.mpr
      ⟨(f.children[j], j), List.mk_mem_zipIdx_iff_getElem?.mpr hget, List.mem_cons_self⟩
  | @deeper x c i j f v hf hc _ ih =>
    rw [descendants_eq]
    refine List.mem_flatMap.mpr ⟨(f, i), List.mk_mem_zipIdx_iff_getElem?.mpr hf, ?_⟩
    refine List.mem_flatMap.mpr ⟨(c, j), List.mk_mem_zipIdx_iff_getElem?.mpr hc, ?_⟩
    exact List.mem_cons_of_mem _ (List.mem_map.mpr ⟨v, ih, rfl⟩)

/-- **The listing holds exactly what a path leads to.** -/
theorem mem_descendants_iff {x : Node} {v : Visit} : v ∈ x.descendants ↔ x.Leads v :=
  ⟨leads_of_mem_descendants, mem_descendants_of_leads⟩

/-! ## The order of the listing -/

theorem Path.not_before_self (p : Path) : ¬ p.Before p := by
  refine List.lex_irrefl ?_ p
  intro step h
  cases h with
  | left _ _ hlt => exact Nat.lt_irrefl _ hlt
  | right _ hlt => exact Nat.lt_irrefl _ hlt

theorem Path.before_of_step {p q : Nat × Nat} {ps qs : Path} (h : Prod.Lex (· < ·) (· < ·) p q) :
    Path.Before (p :: ps) (q :: qs) := .rel h

/-- What is listed for a child has a path that starts with the step to it. -/
theorem path_of_mem_listed {i j : Nat} {siblings : List Node} {vs : List Visit} {v : Visit}
    (h : v ∈ (⟨[(i, j)], siblings, j⟩ : Visit) :: vs.map (Visit.under (i, j))) :
    ∃ path, v.path = (i, j) :: path := by
  rcases List.mem_cons.mp h with rfl | h
  · exact ⟨[], rfl⟩
  · obtain ⟨w, _, rfl⟩ := List.mem_map.mp h
    exact ⟨w.path, rfl⟩

/-- **The listing is in the order of the paths.** -/
theorem descendants_sorted (x : Node) :
    x.descendants.Pairwise fun v w => Path.Before v.path w.path := by
  induction x using descendants.induct with
  | case1 x ih =>
    rw [descendants_eq, List.pairwise_flatMap]
    refine ⟨fun f hf => ?_, (Text.zipIdx_sorted _ 0).imp fun {f g} hlt v hv w hw => ?_⟩
    · rw [List.pairwise_flatMap]
      refine ⟨fun c hc => ?_, (Text.zipIdx_sorted _ 0).imp fun {c d} hlt v hv w hw => ?_⟩
      · refine List.pairwise_cons.mpr ⟨?_, List.pairwise_map.mpr ?_⟩
        · intro v hv
          -- the child itself comes before what is below it
          obtain ⟨w, hw, rfl⟩ := List.mem_map.mp hv
          have hlead := leads_of_mem_descendants hw
          cases hlead with
          | child => exact .cons .nil
          | deeper => exact .cons .nil
        · exact (ih ⟨f, hf⟩ ⟨c, hc⟩).imp fun h => .cons h
      · obtain ⟨p, hp⟩ := path_of_mem_listed hv
        obtain ⟨q, hq⟩ := path_of_mem_listed hw
        rw [hp, hq]
        exact Path.before_of_step (.right _ hlt)
    · obtain ⟨c, _, hv⟩ := List.mem_flatMap.mp hv
      obtain ⟨d, _, hw⟩ := List.mem_flatMap.mp hw
      obtain ⟨p, hp⟩ := path_of_mem_listed hv
      obtain ⟨q, hq⟩ := path_of_mem_listed hw
      rw [hp, hq]
      exact Path.before_of_step (.left _ _ hlt)

/-- **No node is listed twice.** -/
theorem nodup_paths (x : Node) : (x.descendants.map Visit.path).Nodup := by
  refine List.pairwise_map.mpr ((descendants_sorted x).imp fun {v w} h he => ?_)
  rw [he] at h
  exact Path.not_before_self _ h

end RawHtmlLint.Template.Node

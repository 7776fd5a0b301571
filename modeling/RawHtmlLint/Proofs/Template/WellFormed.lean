import RawHtmlLint.Proofs.Offset
import RawHtmlLint.Template.Header

/-!
# Well-formed trees

What is expected of the markup grammar. A tree is well-formed if the span of each node ends no
earlier than it starts and lies inside that of its parent, if siblings are ordered and do not
overlap, and if each part of a block lies wholly between two consecutive tags of the block.
Whether a tree is well-formed can be decided. Where tags do not matter, it is enough that the spans
nest (`Nests`).

Results:
* `Mapped.mem_nodes`, `Mapped.role_eq`: the parts of a tree are nodes of it, and are what they
  are taken for;
* `parts_apart`: the parts of a node are in order and do not overlap.
-/

namespace RawHtmlLint

namespace Grammar.Tree

mutual

/-- The node and all nodes below it. -/
def nodes : Tree → List Tree
  | .node l cs => .node l cs :: nodesAll cs

/-- The nodes of all the trees. -/
def nodesAll : List Tree → List Tree
  | [] => []
  | t :: ts => nodes t ++ nodesAll ts

end

theorem nodes_eq (t : Tree) : t.nodes = t :: nodesAll t.children := by
  cases t
  rfl

theorem mem_nodes_self (t : Tree) : t ∈ t.nodes := by
  rw [nodes_eq]
  exact List.mem_cons_self

theorem nodesAll_append : ∀ ts us : List Tree, nodesAll (ts ++ us) = nodesAll ts ++ nodesAll us
  | [], _ => rfl
  | t :: ts, us => by
    rw [List.cons_append, nodesAll, nodesAll, nodesAll_append ts us, List.append_assoc]

mutual

/-- The nodes below a node below another are below that. -/
theorem mem_nodes_of_mem_children {t c u : Tree} (hc : c ∈ t.children) (hu : u ∈ c.nodes) :
    u ∈ t.nodes := by
  rw [nodes_eq]
  refine List.mem_cons_of_mem _ ?_
  obtain ⟨front, back, he⟩ := List.append_of_mem hc
  rw [he, nodesAll_append]
  exact List.mem_append_right _ (List.mem_append_left _ hu)

theorem nodes_trans {t u v : Tree} (hu : u ∈ t.nodes) (hv : v ∈ u.nodes) : v ∈ t.nodes := by
  match t with
  | .node l cs =>
    rcases List.mem_cons.mp hu with rfl | hu
    · exact hv
    · exact List.mem_cons_of_mem _ (nodesAll_trans hu hv)

theorem nodesAll_trans {ts : List Tree} {u v : Tree} (hu : u ∈ nodesAll ts) (hv : v ∈ u.nodes) :
    v ∈ nodesAll ts := by
  match ts with
  | [] => exact absurd hu List.not_mem_nil
  | t :: ts =>
    rcases List.mem_append.mp hu with hu | hu
    · exact List.mem_append_left _ (nodes_trans hu hv)
    · exact List.mem_append_right _ (nodesAll_trans hu hv)

end

end Grammar.Tree

namespace Template

open Grammar

/-! ## Spans -/

/-- The span ends before the other one starts. -/
def Span.Precedes (a b : Span) : Prop := a.stop ≤ b.start

/-- The span reaches no further than the other one, on either side. -/
def Span.Inside (a b : Span) : Prop := b.start ≤ a.start ∧ a.stop ≤ b.stop

/-- The character at the offset is one of the span's. -/
def Span.Has (a : Span) (p : Nat) : Prop := a.start ≤ p ∧ p < a.stop

instance (a b : Span) : Decidable (a.Precedes b) := inferInstanceAs (Decidable (_ ≤ _))

instance (a b : Span) : Decidable (a.Inside b) := inferInstanceAs (Decidable (_ ∧ _))

instance (a : Span) (p : Nat) : Decidable (a.Has p) := inferInstanceAs (Decidable (_ ∧ _))

theorem Span.within_iff {a : Span} {low high : Nat} :
    a.within low high = true ↔ a.Inside ⟨low, high⟩ := by
  unfold Span.within Span.Inside
  rw [Bool.and_eq_true, decide_eq_true_iff, decide_eq_true_iff]

/-! ## Well-formed trees -/

/-- Each part of a block lies wholly between two consecutive tags of the block. -/
def BetweenTags (s : Source) (t : Tree) : Prop :=
  let inner := parts s (s.span t).start (s.span t).stop t
  ∀ hs ∈ (headers s (s.span t).start (s.span t).stop inner).toOption, ∀ p ∈ inner,
    ∃ pair ∈ hs.zip hs.tail, (s.span p.2).Inside ⟨pair.1.stop, pair.2.start⟩

instance (s : Source) (t : Tree) : Decidable (BetweenTags s t) :=
  inferInstanceAs (Decidable (∀ hs ∈ (headers s (s.span t).start (s.span t).stop
    (parts s (s.span t).start (s.span t).stop t)).toOption,
    ∀ p ∈ parts s (s.span t).start (s.span t).stop t,
      ∃ pair ∈ hs.zip hs.tail, (s.span p.2).Inside ⟨pair.1.stop, pair.2.start⟩))

/-- What is expected of a node and its children. -/
structure WellFormedAt (s : Source) (t : Tree) : Prop where
  start_le_stop : (s.span t).start ≤ (s.span t).stop
  nested : ∀ c ∈ t.children, (s.span c).Inside (s.span t)
  apart : t.children.Pairwise fun c d => (s.span c).Precedes (s.span d)
  between : role s t = .part .block → BetweenTags s t

instance (s : Source) (t : Tree) : Decidable (WellFormedAt s t) :=
  decidable_of_iff
    ((s.span t).start ≤ (s.span t).stop ∧ (∀ c ∈ t.children, (s.span c).Inside (s.span t)) ∧
      (t.children.Pairwise fun c d => (s.span c).Precedes (s.span d)) ∧
      (role s t = .part .block → BetweenTags s t))
    ⟨fun h => ⟨h.1, h.2.1, h.2.2.1, h.2.2.2⟩, fun h => ⟨h.1, h.2, h.3, h.4⟩⟩

/-- All nodes of the tree are as expected. -/
def WellFormed (s : Source) (t : Tree) : Prop := ∀ u ∈ t.nodes, WellFormedAt s u

instance (s : Source) (t : Tree) : Decidable (WellFormed s t) :=
  inferInstanceAs (Decidable (∀ u ∈ t.nodes, WellFormedAt s u))

/-- The children of the node lie inside it, in order and without overlap. -/
structure NestsAt (s : Source) (t : Tree) : Prop where
  nested : ∀ c ∈ t.children, (s.span c).Inside (s.span t)
  apart : t.children.Pairwise fun c d => (s.span c).Precedes (s.span d)

instance (s : Source) (t : Tree) : Decidable (NestsAt s t) :=
  decidable_of_iff
    ((∀ c ∈ t.children, (s.span c).Inside (s.span t)) ∧
      t.children.Pairwise fun c d => (s.span c).Precedes (s.span d))
    ⟨fun h => ⟨h.1, h.2⟩, fun h => ⟨h.1, h.2⟩⟩

/-- The spans of the tree nest, whatever they hold. -/
def Nests (s : Source) (t : Tree) : Prop := ∀ u ∈ t.nodes, NestsAt s u

instance (s : Source) (t : Tree) : Decidable (Nests s t) :=
  inferInstanceAs (Decidable (∀ u ∈ t.nodes, NestsAt s u))

theorem Nests.self {s : Source} {t : Tree} (h : Nests s t) : NestsAt s t := h t t.mem_nodes_self

theorem Nests.child {s : Source} {t c : Tree} (h : Nests s t) (hc : c ∈ t.children) : Nests s c :=
  fun u hu => h u (Tree.mem_nodes_of_mem_children hc hu)

/-- The grammar's own positions, in bytes, are as expected. -/
structure BytesNested (t : Tree) : Prop where
  start_le_stop : t.label.startByte ≤ t.label.stopByte
  nested : ∀ c ∈ t.children,
    t.label.startByte ≤ c.label.startByte ∧ c.label.stopByte ≤ t.label.stopByte
  apart : t.children.Pairwise fun c d => c.label.stopByte ≤ d.label.startByte

instance (t : Tree) : Decidable (BytesNested t) :=
  decidable_of_iff
    (t.label.startByte ≤ t.label.stopByte ∧
      (∀ c ∈ t.children,
        t.label.startByte ≤ c.label.startByte ∧ c.label.stopByte ≤ t.label.stopByte) ∧
      t.children.Pairwise fun c d => c.label.stopByte ≤ d.label.startByte)
    ⟨fun h => ⟨h.1, h.2.1, h.2.2⟩, fun h => ⟨h.1, h.2, h.3⟩⟩

theorem WellFormed.of_mem {s : Source} {t u : Tree} (h : WellFormed s t) (hu : u ∈ t.nodes) :
    WellFormed s u :=
  fun _ hv => h _ (Tree.nodes_trans hu hv)

theorem WellFormed.self {s : Source} {t : Tree} (h : WellFormed s t) : WellFormedAt s t :=
  h t t.mem_nodes_self

theorem WellFormed.child {s : Source} {t c : Tree} (h : WellFormed s t) (hc : c ∈ t.children) :
    WellFormed s c :=
  h.of_mem (Tree.mem_nodes_of_mem_children hc c.mem_nodes_self)

theorem WellFormed.nests {s : Source} {t : Tree} (h : WellFormed s t) : Nests s t :=
  fun u hu => ⟨(h u hu).nested, (h u hu).apart⟩

/-! ## Parts -/

theorem mem_partsAmong {s : Source} {low high : Nat} {todo : List Tree} {p : Part × Tree}
    (h : p ∈ partsAmong s low high todo) :
    p.2 ∈ Tree.nodesAll todo ∧ role s p.2 = .part p.1 ∧ (s.span p.2).Inside ⟨low, high⟩ := by
  fun_induction partsAmong s low high todo with
  | case1 => exact absurd h List.not_mem_nil
  | case2 t todo _ ih => exact ⟨List.mem_append_right _ (ih h).1, (ih h).2⟩
  | case3 t todo _ ih =>
    refine ⟨?_, (ih h).2⟩
    have hmem := (ih h).1
    rw [Tree.nodesAll_append] at hmem
    rw [Tree.nodesAll, Tree.nodes_eq]
    rcases List.mem_append.mp hmem with hmem | hmem
    · exact List.mem_append_left _ (List.mem_cons_of_mem _ hmem)
    · exact List.mem_append_right _ hmem
  | case4 t todo part hrole hin ih =>
    rcases List.mem_cons.mp h with rfl | h
    · exact ⟨List.mem_append_left _ t.mem_nodes_self, hrole, Span.within_iff.mp hin⟩
    · exact ⟨List.mem_append_right _ (ih h).1, (ih h).2⟩
  | case5 t todo _ _ _ ih => exact ⟨List.mem_append_right _ (ih h).1, (ih h).2⟩

/-- Each part lies in one of the nodes that are still to be looked at. -/
theorem span_of_mem_partsAmong {s : Source} {low high : Nat} {todo : List Tree} {p : Part × Tree}
    (hnests : ∀ t ∈ todo, Nests s t) (h : p ∈ partsAmong s low high todo) :
    ∃ t ∈ todo, (s.span p.2).Inside (s.span t) := by
  fun_induction partsAmong s low high todo with
  | case1 => exact absurd h List.not_mem_nil
  | case2 t todo _ ih | case5 t todo _ _ _ ih =>
    obtain ⟨u, hu, hin⟩ := ih (fun u hu => hnests u (List.mem_cons_of_mem _ hu)) h
    exact ⟨u, List.mem_cons_of_mem _ hu, hin⟩
  | case3 t todo _ ih =>
    have ht := hnests t List.mem_cons_self
    obtain ⟨u, hu, hin⟩ := ih (fun u hu => by
      rcases List.mem_append.mp hu with hu | hu
      · exact ht.child hu
      · exact hnests u (List.mem_cons_of_mem _ hu)) h
    rcases List.mem_append.mp hu with hu | hu
    · have hup := ht.self.nested u hu
      exact ⟨t, List.mem_cons_self, Nat.le_trans hup.1 hin.1, Nat.le_trans hin.2 hup.2⟩
    · exact ⟨u, List.mem_cons_of_mem _ hu, hin⟩
  | case4 t todo part _ _ ih =>
    rcases List.mem_cons.mp h with rfl | h
    · exact ⟨t, List.mem_cons_self, Nat.le_refl _, Nat.le_refl _⟩
    · obtain ⟨u, hu, hin⟩ := ih (fun u hu => hnests u (List.mem_cons_of_mem _ hu)) h
      exact ⟨u, List.mem_cons_of_mem _ hu, hin⟩

theorem partsAmong_apart {s : Source} {low high : Nat} {todo : List Tree}
    (hnests : ∀ t ∈ todo, Nests s t)
    (happ : todo.Pairwise fun t u => (s.span t).Precedes (s.span u)) :
    (partsAmong s low high todo).Pairwise fun p q => (s.span p.2).Precedes (s.span q.2) := by
  fun_induction partsAmong s low high todo with
  | case1 => exact .nil
  | case2 t todo _ ih | case5 t todo _ _ _ ih =>
    exact ih (fun u hu => hnests u (List.mem_cons_of_mem _ hu)) (List.pairwise_cons.mp happ).2
  | case3 t todo _ ih =>
    have ht := hnests t List.mem_cons_self
    obtain ⟨hlater, htodo⟩ := List.pairwise_cons.mp happ
    refine ih ?_ (List.pairwise_append.mpr ⟨ht.self.apart, htodo, ?_⟩)
    · intro u hu
      rcases List.mem_append.mp hu with hu | hu
      · exact ht.child hu
      · exact hnests u (List.mem_cons_of_mem _ hu)
    · intro c hc u hu
      exact Nat.le_trans (ht.self.nested c hc).2 (hlater u hu)
  | case4 t todo part _ _ ih =>
    obtain ⟨hlater, htodo⟩ := List.pairwise_cons.mp happ
    have hrest : ∀ u ∈ todo, Nests s u := fun u hu => hnests u (List.mem_cons_of_mem _ hu)
    refine List.pairwise_cons.mpr ⟨?_, ih hrest htodo⟩
    intro q hq
    obtain ⟨u, hu, hin⟩ := span_of_mem_partsAmong hrest hq
    exact Nat.le_trans (hlater u hu) hin.1

/-- **The parts of a node are in order and do not overlap.** -/
theorem parts_apart {s : Source} {t : Tree} (h : Nests s t) (low high : Nat) :
    (parts s low high t).Pairwise fun p q => (s.span p.2).Precedes (s.span q.2) :=
  partsAmong_apart (fun _ hc => h.child hc) h.self.apart

/-- The part is found in the tree, as a part of it or of one of its parts. -/
inductive Mapped (s : Source) (root : Tree) : Part × Tree → Prop
  | outer {low high : Nat} {p : Part × Tree} (h : p ∈ parts s low high root) : Mapped s root p
  | inner {low high : Nat} {p q : Part × Tree} (hp : Mapped s root p)
      (h : q ∈ parts s low high p.2) : Mapped s root q

theorem mem_nodes_of_mem_parts {s : Source} {low high : Nat} {t : Tree} {p : Part × Tree}
    (h : p ∈ parts s low high t) : p.2 ∈ t.nodes := by
  rw [Tree.nodes_eq]
  exact List.mem_cons_of_mem _ (mem_partsAmong h).1

/-- **The parts of a tree are nodes of it.** -/
theorem Mapped.mem_nodes {s : Source} {root : Tree} {p : Part × Tree} (h : Mapped s root p) :
    p.2 ∈ root.nodes := by
  induction h with
  | outer h => exact mem_nodes_of_mem_parts h
  | inner _ h ih => exact Tree.nodes_trans ih (mem_nodes_of_mem_parts h)

/-- The parts of a tree are what they are taken for. -/
theorem Mapped.role_eq {s : Source} {root : Tree} {p : Part × Tree} (h : Mapped s root p) :
    role s p.2 = .part p.1 := by
  cases h with
  | outer h => exact (mem_partsAmong h).2.1
  | inner _ h => exact (mem_partsAmong h).2.1

end Template

end RawHtmlLint

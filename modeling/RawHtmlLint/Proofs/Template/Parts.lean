import Mathlib.Logic.Function.Iterate
import RawHtmlLint.Proofs.Grammar.Preorder
import RawHtmlLint.Proofs.Template.Tiling

/-!
# The search for parts

The parts of a node are searched with a list of the nodes still to be looked at. A node that only
holds parts is replaced in the list by its children, so what is found comes from nodes at different
depths. `reached` says without a list which nodes are looked at: those to which a way leads down
from the node, past nodes that only hold parts. The parts are what is found among them.

Results:
* `partsAmong_eq_filterMap`: the parts are found among the nodes that are reached;
* `Search.turn_result`, `Search.turns_end`: a turn of the search keeps what it will have found, and
  the search ends;
* `parts_reached`: so it finds the parts that are reached, each once, and they do not overlap.
-/

namespace RawHtmlLint.Template

open Grammar Grammar.Tree

variable {s : Source} {low high : Nat}

/-! ## What is looked at -/

/-- The node is no part itself, but it may hold some. -/
def holdsParts (s : Source) (t : Tree) : Bool := role s t = .descend

/-- The part in the window that the node is. -/
def part? (s : Source) (low high : Nat) (t : Tree) : Option (Part × Tree) :=
  match role s t with
  | .part part => if (s.span t).within low high then some (part, t) else none
  | _ => none

theorem part?_eq_some_iff {t u : Tree} {part : Part} : part? s low high t = some (part, u) ↔
    u = t ∧ role s u = .part part ∧ (s.span u).Inside ⟨low, high⟩ := by
  unfold part?
  rw [← Span.within_iff]
  constructor
  · intro h
    split at h
    · rename_i hrole
      split at h
      · rename_i hin
        cases h
        exact ⟨rfl, hrole, hin⟩
      · cases h
    · cases h
  · rintro ⟨rfl, hrole, hin⟩
    rw [hrole]
    exact if_pos hin

/-- **The parts are found among the nodes that are reached**, whatever the numbers of the siblings
are from which the walk starts. -/
theorem partsAmong_eq_filterMap (todo : List Tree) (k : Nat) : partsAmong s low high todo =
    ((reachedFrom (holdsParts s) k todo).map Prod.snd).filterMap (part? s low high) := by
  fun_induction partsAmong s low high todo generalizing k with
  | case1 => rfl
  | case2 t todo hrole ih =>
    have hclosed : holdsParts s t = false := by simp [holdsParts, hrole]
    have hpart : part? s low high t = none := by simp [part?, hrole]
    simp [reachedFrom, hclosed, hpart, ih (k + 1)]
  | case3 t todo hrole ih =>
    have hopen : holdsParts s t = true := by simp [holdsParts, hrole]
    have hpart : part? s low high t = none := by simp [part?, hrole]
    have hrest := @map_snd_reachedFrom (holdsParts s) todo (k + 1) t.children.length
    rw [ih 0, reachedFrom_append, Nat.zero_add, List.map_append, ← hrest, ← reached_eq, reachedFrom,
      if_pos hopen, List.map_cons, List.filterMap_cons, hpart, List.map_append, List.map_map]
    rfl
  | case4 t todo part hrole hin ih =>
    have hclosed : holdsParts s t = false := by simp [holdsParts, hrole]
    have hpart : part? s low high t = some (part, t) := by simp [part?, hrole, hin]
    simp [reachedFrom, hclosed, hpart, ih (k + 1)]
  | case5 t todo part hrole hout ih =>
    have hclosed : holdsParts s t = false := by simp [holdsParts, hrole]
    have hpart : part? s low high t = none := by simp [part?, hrole, hout]
    simp [reachedFrom, hclosed, hpart, ih (k + 1)]

/-- The parts in the window below a node, each with its place. -/
def placedParts (s : Source) (low high : Nat) (t : Tree) : List (Tree.Place × Part × Tree) :=
  (reached (holdsParts s) t).filterMap fun v => (part? s low high v.2).map fun p => (v.1, p)

theorem map_placedParts (t : Tree) :
    (placedParts s low high t).map Prod.snd = parts s low high t := by
  unfold placedParts parts
  rw [partsAmong_eq_filterMap t.children 0, ← reached_eq, List.map_filterMap, List.filterMap_map]
  refine List.filterMap_congr fun v _ => ?_
  rw [Option.map_map]
  exact Option.map_id'

theorem placedParts_sorted (t : Tree) :
    (placedParts s low high t).Pairwise fun v w => v.1 < w.1 := by
  refine List.pairwise_filterMap.mpr (reached_sorted.imp fun {v w} hlt p hp q hq => ?_)
  obtain ⟨_, _, rfl⟩ := Option.map_eq_some_iff.mp hp
  obtain ⟨_, _, rfl⟩ := Option.map_eq_some_iff.mp hq
  exact hlt

theorem mem_placedParts_iff {t u : Tree} {place : Tree.Place} {part : Part} :
    (place, part, u) ∈ placedParts s low high t ↔ Leads (holdsParts s) t place u ∧
      role s u = .part part ∧ (s.span u).Inside ⟨low, high⟩ := by
  unfold placedParts
  rw [List.mem_filterMap]
  constructor
  · rintro ⟨v, hv, hp⟩
    obtain ⟨p, hp, heq⟩ := Option.map_eq_some_iff.mp hp
    cases heq
    obtain ⟨rfl, hpart⟩ := part?_eq_some_iff.mp hp
    exact ⟨mem_reached_iff.mp hv, hpart⟩
  · rintro ⟨hleads, hpart⟩
    refine ⟨(place, u), mem_reached_iff.mpr hleads, ?_⟩
    rw [part?_eq_some_iff.mpr ⟨rfl, hpart⟩]
    rfl

/-! ## The loop -/

/-- The search between two turns: the nodes still to be looked at, and the parts that were found,
newest first. -/
structure Search where
  todo : List Tree
  found : List (Part × Tree)

namespace Search

/-- One turn of the search looks at one node. -/
def turn (s : Source) (low high : Nat) : Search → Search
  | ⟨[], found⟩ => ⟨[], found⟩
  | ⟨t :: todo, found⟩ =>
    match role s t with
    | .skip => ⟨todo, found⟩
    | .descend => ⟨t.children ++ todo, found⟩
    | .part part => ⟨todo, if (s.span t).within low high then (part, t) :: found else found⟩

/-- What the search will have found when it ends, in the order of the document. -/
def result (s : Source) (low high : Nat) (x : Search) : List (Part × Tree) :=
  x.found.reverse ++ partsAmong s low high x.todo

/-- **A turn keeps what the search will have found.** -/
theorem turn_result (x : Search) :
    (x.turn s low high).result s low high = x.result s low high := by
  obtain ⟨todo, found⟩ := x
  cases todo with
  | nil => rfl
  | cons t todo =>
    unfold turn result
    rw [partsAmong]
    dsimp only
    cases hrole : role s t with
    | skip => rfl
    | descend => rfl
    | part part =>
      dsimp only
      split
      · rw [List.reverse_cons, List.append_assoc, List.singleton_append]
      · rfl

/-- A turn leaves less to be looked at. -/
theorem turn_lt {t : Tree} {todo : List Tree} {found : List (Part × Tree)} :
    sizeAll ((⟨t :: todo, found⟩ : Search).turn s low high).todo < sizeAll (t :: todo) := by
  rw [sizeAll_cons, size_eq]
  cases hrole : role s t with
  | skip | part _ =>
    simp only [turn, hrole]
    omega
  | descend =>
    simp only [turn, hrole, sizeAll_append]
    omega

/-- **The search ends** after as many turns as there are nodes, with what it was to find. -/
theorem turns_end (n : Nat) (x : Search) (h : sizeAll x.todo ≤ n) :
    (turn s low high)^[n] x = ⟨[], (x.result s low high).reverse⟩ := by
  induction n generalizing x with
  | zero =>
    obtain ⟨todo, found⟩ := x
    cases todo with
    | nil => simp [result, partsAmong]
    | cons t todo =>
      rw [sizeAll_cons, size_eq] at h
      omega
  | succ n ih =>
    have hle : sizeAll (x.turn s low high).todo ≤ n := by
      obtain ⟨todo, found⟩ := x
      cases todo with
      | nil => exact Nat.zero_le _
      | cons t todo => exact Nat.le_of_lt_succ (Nat.lt_of_lt_of_le turn_lt h)
    rw [Function.iterate_succ_apply, ih _ hle, turn_result]

end Search

/-- **The search finds the parts that are reached.** It ends after no more turns than the tree has
nodes; then the parts in the window are found, the last one of the document first. These are the
parts to which a way leads from the node past nodes that only hold parts, in the order of the
document, and each of them once. If the spans in the tree nest, the parts are apart from each
other. -/
theorem parts_reached (s : Source) (low high : Nat) (t : Tree) :
    (∀ n, t.size ≤ n →
      (Search.turn s low high)^[n] ⟨t.children, []⟩ = ⟨[], (parts s low high t).reverse⟩) ∧
    (∃ found : List (Tree.Place × Part × Tree), found.map Prod.snd = parts s low high t ∧
      (found.Pairwise fun v w => v.1 < w.1) ∧
      ∀ place part u, (place, part, u) ∈ found ↔ Leads (holdsParts s) t place u ∧
        role s u = .part part ∧ (s.span u).Inside ⟨low, high⟩) ∧
    (Nests s t →
      (parts s low high t).Pairwise fun p q => (s.span p.2).Precedes (s.span q.2)) := by
  refine ⟨fun n hn => ?_, ?_, fun hnests => parts_apart hnests low high⟩
  · rw [size_eq] at hn
    exact Search.turns_end n ⟨t.children, []⟩ (Nat.le_of_succ_le hn)
  · exact ⟨placedParts s low high t, map_placedParts t, placedParts_sorted t,
      fun _ _ _ => mem_placedParts_iff⟩

/-! An element and two tags; the first two stand in a node that only holds parts. -/

def groupedSource : Source := .ofText "Grouped.svelte" "<ul>\x7ba\x7d</ul>\x7bb\x7d\x7bc\x7d".toList

def groupedTree : Tree :=
  sampleNode "document" 0 18 [
    sampleNode "group" 0 15 [
      sampleNode "element" 0 12 [sampleNode "start_tag" 0 4 [], sampleNode "expression" 4 7 [],
        sampleNode "end_tag" 7 12 []],
      sampleNode "expression" 12 15 []],
    sampleNode "expression" 15 18 []]

/-- The search up to the second tag finds the element, but not what is in it, and the first tag. -/
theorem groupedTree_parts :
    (Search.turn groupedSource 0 15)^[8] ⟨groupedTree.children, []⟩ =
      ⟨[], (parts groupedSource 0 15 groupedTree).reverse⟩ ∧
    (parts groupedSource 0 15 groupedTree).map (fun p => (p.1, groupedSource.span p.2)) =
      [(.element, ⟨0, 12⟩), (.tag, ⟨12, 15⟩)] ∧
    (∃ found : List (Tree.Place × Part × Tree),
      found.map Prod.snd = parts groupedSource 0 15 groupedTree ∧
      ∃ u, ([0, 1], .tag, u) ∈ found) ∧
    Nests groupedSource groupedTree ∧
    (parts groupedSource 0 15 groupedTree).Pairwise fun p q =>
      (groupedSource.span p.2).Precedes (groupedSource.span q.2) := by
  obtain ⟨hturns, ⟨found, hfound, _, hmem⟩, happart⟩ :=
    parts_reached groupedSource 0 15 groupedTree
  have hnests : Nests groupedSource groupedTree := by decide +kernel
  have htag : role groupedSource (sampleNode "expression" 12 15 []) = .part .tag := by
    decide +kernel
  have hleads : Leads (holdsParts groupedSource) groupedTree [0, 1]
      (sampleNode "expression" 12 15 []) := .through rfl (by decide +kernel) (.child rfl)
  exact ⟨hturns 8 (by decide), by decide +kernel, ⟨found, hfound, _,
    (hmem _ _ _).mpr ⟨hleads, htag, by decide +kernel⟩⟩, hnests, happart hnests⟩

end RawHtmlLint.Template

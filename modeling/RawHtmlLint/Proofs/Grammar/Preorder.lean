import RawHtmlLint.Proofs.Template.WellFormed

/-!
# The order of the nodes of a tree

The place of a node below another is the way down to it: of each node on the way the number of the
child that is taken. Places are ordered as lists of numbers are. So a node stands before what is
below it, and what is on the left before what is on the right, which is the order of the document.

A walk goes down from the children of a node, past the nodes that `opens` tells. `reached` lists by
structural recursion what it comes to.

Results:
* `mem_reached_iff`: a walk comes to what a way leads to, and to nothing else;
* `reached_sorted`: it does so in the order of the document, and once to each node;
* `mem_places_iff`: a walk past all nodes comes to each node of the tree;
* `find?_nodes_eq_some_iff`: the first node of some kind is the one at the smallest place;
* `starts_sorted`: in a tree with nested bytes, no node starts before one that it comes after.
-/

namespace RawHtmlLint.Grammar.Tree

/-- Where a node stands below another: the numbers of the children on the way down to it. -/
abbrev Place := List Nat

/-- The node at a place. -/
def at? : Tree → Place → Option Tree
  | t, [] => some t
  | t, i :: place => t.children[i]?.bind fun c => c.at? place

/-- A way leads down from the node to the one at the place, past nodes that are open. -/
inductive Leads (opens : Tree → Bool) : Tree → Place → Tree → Prop
  | child {t c : Tree} {i : Nat} (h : t.children[i]? = some c) : Leads opens t [i] c
  | through {t c u : Tree} {i : Nat} {place : Place} (h : t.children[i]? = some c)
      (hopen : opens c = true) (hu : Leads opens c place u) : Leads opens t (i :: place) u

/-- The same node seen from one step further up. -/
def under (i : Nat) (v : Place × Tree) : Place × Tree := (i :: v.1, v.2)

mutual

/-- The nodes that a walk down from the node comes to, each with its place. -/
def reached (opens : Tree → Bool) : Tree → List (Place × Tree)
  | .node _ cs => reachedFrom opens 0 cs

/-- The nodes that a walk comes to from siblings on, the first of which has the number. -/
def reachedFrom (opens : Tree → Bool) : Nat → List Tree → List (Place × Tree)
  | _, [] => []
  | i, t :: ts => ([i], t) ::
      ((if opens t then reached opens t else []).map (under i) ++ reachedFrom opens (i + 1) ts)

end

/-- The node and all nodes below it, each with its place. -/
def places (t : Tree) : List (Place × Tree) := ([], t) :: reached (fun _ => true) t

variable {opens : Tree → Bool}

theorem reached_eq (t : Tree) : reached opens t = reachedFrom opens 0 t.children := by
  cases t
  rfl

theorem reachedFrom_append (ts us : List Tree) (k : Nat) : reachedFrom opens k (ts ++ us) =
    reachedFrom opens k ts ++ reachedFrom opens (k + ts.length) us := by
  induction ts generalizing k with
  | nil => rfl
  | cons t ts ih =>
    rw [List.cons_append, reachedFrom, reachedFrom, ih, List.length_cons, List.cons_append,
      List.append_assoc, Nat.add_assoc, Nat.add_comm 1]

/-- The numbers of the siblings do not matter to what is reached. -/
theorem map_snd_reachedFrom (ts : List Tree) (k m : Nat) :
    (reachedFrom opens k ts).map Prod.snd = (reachedFrom opens m ts).map Prod.snd := by
  induction ts generalizing k m with
  | nil => rfl
  | cons t ts ih =>
    simp only [reachedFrom, List.map_cons, List.map_append, List.map_map, ih (k + 1) (m + 1)]
    rfl

/-! ## What a walk comes to -/

/-- The node is at the end of the way, or the way leads on from it as it is open. -/
def EndsAt (opens : Tree → Bool) (c : Tree) (place : Place) (u : Tree) : Prop :=
  place = [] ∧ u = c ∨ opens c = true ∧ Leads opens c place u

theorem leads_iff {t u : Tree} {place : Place} : Leads opens t place u ↔
    ∃ i c below, t.children[i]? = some c ∧ place = i :: below ∧ EndsAt opens c below u := by
  constructor
  · intro h
    cases h with
    | child h => exact ⟨_, _, [], h, rfl, .inl ⟨rfl, rfl⟩⟩
    | through h hopen hu => exact ⟨_, _, _, h, rfl, .inr ⟨hopen, hu⟩⟩
  · rintro ⟨i, c, below, h, rfl, ⟨rfl, rfl⟩ | ⟨hopen, hu⟩⟩
    · exact .child h
    · exact .through h hopen hu

mutual

/-- **A walk comes to what a way leads to**, and to nothing else. -/
theorem mem_reached_iff {t u : Tree} {place : Place} :
    (place, u) ∈ reached opens t ↔ Leads opens t place u := by
  match t with
  | .node l cs =>
    rw [reached, mem_reachedFrom_iff, leads_iff]
    simp only [Nat.zero_add, children]

theorem mem_reachedFrom_iff {k : Nat} {ts : List Tree} {u : Tree} {place : Place} :
    (place, u) ∈ reachedFrom opens k ts ↔
      ∃ i c below, ts[i]? = some c ∧ place = (k + i) :: below ∧ EndsAt opens c below u := by
  match ts with
  | [] =>
    rw [reachedFrom]
    constructor
    · intro h
      exact absurd h List.not_mem_nil
    · rintro ⟨i, c, below, h, _⟩
      exact (nomatch h)
  | t :: ts =>
    rw [reachedFrom, List.mem_cons, List.mem_append, mem_reachedFrom_iff]
    constructor
    · rintro (h | h | ⟨i, c, below, h, rfl, hends⟩)
      · cases h
        exact ⟨0, u, [], rfl, rfl, .inl ⟨rfl, rfl⟩⟩
      · obtain ⟨v, hv, hunder⟩ := List.mem_map.mp h
        cases hunder
        split at hv
        · rename_i hopen
          exact ⟨0, t, v.1, rfl, rfl, .inr ⟨hopen, mem_reached_iff.mp hv⟩⟩
        · exact absurd hv List.not_mem_nil
      · exact ⟨i + 1, c, below, h, by rw [Nat.add_assoc, Nat.add_comm 1], hends⟩
    · rintro ⟨i, c, below, h, rfl, hends⟩
      cases i with
      | zero =>
        cases h
        rcases hends with ⟨rfl, rfl⟩ | ⟨hopen, hu⟩
        · exact .inl rfl
        · refine .inr (.inl (List.mem_map.mpr ⟨(below, u), ?_, rfl⟩))
          rw [if_pos hopen]
          exact mem_reached_iff.mpr hu
      | succ i =>
        exact .inr (.inr ⟨i, c, below, h, by rw [Nat.add_assoc, Nat.add_comm 1], hends⟩)

end

/-- What is listed from siblings on has a place that starts with the number of one of them. -/
theorem exists_of_mem_reachedFrom {k : Nat} {ts : List Tree} {v : Place × Tree}
    (h : v ∈ reachedFrom opens k ts) : ∃ i below, k ≤ i ∧ v.1 = i :: below := by
  obtain ⟨i, _, below, _, hplace, _⟩ := mem_reachedFrom_iff.mp h
  exact ⟨k + i, below, Nat.le_add_right k i, hplace⟩

mutual

/-- **A walk is in the order of the document**, and comes to no node twice. -/
theorem reached_sorted {t : Tree} : (reached opens t).Pairwise fun v w => v.1 < w.1 := by
  match t with
  | .node l cs =>
    rw [reached]
    exact reachedFrom_sorted

theorem reachedFrom_sorted {k : Nat} {ts : List Tree} :
    (reachedFrom opens k ts).Pairwise fun v w => v.1 < w.1 := by
  match ts with
  | [] =>
    rw [reachedFrom]
    exact .nil
  | t :: ts =>
    have hbelow : (if opens t then reached opens t else []).Pairwise fun v w => v.1 < w.1 := by
      split
      · exact reached_sorted
      · exact .nil
    rw [reachedFrom, List.pairwise_cons, List.pairwise_append]
    refine ⟨?_, List.pairwise_map.mpr ?_, reachedFrom_sorted, ?_⟩
    · intro w hw
      rcases List.mem_append.mp hw with hw | hw
      · obtain ⟨v, hv, rfl⟩ := List.mem_map.mp hw
        split at hv
        · -- what is below the sibling has a longer place
          obtain ⟨i, c, below, _, hplace, _⟩ := leads_iff.mp (mem_reached_iff.mp hv)
          show [k] < k :: v.1
          rw [hplace]
          exact List.cons_lt_cons_self.mpr (List.nil_lt_cons _ _)
        · exact absurd hv List.not_mem_nil
      · obtain ⟨i, below, hle, hplace⟩ := exists_of_mem_reachedFrom hw
        rw [hplace]
        exact List.cons_lt_cons_iff.mpr (.inl hle)
    · exact hbelow.imp fun h => List.cons_lt_cons_self.mpr h
    · intro v hv w hw
      obtain ⟨x, _, rfl⟩ := List.mem_map.mp hv
      obtain ⟨i, below, hle, hplace⟩ := exists_of_mem_reachedFrom hw
      rw [hplace]
      exact List.cons_lt_cons_iff.mpr (.inl hle)

end

/-! ## All nodes -/

theorem at?_eq_some_iff {t u : Tree} {place : Place} : t.at? place = some u ↔
    place = [] ∧ u = t ∨ Leads (fun _ => true) t place u := by
  induction place generalizing t with
  | nil =>
    rw [at?, Option.some_inj]
    constructor
    · rintro rfl
      exact .inl ⟨rfl, rfl⟩
    · rintro (⟨_, rfl⟩ | h)
      · rfl
      · exact (nomatch h)
  | cons i below ih =>
    rw [at?, Option.bind_eq_some_iff]
    constructor
    · rintro ⟨c, hc, hu⟩
      rcases ih.mp hu with ⟨rfl, rfl⟩ | hu
      · exact .inr (.child hc)
      · exact .inr (.through hc rfl hu)
    · rintro (⟨h, _⟩ | h)
      · exact (nomatch h)
      · cases h with
        | child h => exact ⟨u, h, rfl⟩
        | through h _ hu => exact ⟨_, h, ih.mpr (.inr hu)⟩

/-- **Each node is listed at its place**, and nothing else is. -/
theorem mem_places_iff {t u : Tree} {place : Place} :
    (place, u) ∈ t.places ↔ t.at? place = some u := by
  rw [places, List.mem_cons, mem_reached_iff, at?_eq_some_iff, Prod.mk.injEq]

theorem places_sorted (t : Tree) : t.places.Pairwise fun v w => v.1 < w.1 := by
  refine List.pairwise_cons.mpr ⟨fun v hv => ?_, reached_sorted⟩
  obtain ⟨i, _, below, _, hplace, _⟩ := leads_iff.mp (mem_reached_iff.mp hv)
  rw [hplace]
  exact List.nil_lt_cons _ _

mutual

theorem map_reached (t : Tree) :
    (reached (fun _ => true) t).map Prod.snd = nodesAll t.children := by
  match t with
  | .node l cs => exact map_reachedFrom 0 cs

theorem map_reachedFrom (k : Nat) (ts : List Tree) :
    (reachedFrom (fun _ => true) k ts).map Prod.snd = nodesAll ts := by
  match ts with
  | [] => rfl
  | t :: ts =>
    rw [reachedFrom, nodesAll, nodes_eq, List.map_cons, List.map_append, List.map_map,
      map_reachedFrom (k + 1) ts, if_pos rfl]
    exact congrArg (fun us => t :: (us ++ nodesAll ts)) (map_reached t)

end

/-- Without their places the nodes are listed as they are. -/
theorem map_places (t : Tree) : t.places.map Prod.snd = t.nodes := by
  rw [places, List.map_cons, map_reached, nodes_eq]

/-- Where places grow, the first entry with the property is the one at the smallest place. -/
theorem find?_eq_some_iff_of_sorted {p : Place × Tree → Bool} {v : Place × Tree} :
    ∀ {vs : List (Place × Tree)}, (vs.Pairwise fun v w => v.1 < w.1) →
      (vs.find? p = some v ↔ v ∈ vs ∧ p v = true ∧ ∀ w ∈ vs, w.1 < v.1 → p w = false)
  | [], _ => ⟨fun h => (nomatch h), fun h => absurd h.1 List.not_mem_nil⟩
  | x :: vs, h => by
    obtain ⟨hx, hvs⟩ := List.pairwise_cons.mp h
    rw [List.find?_cons]
    cases hp : p x with
    | true =>
      constructor
      · rintro ⟨⟩
        refine ⟨List.mem_cons_self, hp, fun w hw hlt => ?_⟩
        rcases List.mem_cons.mp hw with rfl | hw
        · exact absurd hlt (List.lt_irrefl _)
        · exact absurd (List.lt_trans hlt (hx w hw)) (List.lt_irrefl _)
      · rintro ⟨hv, _, hfirst⟩
        rcases List.mem_cons.mp hv with rfl | hv
        · rfl
        · have hnot := hfirst x List.mem_cons_self (hx v hv)
          exact absurd (hp.symm.trans hnot) (by decide)
    | false =>
      rw [find?_eq_some_iff_of_sorted hvs]
      constructor
      · rintro ⟨hv, hpv, hfirst⟩
        refine ⟨List.mem_cons_of_mem _ hv, hpv, fun w hw hlt => ?_⟩
        rcases List.mem_cons.mp hw with rfl | hw
        · exact hp
        · exact hfirst w hw hlt
      · rintro ⟨hv, hpv, hfirst⟩
        refine ⟨?_, hpv, fun w hw => hfirst w (List.mem_cons_of_mem _ hw)⟩
        rcases List.mem_cons.mp hv with rfl | hv
        · exact absurd (hp.symm.trans hpv) (by decide)
        · exact hv

/-- **The first node with the property** is the one at the smallest place. -/
theorem find?_nodes_eq_some_iff {p : Tree → Bool} {t u : Tree} : t.nodes.find? p = some u ↔
    ∃ place, t.at? place = some u ∧ p u = true ∧
      ∀ before v, before < place → t.at? before = some v → p v = false := by
  rw [← map_places, List.find?_map, Option.map_eq_some_iff]
  constructor
  · rintro ⟨⟨place, v⟩, hfind, rfl⟩
    obtain ⟨hmem, hp, hfirst⟩ := (find?_eq_some_iff_of_sorted t.places_sorted).mp hfind
    exact ⟨place, mem_places_iff.mp hmem, hp, fun before w hlt hw =>
      hfirst (before, w) (mem_places_iff.mpr hw) hlt⟩
  · rintro ⟨place, hat, hp, hfirst⟩
    refine ⟨(place, u), (find?_eq_some_iff_of_sorted t.places_sorted).mpr ?_, rfl⟩
    exact ⟨mem_places_iff.mpr hat, hp, fun w hw hlt => hfirst w.1 w.2 hlt (mem_places_iff.mp hw)⟩

theorem mem_nodes_iff {t u : Tree} : u ∈ t.nodes ↔ ∃ place, t.at? place = some u := by
  rw [← map_places, List.mem_map]
  constructor
  · rintro ⟨v, hv, rfl⟩
    exact ⟨v.1, mem_places_iff.mp hv⟩
  · rintro ⟨place, hat⟩
    exact ⟨(place, u), mem_places_iff.mpr hat, rfl⟩

/-! ## The bytes of the nodes -/

theorem exists_of_mem_nodesAll {u : Tree} : ∀ {ts : List Tree}, u ∈ nodesAll ts →
    ∃ t ∈ ts, u ∈ t.nodes
  | t :: ts, h => by
    rcases List.mem_append.mp h with h | h
    · exact ⟨t, List.mem_cons_self, h⟩
    · obtain ⟨c, hc, hu⟩ := exists_of_mem_nodesAll h
      exact ⟨c, List.mem_cons_of_mem _ hc, hu⟩

/-- The positions that the grammar gives are nested and in order, for all nodes of the tree. -/
def AllBytesNested (t : Tree) : Prop := ∀ u ∈ t.nodes, Template.BytesNested u

instance (t : Tree) : Decidable (AllBytesNested t) :=
  inferInstanceAs (Decidable (∀ u ∈ t.nodes, Template.BytesNested u))

theorem AllBytesNested.child {t c : Tree} (h : AllBytesNested t) (hc : c ∈ t.children) :
    AllBytesNested c :=
  fun u hu => h u (mem_nodes_of_mem_children hc hu)

/-- The bytes of a node of the tree are among those of the root. -/
theorem AllBytesNested.inside {t u : Tree} (h : AllBytesNested t) (hu : u ∈ t.nodes) :
    t.label.startByte ≤ u.label.startByte ∧ u.label.stopByte ≤ t.label.stopByte := by
  rw [nodes_eq] at hu
  rcases List.mem_cons.mp hu with rfl | hbelow
  · exact ⟨Nat.le_refl _, Nat.le_refl _⟩
  · obtain ⟨c, hc, hu⟩ := exists_of_mem_nodesAll hbelow
    have hchild := (h t t.mem_nodes_self).nested c hc
    have hinside := (h.child hc).inside hu
    exact ⟨Nat.le_trans hchild.1 hinside.1, Nat.le_trans hinside.2 hchild.2⟩
termination_by t.size
decreasing_by exact size_lt_of_mem_children hc

mutual

/-- **No node starts before one that it comes after**, in a tree with nested bytes. -/
theorem starts_sorted {t : Tree} (h : AllBytesNested t) :
    t.nodes.Pairwise fun u v => u.label.startByte ≤ v.label.startByte := by
  match t with
  | .node l cs =>
    refine List.pairwise_cons.mpr ⟨fun u hu => ?_, ?_⟩
    · exact (h.inside (List.mem_cons_of_mem _ hu)).1
    · exact startsAll_sorted (h _ (mem_nodes_self _)).apart fun c hc => h.child hc

theorem startsAll_sorted {ts : List Tree}
    (happart : ts.Pairwise fun t u => t.label.stopByte ≤ u.label.startByte)
    (h : ∀ t ∈ ts, AllBytesNested t) :
    (nodesAll ts).Pairwise fun u v => u.label.startByte ≤ v.label.startByte := by
  match ts with
  | [] => exact .nil
  | t :: ts =>
    obtain ⟨hlater, hrest⟩ := List.pairwise_cons.mp happart
    have ht := h t List.mem_cons_self
    refine List.pairwise_append.mpr ⟨starts_sorted ht,
      startsAll_sorted hrest fun c hc => h c (List.mem_cons_of_mem _ hc), fun u hu v hv => ?_⟩
    obtain ⟨c, hc, hvc⟩ := exists_of_mem_nodesAll hv
    calc u.label.startByte ≤ u.label.stopByte := (ht u hu).start_le_stop
      _ ≤ t.label.stopByte := (ht.inside hu).2
      _ ≤ c.label.startByte := hlater c hc
      _ ≤ v.label.startByte := ((h c (List.mem_cons_of_mem _ hc)).inside hvc).1

end

end RawHtmlLint.Grammar.Tree

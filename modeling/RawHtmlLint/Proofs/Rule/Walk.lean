import Mathlib.Data.List.Basic
import Mathlib.Logic.Function.Iterate
import RawHtmlLint.Proofs.Template.Descent
import RawHtmlLint.Report

/-!
# The walk over a tree

The walk of a tree keeps a stack of scopes. What it still has to look at is a function of the
stack: of each scope the siblings from its index on, each with all that is below it
(`Scope.ahead`). One turn of the loop either drops a scope in which nothing is ahead, or looks at
the first node that is ahead and leaves the rest (`turn_ahead`), and the scopes weigh less after
it. So the loop ends, and it looks at the nodes in the order in which `Node.descendants` lists
them.

Results:
* `turns_end`: the loop ends, and what it has looked at is what was ahead;
* `walkWith_eq_mapM`: the walk tells of the insertions ahead that nothing excuses, in order, in
  whatever way it tells of each;
* `detect_reports_every_insertion`: the same of a whole tree, for the findings.
-/

namespace RawHtmlLint.Rule

open Template

/-- The place of a visited node among its siblings. -/
def scopeAt (v : Node.Visit) : Scope := ⟨v.siblings, v.index⟩

/-- A scope still to be walked: the places of the siblings from its index on, and of all nodes
below each. -/
def Scope.ahead (s : Scope) : List Scope :=
  (s.siblings.zipIdx.drop s.index).flatMap fun c =>
    ⟨s.siblings, c.2⟩ :: c.1.descendants.map scopeAt

/-- The loop between two turns: the scopes, top one first, and the places looked at so far. -/
structure Loop where
  scopes : List Scope
  looked : List Scope

/-- One turn of the loop. -/
def Loop.turn (l : Loop) : Loop :=
  match l.scopes with
  | [] => l
  | scope :: scopes =>
    match scope.siblings[scope.index]? with
    | none => { l with scopes }
    | some node => ⟨node.fragments.map scopeOf ++ scope.next :: scopes, l.looked ++ [scope]⟩

/-! ## What is ahead -/

theorem ahead_eq_nil {s : Scope} (h : s.siblings[s.index]? = none) : s.ahead = [] := by
  have hlen := List.getElem?_eq_none_iff.mp h
  unfold Scope.ahead
  rw [List.drop_of_length_le (by rw [List.length_zipIdx]; exact hlen), List.flatMap_nil]

theorem ahead_eq_cons {s : Scope} {node : Node} (h : s.siblings[s.index]? = some node) :
    s.ahead = s :: (node.descendants.map scopeAt ++ s.next.ahead) := by
  obtain ⟨hlt, hget⟩ := List.getElem?_eq_some_iff.mp h
  have hdrop : s.siblings.zipIdx.drop s.index =
      (node, s.index) :: s.siblings.zipIdx.drop (s.index + 1) := by
    rw [List.drop_eq_getElem_cons (by rw [List.length_zipIdx]; exact hlt), List.getElem_zipIdx,
      hget, Nat.zero_add]
  unfold Scope.ahead
  rw [hdrop, List.flatMap_cons]
  rfl

theorem ahead_scopeOf (f : Fragment Node) : (scopeOf f).ahead =
    f.children.zipIdx.flatMap fun c => ⟨f.children, c.2⟩ :: c.1.descendants.map scopeAt := rfl

theorem scopeAt_under (step : Nat × Nat) (vs : List Node.Visit) :
    (vs.map (Node.Visit.under step)).map scopeAt = vs.map scopeAt := by
  rw [List.map_map]
  rfl

/-- Ahead in the scopes of a node is all that is below it. -/
theorem ahead_scopesOf (x : Node) :
    (x.fragments.map scopeOf).flatMap Scope.ahead = x.descendants.map scopeAt := by
  have hfst : ∀ fs : List (Fragment Node), fs.flatMap (fun f => (scopeOf f).ahead) =
      fs.zipIdx.flatMap fun f => (scopeOf f.1).ahead := by
    intro fs
    conv_lhs => rw [← List.zipIdx_map_fst 0 fs, List.flatMap_map]
  rw [List.flatMap_map, hfst, Node.descendants_eq, List.map_flatMap]
  refine List.flatMap_congr ?_
  intro f _
  rw [ahead_scopeOf, List.map_flatMap]
  refine List.flatMap_congr ?_
  intro c _
  rw [List.map_cons, scopeAt_under]
  rfl

/-! ## The loop -/

/-- A turn moves one place from what is ahead to what was looked at, or drops a scope. -/
theorem turn_ahead (l : Loop) :
    l.turn.looked ++ l.turn.scopes.flatMap Scope.ahead =
      l.looked ++ l.scopes.flatMap Scope.ahead := by
  unfold Loop.turn
  split
  · rfl
  · rename_i scope scopes hscopes
    rw [hscopes, List.flatMap_cons]
    split
    · rename_i hnone
      rw [ahead_eq_nil hnone, List.nil_append]
    · rename_i node hsome
      rw [List.flatMap_append, ahead_scopesOf, List.flatMap_cons, ahead_eq_cons hsome]
      simp only [List.append_assoc, List.cons_append, List.nil_append]

theorem turns_ahead (n : Nat) (l : Loop) :
    (Loop.turn^[n] l).looked ++ (Loop.turn^[n] l).scopes.flatMap Scope.ahead =
      l.looked ++ l.scopes.flatMap Scope.ahead := by
  induction n generalizing l with
  | zero => rfl
  | succ n ih => rw [Function.iterate_succ_apply, ih, turn_ahead]

/-- A turn makes the scopes lighter as long as there are any. -/
theorem weight_turn (l : Loop) : weight l.turn.scopes ≤ weight l.scopes - 1 := by
  unfold Loop.turn
  split
  · rename_i hscopes
    rw [hscopes]
    exact Nat.zero_le _
  · rename_i scope scopes hscopes
    rw [hscopes, weight_cons]
    split
    · have hpos : 0 < scope.weight := Nat.succ_pos _
      show weight scopes ≤ _
      omega
    · rename_i node hsome
      have hlt := weight_scopesOf_lt node
      rw [weight_append, weight_cons, weight_next hsome]
      omega

theorem scopes_eq_nil_of_weight {scopes : List Scope} (h : weight scopes = 0) : scopes = [] := by
  cases scopes with
  | nil => rfl
  | cons scope scopes =>
    have hpos : 0 < scope.weight := Nat.succ_pos _
    rw [weight_cons] at h
    omega

/-- **The loop ends** after at most as many turns as the scopes weigh, and then it has looked at
what was ahead. -/
theorem turns_end : ∀ (n : Nat) (l : Loop), weight l.scopes ≤ n →
    Loop.turn^[n] l = ⟨[], l.looked ++ l.scopes.flatMap Scope.ahead⟩
  | 0, l, h => by
    have hnil := scopes_eq_nil_of_weight (Nat.le_zero.mp h)
    cases l
    simp only at hnil
    subst hnil
    simp
  | n + 1, l, h => by
    have hturn := weight_turn l
    rw [Function.iterate_succ_apply, turns_end n l.turn (by omega), turn_ahead]

/-! ## What is reported -/

/-- The insertion at a place, by its span and expression, unless it is sanitized or suppressed. -/
def insertionAt? (trusted : List String) (s : Scope) : Option (Span × Option Expression) :=
  match s.siblings[s.index]? with
  | some (.tag .rawHtml span expression) =>
    if isSanitized trusted expression || isSuppressed s.siblings s.index then none
    else some (span, expression)
  | _ => none

section

variable {m : Type → Type} [Monad m] [LawfulMonad m] {α : Type}

/-- **The walk tells of the insertions ahead** that nothing excuses, one after the other and in
order, in whatever way it tells of each. -/
theorem walkWith_eq_mapM (tell : Span → Option Expression → m α) (trusted : List String)
    (scopes : List Scope) : walkWith tell trusted scopes =
      ((scopes.flatMap Scope.ahead).filterMap (insertionAt? trusted)).mapM
        fun i => tell i.1 i.2 := by
  fun_induction walkWith tell trusted scopes with
  | case1 => rfl
  | case2 scope scopes hnone ih => rw [ih, List.flatMap_cons, ahead_eq_nil hnone, List.nil_append]
  | case3 scope scopes span expression hsome hexcused ih =>
    have hnot : insertionAt? trusted scope = none := by
      unfold insertionAt?
      rw [hsome]
      simp only [hexcused, if_true]
    have hbelow : (Node.tag .rawHtml span expression).descendants = [] := by
      rw [Node.descendants_eq]
      rfl
    rw [ih, List.flatMap_cons, List.flatMap_cons, ahead_eq_cons hsome, hbelow, List.cons_append,
      List.filterMap_cons, hnot]
    rfl
  | case4 scope scopes span expression hsome hexcused ih =>
    have hat : insertionAt? trusted scope = some (span, expression) := by
      unfold insertionAt?
      rw [hsome]
      simp only [hexcused, Bool.false_eq_true, if_false]
    have hbelow : (Node.tag .rawHtml span expression).descendants = [] := by
      rw [Node.descendants_eq]
      rfl
    rw [ih, List.flatMap_cons, List.flatMap_cons, ahead_eq_cons hsome, hbelow, List.cons_append,
      List.filterMap_cons, hat, List.mapM_cons]
    rfl
  | case5 scope scopes node hother hsome ih =>
    have hnot : insertionAt? trusted scope = none := by
      unfold insertionAt?
      rw [hsome]
      split
      · rename_i span expression heq
        exact absurd (Option.some.inj heq) (hother span expression)
      · rfl
    rw [ih, List.flatMap_append, ahead_scopesOf, List.flatMap_cons, List.flatMap_cons,
      ahead_eq_cons hsome, List.cons_append, List.filterMap_cons, hnot, List.append_assoc]

end

theorem walk_eq_mapM (trusted : List String) (scopes : List Scope) :
    walk trusted scopes =
      ((scopes.flatMap Scope.ahead).filterMap (insertionAt? trusted)).mapM
        fun i => report i.1 i.2 :=
  walkWith_eq_mapM report trusted scopes

/-- Whenever the loop is stopped, the walk is what it reports of the places looked at, and then
the walk of the scopes that are left. -/
theorem walk_after_turns (trusted : List String) (n : Nat) (scopes : List Scope) :
    walk trusted scopes = do
      let l := Loop.turn^[n] ⟨scopes, []⟩
      let found ← (l.looked.filterMap (insertionAt? trusted)).mapM fun i => report i.1 i.2
      return found ++ (← walk trusted l.scopes) := by
  have h := turns_ahead n ⟨scopes, []⟩
  rw [List.nil_append] at h
  dsimp only
  rw [walk_eq_mapM, walk_eq_mapM, ← h, List.filterMap_append, List.mapM_append]

/-- The insertions of a tree to be reported. A lone insertion has no siblings, so only a
sanitizer excuses it. -/
def insertions (trusted : List String) : Node → List (Span × Option Expression)
  | .tag .rawHtml span expression =>
    if isSanitized trusted expression then [] else [(span, expression)]
  | root => root.descendants.filterMap fun v => insertionAt? trusted (scopeAt v)

/-- The same of a whole tree. -/
theorem detectWith_eq_mapM {m : Type → Type} [Monad m] [LawfulMonad m] {α : Type}
    (tell : Span → Option Expression → m α) (trusted : List String) (root : Node) :
    detectWith tell trusted root = (insertions trusted root).mapM fun i => tell i.1 i.2 := by
  unfold detectWith
  split
  · rename_i span expression
    simp only [insertions]
    split
    · rfl
    · rw [List.mapM_cons, List.mapM_nil]
      simp only [pure_bind]
  · rename_i hother
    have hroot : insertions trusted root =
        root.descendants.filterMap fun v => insertionAt? trusted (scopeAt v) := by
      unfold insertions
      split
      · exact absurd rfl (hother _ _)
      · rfl
    rw [walkWith_eq_mapM, ahead_scopesOf, hroot, List.filterMap_map]
    rfl

theorem detect_eq_mapM (trusted : List String) (root : Node) :
    detect trusted root = (insertions trusted root).mapM fun i => report i.1 i.2 :=
  detectWith_eq_mapM report trusted root

/-- The finding that an insertion is, if it has an expression. -/
def findingOf (path : String) : Option Expression → Outcome Finding
  | some e => .ok ⟨path, e.location, message⟩
  | none => .error .emptyInsertion

theorem map_findings (path : String) : ∀ is : List (Span × Option Expression),
    (is.mapM fun i => report i.1 i.2).map (·.map (Finding.ofInsertion path)) =
      is.mapM fun i => findingOf path i.2
  | [] => rfl
  | (span, none) :: is => by
    rw [List.mapM_cons, List.mapM_cons]
    rfl
  | (span, some e) :: is => by
    rw [List.mapM_cons, List.mapM_cons, ← map_findings path is]
    cases h : is.mapM fun i => report i.1 i.2 with
    | ok insertions => rfl
    | error failure => rfl

theorem mapM_fails_iff : ∀ is : List (Span × Option Expression),
    (∃ failure, (is.mapM fun i => report i.1 i.2) = .error failure) ↔ ∃ i ∈ is, i.2 = none
  | [] => ⟨fun ⟨_, h⟩ => (nomatch h), fun ⟨_, h, _⟩ => absurd h List.not_mem_nil⟩
  | (span, none) :: is => by
    rw [List.mapM_cons]
    exact ⟨fun _ => ⟨_, List.mem_cons_self, rfl⟩, fun _ => ⟨_, rfl⟩⟩
  | (span, some e) :: is => by
    have ih := mapM_fails_iff is
    have hstep : (∃ failure, (((span, some e) :: is).mapM fun i => report i.1 i.2) =
        .error failure) ↔ ∃ failure, (is.mapM fun i => report i.1 i.2) = .error failure := by
      rw [List.mapM_cons]
      cases h : is.mapM fun i => report i.1 i.2 with
      | ok insertions => exact ⟨fun ⟨_, h⟩ => (nomatch h), fun ⟨_, h⟩ => (nomatch h)⟩
      | error failure => exact ⟨fun _ => ⟨_, rfl⟩, fun _ => ⟨_, rfl⟩⟩
    rw [hstep, ih]
    simp

/-- **The walk is the structural recursion.** The loop ends, with as many turns as the tree has
nodes, and has then looked at each node that a path leads to, once and in the order of the paths.
The findings are those of the insertions that nothing excuses, in that order, and there is a
failure exactly if one of these has no expression. -/
theorem detect_reports_every_insertion (trusted : List String) (path : String) (root : Node) :
    Loop.turn^[root.size] ⟨root.fragments.map scopeOf, []⟩ =
        ⟨[], root.descendants.map scopeAt⟩ ∧
      (∀ n, walk trusted (root.fragments.map scopeOf) = do
        let l := Loop.turn^[n] ⟨root.fragments.map scopeOf, []⟩
        let found ← (l.looked.filterMap (insertionAt? trusted)).mapM fun i => report i.1 i.2
        return found ++ (← walk trusted l.scopes)) ∧
      (∀ v, v ∈ root.descendants ↔ root.Leads v) ∧
      (root.descendants.map Node.Visit.path).Nodup ∧
      (root.descendants.Pairwise fun v w => v.path.Before w.path) ∧
      (detect trusted root).map (·.map (Finding.ofInsertion path)) =
        (insertions trusted root).mapM (fun i => findingOf path i.2) ∧
      ((∃ failure, detect trusted root = .error failure) ↔
        ∃ i ∈ insertions trusted root, i.2 = none) := by
  refine ⟨?_, fun n => walk_after_turns trusted n _, fun v => Node.mem_descendants_iff,
    Node.nodup_paths root, Node.descendants_sorted root, ?_, ?_⟩
  · have hweight := Nat.le_of_lt (weight_scopesOf_lt root)
    rw [turns_end root.size ⟨root.fragments.map scopeOf, []⟩ hweight, ahead_scopesOf,
      List.nil_append]
  · rw [detect_eq_mapM, map_findings]
  · rw [detect_eq_mapM]
    exact mapM_fails_iff _

end RawHtmlLint.Rule

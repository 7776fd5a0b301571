import RawHtmlLint.Template.Node

/-!
# Unsafe insertions

Model of `detect`, `is_sanitized`, `is_suppressed` with `_at`, `_suppresses` and `_is_blank`, and
`_report`. An insertion `{@html …}` is unsafe unless there is evidence that it is safe: its
expression is a direct call of a trusted sanitizer, or a suppression comment stands right beside it
among its siblings, with at most one text of white space between.

A tree is walked with a stack of scopes: the siblings of a fragment, and the next of them to be
looked at. What remains of a scope waits below the scopes of the child that is looked at, so
insertions are met in the order of the source. What is told of an insertion is told when it is met:
the walk is the same whether it only lists them or writes of each in a log.

Results:
* `weight_scopesOf_lt`: the scopes of a node weigh less than the node, so the walk ends.
-/

namespace RawHtmlLint.Rule

open Template

/-- The name of the rule. -/
def name : String := "unsafe_html"

/-- What the rule says of an unsafe insertion. -/
def message : String := "Unsafe raw HTML insertion without sanitizer"

/-- The expression is a direct call of one of the trusted names. -/
def isSanitized (trusted : List String) (expression : Option Expression) : Bool :=
  match expression with
  | none => false
  | some e =>
    e.isCall &&
      match e.callee with
      | none => false
      | some callee => callee.kind == "identifier" && callee.name.any trusted.contains

/-- The sibling at an index, which may be negative or too large: then there is none. -/
def siblingAt? (siblings : List Node) (index : Int) : Option Node :=
  if 0 ≤ index ∧ index < siblings.length then siblings[index.toNat]? else none

/-- A comment that suppresses the rule stands beside the sibling at `index`. The places are asked
in this order: next after it, after one text of white space, next before it, before one text of
white space. -/
def isSuppressed (siblings : List Node) (index : Int) (rule : String := Rule.name) : Bool :=
  let following := siblingAt? siblings (index + 1)
  if following.any (·.suppresses rule) then true
  else if following.any (·.isBlankText) &&
      (siblingAt? siblings (index + 2)).any (·.suppresses rule) then true
  else
    let preceding := siblingAt? siblings (index - 1)
    if preceding.any (·.suppresses rule) then true
    else preceding.any (·.isBlankText) &&
      (siblingAt? siblings (index - 2)).any (·.suppresses rule)

/-- An unsafe insertion: the span of its tag and its expression. -/
structure Insertion where
  span : Span
  expression : Expression

/-- Reports an insertion; one without an expression cannot be reported. -/
def report (span : Span) : Option Expression → Outcome Insertion
  | some expression => .ok ⟨span, expression⟩
  | none => .error .emptyInsertion

/-- Siblings, and the index of the next of them to be looked at. -/
structure Scope where
  siblings : List Node
  index : Nat

/-- The scope of a fragment, from its start. -/
def scopeOf (f : Fragment Node) : Scope := ⟨f.children, 0⟩

/-- The scope with one sibling less to be looked at. -/
def Scope.next (s : Scope) : Scope := { s with index := s.index + 1 }

/-- The nodes still to be looked at, and one for the scope itself. -/
def Scope.weight (s : Scope) : Nat := Node.sizeAll (s.siblings.drop s.index) + 1

/-- The weight of all the scopes. -/
def weight : List Scope → Nat
  | [] => 0
  | s :: scopes => s.weight + weight scopes

theorem weight_cons (s : Scope) (scopes : List Scope) :
    weight (s :: scopes) = s.weight + weight scopes := rfl

theorem weight_append : ∀ ss ts : List Scope, weight (ss ++ ts) = weight ss + weight ts
  | [], ts => by rw [List.nil_append, weight, Nat.zero_add]
  | s :: ss, ts => by
    rw [List.cons_append, weight_cons, weight_cons, weight_append ss ts, Nat.add_assoc]

theorem weight_scopeOf (f : Fragment Node) : weight [scopeOf f] = Node.sizeOfFragment f := by
  cases f
  exact Nat.add_zero _

theorem weight_optional (f : Option (Fragment Node)) :
    weight (f.toList.map scopeOf) = Node.sizeOfOptional f := by
  cases f with
  | none => rfl
  | some f => exact weight_scopeOf f

/-- The scopes of a node weigh less than the node. -/
theorem weight_scopesOf_lt (node : Node) : weight (node.fragments.map scopeOf) < node.size := by
  cases node with
  | fragment f => exact Nat.lt_succ_of_le (Nat.le_of_eq (weight_scopeOf f))
  | _ =>
    simp only [Node.fragments, Node.size, List.map_append, weight_append, weight_optional]
    exact Nat.lt_succ_self _

theorem weight_next {s : Scope} {node : Node} (h : s.siblings[s.index]? = some node) :
    s.weight = node.size + s.next.weight := by
  obtain ⟨hlt, hget⟩ := List.getElem?_eq_some_iff.mp h
  simp only [Scope.weight, Scope.next]
  rw [List.drop_eq_getElem_cons hlt, hget, Node.sizeAll, Nat.add_assoc]

/-- Tells of the unsafe insertions in the scopes, the top one first, one after the other. -/
def walkWith {m : Type → Type} [Monad m] {α : Type} (tell : Span → Option Expression → m α)
    (trusted : List String) : List Scope → m (List α)
  | [] => return []
  | scope :: scopes =>
    match _h : scope.siblings[scope.index]? with
    | none => walkWith tell trusted scopes
    | some (.tag .rawHtml span expression) =>
      if isSanitized trusted expression || isSuppressed scope.siblings scope.index then
        walkWith tell trusted (scope.next :: scopes)
      else do
        let told ← tell span expression
        return told :: (← walkWith tell trusted (scope.next :: scopes))
    | some node => walkWith tell trusted (node.fragments.map scopeOf ++ scope.next :: scopes)
termination_by scopes => weight scopes
decreasing_by
  · rw [weight_cons]
    exact Nat.lt_add_of_pos_left (Nat.succ_pos _)
  · rw [weight_cons, weight_cons, weight_next _h, Node.size]
    omega
  · rw [weight_cons, weight_cons, weight_next _h, Node.size]
    omega
  · have hscopes := weight_scopesOf_lt node
    rw [weight_cons, weight_append, weight_cons, weight_next _h]
    omega

/-- Tells of the unsafe insertions in a tree, in the order of the source. A lone insertion has no
siblings, so nothing can suppress it. -/
def detectWith {m : Type → Type} [Monad m] {α : Type} (tell : Span → Option Expression → m α)
    (trusted : List String) (root : Node) : m (List α) :=
  match root with
  | .tag .rawHtml span expression =>
    if isSanitized trusted expression then return []
    else do return [← tell span expression]
  | root => walkWith tell trusted (root.fragments.map scopeOf)

/-- The unsafe insertions in the scopes. -/
def walk (trusted : List String) (scopes : List Scope) : Outcome (List Insertion) :=
  walkWith report trusted scopes

/-- The unsafe insertions in a tree. -/
def detect (trusted : List String) (root : Node) : Outcome (List Insertion) :=
  detectWith report trusted root

end RawHtmlLint.Rule

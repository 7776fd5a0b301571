/-!
# Grammar trees

Model of the nodes that the grammars give, and of `first_error_node`. What a grammar makes of a
text: nodes with a kind, the bytes of the text that they span, and their children in order. A node
is named or a mere sign of the grammar; it may stand for something that is missing in the text, or
be of the kind `ERROR` for what could not be read.

Results:
* `sizeAll_append`: sizes of lists of trees add up.
* `size_lt_of_mem_children`: a child is smaller than its parent.
-/

namespace RawHtmlLint.Grammar

/-- The parts of a call that a grammar names. -/
inductive Field where
  | arguments
  | function
  deriving DecidableEq, Repr

/-- A node without its children. -/
structure Label where
  kind : String
  startByte : Nat
  stopByte : Nat
  /-- The node is one of the grammar's named kinds, not a sign. -/
  named : Bool
  /-- The node stands for something that the text lacks. -/
  missing : Bool
  /-- The parts of its parent that the node is. -/
  fields : List Field
  deriving DecidableEq, Repr, Inhabited

/-- A grammar tree. -/
inductive Tree where
  | node (label : Label) (children : List Tree)

/-- What a grammar answers: the tree, and whether any of it could not be read. -/
structure Parse where
  root : Tree
  flawed : Bool

instance : Inhabited Tree := ⟨.node default []⟩

namespace Tree

def label : Tree → Label
  | .node l _ => l

def children : Tree → List Tree
  | .node _ cs => cs

def kind (t : Tree) : String := t.label.kind

mutual

/-- The number of nodes. -/
def size : Tree → Nat
  | .node _ cs => sizeAll cs + 1

/-- The number of nodes of all the trees. -/
def sizeAll : List Tree → Nat
  | [] => 0
  | t :: ts => size t + sizeAll ts

end

theorem size_eq (t : Tree) : t.size = sizeAll t.children + 1 := by
  cases t
  rfl

theorem sizeAll_cons (t : Tree) (ts : List Tree) : sizeAll (t :: ts) = t.size + sizeAll ts := rfl

/-- Sizes of lists of trees add up. -/
theorem sizeAll_append : ∀ ts us : List Tree, sizeAll (ts ++ us) = sizeAll ts + sizeAll us
  | [], us => by rw [List.nil_append, sizeAll, Nat.zero_add]
  | t :: ts, us => by
    rw [List.cons_append, sizeAll_cons, sizeAll_cons, sizeAll_append ts us, Nat.add_assoc]

theorem size_le_sizeAll_of_mem : ∀ {ts : List Tree} {t : Tree}, t ∈ ts → t.size ≤ sizeAll ts
  | u :: ts, t, h => by
    rw [sizeAll_cons]
    rcases List.mem_cons.mp h with rfl | h
    · exact Nat.le_add_right _ _
    · exact Nat.le_trans (size_le_sizeAll_of_mem h) (Nat.le_add_left _ _)

/-- A child is smaller than its parent. -/
theorem size_lt_of_mem_children {t u : Tree} (h : u ∈ t.children) : u.size < t.size := by
  rw [size_eq t]
  exact Nat.lt_succ_of_le (size_le_sizeAll_of_mem h)

/-- The named children. -/
def namedChildren (t : Tree) : List Tree := t.children.filter (·.label.named)

/-- The first child that is the part of its parent. -/
def child? (t : Tree) (field : Field) : Option Tree :=
  t.children.find? fun c => c.label.fields.contains field

/-- The first child of one of the kinds. -/
def childOfKind? (t : Tree) (kinds : List String) : Option Tree :=
  t.children.find? fun c => kinds.contains c.kind

/-- The node shows a flaw of the text: something unreadable or something missing. -/
def isFlaw (t : Tree) : Bool := t.kind == "ERROR" || t.label.missing

/-- The first flaw among the nodes of the trees still to be searched, in document order. -/
def firstFlawAmong? : List Tree → Option Tree
  | [] => none
  | t :: todo => if t.isFlaw then some t else firstFlawAmong? (t.children ++ todo)
termination_by todo => sizeAll todo
decreasing_by
  rw [sizeAll_append, sizeAll_cons, size_eq]
  omega

/-- The first flaw of a tree, in document order. -/
def firstFlaw? (t : Tree) : Option Tree := firstFlawAmong? [t]

/-- The trees that the nodes of a preorder listing form, each node given with the number of its
children: the first `n` trees that follow a node are its children. -/
def forest (nodes : List (Label × Nat)) : List Tree :=
  nodes.foldr (fun n trees => .node n.1 (trees.take n.2) :: trees.drop n.2) []

/-- The tree that a preorder listing describes. -/
def ofPreorder? (nodes : List (Label × Nat)) : Option Tree := (forest nodes).head?

end Tree

end RawHtmlLint.Grammar

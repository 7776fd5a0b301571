import RawHtmlLint.Proofs.Outcome
import RawHtmlLint.Rule.Insertion

/-!
# Direct calls of sanitizers

What silences the rule is a direct call of a trusted name, and this is a property of the grammar's
tree. Parentheses are looked through twice: around the whole expression, where each pair must hold
one expression, and around what is called, where the first pair that does not is the end of the
search. Both searches walk along one relation between nodes, `Wraps`, and where they arrive at a
node that is no pair of parentheses they arrive at the only such node (`Wraps.unique`).

Results:
* `inside?_eq_some_iff`, `wraps_stripped`: the two searches follow `Wraps`;
* `read_eq_ok_iff`: what is read is the one expression of the tree;
* `isSanitized_ofTree_iff`: a node is trusted exactly if it is a direct call of a trusted name;
* `read_isSanitized_iff`: the same of what is read from a source.
-/

namespace RawHtmlLint.Expression

open Grammar Text

/-! ## Parentheses -/

/-- The node counts: it is named, and no comment. -/
def Significant (t : Tree) : Prop :=
  t.label.named = true ∧ t.kind ≠ "comment" ∧ t.kind ≠ "html_comment"

/-- Of the children of the first node only the second counts. -/
def OnlyHolds (t c : Tree) : Prop :=
  ∃ before after, t.children = before ++ c :: after ∧ Significant c ∧
    ∀ d ∈ before ++ after, ¬ Significant d

/-- The first node is the second one inside parentheses, any number of pairs of them, each of which
holds nothing else that counts. -/
inductive Wraps : Tree → Tree → Prop
  | bare (t : Tree) : Wraps t t
  | pair {t c u : Tree} (hkind : t.kind = "parenthesized_expression") (honly : OnlyHolds t c)
      (hwraps : Wraps c u) : Wraps t u

theorem isParenthesized_iff {t : Tree} :
    isParenthesized t = true ↔ t.kind = "parenthesized_expression" := beq_iff_eq

/-- The significant children are the children that count. -/
theorem significant_eq_filter (t : Tree) : significant t = t.children.filter fun c =>
    c.label.named && !(["comment", "html_comment"].contains c.kind) := by
  unfold significant Tree.namedChildren
  rw [List.filter_filter]
  exact List.filter_congr fun c _ => Bool.and_comm _ _

theorem significant_test_iff {c : Tree} :
    (c.label.named && !(["comment", "html_comment"].contains c.kind)) = true ↔ Significant c := by
  simp [Significant]

theorem significant_eq_singleton_iff {t c : Tree} : significant t = [c] ↔ OnlyHolds t c := by
  rw [significant_eq_filter, List.filter_eq_cons_iff]
  simp only [significant_test_iff, List.filter_eq_nil_iff]
  constructor
  · rintro ⟨before, after, he, hbefore, hc, hafter⟩
    exact ⟨before, after, he, hc, List.forall_mem_append.mpr ⟨hbefore, hafter⟩⟩
  · rintro ⟨before, after, he, hc, hothers⟩
    obtain ⟨hbefore, hafter⟩ := List.forall_mem_append.mp hothers
    exact ⟨before, after, he, hbefore, hc, hafter⟩

/-- **Inside the parentheses there is one node.** -/
theorem Wraps.unique {t u v : Tree} (hu : Wraps t u) (hv : Wraps t v)
    (hukind : u.kind ≠ "parenthesized_expression") (hvkind : v.kind ≠ "parenthesized_expression") :
    u = v := by
  induction hu with
  | bare t =>
    cases hv with
    | bare => rfl
    | pair hkind _ _ => exact absurd hkind hukind
  | pair hkind honly _ ih =>
    cases hv with
    | bare => exact absurd hkind hvkind
    | pair _ honly' hv =>
      have hone := significant_eq_singleton_iff.mpr honly
      rw [significant_eq_singleton_iff.mpr honly'] at hone
      cases hone
      exact ih hv hukind

/-- **Around the whole expression** each pair of parentheses must hold one expression. -/
theorem inside?_eq_some_iff {t u : Tree} :
    inside? t = some u ↔ Wraps t u ∧ u.kind ≠ "parenthesized_expression" := by
  fun_induction inside? t with
  | case1 t hparen c hc ih =>
    rw [ih]
    refine and_congr_left fun hu => ⟨?_, fun h => ?_⟩
    · exact .pair (isParenthesized_iff.mp hparen) (significant_eq_singleton_iff.mp hc)
    · cases h with
      | bare => exact absurd (isParenthesized_iff.mp hparen) hu
      | pair _ honly h =>
        rw [significant_eq_singleton_iff.mpr honly] at hc
        cases hc
        exact h
  | case2 t hparen hnot =>
    refine ⟨fun h => (nomatch h), fun ⟨h, hu⟩ => ?_⟩
    cases h with
    | bare => exact absurd (isParenthesized_iff.mp hparen) hu
    | pair _ honly _ => exact absurd (significant_eq_singleton_iff.mpr honly) (hnot _)
  | case3 t hparen =>
    have hkind : t.kind ≠ "parenthesized_expression" := fun h => hparen (isParenthesized_iff.mpr h)
    constructor
    · intro h
      cases h
      exact ⟨.bare _, hkind⟩
    · rintro ⟨h, _⟩
      cases h with
      | bare => rfl
      | pair h _ _ => exact absurd h hkind

/-- **Around what is called** the search ends at a pair that does not hold one expression. -/
theorem wraps_stripped (t : Tree) : Wraps t (stripped t) := by
  fun_induction stripped t with
  | case1 t hparen c hc ih =>
    exact .pair (isParenthesized_iff.mp hparen) (significant_eq_singleton_iff.mp hc) ih
  | case2 t _ _ => exact .bare t
  | case3 t _ => exact .bare t

theorem stripped_eq_of_wraps {t u : Tree} (h : Wraps t u)
    (hu : u.kind ≠ "parenthesized_expression") : stripped t = u := by
  induction h with
  | bare t =>
    rw [stripped, if_neg fun h => hu (isParenthesized_iff.mp h)]
  | pair hkind honly _ ih =>
    rw [stripped, if_pos (isParenthesized_iff.mpr hkind)]
    split
    · rename_i c hc
      rw [significant_eq_singleton_iff.mpr honly] at hc
      cases hc
      exact ih hu
    · rename_i hnot
      exact absurd (significant_eq_singleton_iff.mpr honly) (hnot _)

/-! ## The expression of a tree -/

/-- The node is the expression of the tree for a parenthesized text of `size` bytes: the tree is
one statement, this is one expression in parentheses that spans all bytes, and the node is inside
these parentheses and all further ones. -/
def IsExpressionOf (parse : Parse) (size : Nat) (node : Tree) : Prop :=
  parse.flawed = false ∧ ∃ statement outer, OnlyHolds parse.root statement ∧
    statement.kind = "expression_statement" ∧ OnlyHolds statement outer ∧
    outer.kind = "parenthesized_expression" ∧ outer.label.startByte = 0 ∧
    outer.label.stopByte = size ∧ Wraps outer node ∧ node.kind ≠ "parenthesized_expression"

theorem single?_eq_some_iff {parse : Parse} {size : Nat} {node : Tree} :
    single? parse size = some node ↔ IsExpressionOf parse size node := by
  unfold single? IsExpressionOf
  constructor
  · intro h
    split at h
    · cases h
    · rename_i hflawed
      split at h
      · rename_i statement hstatement
        split at h
        · rename_i hkind
          split at h
          · rename_i outer houter
            split at h
            · rename_i hspan
              obtain ⟨hparen, hstart, hstop⟩ := hspan
              exact ⟨Bool.eq_false_iff.mpr hflawed, statement, outer,
                significant_eq_singleton_iff.mp hstatement, hkind,
                significant_eq_singleton_iff.mp houter, isParenthesized_iff.mp hparen, hstart,
                hstop, inside?_eq_some_iff.mp h⟩
            · cases h
          · cases h
        · cases h
      · cases h
  · rintro ⟨hflawed, statement, outer, hstatement, hkind, houter, hparen, hstart, hstop, hinside⟩
    rw [hflawed, significant_eq_singleton_iff.mpr hstatement]
    simp only [Bool.false_eq_true, if_false, hkind, if_true]
    rw [significant_eq_singleton_iff.mpr houter]
    simp only [isParenthesized_iff.mpr hparen, hstart, hstop, and_self, if_true]
    exact inside?_eq_some_iff.mpr hinside

theorem IsExpressionOf.unique {parse : Parse} {size : Nat} {node other : Tree}
    (h : IsExpressionOf parse size node) (h' : IsExpressionOf parse size other) : node = other := by
  have hnode := single?_eq_some_iff.mpr h
  rw [single?_eq_some_iff.mpr h'] at hnode
  exact (Option.some.inj hnode).symm

/-- **What is read is the one expression of the tree**, and there must be one. -/
theorem read_eq_ok_iff {s : Source} {g : Grammars} {language : String} {start stop : Nat}
    {e : Expression} : read s g language start stop = .ok e ↔
      allBlank (s.slice start stop) = false ∧
        ∃ parse, g.parse language (wrapped (s.slice start stop)) = .ok parse ∧
          ∃ node, IsExpressionOf parse (bytesOf (wrapped (s.slice start stop))).size node ∧
            e = ofTree s (bytesOf (wrapped (s.slice start stop))) start node := by
  unfold read
  dsimp only
  constructor
  · intro h
    split at h
    · exact absurd h reject_ne_ok
    · rename_i hblank
      obtain ⟨parse, hparse, h⟩ := bind_eq_ok.mp h
      split at h
      · rename_i node hnode
        exact ⟨Bool.eq_false_iff.mpr hblank, parse, hparse, node, single?_eq_some_iff.mp hnode,
          (pure_eq_ok.mp h).symm⟩
      · exact absurd h reject_ne_ok
  · rintro ⟨hblank, parse, hparse, node, hnode, rfl⟩
    rw [hblank, if_neg Bool.false_ne_true]
    refine bind_eq_ok.mpr ⟨parse, hparse, ?_⟩
    rw [single?_eq_some_iff.mpr hnode]
    rfl

/-! ## Direct calls -/

/-- The characters of the source at which a node of the tree for a wrapped text stands; the text
starts at the offset `base` and `bytes` are those of the wrapped text. -/
def sourceText (s : Source) (bytes : ByteArray) (base : Nat) (t : Tree) : String :=
  String.ofList (sliceFrom s.text ((base : Int) + charsWithin bytes t.label.startByte - 1)
    ((base : Int) + charsWithin bytes t.label.stopByte - 1))

/-- The node calls one of the names, with arguments and unconditionally: what is called is an
identifier, perhaps in parentheses. -/
structure DirectCall (text : Tree → String) (names : List String) (t : Tree) : Prop where
  kind_eq : t.kind = "call_expression"
  arguments : ∀ a, t.child? .arguments = some a → a.kind = "arguments"
  unconditional : ∀ c ∈ t.children, c.kind ≠ "optional_chain"
  callee : ∃ function name, t.child? .function = some function ∧ Wraps function name ∧
    name.kind = "identifier" ∧ text name ∈ names

theorem isTaggedTemplate_eq_false_iff {t : Tree} :
    isTaggedTemplate t = false ↔ ∀ a, t.child? .arguments = some a → a.kind = "arguments" := by
  unfold isTaggedTemplate
  split
  · rename_i a ha
    rw [bne_eq_false_iff_eq]
    refine ⟨fun h b hb => ?_, fun h => h a ha⟩
    cases ha.symm.trans hb
    exact h
  · rename_i hnone
    refine ⟨fun _ a ha => ?_, fun _ => rfl⟩
    cases hnone.symm.trans ha

theorem isOptionalCall_eq_false_iff {t : Tree} :
    isOptionalCall t = false ↔ ∀ c ∈ t.children, c.kind ≠ "optional_chain" := by
  unfold isOptionalCall
  rw [List.any_eq_false]
  exact forall₂_congr fun c _ => not_congr beq_iff_eq

/-- An expression has a name exactly if its node is an identifier, and its kind says so. -/
theorem ofTree_names_iff {s : Source} {bytes : ByteArray} {base : Nat} {t : Tree}
    {trusted : List String} :
    ((ofTree s bytes base t).kind == "identifier" &&
        (ofTree s bytes base t).name.any trusted.contains) = true ↔
      t.kind = "identifier" ∧ sourceText s bytes base t ∈ trusted := by
  have hother : ∀ kind : String, kind ≠ "identifier" → t.kind ≠ "identifier" →
      ((kind == "identifier" && (none : Option String).any trusted.contains) = true ↔
        t.kind = "identifier" ∧ sourceText s bytes base t ∈ trusted) :=
    fun kind _ ht => ⟨fun h => by simp at h, fun h => absurd h.1 ht⟩
  rw [ofTree]
  dsimp only
  split
  · rename_i hkind
    simp only [hkind, beq_self_eq_true, Bool.true_and, Option.any_some, List.contains_iff_mem,
      true_and]
    rfl
  · rename_i hkind
    split
    · split
      · exact hother "tagged_template_expression" (by decide) hkind
      · split
        · exact hother "optional_call_expression" (by decide) hkind
        · split <;> exact hother _ hkind hkind
    · exact hother _ hkind hkind

/-- An expression is a call exactly if its node is one, with arguments and unconditional. -/
theorem isCall_ofTree_iff {s : Source} {bytes : ByteArray} {base : Nat} {t : Tree} :
    (ofTree s bytes base t).isCall = true ↔
      t.kind = "call_expression" ∧ isTaggedTemplate t = false ∧ isOptionalCall t = false := by
  unfold isCall
  rw [ofTree, beq_iff_eq]
  dsimp only
  split
  · rename_i hkind
    have hother : "identifier" ≠ "call_expression" := by decide
    rw [hkind]
    exact ⟨fun h => absurd h hother, fun h => absurd h.1 hother⟩
  · split
    · rename_i hkind
      split
      · rename_i htagged
        have hother : "tagged_template_expression" ≠ "call_expression" := by decide
        exact ⟨fun h => absurd h hother, fun h => absurd htagged (Bool.eq_false_iff.mp h.2.1)⟩
      · rename_i htagged
        rw [Bool.not_eq_true] at htagged
        split
        · rename_i hoptional
          have hother : "optional_call_expression" ≠ "call_expression" := by decide
          exact ⟨fun h => absurd h hother, fun h => absurd hoptional (Bool.eq_false_iff.mp h.2.2)⟩
        · rename_i hoptional
          rw [Bool.not_eq_true] at hoptional
          split <;> exact ⟨fun _ => ⟨hkind, htagged, hoptional⟩, fun _ => hkind⟩
    · rename_i hkind
      exact ⟨fun h => absurd h hkind, fun h => absurd h.1 hkind⟩

/-- What a call calls is the expression of its function's node, without the parentheses. -/
theorem callee_ofTree {s : Source} {bytes : ByteArray} {base : Nat} {t : Tree}
    (hkind : t.kind = "call_expression") (htagged : isTaggedTemplate t = false)
    (hoptional : isOptionalCall t = false) :
    (ofTree s bytes base t).callee =
      (t.child? .function).map fun function => ofTree s bytes base (stripped function) := by
  rw [ofTree, if_neg (by rw [hkind]; decide), if_pos hkind, htagged, hoptional,
    if_neg Bool.false_ne_true, if_neg Bool.false_ne_true]
  split
  · rename_i function hfunction
    rw [hfunction]
    rfl
  · rename_i hnone
    rw [hnone]
    rfl

/-- What is called is a trusted name exactly if the node inside the parentheses is one. -/
theorem stripped_names_iff {s : Source} {bytes : ByteArray} {base : Nat} {function : Tree}
    {trusted : List String} :
    ((stripped function).kind = "identifier" ∧
        sourceText s bytes base (stripped function) ∈ trusted) ↔
      ∃ name, Wraps function name ∧ name.kind = "identifier" ∧
        sourceText s bytes base name ∈ trusted := by
  constructor
  · rintro ⟨hkind, hmem⟩
    exact ⟨_, wraps_stripped function, hkind, hmem⟩
  · rintro ⟨name, hwraps, hkind, hmem⟩
    have hparen : name.kind ≠ "parenthesized_expression" := by
      rw [hkind]
      decide
    rw [stripped_eq_of_wraps hwraps hparen]
    exact ⟨hkind, hmem⟩

/-- **A node is trusted exactly if it is a direct call of a trusted name.** -/
theorem isSanitized_ofTree_iff {s : Source} {bytes : ByteArray} {base : Nat} {t : Tree}
    {trusted : List String} :
    Rule.isSanitized trusted (some (ofTree s bytes base t)) = true ↔
      DirectCall (sourceText s bytes base) trusted t := by
  unfold Rule.isSanitized
  rw [Bool.and_eq_true, isCall_ofTree_iff]
  constructor
  · rintro ⟨⟨hkind, htagged, hoptional⟩, hcallee⟩
    rw [callee_ofTree hkind htagged hoptional] at hcallee
    cases hfunction : t.child? .function with
    | none =>
      rw [hfunction] at hcallee
      exact (nomatch hcallee)
    | some function =>
      rw [hfunction] at hcallee
      obtain ⟨name, hname⟩ := stripped_names_iff.mp (ofTree_names_iff.mp hcallee)
      exact ⟨hkind, isTaggedTemplate_eq_false_iff.mp htagged,
        isOptionalCall_eq_false_iff.mp hoptional, function, name, hfunction, hname⟩
  · rintro ⟨hkind, harguments, hunconditional, function, name, hfunction, hname⟩
    have htagged := isTaggedTemplate_eq_false_iff.mpr harguments
    have hoptional := isOptionalCall_eq_false_iff.mpr hunconditional
    refine ⟨⟨hkind, htagged, hoptional⟩, ?_⟩
    rw [callee_ofTree hkind htagged hoptional, hfunction]
    exact ofTree_names_iff.mpr (stripped_names_iff.mpr ⟨name, hname⟩)

/-- The node calls something in another way than by its name: a template takes the place of the
arguments, the call depends on a condition, or what is called, in any parentheses, is not an
identifier but a member, an element, a sequence or anything else. -/
inductive CallsOtherwise (t : Tree) : Prop
  | tagged {a : Tree} (hfield : t.child? .arguments = some a) (hkind : a.kind ≠ "arguments")
  | optional {c : Tree} (hchild : c ∈ t.children) (hkind : c.kind = "optional_chain")
  | unnamed {function callee : Tree} (hfield : t.child? .function = some function)
      (hwraps : Wraps function callee) (hname : callee.kind ≠ "identifier")
      (hparen : callee.kind ≠ "parenthesized_expression")

theorem CallsOtherwise.not_directCall {text : Tree → String} {names : List String} {t : Tree}
    (h : CallsOtherwise t) : ¬ DirectCall text names t := by
  intro hcall
  cases h with
  | tagged hfield hkind => exact hkind (hcall.arguments _ hfield)
  | optional hchild hkind => exact hcall.unconditional _ hchild hkind
  | unnamed hfield hwraps hname hparen =>
    obtain ⟨function, name, hfunction, hwraps', hkind, _⟩ := hcall.callee
    cases hfield.symm.trans hfunction
    have hparen' : name.kind ≠ "parenthesized_expression" := by
      rw [hkind]
      decide
    rw [hwraps.unique hwraps' hparen hparen'] at hname
    exact hname hkind

/-- **What is read is trusted exactly if the one expression of the tree, with all parentheses around
it taken away, is a direct call of a trusted name**; a call in any other way is never trusted. -/
theorem read_isSanitized_iff {s : Source} {g : Grammars} {language : String} {start stop : Nat}
    {e : Expression} (hok : read s g language start stop = .ok e) :
    ∃ parse node, g.parse language (wrapped (s.slice start stop)) = .ok parse ∧
      IsExpressionOf parse (bytesOf (wrapped (s.slice start stop))).size node ∧
      (∀ other, IsExpressionOf parse (bytesOf (wrapped (s.slice start stop))).size other →
        other = node) ∧
      (∀ trusted, Rule.isSanitized trusted (some e) = true ↔
        DirectCall (sourceText s (bytesOf (wrapped (s.slice start stop))) start) trusted node) ∧
      (CallsOtherwise node → ∀ trusted, Rule.isSanitized trusted (some e) = false) := by
  obtain ⟨_, parse, hparse, node, hnode, rfl⟩ := read_eq_ok_iff.mp hok
  refine ⟨parse, node, hparse, hnode, fun other hother => hother.unique hnode,
    fun trusted => isSanitized_ofTree_iff, ?_⟩
  intro hother trusted
  exact Bool.eq_false_iff.mpr fun h => hother.not_directCall (isSanitized_ofTree_iff.mp h)

/-! A call in two pairs of parentheses, of a name that stands in parentheses with a comment. -/

/-- The source `((f/**/)(x))`. -/
def nestedSource : Source := .ofText "Nested.svelte" "((f/**/)(x))".toList

/-- A node of a tree for it, with the parts of its parent that it is. -/
def nestedNode (kind : String) (start stop : Nat) (fields : List Field) (children : List Tree) :
    Tree :=
  .node ⟨kind, start, stop, true, false, fields⟩ children

/-- The tree of its text in parentheses. -/
def nestedTree : Tree :=
  nestedNode "program" 0 15 [] [
    nestedNode "expression_statement" 0 15 [] [
      nestedNode "parenthesized_expression" 0 15 [] [
        nestedNode "parenthesized_expression" 1 13 [] [
          nestedNode "call_expression" 2 12 [] [
            nestedNode "parenthesized_expression" 2 9 [.function] [
              nestedNode "identifier" 3 4 [] [],
              nestedNode "comment" 4 8 [] []],
            nestedNode "arguments" 9 12 [.arguments] [
              nestedNode "identifier" 10 11 [] []]]]]]]

/-- Grammars that take every text for this one. -/
def nestedGrammars : Grammars where
  tree? _ _ := some ⟨nestedTree, false⟩

theorem nestedSource_trusted : ∃ e parse node,
    read nestedSource nestedGrammars "javascript" 0 12 = .ok e ∧
      IsExpressionOf parse (bytesOf (wrapped (nestedSource.slice 0 12))).size node ∧
      DirectCall (sourceText nestedSource (bytesOf (wrapped (nestedSource.slice 0 12))) 0) ["f"]
        node := by
  obtain ⟨e, hread, htrusted⟩ := exists_ok_of_any
    (x := read nestedSource nestedGrammars "javascript" 0 12)
    (p := fun e => Rule.isSanitized ["f"] (some e)) (by decide +kernel)
  obtain ⟨parse, node, _, hnode, _, htrust, _⟩ := read_isSanitized_iff hread
  exact ⟨e, parse, node, hread, hnode, (htrust ["f"]).mp htrusted⟩

end RawHtmlLint.Expression

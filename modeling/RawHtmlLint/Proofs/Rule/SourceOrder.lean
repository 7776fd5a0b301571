import RawHtmlLint.Proofs.Position
import RawHtmlLint.Proofs.Process
import RawHtmlLint.Proofs.Rule.DirectCall
import RawHtmlLint.Proofs.Template.SourceOrder
import RawHtmlLint.Proofs.Text.Utf8

/-!
# Findings in the order of the source

The insertions of a component are met in the order in which they stand in the source, and each is
told by the place of its expression. That is found by the bytes of the expression's tree: as long
as these lie between the parentheses that were added to the text, the expression starts and ends in
its own tag. So the findings are in the order of the source, and no two are at one place.

Results:
* `insertions_apart`: the insertions to be reported follow one another in the source;
* `read_located`: an expression lies between the ends of the text it was read from;
* `analyze_inSourceOrder`: the findings of a component are in the order of the source, each in its
  own tag.
-/

namespace RawHtmlLint

open Grammar Template Text

/-! ## Expressions -/

/-- The nodes inside the parentheses that were added to a text lie between them; with them the text
has `size` bytes. -/
def BetweenParentheses (parse : Parse) (size : Nat) : Prop :=
  ∀ statement ∈ parse.root.children, ∀ outer ∈ statement.children, ∀ c ∈ outer.namedChildren,
    ∀ u ∈ c.nodes, 1 ≤ u.label.startByte ∧ u.label.startByte ≤ u.label.stopByte ∧
      u.label.stopByte + 1 ≤ size

namespace Expression

theorem OnlyHolds.mem_namedChildren {t c : Tree} (h : OnlyHolds t c) : c ∈ t.namedChildren := by
  obtain ⟨before, after, he, hc, _⟩ := h
  refine List.mem_filter.mpr ⟨?_, hc.1⟩
  rw [he]
  exact List.mem_append_right _ List.mem_cons_self

theorem OnlyHolds.mem_children {t c : Tree} (h : OnlyHolds t c) : c ∈ t.children :=
  (List.mem_filter.mp h.mem_namedChildren).1

/-- What is inside parentheses is a node of the tree. -/
theorem Wraps.mem_nodes {t u : Tree} (h : Wraps t u) : u ∈ t.nodes := by
  induction h with
  | bare t => exact t.mem_nodes_self
  | pair _ honly _ ih => exact Tree.mem_nodes_of_mem_children honly.mem_children ih

/-- The expression of a tree lies between the parentheses that were added. -/
theorem IsExpressionOf.between {parse : Parse} {size : Nat} {node : Tree}
    (h : IsExpressionOf parse size node) (hbetween : BetweenParentheses parse size) :
    1 ≤ node.label.startByte ∧ node.label.startByte ≤ node.label.stopByte ∧
      node.label.stopByte + 1 ≤ size := by
  obtain ⟨_, statement, outer, hstatement, _, houter, hparen, _, _, hwraps, hnode⟩ := h
  cases hwraps with
  | bare => exact absurd hparen hnode
  | pair _ honly hwraps =>
    exact hbetween statement hstatement.mem_children outer houter.mem_children _
      honly.mem_namedChildren node hwraps.mem_nodes

/-- An expression is where its node is. -/
theorem location_ofTree (s : Source) (bytes : ByteArray) (base : Nat) (t : Tree) :
    (ofTree s bytes base t).location =
      s.location ((base : Int) + charsWithin bytes t.label.startByte - 1)
        ((base : Int) + charsWithin bytes t.label.stopByte - 1) := by
  rw [ofTree]
  dsimp only
  split
  · rfl
  · split
    · split
      · rfl
      · split
        · rfl
        · split <;> rfl
    · rfl

/-- Of the bytes of a text in parentheses, those after the first one are held by characters after
the first, and those before the last one by characters up to the last. -/
theorem ownerOf_wrapped {text : List Char} {byte : Nat} (hpos : 1 ≤ byte)
    (hlt : byte + 1 ≤ (bytesOf (wrapped text)).size) :
    1 ≤ ownerOf (wrapped text) byte ∧ ownerOf (wrapped text) byte ≤ text.length + 2 := by
  have hsplit : wrapped text = ('(' :: text ++ ['\n']) ++ [')'] := by
    rw [wrapped, List.append_assoc]
    rfl
  have hlast : byteLength [')'] = 1 := rfl
  rw [bytesOf_eq, size_utf8Encode, hsplit, byteLength_append, hlast] at hlt
  constructor
  · rw [wrapped, List.cons_append, ownerOf_of_le (show '('.utf8Size ≤ byte from hpos)]
    exact Nat.succ_pos _
  · have hle := ownerOf_append_le [')'] (Nat.le_of_succ_le_succ hlt)
    rw [← hsplit, List.length_append] at hle
    exact hle

/-- **An expression lies between the ends of the text it was read from**, and the line feed after
it. -/
theorem read_located {s : Source} {g : Grammars} {language : String} {start stop : Nat}
    {e : Expression} (hok : read s g language start stop = .ok e) (hstop : stop ≤ s.size)
    (hbetween : ∀ parse, g.parse language (wrapped (s.slice start stop)) = .ok parse →
      BetweenParentheses parse (bytesOf (wrapped (s.slice start stop))).size) :
    ∃ p q : Nat, start ≤ p ∧ p ≤ q ∧ q ≤ stop + 1 ∧ e.location = s.location p q := by
  obtain ⟨hblank, parse, hparse, node, hnode, rfl⟩ := read_eq_ok_iff.mp hok
  obtain ⟨hfirst, hle, hlast⟩ := hnode.between (hbetween _ hparse)
  have hlength : (s.slice start stop).length = stop - start := by
    rw [Source.slice, length_slice, ← size_eq_length, Nat.min_eq_left hstop]
  have hnil : s.slice start stop ≠ [] := by
    intro hnil
    rw [hnil] at hblank
    cases hblank
  have hpos := List.length_pos_iff.mpr hnil
  obtain ⟨hstart, _⟩ := ownerOf_wrapped hfirst (Nat.le_trans (Nat.succ_le_succ hle) hlast)
  obtain ⟨_, hend⟩ := ownerOf_wrapped (Nat.le_trans hfirst hle) hlast
  have hmono := ownerOf_mono (wrapped (s.slice start stop)) hle
  rw [location_ofTree, charsWithin_bytesOf, charsWithin_bytesOf]
  generalize ownerOf (wrapped (s.slice start stop)) node.label.startByte = i at *
  generalize ownerOf (wrapped (s.slice start stop)) node.label.stopByte = j at *
  refine ⟨start + i - 1, start + j - 1, by omega, by omega, by omega, ?_⟩
  rw [Int.ofNat_sub (by omega), Int.ofNat_sub (by omega)]
  rfl

end Expression

/-! ## Insertions -/

namespace Rule

theorem mapM_report : ∀ {is : List (Span × Option Expression)},
    (∀ i ∈ is, ∃ e, i.2 = some e) → ∃ found : List Insertion,
      (is.mapM fun i => report i.1 i.2) = .ok found ∧
        is = found.map fun i => (i.span, some i.expression)
  | [], _ => ⟨[], rfl, rfl⟩
  | (span, expression) :: is, h => by
    obtain ⟨⟨e, he⟩, his⟩ := List.forall_mem_cons.mp h
    obtain rfl : expression = some e := he
    obtain ⟨found, hfound, hmap⟩ := mapM_report his
    refine ⟨⟨span, e⟩ :: found, ?_, by rw [List.map_cons, ← hmap]⟩
    rw [List.mapM_cons, hfound]
    rfl

theorem node?_of_insertionAt? {trusted : List String} {v : Node.Visit}
    {i : Span × Option Expression} (h : insertionAt? trusted (scopeAt v) = some i) :
    v.node? = some (.tag .rawHtml i.1 i.2) := by
  unfold insertionAt? at h
  split at h
  · rename_i span expression hnode
    split at h
    · cases h
    · cases h
      exact hnode
  · cases h

theorem insertions_fragment (trusted : List String) (f : Fragment Node) :
    insertions trusted (.fragment f) = (Node.fragment f).descendants.filterMap fun v =>
      insertionAt? trusted (scopeAt v) := rfl

/-- An insertion to be reported is a tag of the template. -/
theorem holds_of_mem_insertions {trusted : List String} {f : Fragment Node}
    {i : Span × Option Expression} (h : i ∈ insertions trusted (.fragment f)) :
    (Node.fragment f).Holds (.tag .rawHtml i.1 i.2) := by
  rw [insertions_fragment] at h
  obtain ⟨v, hv, hi⟩ := List.mem_filterMap.mp h
  obtain ⟨y, hy, hholds⟩ := holds_of_leads (Node.leads_of_mem_descendants hv)
  cases hy.symm.trans (node?_of_insertionAt? hi)
  exact hholds

/-- **The insertions to be reported follow one another in the source.** -/
theorem insertions_apart {trusted : List String} {f : Fragment Node}
    (hf : Everywhere SpansNest (.fragment f)) :
    (insertions trusted (.fragment f)).Pairwise fun i j => i.1.Precedes j.1 := by
  rw [insertions_fragment, List.pairwise_filterMap]
  refine (descendants_apart _ hf).imp fun {v w} hprecedes i hi j hj => ?_
  exact hprecedes _ _ (node?_of_insertionAt? hi) (node?_of_insertionAt? hj) rfl

end Rule

/-- A tag that inserts has an expression, which was read from a text inside the tag. -/
theorem Template.TagFaithful.insertion_read {ctx : Context} {span : Span}
    {expression : Option Expression} (h : TagFaithful ctx (.tag .rawHtml span expression)) :
    ∃ start e, expression = some e ∧ span.start < start ∧
      ctx.read start (span.stop - 1) = .ok e := by
  have hread := h.read
  unfold readTag at hread
  dsimp only [Node.span] at hread
  split at hread
  · unfold readSpecialTag at hread
    dsimp only at hread
    split at hread
    · obtain ⟨e, he, hread⟩ := bind_eq_ok.mp hread
      cases pure_eq_ok.mp hread
      exact ⟨_, e, rfl, by omega, he⟩
    · obtain ⟨e, _, hread⟩ := bind_eq_ok.mp hread
      split at hread
      · cases pure_eq_ok.mp hread
      · exact absurd hread reject_ne_ok
    · split at hread
      · cases pure_eq_ok.mp hread
      · exact absurd hread reject_ne_ok
    · split at hread
      · obtain ⟨e, _, hread⟩ := bind_eq_ok.mp hread
        split at hread
        · cases pure_eq_ok.mp hread
        · exact absurd hread reject_ne_ok
      · exact absurd hread reject_ne_ok
    · exact absurd hread reject_ne_ok
  · obtain ⟨e, _, hread⟩ := bind_eq_ok.mp hread
    cases pure_eq_ok.mp hread

/-! ## Components -/

/-- The insertion is a tag of the component, and its expression starts and ends in this tag. -/
structure Rule.Insertion.PlacedIn (s : Source) (c : Component) (i : Rule.Insertion) : Prop where
  holds : (Node.fragment c.fragment).Holds (.tag .rawHtml i.span (some i.expression))
  stop_le : i.span.stop ≤ s.size
  located : ∃ p q : Nat, i.span.start < p ∧ p ≤ q ∧ q ≤ i.span.stop ∧
    i.expression.location = s.location p q

/-- Of two insertions that follow one another, the expressions start in this order. -/
theorem Rule.Insertion.PlacedIn.before {s : Source} {c : Component} {i j : Rule.Insertion}
    (hi : i.PlacedIn s c) (hj : j.PlacedIn s c) (h : i.span.Precedes j.span) :
    i.expression.location.start.Before j.expression.location.start := by
  obtain ⟨p, q, _, hpq, hq, hlocation⟩ := hi.located
  obtain ⟨p', q', hp', hpq', hq', hlocation'⟩ := hj.located
  have hstop := hj.stop_le
  have hprecedes : i.span.stop ≤ j.span.start := h
  rw [hlocation, hlocation']
  exact s.position_before (by omega) (by omega)

/-- The expressions' trees keep between the parentheses, those of the texts from which the
expressions of the component's insertions were read. -/
def InsertionsBetween (g : Grammars) (s : Source) (parsed : Parsed) : Prop :=
  ∀ span e start, (Node.fragment parsed.component.fragment).Holds (.tag .rawHtml span (some e)) →
    Expression.read s g parsed.language.name start (span.stop - 1) = .ok e →
    ∀ parse, g.parse parsed.language.name
        (Expression.wrapped (s.slice start (span.stop - 1))) = .ok parse →
      BetweenParentheses parse
        (Expression.bytesOf (Expression.wrapped (s.slice start (span.stop - 1)))).size

section Component

variable {g : Grammars} {modern : Bool} {s : Source} {parsed : Parsed} {tree : Parse}

/-- A tag of a component's template was read from its span. -/
theorem tagFaithful_of_holds (hwf : WellFormed s tree.root)
    (htree : g.parse Language.svelte.name (Markup.adapt s.text) = .ok tree)
    (hok : parse g modern s = .ok parsed) {x : Node} (htag : x.isTag = true)
    (hx : (Node.fragment parsed.component.fragment).Holds x) :
    TagFaithful (contextFor g s modern parsed.language) x := by
  have hfaithful := documentOf_faithful hwf (parse_ok htree hok)
  rcases holds_fragment hx with rfl | ⟨c, hc, hx⟩
  · exact (nomatch htag)
  · exact (hfaithful.below c hc x hx).tag htag

/-- An insertion of a component has an expression, and this starts and ends in its tag. -/
theorem insertion_placed (hwf : WellFormed s tree.root)
    (htree : g.parse Language.svelte.name (Markup.adapt s.text) = .ok tree)
    (hbetween : InsertionsBetween g s parsed)
    (hok : parse g modern s = .ok parsed) {span : Span} {expression : Option Expression}
    (hx : (Node.fragment parsed.component.fragment).Holds (.tag .rawHtml span expression)) :
    ∃ e, expression = some e ∧ Rule.Insertion.PlacedIn s parsed.component ⟨span, e⟩ := by
  have htag := tagFaithful_of_holds hwf htree hok rfl hx
  obtain ⟨close, hclose, hstop⟩ := htag.closes
  have hsize : close < s.size :=
    (List.getElem?_eq_some_iff.mp (Script.closingBrace?_some hclose).2).1
  have hstop : span.stop = close + 1 := hstop
  obtain ⟨start, e, rfl, hstart, hread⟩ := htag.insertion_read
  obtain ⟨p, q, hp, hpq, hq, hlocation⟩ :=
    Expression.read_located hread (by omega) (hbetween _ _ _ hx hread)
  have hfirst : span.start < p := by omega
  have hlast : q ≤ span.stop := by omega
  have hend : span.stop ≤ s.size := by omega
  exact ⟨e, rfl, hx, hend, p, q, hfirst, hpq, hlast, hlocation⟩

/-- **The findings of a component are in the order of the source**, if the grammar's tree is
well-formed and the expressions' trees keep between the parentheses: each is the place of an
insertion, which starts and ends in its own tag, and each comes before the next one. -/
theorem analyze_inSourceOrder {sanitizers : List String}
    (htree : g.parse Language.svelte.name (Markup.adapt s.text) = .ok tree)
    (hwf : WellFormed s tree.root)
    (hbetween : InsertionsBetween g s parsed)
    (hok : parse g modern s = .ok parsed) :
    ∃ (a : Analysis) (found : List Rule.Insertion), analyze g ⟨sanitizers, modern⟩ s = .ok a ∧
      a.report = .checked s.path (found.map (Finding.ofInsertion s.path)) ∧
      (∀ i ∈ found, i.PlacedIn s parsed.component) ∧
      (found.Pairwise fun i j => i.span.Precedes j.span) ∧
      a.report.findings.Pairwise fun f f' => f.location.start.Before f'.location.start := by
  have hspans := documentOf_spansNest hwf (parse_ok htree hok)
  have hplaced := fun i hi => insertion_placed hwf htree hbetween hok
    (@Rule.holds_of_mem_insertions sanitizers _ i hi)
  obtain ⟨found, hfound, hmap⟩ := Rule.mapM_report fun i hi =>
    (hplaced i hi).imp fun e he => he.1
  have hin : ∀ i ∈ found, i.PlacedIn s parsed.component := by
    intro i hi
    have hmem : (i.span, some i.expression) ∈
        Rule.insertions sanitizers (.fragment parsed.component.fragment) := by
      rw [hmap]
      exact List.mem_map_of_mem hi
    obtain ⟨e, he, hplace⟩ := hplaced _ hmem
    cases he
    exact hplace
  have hapart : found.Pairwise fun i j => i.span.Precedes j.span := by
    have h := @Rule.insertions_apart sanitizers _ hspans
    rw [hmap] at h
    have hfound := List.pairwise_map.mp h
    exact hfound
  have hanalyze : ∃ log, analyze g ⟨sanitizers, modern⟩ s =
      .ok ⟨.checked s.path (found.map (Finding.ofInsertion s.path)), log⟩ := by
    rw [analyze_eq, hok]
    exact ⟨_, bind_eq_ok.mpr ⟨found, (Rule.detect_eq_mapM _ _).trans hfound, rfl⟩⟩
  obtain ⟨log, hanalyze⟩ := hanalyze
  refine ⟨_, found, hanalyze, rfl, hin, hapart, ?_⟩
  refine List.pairwise_map.mpr (hapart.imp_of_mem fun {i j} hi hj hprecedes => ?_)
  exact (hin i hi).before (hin j hj) hprecedes

end Component

/-! Two insertions side by side, with trees for their markup and their names. -/

def rowSource : Source := .ofText "Row.svelte" "\x7b@html a\x7d\x7b@html b\x7d".toList

def rowTree : Tree :=
  sampleNode "document" 0 18 [sampleNode "html_expr" 0 9 [], sampleNode "html_expr" 9 18 []]

/-- Grammars that know these, and take every other text for a name in parentheses. -/
def rowGrammars : Grammars where
  tree? language text := match language with
    | .svelte => some ⟨rowTree, false⟩
    | _ => some ⟨sampleExpression text.length, false⟩

/-- The sample's trees of expressions keep between the parentheses. -/
theorem sampleExpression_between (text : List Char) :
    BetweenParentheses ⟨sampleExpression (Expression.wrapped text).length, false⟩
      (Expression.bytesOf (Expression.wrapped text)).size := by
  have hlength : (Expression.wrapped text).length = text.length + 3 := by
    rw [Expression.wrapped, List.length_append, List.length_cons]
    rfl
  have hbytes := length_le_byteLength (Expression.wrapped text)
  rw [bytesOf_eq, size_utf8Encode]
  intro statement hstatement outer houter c hc u hu
  cases List.mem_singleton.mp hstatement
  cases List.mem_singleton.mp houter
  cases List.mem_singleton.mp hc
  cases List.mem_singleton.mp hu
  show 1 ≤ 1 ∧ 1 ≤ (Expression.wrapped text).length - 2 ∧
    (Expression.wrapped text).length - 2 + 1 ≤ byteLength (Expression.wrapped text)
  omega

theorem rowGrammars_between (language : Language) (text : List Char) (parse : Parse)
    (hparse : rowGrammars.parse language.name (Expression.wrapped text) = .ok parse) :
    BetweenParentheses parse (Expression.bytesOf (Expression.wrapped text)).size := by
  cases language with
  | svelte =>
    obtain rfl : (⟨rowTree, false⟩ : Parse) = parse := Except.ok.inj hparse
    intro statement hstatement outer houter
    rcases List.mem_cons.mp hstatement with rfl | hstatement
    · exact absurd houter List.not_mem_nil
    · cases List.mem_singleton.mp hstatement
      exact absurd houter List.not_mem_nil
  | javascript =>
    obtain rfl := Except.ok.inj hparse
    exact sampleExpression_between text
  | typescript =>
    obtain rfl := Except.ok.inj hparse
    exact sampleExpression_between text

theorem analyze_rowSource : ∃ (a : Analysis) (parsed : Parsed) (found : List Rule.Insertion),
    parse rowGrammars true rowSource = .ok parsed ∧
    analyze rowGrammars ⟨[], true⟩ rowSource = .ok a ∧
    a.report = .checked "Row.svelte" (found.map (Finding.ofInsertion "Row.svelte")) ∧
    found.length = 2 ∧ (∀ i ∈ found, i.PlacedIn rowSource parsed.component) ∧
    a.report.findings.Pairwise fun f f' => f.location.start.Before f'.location.start := by
  have htree : rowGrammars.parse Language.svelte.name (Markup.adapt rowSource.text) =
    .ok ⟨rowTree, false⟩ := rfl
  obtain ⟨parsed, hok, _⟩ := exists_ok_of_any (x := parse rowGrammars true rowSource)
    (p := fun _ => true) (by decide +kernel)
  obtain ⟨a, found, ha, hreport, hin, _, hsorted⟩ := @analyze_inSourceOrder rowGrammars true
    rowSource parsed ⟨rowTree, false⟩ [] htree (by decide +kernel)
    (fun _ _ _ _ _ => rowGrammars_between parsed.language _) hok
  obtain ⟨a', ha', hcount⟩ := exists_ok_of_any (x := analyze rowGrammars ⟨[], true⟩ rowSource)
    (p := (·.report.findings.length == 2)) (by decide +kernel)
  obtain rfl : a = a' := Except.ok.inj (ha.symm.trans ha')
  have hlength : found.length = 2 := by
    rw [← List.length_map (Finding.ofInsertion "Row.svelte")]
    rw [hreport] at hcount
    exact beq_iff_eq.mp hcount
  exact ⟨a, parsed, found, hok, ha, hreport, hlength, hin, hsorted⟩

end RawHtmlLint

import RawHtmlLint.Proofs.Json.Same
import RawHtmlLint.Proofs.Template.RuleNames

/-!
# The JSON form of a tree

A tree is dumped as JSON with every field of every node, and a node is read back from it. Nothing is
lost on the way: not the kind, which some nodes show by nothing else, not the expressions with what
they call, nor which fields are unset. A set of names is dumped as its names in order, and the order
in which an object lists its members does not matter.

Results:
* `Json.Same.node_eq`: reading a node does not see the order of members;
* `Node.ofJson?_toJson`: a node is read back from its dump;
* `toJson_determines`: dumps are the same only for equal nodes.
-/

namespace RawHtmlLint

open Json Template

variable {j k : Json}

/-! ## The readers, by the members that they read -/

theorem Expression.ofMember?_eq (j : Json) (name : String) :
    Expression.ofMember? j name = j.optionalMember name Expression.ofJson? := by
  rw [Expression.ofMember?, optionalMember]
  split <;> simp_all

namespace Template

theorem fragmentOfMember?_eq (j : Json) (name : String) :
    fragmentOfMember? j name = j.optionalMember name fragmentOfJson? := by
  rw [fragmentOfMember?, optionalMember]
  split <;> simp_all

theorem childrenOfJson?_eq : ∀ items : List Json, childrenOfJson? items = items.mapM Node.ofJson?
  | [] => by rw [childrenOfJson?]; rfl
  | item :: items => by rw [childrenOfJson?, List.mapM_cons, childrenOfJson?_eq items]

theorem fragmentOfJson?_eq (j : Json) :
    fragmentOfJson? j = (do
      some ⟨← Span.ofJson? j,
        ← j.memberOr "children" [] fun v => v.items?.bind (·.mapM Node.ofJson?)⟩) := by
  rw [fragmentOfJson?, memberOr]
  refine bind_congr fun span => ?_
  split
  · rename_i h
    rw [h]
    rfl
  · rename_i v h
    rw [h]
    split
    · rename_i hitems
      simp [hitems]
    · rename_i hitems
      simp [hitems, childrenOfJson?_eq]

end Template

/-! ## What is read does not depend on the order of members -/

namespace Json.Same

theorem position_eq (h : j.Same k) : Position.ofJson? j = Position.ofJson? k := by
  unfold Position.ofJson?
  refine h.bind_member fun v w _ hline => ?_
  rw [hline.int?_eq]
  refine bind_congr fun line => h.bind_member fun v w _ hcolumn => ?_
  rw [hcolumn.int?_eq]

theorem location_eq (h : j.Same k) : Location.ofJson? j = Location.ofJson? k := by
  unfold Location.ofJson?
  refine h.bind_member fun v w _ hstart => ?_
  rw [hstart.position_eq]
  refine bind_congr fun start => h.bind_member fun v w _ hstop => ?_
  rw [hstop.position_eq]

theorem span_eq (h : j.Same k) : Span.ofJson? j = Span.ofJson? k := by
  unfold Span.ofJson?
  rw [h.memberOr_eq fun v w _ hv => hv.nat?_eq]
  refine bind_congr fun start => ?_
  rw [h.memberOr_eq fun v w _ hv => hv.nat?_eq]

theorem attribute_eq (h : j.Same k) : Attribute.ofJson? j = Attribute.ofJson? k := by
  unfold Attribute.ofJson?
  refine h.bind_member fun v w _ hname => ?_
  rw [hname.str?_eq, h.optionalMember_eq fun v w _ hv => hv.str?_eq, h.span_eq]

theorem attributes_eq (h : j.Same k) :
    j.items?.bind (·.mapM Attribute.ofJson?) = k.items?.bind (·.mapM Attribute.ofJson?) :=
  h.items?_bind_eq fun _ _ _ hitems => mapM_eq hitems fun _ _ _ hitem => hitem.attribute_eq

theorem expression_eq {j k : Json} (h : j.Same k) :
    Expression.ofJson? j = Expression.ofJson? k := by
  rw [Expression.ofJson?, Expression.ofJson?]
  refine h.bind_member fun v w _ hkind => ?_
  rw [hkind.str?_eq]
  refine bind_congr fun kind => h.bind_member fun v w _ htext => ?_
  rw [htext.str?_eq]
  refine bind_congr fun text => h.bind_member fun v w _ hlocation => ?_
  rw [hlocation.location_eq]
  refine bind_congr fun location => h.bind_member fun v w _ hstart => ?_
  rw [hstart.int?_eq]
  refine bind_congr fun start => h.bind_member fun v w _ hstop => ?_
  -- what is called is a smaller value
  rw [hstop.int?_eq, h.optionalMember_eq fun v w _ hv => hv.str?_eq, Expression.ofMember?_eq,
    Expression.ofMember?_eq, h.optionalMember_eq fun v w hmem hv => expression_eq hv]
termination_by sizeOf j
decreasing_by exact sizeOf_lt_of_member? hmem

theorem expressionMember_eq (h : j.Same k) (name : String) :
    Expression.ofMember? j name = Expression.ofMember? k name := by
  rw [Expression.ofMember?_eq, Expression.ofMember?_eq,
    h.optionalMember_eq fun v w _ hv => hv.expression_eq]

mutual

/-- **Reading a node does not see the order of members.** -/
theorem node_eq {j k : Json} (h : j.Same k) : Node.ofJson? j = Node.ofJson? k := by
  have hfragment := fragment_eq h
  have hmember := fragmentMember_eq h
  rw [Node.ofJson?, Node.ofJson?, h.span_eq]
  refine bind_congr fun span => h.bind_member fun v w _ hkind => ?_
  rw [hkind.str?_eq]
  refine bind_congr fun kind => ?_
  simp only [elementOfJson?, h.expressionMember_eq, hfragment, hmember,
    h.memberOr_eq fun v w _ hv => hv.str?_eq, h.memberOr_eq fun v w _ hv => hv.bool?_eq,
    h.memberOr_eq fun v w _ hv => hv.strings?_eq, h.memberOr_eq fun v w _ hv => hv.attributes_eq,
    h.optionalMember_eq fun v w _ hv => hv.str?_eq]
termination_by (sizeOf j, 2)

theorem fragment_eq {j k : Json} (h : j.Same k) : fragmentOfJson? j = fragmentOfJson? k := by
  rw [fragmentOfJson?_eq, fragmentOfJson?_eq, h.span_eq, h.memberOr_eq fun v w hv hvw =>
    hvw.items?_bind_eq fun xs ys hxs hitems => mapM_eq hitems fun x hx y hxy => node_eq hxy]
termination_by (sizeOf j, 1)
decreasing_by
  have hitem := List.sizeOf_lt_of_mem hx
  have hitems := sizeOf_lt_of_items? hxs
  have hmember := sizeOf_lt_of_member? hv
  exact Prod.Lex.left _ _ (hitem.trans (hitems.trans hmember))

theorem fragmentMember_eq {j k : Json} (h : j.Same k) (name : String) :
    fragmentOfMember? j name = fragmentOfMember? k name := by
  rw [fragmentOfMember?_eq, fragmentOfMember?_eq, h.optionalMember_eq fun v w hv hvw =>
    fragment_eq hvw]
termination_by (sizeOf j, 0)
decreasing_by exact Prod.Lex.left _ _ (sizeOf_lt_of_member? hv)

end

end Json.Same

/-! ## Members are read back -/

theorem mapM_map_eq_some {α β : Type} {f : β → Option α} {g : α → β} : ∀ {l : List α},
    (∀ a ∈ l, f (g a) = some a) → (l.map g).mapM f = some l
  | [], _ => rfl
  | a :: l, h => by
    rw [List.map_cons, List.mapM_cons, h a List.mem_cons_self,
      mapM_map_eq_some fun b hb => h b (List.mem_cons_of_mem _ hb)]
    rfl

namespace Json

theorem nat?_int (n : Nat) : (Json.int n).nat? = some n := by
  unfold nat? int?
  rw [Option.bind_some, if_pos (Int.natCast_nonneg n), Int.toNat_natCast]

theorem strings?_ofStrings (texts : List String) : (ofStrings texts).strings? = some texts :=
  mapM_map_eq_some (f := str?) (g := Json.str) fun _ _ => rfl

theorem memberOr_of_member {α : Type} {default : α} {f : Json → Option α} (name : String)
    (v : Json) (h : j.member? name = some v) : j.memberOr name default f = f v := by
  rw [memberOr, h]

/-- A member that is `null` only where it is unset is read back. -/
theorem optionalMember_of_member {α : Type} {f : Json → Option α} {g : α → Json} (name : String)
    (o : Option α) (h : j.member? name = some (ofOption g o)) (hg : ∀ a, g a ≠ .null)
    (hread : ∀ a ∈ o, f (g a) = some a) : j.optionalMember name f = some o := by
  rw [optionalMember, h]
  cases o with
  | none => rfl
  | some a =>
    have hvalue := hread a rfl
    have hne := hg a
    unfold ofOption
    dsimp only
    generalize g a = v at hvalue hne
    cases v with
    | null => exact absurd rfl hne
    | _ => exact congrArg (Option.map some) hvalue

theorem text_of_member (name : String) (o : Option String)
    (h : j.member? name = some (ofOption .str o)) : j.optionalMember name str? = some o :=
  optionalMember_of_member name o h (fun _ => nofun) fun _ _ => rfl

end Json

/-! ## Expressions, attributes and sets of names are read back -/

theorem Expression.toJson_eq (e : Expression) : e.toJson =
    .obj [("type", .str e.kind), ("text", .str e.text), ("start", .int e.start),
      ("end", .int e.stop), ("loc", e.location.toJson), ("name", Json.ofOption .str e.name),
      ("callee", Json.ofOption Expression.toJson e.callee)] := by
  obtain ⟨_, _, _, _, _, _, callee⟩ := e
  cases callee <;> rfl

theorem Expression.toJson_ne_null (e : Expression) : e.toJson ≠ .null := by
  rw [Expression.toJson_eq]
  exact nofun

/-- **An expression is read back from its dump**, with what it calls. -/
theorem Expression.ofJson?_toJson : ∀ e : Expression, Expression.ofJson? e.toJson = some e
  | ⟨kind, text, location, start, stop, name, callee⟩ => by
    have hcallee : ∀ e ∈ callee, Expression.ofJson? e.toJson = some e := fun e _ =>
      Expression.ofJson?_toJson e
    rw [Expression.toJson_eq, Expression.ofJson?, Expression.ofMember?_eq,
      text_of_member "name" name rfl,
      optionalMember_of_member "callee" callee rfl Expression.toJson_ne_null hcallee]
    rfl

theorem Expression.of_member (name : String) (o : Option Expression)
    (h : j.member? name = some (expressionJson o)) : Expression.ofMember? j name = some o := by
  rw [Expression.ofMember?_eq, optionalMember_of_member name o h Expression.toJson_ne_null
    fun e _ => Expression.ofJson?_toJson e]

namespace Template

theorem Span.of_members (s : Span) (hstart : j.member? "start" = some (.int s.start))
    (hstop : j.member? "end" = some (.int s.stop)) : Span.ofJson? j = some s := by
  rw [Span.ofJson?, memberOr_of_member _ _ hstart, memberOr_of_member _ _ hstop, nat?_int,
    nat?_int]
  rfl

theorem Attribute.ofJson?_toJson (a : Attribute) : Attribute.ofJson? a.toJson = some a := by
  rw [Attribute.ofJson?, Span.of_members a.span rfl rfl, text_of_member "value" a.value rfl]
  rfl

theorem attributes_of_member (attributes : List Attribute)
    (h : j.member? "attributes" = some (.arr (attributes.map Attribute.toJson))) :
    j.memberOr "attributes" [] (fun v => v.items?.bind (·.mapM Attribute.ofJson?)) =
      some attributes := by
  rw [memberOr_of_member _ _ h]
  exact mapM_map_eq_some fun a _ => a.ofJson?_toJson

theorem insertName_of_lt {name : String} : ∀ {names : List String}, (∀ n ∈ names, name < n) →
    insertName name names = name :: names
  | [], _ => rfl
  | n :: names, h => by
    have hlt := h n List.mem_cons_self
    rw [insertName, if_neg (String.lt_asymm hlt), if_pos hlt]

theorem names_ofList : ∀ {names : List String}, names.Pairwise (· < ·) →
    (RuleSet.ofList names).names = names
  | [], _ => rfl
  | n :: names, h => by
    obtain ⟨hlt, hnames⟩ := List.pairwise_cons.mp h
    have hinsert : (RuleSet.ofList (n :: names)).names =
        insertName n (RuleSet.ofList names).names := rfl
    rw [hinsert, names_ofList hnames, insertName_of_lt hlt]

/-- **A set of names is read back from its names in order.** -/
theorem RuleSet.ofList_names (s : RuleSet) : RuleSet.ofList s.names = s := by
  have hnames := names_ofList s.sorted
  generalize RuleSet.ofList s.names = t at hnames
  cases s
  cases t
  cases hnames
  rfl

/-! ## Nodes are read back -/

theorem optionalJson_eq (o : Option (Fragment Node)) :
    optionalJson o = ofOption fragmentJson o := by
  cases o <;> rw [optionalJson] <;> rfl

theorem childrenJson_eq : ∀ nodes : List Node, childrenJson nodes = nodes.map Node.toJson
  | [] => by rw [childrenJson]; rfl
  | node :: nodes => by rw [childrenJson, childrenJson_eq nodes]; rfl

theorem fragmentJson_ne_null (f : Fragment Node) : fragmentJson f ≠ .null := by
  rw [fragmentJson]
  exact nofun

theorem fragment_of_member (name : String) (o : Option (Fragment Node))
    (h : j.member? name = some (optionalJson o))
    (hread : ∀ f ∈ o, fragmentOfJson? (fragmentJson f) = some f) :
    fragmentOfMember? j name = some o := by
  rw [optionalJson_eq] at h
  rw [fragmentOfMember?_eq, optionalMember_of_member name o h fragmentJson_ne_null hread]

mutual

/-- **A node is read back from its dump.** -/
theorem Node.ofJson?_toJson : ∀ node : Node, Node.ofJson? node.toJson = some node
  | .fragment f => by
    have hread := fragment_read f
    obtain ⟨span, children⟩ := f
    rw [Node.toJson, Node.ofJson?, hread, fragmentJson, Span.of_members span rfl rfl]
    rfl
  | .element kind span name attributes content => by
    have hread (kind' : ElementKind) :
        elementOfJson? kind' span (Node.element kind span name attributes content).toJson =
          some (.element kind' span name attributes content) := by
      rw [Node.toJson, elementOfJson?, memberOr_of_member "name" (.str name) rfl,
        attributes_of_member attributes rfl,
        fragment_of_member "fragment" content rfl (optional_read content)]
      rfl
    rw [Node.toJson] at hread ⊢
    rw [Node.ofJson?, Span.of_members span rfl rfl]
    cases kind with
    | element => exact hread .element
    | component => exact hread .component
  | .ifBlock span test consequent alternate elseIf => by
    rw [Node.toJson, Node.ofJson?, Span.of_members span rfl rfl,
      Expression.of_member "test" test rfl,
      fragment_of_member "consequent" consequent rfl (optional_read consequent),
      fragment_of_member "alternate" alternate rfl (optional_read alternate),
      memberOr_of_member "elseif" (.bool elseIf) rfl]
    rfl
  | .eachBlock span expression context index key body fallback => by
    rw [Node.toJson, Node.ofJson?, Span.of_members span rfl rfl,
      Expression.of_member "expression" expression rfl, text_of_member "context" context rfl,
      text_of_member "index" index rfl, Expression.of_member "key" key rfl,
      fragment_of_member "body" body rfl (optional_read body),
      fragment_of_member "fallback" fallback rfl (optional_read fallback)]
    rfl
  | .awaitBlock span expression value error pending fulfilled rejected => by
    rw [Node.toJson, Node.ofJson?, Span.of_members span rfl rfl,
      Expression.of_member "expression" expression rfl, text_of_member "value" value rfl,
      text_of_member "error" error rfl,
      fragment_of_member "pending" pending rfl (optional_read pending),
      fragment_of_member "then" fulfilled rfl (optional_read fulfilled),
      fragment_of_member "catch" rejected rfl (optional_read rejected)]
    rfl
  | .keyBlock span expression content => by
    rw [Node.toJson, Node.ofJson?, Span.of_members span rfl rfl,
      Expression.of_member "expression" expression rfl,
      fragment_of_member "fragment" content rfl (optional_read content)]
    rfl
  | .snippetBlock span name parameters body => by
    rw [Node.toJson, Node.ofJson?, Span.of_members span rfl rfl,
      memberOr_of_member "name" (.str name) rfl,
      memberOr_of_member "parameters" (.str parameters) rfl,
      fragment_of_member "body" body rfl (optional_read body)]
    rfl
  | .tag kind span expression => by
    rw [Node.toJson, Node.ofJson?, Span.of_members span rfl rfl,
      Expression.of_member "expression" expression rfl]
    cases kind <;> rfl
  | .debugTag span identifiers => by
    rw [Node.toJson, Node.ofJson?, Span.of_members span rfl rfl,
      memberOr_of_member "identifiers" (.ofStrings identifiers) rfl, strings?_ofStrings]
    rfl
  | .comment span data ignores => by
    rw [Node.toJson, Node.ofJson?, Span.of_members span rfl rfl,
      memberOr_of_member "data" (.str data) rfl,
      memberOr_of_member "ignores" (.ofStrings ignores.names) rfl, strings?_ofStrings]
    exact congrArg some (congrArg (Node.comment span data) ignores.ofList_names)
  | .text span raw data => by
    rw [Node.toJson, Node.ofJson?, Span.of_members span rfl rfl,
      memberOr_of_member "raw" (.str raw) rfl, memberOr_of_member "data" (.str data) rfl]
    rfl

theorem optional_read : ∀ o : Option (Fragment Node), ∀ f ∈ o,
    fragmentOfJson? (fragmentJson f) = some f
  | some f, _, h => Option.some.inj h ▸ fragment_read f

theorem fragment_read : ∀ f : Fragment Node, fragmentOfJson? (fragmentJson f) = some f
  | ⟨span, children⟩ => by
    have hchildren : (children.map Node.toJson).mapM Node.ofJson? = some children :=
      mapM_map_eq_some (children_read children)
    rw [fragmentJson, fragmentOfJson?_eq, Span.of_members span rfl rfl,
      memberOr_of_member "children" (.arr (childrenJson children)) rfl, childrenJson_eq]
    show ((children.map Node.toJson).mapM Node.ofJson?).bind _ = _
    rw [hchildren]
    rfl

theorem children_read : ∀ nodes : List Node, ∀ node ∈ nodes, Node.ofJson? node.toJson = some node
  | node :: nodes, n, h =>
    (List.mem_cons.mp h).elim (fun h => h ▸ Node.ofJson?_toJson node) (children_read nodes n)

end

/-- **The dump of a tree loses nothing.** Whatever lists the members of the dump in any order is
read back as the node that was dumped, so two nodes have the same dump only if they are equal: in
their kinds, all fields, attributes, expressions with what they call and where they stand, and sets
of names. -/
theorem toJson_determines (a b : Node) :
    (∀ j : Json, j.Same a.toJson → Node.ofJson? j = some a) ∧ (a.toJson.Same b.toJson ↔ a = b) := by
  have hread (node : Node) (j : Json) (h : j.Same node.toJson) : Node.ofJson? j = some node :=
    h.node_eq.trans node.ofJson?_toJson
  refine ⟨hread a, fun h => ?_, fun h => ?_⟩
  · exact Option.some.inj (a.ofJson?_toJson.symm.trans (hread b _ h))
  · rw [h]
    exact .refl _

/-- A component with a comment in it, and an element that differs from it in nothing else. -/
def sampleElement (kind : ElementKind) : Node :=
  .element kind ⟨0, 40⟩ "Card" [⟨"a", some "1", ⟨6, 9⟩⟩]
    (some ⟨⟨10, 33⟩, [.comment ⟨10, 33⟩ "svelte-ignore x y" (.ofList ["y", "x"])]⟩)

/-- The dump of the component, with the members of the outer object from last to first. -/
def shuffledDump : Json :=
  match (sampleElement .component).toJson with
  | .obj members => .obj members.reverse
  | j => j

theorem shuffledDump_read :
    shuffledDump.Same (sampleElement .component).toJson ∧
      Node.ofJson? shuffledDump = some (sampleElement .component) ∧
      ¬ (sampleElement .component).toJson.Same (sampleElement .element).toJson := by
  have hsame : shuffledDump.Same (sampleElement .component).toJson :=
    Json.Same.of_perm (by decide) (List.reverse_perm _)
  obtain ⟨hread, hequal⟩ := toJson_determines (sampleElement .component) (sampleElement .element)
  refine ⟨hsame, hread _ hsame, fun h => ?_⟩
  exact absurd (hequal.mp h) nofun

end Template

end RawHtmlLint

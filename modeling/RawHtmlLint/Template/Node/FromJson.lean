import RawHtmlLint.Template.Node.Json

/-!
# Template trees from JSON

The way back from the JSON form of a node. A member that is missing has the value that the kind
has by default: offsets are zero, texts and lists empty, and all else unset.

Results:
* `sizeOf_lt_of_member?`, `sizeOf_lt_of_items?`: what an object or an array holds is smaller than
  it, so the reading ends.
-/

namespace RawHtmlLint

namespace Json

theorem mem_of_lookup_eq_some {α β : Type} [BEq α] [LawfulBEq α] {a : α} {b : β} :
    ∀ {l : List (α × β)}, l.lookup a = some b → (a, b) ∈ l
  | [], h => by simp at h
  | (k, v) :: l, h => by
    rw [List.lookup_cons] at h
    split at h
    · rename_i hk
      cases h
      rw [eq_of_beq hk]
      exact List.mem_cons_self
    · exact List.mem_cons_of_mem _ (mem_of_lookup_eq_some h)

/-- A member is smaller than its object. -/
theorem sizeOf_lt_of_member? {j v : Json} {name : String} (h : j.member? name = some v) :
    sizeOf v < sizeOf j := by
  cases j with
  | obj members =>
    have hmem := List.mem_reverse.mp (mem_of_lookup_eq_some h)
    have hlt := List.sizeOf_lt_of_mem hmem
    simp only [Prod.mk.sizeOf_spec, Json.obj.sizeOf_spec] at hlt ⊢
    omega
  | _ => simp [member?] at h

/-- The items together are smaller than their array. -/
theorem sizeOf_lt_of_items? {j : Json} {items : List Json} (h : j.items? = some items) :
    sizeOf items < sizeOf j := by
  cases j with
  | arr items =>
    cases h
    simp only [Json.arr.sizeOf_spec]
    omega
  | _ => simp [items?] at h

/-- A member that may be missing: then it is `default`. -/
def memberOr {α : Type} (j : Json) (name : String) (default : α) (f : Json → Option α) :
    Option α :=
  match j.member? name with
  | some v => f v
  | none => some default

/-- A member that may be missing or `null`. -/
def optionalMember {α : Type} (j : Json) (name : String) (f : Json → Option α) :
    Option (Option α) :=
  match j.member? name with
  | none | some .null => some none
  | some v => (f v).map some

/-- A natural number. -/
def nat? (j : Json) : Option Nat := j.int?.bind fun n => if 0 ≤ n then some n.toNat else none

end Json

open Json

mutual

/-- The expression that a JSON object describes. -/
def Expression.ofJson? (j : Json) : Option Expression := do
  some {
    kind := ← (← j.member? "type").str?
    text := ← (← j.member? "text").str?
    location := ← Location.ofJson? (← j.member? "loc")
    start := ← (← j.member? "start").int?
    stop := ← (← j.member? "end").int?
    name := ← j.optionalMember "name" str?
    callee := ← Expression.ofMember? j "callee" }
termination_by (sizeOf j, 1)

/-- The expression that a member describes, if it is set. -/
def Expression.ofMember? (j : Json) (name : String) : Option (Option Expression) :=
  match _h : j.member? name with
  | none | some .null => some none
  | some v => (Expression.ofJson? v).map some
termination_by (sizeOf j, 0)
decreasing_by exact Prod.Lex.left _ _ (sizeOf_lt_of_member? _h)

end

namespace Template

/-- The span of an object. -/
def Span.ofJson? (j : Json) : Option Span := do
  some ⟨← j.memberOr "start" 0 nat?, ← j.memberOr "end" 0 nat?⟩

/-- The attribute that a JSON object describes. -/
def Attribute.ofJson? (j : Json) : Option Attribute := do
  some ⟨← (← j.member? "name").str?, ← j.optionalMember "value" str?, ← Span.ofJson? j⟩

mutual

/-- The node that a JSON object describes. -/
def Node.ofJson? (j : Json) : Option Node := do
  let span ← Span.ofJson? j
  match ← (← j.member? "type").str? with
  | "Fragment" => (fragmentOfJson? j).map .fragment
  | "Element" => elementOfJson? .element span j
  | "InlineComponent" => elementOfJson? .component span j
  | "IfBlock" => some (.ifBlock span (← Expression.ofMember? j "test")
      (← fragmentOfMember? j "consequent") (← fragmentOfMember? j "alternate")
      (← j.memberOr "elseif" false bool?))
  | "EachBlock" => some (.eachBlock span (← Expression.ofMember? j "expression")
      (← j.optionalMember "context" str?) (← j.optionalMember "index" str?)
      (← Expression.ofMember? j "key") (← fragmentOfMember? j "body")
      (← fragmentOfMember? j "fallback"))
  | "AwaitBlock" => some (.awaitBlock span (← Expression.ofMember? j "expression")
      (← j.optionalMember "value" str?) (← j.optionalMember "error" str?)
      (← fragmentOfMember? j "pending") (← fragmentOfMember? j "then")
      (← fragmentOfMember? j "catch"))
  | "KeyBlock" => some (.keyBlock span (← Expression.ofMember? j "expression")
      (← fragmentOfMember? j "fragment"))
  | "SnippetBlock" => some (.snippetBlock span (← j.memberOr "name" "" str?)
      (← j.memberOr "parameters" "" str?) (← fragmentOfMember? j "body"))
  | "RawMustacheTag" => some (.tag .rawHtml span (← Expression.ofMember? j "expression"))
  | "MustacheTag" => some (.tag .mustache span (← Expression.ofMember? j "expression"))
  | "ConstTag" => some (.tag .const span (← Expression.ofMember? j "expression"))
  | "RenderTag" => some (.tag .render span (← Expression.ofMember? j "expression"))
  | "DebugTag" => some (.debugTag span (← j.memberOr "identifiers" [] strings?))
  | "Comment" => some (.comment span (← j.memberOr "data" "" str?)
      (.ofList (← j.memberOr "ignores" [] strings?)))
  | "Text" => some (.text span (← j.memberOr "raw" "" str?) (← j.memberOr "data" "" str?))
  | _ => none
termination_by (sizeOf j, 2)

/-- The element that a JSON object describes. -/
def elementOfJson? (kind : ElementKind) (span : Span) (j : Json) : Option Node := do
  some (.element kind span (← j.memberOr "name" "" str?)
    (← j.memberOr "attributes" [] fun v => v.items?.bind (·.mapM Attribute.ofJson?))
    (← fragmentOfMember? j "fragment"))
termination_by (sizeOf j, 1)

/-- The fragment that a JSON object describes. -/
def fragmentOfJson? (j : Json) : Option (Fragment Node) := do
  let span ← Span.ofJson? j
  match _h : j.member? "children" with
  | none => some ⟨span, []⟩
  | some v =>
    match _hi : v.items? with
    | none => none
    | some items => some ⟨span, ← childrenOfJson? items⟩
termination_by (sizeOf j, 1)
decreasing_by
  have h := sizeOf_lt_of_member? _h
  have hi := sizeOf_lt_of_items? _hi
  exact Prod.Lex.left _ _ (Nat.lt_trans hi h)

/-- The fragment that a member describes, if it is set. -/
def fragmentOfMember? (j : Json) (name : String) : Option (Option (Fragment Node)) :=
  match _h : j.member? name with
  | none | some .null => some none
  | some v => (fragmentOfJson? v).map some
termination_by (sizeOf j, 0)
decreasing_by exact Prod.Lex.left _ _ (sizeOf_lt_of_member? _h)

/-- The nodes that the items of an array describe. -/
def childrenOfJson? (items : List Json) : Option (List Node) :=
  match items with
  | [] => some []
  | item :: items => do
    let node ← Node.ofJson? item
    return node :: (← childrenOfJson? items)
termination_by (sizeOf items, 0)

end

end Template

end RawHtmlLint

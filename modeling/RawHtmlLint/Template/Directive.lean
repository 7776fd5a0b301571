import RawHtmlLint.Text.Blank
import RawHtmlLint.Text.Pattern
import RawHtmlLint.Text.Word

/-!
# Suppression directives

Model of `extract_ignores` with its patterns `_DIRECTIVES`, `_SEPARATOR` and `_RULE_NAME`. A
comment can suppress rules by name: `svelte-ignore` followed by white space, or
`suppress-rule:`, at the start of the comment, and then names between white space and commas. A
name starts with an ASCII letter and goes on with word characters and hyphens; a hyphen stands
for a low line. Words that are no names are passed over.

The names a comment suppresses form a set: `RuleSet` keeps them in increasing order, each once.

Results:
* `sorted_insertName`: inserting a name keeps the order.
-/

namespace RawHtmlLint.Template

open Text

/-- The names with one more, in increasing order; nothing changes if it is among them. -/
def insertName (name : String) : List String → List String
  | [] => [name]
  | n :: names =>
    if n < name then n :: insertName name names
    else if name < n then name :: n :: names
    else n :: names

theorem mem_insertName {name m : String} : ∀ {names : List String},
    m ∈ insertName name names → m = name ∨ m ∈ names
  | [], h => Or.inl (List.mem_singleton.mp h)
  | n :: names, h => by
    simp only [insertName] at h
    split at h
    · rcases List.mem_cons.mp h with rfl | h
      · exact Or.inr List.mem_cons_self
      · exact (mem_insertName h).imp id (List.mem_cons_of_mem _)
    · split at h
      · exact List.mem_cons.mp h
      · exact Or.inr h

/-- Inserting a name keeps the order. -/
theorem sorted_insertName {name : String} : ∀ {names : List String},
    names.Pairwise (· < ·) → (insertName name names).Pairwise (· < ·)
  | [], _ => List.pairwise_singleton _ _
  | n :: names, h => by
    obtain ⟨hn, hnames⟩ := List.pairwise_cons.mp h
    simp only [insertName]
    split
    · rename_i hlt
      refine List.pairwise_cons.mpr ⟨fun m hm => ?_, sorted_insertName hnames⟩
      rcases mem_insertName hm with rfl | hm
      · exact hlt
      · exact hn m hm
    · split
      · rename_i hlt
        refine List.pairwise_cons.mpr ⟨fun m hm => ?_, h⟩
        rcases List.mem_cons.mp hm with rfl | hm
        · exact hlt
        · exact String.lt_trans hlt (hn m hm)
      · exact h

/-- A set of rule names. -/
structure RuleSet where
  /-- The names in increasing order. -/
  names : List String
  sorted : names.Pairwise (· < ·)
  deriving DecidableEq

namespace RuleSet

/-- No names. -/
def empty : RuleSet := ⟨[], List.Pairwise.nil⟩

/-- The set with one more name. -/
def insert (name : String) (s : RuleSet) : RuleSet :=
  ⟨insertName name s.names, sorted_insertName s.sorted⟩

/-- The set of the names of a list. -/
def ofList (names : List String) : RuleSet := names.foldr insert empty

/-- The name is in the set. -/
def contains (s : RuleSet) (name : String) : Bool := s.names.contains name

end RuleSet

namespace Directive

/-- White space, the names, white space up to the end. -/
def namesPattern : List Pattern.Part := [.many isBlank, .kept, .many isBlank, .ending]

/-- `svelte-ignore`, white space, and the names. -/
def ignoreForm : List Pattern.Part :=
  .many isBlank :: .word "svelte-ignore".toList :: .one isBlank :: namesPattern

/-- `suppress-rule:` and the names. -/
def suppressForm : List Pattern.Part :=
  .many isBlank :: .word "suppress-rule:".toList :: namesPattern

/-- A character between two words of a directive. -/
def isSeparator (c : Char) : Bool := isBlank c || c == ','

/-- The name of a rule: an ASCII letter, then word characters and hyphens. -/
def namePattern : List Pattern.Part :=
  [.one Char.isAlpha, .many fun c => isWord c || c == '-', .ending]

/-- The word is the name of a rule. -/
def isRuleName (word : List Char) : Bool := (Pattern.read namePattern word).isSome

/-- The name as rules are known by. -/
def normalized (name : List Char) : String :=
  String.ofList (name.map fun c => if c = '-' then '_' else c)

/-- The rules that the text of a directive names. -/
def named (text : List Char) : RuleSet :=
  let words := (splitRuns isSeparator text).filter (!·.isEmpty)
  .ofList ((words.filter isRuleName).map normalized)

/-- The rules that a comment suppresses: the first form that it has tells their names. -/
def rules (comment : List Char) : RuleSet :=
  match [ignoreForm, suppressForm].findSome? (Pattern.read · comment) with
  | some text => named text
  | none => .empty

end Directive

end RawHtmlLint.Template

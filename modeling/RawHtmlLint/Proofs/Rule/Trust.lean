import RawHtmlLint.Proofs.Analysis

/-!
# What trusting more names changes

The names of trusted sanitizers are looked at in one place: when an insertion is met, and after it
has been met. So two runs with different names walk the same tree in the same way, and which
comments suppress which insertions is the same in both. Of the insertions that one run reports,
another that trusts more names reports those that do not call one of its names directly.

Results:
* `insertionAt?_of_subset`: the runs side by side, at one place of the tree;
* `detect_of_subset`: the same of a whole tree;
* `analyze_trusting_more`: the same of a component, from its source to its report.
-/

namespace RawHtmlLint

open Grammar Template

/-- The expression is a direct call of one of the names. -/
def Expression.CallsOneOf (names : List String) (e : Expression) : Prop :=
  e.isCall = true ∧ ∃ callee name, e.callee = some callee ∧ callee.kind = "identifier" ∧
    callee.name = some name ∧ name ∈ names

namespace Rule

variable {S T : List String}

theorem isSanitized_some_iff {names : List String} {e : Expression} :
    isSanitized names (some e) = true ↔ e.CallsOneOf names := by
  unfold isSanitized Expression.CallsOneOf
  rw [Bool.and_eq_true]
  refine and_congr_right fun _ => ?_
  cases e.callee with
  | none => exact ⟨fun h => (nomatch h), fun ⟨_, _, h, _⟩ => (nomatch h)⟩
  | some callee =>
    simp only [Bool.and_eq_true, beq_iff_eq, Option.any_eq_true, List.contains_iff_mem]
    constructor
    · rintro ⟨hkind, name, hname, hmem⟩
      exact ⟨callee, name, rfl, hkind, hname, hmem⟩
    · rintro ⟨_, name, hcallee, hkind, hname, hmem⟩
      cases hcallee
      exact ⟨hkind, name, hname, hmem⟩

instance (names : List String) (e : Expression) : Decidable (e.CallsOneOf names) :=
  decidable_of_iff _ isSanitized_some_iff

/-- What is trusted stays trusted if more names are. -/
theorem isSanitized_mono (hsub : S ⊆ T) {expression : Option Expression}
    (h : isSanitized S expression = true) : isSanitized T expression = true := by
  cases expression with
  | none => exact (nomatch h)
  | some e =>
    obtain ⟨hcall, callee, name, hcallee, hkind, hname, hmem⟩ := isSanitized_some_iff.mp h
    exact isSanitized_some_iff.mpr ⟨hcall, callee, name, hcallee, hkind, hname, hsub hmem⟩

/-- **Two runs at one place**: the one that trusts more names keeps what the other one reports,
unless it trusts it. -/
theorem insertionAt?_of_subset (hsub : S ⊆ T) (scope : Scope) :
    insertionAt? T scope =
      (insertionAt? S scope).filter fun i => !isSanitized T i.2 := by
  unfold insertionAt?
  split
  · rename_i span expression hnode
    cases hsuppressed : isSuppressed scope.siblings scope.index with
    | true => simp
    | false =>
      cases hS : isSanitized S expression with
      | true => simp [isSanitized_mono hsub hS]
      | false => cases hT : isSanitized T expression <;> simp [Option.filter, hT]
  · rfl

theorem insertions_of_subset (hsub : S ⊆ T) (root : Node) :
    insertions T root = (insertions S root).filter fun i => !isSanitized T i.2 := by
  unfold insertions
  split
  · rename_i span expression
    cases hS : isSanitized S expression with
    | true => simp [isSanitized_mono hsub hS]
    | false => cases hT : isSanitized T expression <;> simp [hT]
  · rw [List.filter_filterMap]
    exact List.filterMap_congr fun v _ => insertionAt?_of_subset hsub (scopeAt v)

theorem mapM_report_map : ∀ found : List Insertion,
    ((found.map fun i => (i.span, some i.expression)).mapM fun i => report i.1 i.2) = .ok found
  | [] => rfl
  | i :: found => by
    rw [List.map_cons, List.mapM_cons, mapM_report_map found]
    rfl

/-- **Two runs over a tree**: the one that trusts more names reports the insertions that the other
one does, but for the direct calls of its own names. -/
theorem detect_of_subset (hsub : S ⊆ T) {root : Node} {found : List Insertion}
    (hfound : detect S root = .ok found) :
    detect T root = .ok (found.filter fun i => ¬ i.expression.CallsOneOf T) := by
  rw [detect_eq_mapM] at hfound ⊢
  have hnone : ∀ i ∈ insertions S root, ∃ e, i.2 = some e := by
    intro i hi
    refine Option.ne_none_iff_exists'.mp fun hnone => ?_
    obtain ⟨failure, hfails⟩ := (mapM_fails_iff _).mpr ⟨i, hi, hnone⟩
    cases hfound.symm.trans hfails
  obtain ⟨found', hfound', hmap⟩ := mapM_report hnone
  obtain rfl := Except.ok.inj (hfound.symm.trans hfound')
  have htest : ∀ i ∈ found, ((fun i => !isSanitized T i.2) ∘
      fun i : Insertion => (i.span, some i.expression)) i =
        decide (¬ i.expression.CallsOneOf T) := by
    intro i _
    rw [Bool.eq_iff_iff, Function.comp_apply, Bool.not_eq_true', decide_eq_true_iff,
      ← isSanitized_some_iff, Bool.not_eq_true]
  rw [insertions_of_subset hsub, hmap, List.filter_map, List.filter_congr htest, mapM_report_map]

/-- Only which names are trusted matters, not in which order or how often they are listed. -/
theorem isSanitized_congr (hST : S ⊆ T) (hTS : T ⊆ S) : isSanitized S = isSanitized T := by
  funext expression
  exact Bool.eq_iff_iff.mpr ⟨isSanitized_mono hST, isSanitized_mono hTS⟩

theorem detect_congr (hST : S ⊆ T) (hTS : T ⊆ S) (root : Node) : detect S root = detect T root := by
  rw [detect_eq_mapM, detect_eq_mapM]
  unfold insertions insertionAt?
  rw [isSanitized_congr hST hTS]

end Rule

/-- The analysis depends on the list of trusted names only as a set. -/
theorem analyze_congr (g : Grammars) (modern : Bool) (s : Source) {S T : List String}
    (hST : S ⊆ T) (hTS : T ⊆ S) : analyze g ⟨S, modern⟩ s = analyze g ⟨T, modern⟩ s := by
  simp only [analyze_eq, Rule.detect_congr hST hTS]

/-- The report on a component that was parsed. -/
theorem analyze_of_detect {g : Grammars} {modern : Bool} {s : Source} {names : List String}
    {parsed : Parsed} {found : List Rule.Insertion}
    (hparse : Template.parse g modern s = .ok parsed)
    (hfound : Rule.detect names (.fragment parsed.component.fragment) = .ok found) :
    ∃ log, analyze g ⟨names, modern⟩ s =
      .ok ⟨.checked s.path (found.map (Finding.ofInsertion s.path)), log⟩ := by
  rw [analyze_eq, hparse]
  exact ⟨_, bind_eq_ok.mpr ⟨found, hfound, rfl⟩⟩

/-- **Trusting more names takes findings away, and changes nothing else.** Both analyses fail in the
same way, or both have a report. The reports agree on whether the component could be parsed, and
why not. If it could, the findings of the second one are those of the first one whose insertion is
no direct call of a name that the second one trusts, in the same order. If both trust the same
names, the two analyses are one. -/
theorem analyze_trusting_more (g : Grammars) (modern : Bool) (s : Source) {S T : List String}
    (hsub : S ⊆ T) :
    (∀ failure, analyze g ⟨S, modern⟩ s = .error failure ↔
      analyze g ⟨T, modern⟩ s = .error failure) ∧
    (∀ a, analyze g ⟨S, modern⟩ s = .ok a → ∃ b, analyze g ⟨T, modern⟩ s = .ok b ∧
      b.report.path = a.report.path ∧ b.report.isParsed = a.report.isParsed ∧
      b.report.diagnostic? = a.report.diagnostic? ∧
      b.report.findings.Sublist a.report.findings) ∧
    (∀ parsed, Template.parse g modern s = .ok parsed → ∃ found a b,
      Rule.detect S (.fragment parsed.component.fragment) = .ok found ∧
      analyze g ⟨S, modern⟩ s = .ok a ∧ analyze g ⟨T, modern⟩ s = .ok b ∧
      a.report.findings = found.map (Finding.ofInsertion s.path) ∧
      b.report.findings = (found.filter fun i => ¬ i.expression.CallsOneOf T).map
        (Finding.ofInsertion s.path)) ∧
    (T ⊆ S → analyze g ⟨S, modern⟩ s = analyze g ⟨T, modern⟩ s) := by
  have hmeets := parse_meets g modern s
  cases hparse : Template.parse g modern s with
  | error failure =>
    -- no name is looked at before the component is parsed
    have hsame : analyze g ⟨T, modern⟩ s = analyze g ⟨S, modern⟩ s := by
      rw [analyze_eq, analyze_eq, hparse]
      cases failure <;> rfl
    refine ⟨fun _ => by rw [hsame], fun a ha => ?_, fun _ h => (nomatch h), fun _ => hsame.symm⟩
    exact ⟨a, hsame.trans ha, rfl, rfl, rfl, .refl _⟩
  | ok parsed =>
    obtain ⟨found, hfound⟩ := detect_ok (hmeets.of_ok hparse) S
    have hkept := Rule.detect_of_subset hsub hfound
    obtain ⟨logS, hS⟩ := analyze_of_detect hparse hfound
    obtain ⟨logT, hT⟩ := analyze_of_detect hparse hkept
    refine ⟨fun failure => ?_, fun a ha => ?_, fun other hother => ?_,
      fun hTS => analyze_congr g modern s hsub hTS⟩
    · rw [hS, hT]
      exact ⟨fun h => (nomatch h), fun h => (nomatch h)⟩
    · obtain rfl := Except.ok.inj (hS.symm.trans ha)
      exact ⟨_, hT, rfl, rfl, rfl, List.filter_sublist.map _⟩
    · cases hother
      exact ⟨found, _, _, hfound, hS, hT, rfl, rfl⟩

/-! Two insertions side by side, of which one calls a name. -/

def pairSource : Source :=
  .ofText "Pair.svelte" "\x7b@html f(x)\x7d\x7b@html y\x7d".toList

/-- The tree of its markup. -/
def pairTree : Tree :=
  sampleNode "document" 0 21 [sampleNode "html_expr" 0 12 [], sampleNode "html_expr" 12 21 []]

/-- The tree of the call in parentheses. -/
def callTree : Tree :=
  sampleNode "program" 0 8 [
    sampleNode "expression_statement" 0 8 [
      sampleNode "parenthesized_expression" 0 8 [
        sampleNode "call_expression" 2 6 [
          .node ⟨"identifier", 2, 3, true, false, [.function]⟩ [],
          .node ⟨"arguments", 3, 6, true, false, [.arguments]⟩ []]]]]

def pairGrammars : Grammars where
  tree? language text := match language with
    | .svelte => some ⟨pairTree, false⟩
    | _ => if text.length = 8 then some ⟨callTree, false⟩
      else some ⟨sampleExpression text.length, false⟩

theorem analyze_pairSource : ∃ a b, [] ⊆ ["g", "f"] ∧
    analyze pairGrammars ⟨[], false⟩ pairSource = .ok a ∧
    analyze pairGrammars ⟨["g", "f"], false⟩ pairSource = .ok b ∧
    a.report.findings.length = 2 ∧ b.report.findings.length = 1 ∧
    b.report.isParsed = a.report.isParsed ∧ b.report.findings.Sublist a.report.findings := by
  obtain ⟨a, ha, hcount⟩ := exists_ok_of_any (x := analyze pairGrammars ⟨[], false⟩ pairSource)
    (p := (·.report.findings.length == 2)) (by decide +kernel)
  obtain ⟨b, hb, hcount'⟩ := exists_ok_of_any
    (x := analyze pairGrammars ⟨["g", "f"], false⟩ pairSource)
    (p := (·.report.findings.length == 1)) (by decide +kernel)
  have hsub : ([] : List String) ⊆ ["g", "f"] := List.nil_subset _
  obtain ⟨_, hless, _⟩ := analyze_trusting_more pairGrammars false pairSource hsub
  obtain ⟨b', hb', _, hparsed, _, hsublist⟩ := hless a ha
  obtain rfl := Except.ok.inj (hb.symm.trans hb')
  exact ⟨a, b, hsub, ha, hb, beq_iff_eq.mp hcount, beq_iff_eq.mp hcount', hparsed, hsublist⟩

end RawHtmlLint

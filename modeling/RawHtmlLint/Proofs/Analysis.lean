import RawHtmlLint.Proofs.Rule.SourceOrder
import RawHtmlLint.Proofs.Template.Rejection

/-!
# Every component has a report

An analysis ends with a report: malformed components have one too, with the reason and without
findings. The rule itself never fails, since every insertion of a parsed component has its
expression. What can keep a component from having a report is what keeps it from being parsed or
rejected: grammars or trees that are not there, a block of the tree without a tag of its own, and a
decimal reference with too many digits. The last one depends on the source alone.

Results:
* `detect_ok`: the rule can be run on a sound fragment;
* `analyze_reports`: when a component has a report, and which;
* `analyze_oversizedSource`: a component without one.
-/

namespace RawHtmlLint

open Grammar Template Text

/-- **The rule can be run on a sound fragment.** -/
theorem detect_ok {f : Fragment Node} (hf : FragmentSound f) (trusted : List String) :
    ∃ found, Rule.detect trusted (.fragment f) = .ok found := by
  have hsound : Everywhere Sound (.fragment f) :=
    everywhere_sound (complete_of_isTag rfl) fun g hg => by
      obtain rfl := List.mem_singleton.mp hg
      exact hf
  have hexpressions : ∀ i ∈ Rule.insertions trusted (.fragment f), ∃ e, i.2 = some e := by
    intro i hi
    have hcomplete := (hsound _ (Rule.holds_of_mem_insertions hi)).complete i.1
    exact Option.ne_none_iff_exists'.mp fun hnone => hcomplete (by rw [hnone])
  obtain ⟨found, hfound, _⟩ := Rule.mapM_report hexpressions
  exact ⟨found, (Rule.detect_eq_mapM trusted _).trans hfound⟩

/-- **Every component has a report**, unless it can be neither parsed nor rejected for one of the
reasons that excuse it. The report says that the component could not be parsed exactly if it was
rejected, and then it says why and has no findings. -/
theorem analyze_reports (g : Grammars) (options : Options) (s : Source) :
    (∃ a, analyze g options s = .ok a ∧ a.report.path = s.path ∧
        (a.report.isParsed = false ↔
          ∃ d, Template.parse g options.modern s = .error (.malformed d)) ∧
        ∀ d, Template.parse g options.modern s = .error (.malformed d) →
          a.report.diagnostic? = some d ∧ a.report.findings = []) ∨
      ∃ failure, analyze g options s = .error failure ∧
        Template.parse g options.modern s = .error failure ∧ Excused g s failure := by
  have hmeets := parse_meets g options.modern s
  rw [analyze_eq]
  cases hparse : Template.parse g options.modern s with
  | ok parsed =>
    left
    obtain ⟨found, hfound⟩ := detect_ok (hmeets.of_ok hparse) options.sanitizers
    refine ⟨_, bind_eq_ok.mpr ⟨found, hfound, rfl⟩, rfl, ?_, fun d hd => (nomatch hd)⟩
    exact ⟨fun hfalse => (nomatch hfalse), fun ⟨d, hd⟩ => (nomatch hd)⟩
  | error failure =>
    cases hmeets.of_error hparse with
    | rejected cause hle =>
      left
      refine ⟨_, rfl, rfl, ⟨fun _ => ⟨_, rfl⟩, fun _ => rfl⟩, ?_⟩
      rintro d hd
      cases hd
      exact ⟨rfl, rfl⟩
    | excused hexcused =>
      right
      refine ⟨failure, ?_, rfl, hexcused⟩
      cases hexcused <;> rfl

/-! ## A component without a report -/

theorem parts_childless (s : Source) (low high : Nat) (l : Grammar.Label) :
    parts s low high (.node l []) = [] := by
  unfold parts
  rw [Tree.children, partsAmong]

/-- A node without children has no parts. -/
theorem not_mapped_childless {s : Source} {l : Grammar.Label} {p : Part × Tree} :
    ¬ Mapped s (.node l []) p := by
  intro h
  induction h with
  | outer h =>
    rw [parts_childless] at h
    exact absurd h List.not_mem_nil
  | inner _ _ ih => exact ih

/-- A source without braces that the grammar finds nothing in but text has no report if a
decimal reference with too many digits stands in it. -/
theorem analyze_of_oversized {g : Grammars} {s : Source} {l : Grammar.Label} (options : Options)
    (htree : g.parse Language.svelte.name (Markup.adapt s.text) = .ok ⟨.node l [], false⟩)
    (hbrace : '\x7b' ∉ s.text) (holds : HoldsOversized s.text) :
    analyze g options s = .error .oversizedReference := by
  have hparts := parts_childless s 0 s.size l
  have hnone : positions (· == '\x7b') s.text 0 s.size = [] := by
    rw [List.eq_nil_iff_forall_not_mem]
    intro p hp
    obtain ⟨_, _, c, hget, hc⟩ := mem_positions_iff.mp hp
    rw [beq_iff_eq.mp hc] at hget
    exact hbrace (List.mem_of_getElem? hget)
  have hreject : rejectHeaders s 0 s.size [] = .ok () := by
    unfold rejectHeaders headers
    rw [List.map_nil, List.nil_append, headersBetween]
    dsimp only
    rw [hnone]
    rfl
  have hpos : 0 < s.size := by
    obtain ⟨digits, hin, _⟩ := holds
    exact Nat.lt_of_lt_of_le (Nat.succ_pos _) hin.length_le
  have hfill : fill s.text s.size 0 [] = .error .oversizedReference := by
    have hwhole : slice s.text 0 s.size = s.text := by
      unfold slice
      rw [List.drop_zero, size_eq_length, List.take_length]
    rw [fill, gap, if_pos hpos]
    unfold textNode
    rw [hwhole]
    dsimp only
    rw [decode_eq_none_iff.mpr holds]
    rfl
  have hparse : Template.parse g options.modern s = .error .oversizedReference := by
    unfold Template.parse
    rw [htree]
    show (convertDocument _ _ >>= _) = _
    rw [convertDocument_eq, documentOf]
    show ((rejectHeaders s 0 s.size (parts s 0 s.size (.node l [])) >>= _) >>= _) = _
    rw [hparts, hreject]
    show ((itemsOf _ _ _ (parts s 0 s.size (.node l [])) >>= _) >>= _) = _
    rw [hparts, itemsOf]
    show ((fill s.text s.size 0 [] >>= _) >>= _) = _
    rw [hfill]
    rfl
  rw [analyze_eq, hparse]

/-- The reference to a code point with one digit too many. -/
def oversizedSource : Source :=
  .ofText "Oversized.svelte" ('&' :: '#' :: List.replicate (maxDecimalDigits + 1) '1')

/-- Grammars that find nothing in any text. -/
def plainGrammars : Grammars where
  tree? _ _ := some ⟨sampleNode "document" 0 4303 [], false⟩

/-- **A component without a report**: all grammars and trees are there, and the tree holds no
block. -/
theorem analyze_oversizedSource :
    (∀ language : Language, plainGrammars.registry.language? language.name = some language) ∧
      (∀ language text, (plainGrammars.tree? language text).isSome = true) ∧
      (∀ tree, plainGrammars.parse Language.svelte.name (Markup.adapt oversizedSource.text) =
        .ok tree → ∀ t, ¬ Mapped oversizedSource tree.root (.block, t)) ∧
      analyze plainGrammars {} oversizedSource = .error .oversizedReference := by
  have htree : plainGrammars.parse Language.svelte.name (Markup.adapt oversizedSource.text) =
    .ok ⟨sampleNode "document" 0 4303 [], false⟩ := rfl
  refine ⟨fun language => by cases language <;> decide, fun _ _ => rfl, ?_, ?_⟩
  · intro tree hok t hmapped
    cases htree.symm.trans hok
    exact not_mapped_childless hmapped
  · refine analyze_of_oversized {} htree ?_ ?_
    · intro hmem
      rcases List.mem_cons.mp hmem with h | hmem
      · exact absurd h (by decide)
      · rcases List.mem_cons.mp hmem with h | hmem
        · exact absurd h (by decide)
        · exact absurd (List.eq_of_mem_replicate hmem) (by decide)
    · refine ⟨List.replicate (maxDecimalDigits + 1) '1', List.infix_rfl, ?_, ?_⟩
      · intro d hd
        rw [List.eq_of_mem_replicate hd]
        rfl
      · rw [List.length_replicate]
        exact Nat.lt_succ_self _

end RawHtmlLint

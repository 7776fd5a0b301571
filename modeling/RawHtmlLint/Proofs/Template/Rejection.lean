import RawHtmlLint.Proofs.Template.Sound
import RawHtmlLint.Proofs.Text.Entity
import RawHtmlLint.Template.Parse

/-!
# What a component is rejected for

Parsing ends with a component, with a rejection that points into the source, or because of
something that is no fault of the component: a grammar or a tree is not there, the tree makes a
block of a node without a tag of its own, or a character reference has too many digits. This holds
for trees of any shape, those of expressions and scripts included.

Results:
* `Expression.read_meets_of`, `parse_meets_of`: what failures there are, given those of the steps;
* `parse_meets`: how parsing ends;
* `parse_malformed_located`: a rejection points into the source.
-/

namespace RawHtmlLint

open Grammar Template Text

/-- What grammars are given to read: the adapted text, what may be an expression, and what may
be a script, the latter two in a script language. -/
inductive Consulted (s : Source) : Language → List Char → Prop
  | markup : Consulted s .svelte (Markup.adapt s.text)
  | expression {language : Language} (h : language ≠ .svelte) (start stop : Nat) :
    Consulted s language (Expression.wrapped (s.slice start stop))
  | script {language : Language} (h : language ≠ .svelte) (start stop : Nat) :
    Consulted s language (s.slice start stop)

/-- Why parsing may end without a component and without a rejection. -/
inductive Excused (g : Grammars) (s : Source) : Failure → Prop
  | unavailable {language : Language} (h : g.registry.language? language.name = none) :
    Excused g s (.grammarUnavailable (g.registry.unavailable language.name))
  | missing {language known : Language} {text : List Char} (htext : Consulted s language text)
    (hknown : g.registry.language? language.name = some known) (h : g.tree? known text = none) :
    Excused g s .missingTree
  | headless {tree : Parse} {t : Tree}
    (htree : g.parse Language.svelte.name (Markup.adapt s.text) = .ok tree)
    (hmapped : Mapped s tree.root (.block, t)) (h : StartsWithPart s t) :
    Excused g s .headlessBlock
  | oversized (h : HoldsOversized s.text) : Excused g s .oversizedReference

/-- Why parsing may end without a component. -/
inductive Explained (g : Grammars) (s : Source) : Failure → Prop
  | rejected (cause : Cause) {offset : Nat} (h : offset ≤ s.size) :
    Explained g s (.malformed (s.diagnose cause offset))
  | excused {failure : Failure} (h : Excused g s failure) : Explained g s failure

section

variable {g : Grammars} {s : Source}

theorem Grammar.Grammars.parse_meets {language : Language} {text : List Char}
    (htext : Consulted s language text) :
    Meets (Explained g s) (fun _ => True) (g.parse language.name text) := by
  unfold Grammars.parse
  split
  · rename_i hnone
    exact .excused (.unavailable hnone)
  · rename_i known hknown
    split
    · trivial
    · rename_i hnone
      exact .excused (.missing htext hknown hnone)

/-! ## Expressions and scripts -/

theorem length_slice_add_le {start : Nat} (stop : Nat) (hstart : start ≤ s.size) :
    start + (s.slice start stop).length ≤ s.size := by
  unfold Source.slice
  rw [length_slice]
  rw [size_eq_length] at hstart ⊢
  omega

/-- The reading of an expression fails as that of its tree does, or the source is rejected for
another cause than a flaw. -/
theorem Expression.read_meets_of {F : Failure → Prop} {language : String} {start : Nat} (stop : Nat)
    (hrejected : ∀ cause offset, cause.isFlaw = false → offset ≤ s.size →
      F (.malformed (s.diagnose cause offset)))
    (hparse : Meets F (fun _ => True) (g.parse language (wrapped (s.slice start stop))))
    (hstart : start ≤ s.size) :
    Meets F (fun _ => True) (Expression.read s g language start stop) := by
  have hlength := length_slice_add_le stop hstart
  unfold Expression.read
  dsimp only
  split
  · exact hrejected _ _ rfl hstart
  · refine hparse.bind fun parse _ => ?_
    split
    · trivial
    · have hblank := blankCount_le (s.slice start stop)
      exact hrejected _ _ rfl (Nat.le_trans (Nat.add_le_add_left hblank start) hlength)

theorem Expression.read_meets {language : Language} (hlanguage : language ≠ .svelte)
    {start : Nat} (stop : Nat) (hstart : start ≤ s.size) :
    Meets (Explained g s) (fun _ => True) (Expression.read s g language.name start stop) :=
  read_meets_of stop (fun cause _ _ hle => .rejected cause hle)
    (Grammars.parse_meets (.expression hlanguage start stop)) hstart

theorem Script.check_meets {language : Language} (hlanguage : language ≠ .svelte)
    {start : Nat} (stop : Nat) (hstart : start ≤ s.size) :
    Meets (Explained g s) (fun _ => True) (Script.check s g language.name start stop) := by
  have hlength := length_slice_add_le stop hstart
  unfold Script.check
  refine (Grammars.parse_meets (.script hlanguage start stop)).bind fun parse _ => ?_
  split
  · refine Explained.rejected _ ?_
    split
    · rename_i node _
      rw [charsWithin_bytesOf]
      have hle := ownerOf_le_length (s.slice start stop) node.label.startByte
      exact Nat.le_trans (Nat.add_le_add_left hle start) hlength
    · exact hstart
  · trivial

/-! ## Components -/

theorem flawCause_le (root : Tree) : (flawCause s root).2 ≤ s.size := by
  unfold flawCause
  split
  · exact Nat.zero_le _
  · rename_i node _
    have hle := s.charOffset_le_size node.label.startByte
    dsimp only
    split
    · exact hle
    · split <;> exact hle

theorem scriptLanguage_ne_svelte (root : Tree) : scriptLanguage s root ≠ .svelte :=
  ite_ne_svelte _

/-- The reading of a component fails in no other way. -/
theorem contextFor_admits {modern : Bool} {language : Language} {tree : Parse}
    (hlanguage : language ≠ .svelte)
    (htree : g.parse Language.svelte.name (Markup.adapt s.text) = .ok tree) :
    Admits (Explained g s) (contextFor g s modern language) tree.root where
  rejected cause _ _ hle := .rejected cause hle
  read _ stop hstart := Expression.read_meets hlanguage stop hstart
  checkScript _ _ stop hother hstart := Script.check_meets hother stop hstart
  undecoded start stop hnone := by
    have hholds := decode_eq_none_iff.mp hnone
    refine .excused (.oversized (hholds.of_infix ?_))
    exact (List.drop_suffix start _).isInfix.trans (List.take_prefix stop _).isInfix
  headless _ hmapped hstarts := .excused (.headless htree hmapped hstarts)

/-- Parsing reads the tree of the markup, rejects it if it is flawed, and converts it otherwise. -/
theorem parse_meets_of {F : Failure → Prop} {modern : Bool}
    (hparse : Meets F (fun _ => True) (g.parse Language.svelte.name (Markup.adapt s.text)))
    (hflawed : ∀ tree, g.parse Language.svelte.name (Markup.adapt s.text) = .ok tree →
      tree.flawed = true →
      F (.malformed (s.diagnose (flawCause s tree.root).1 (flawCause s tree.root).2)))
    (hadmits : ∀ tree, g.parse Language.svelte.name (Markup.adapt s.text) = .ok tree →
      Admits F (contextFor g s modern (scriptLanguage s tree.root)) tree.root) :
    Meets F (fun parsed => FragmentSound parsed.component.fragment) (parse g modern s) := by
  unfold parse
  refine hparse.bind_ok fun tree htree _ => ?_
  split
  · rename_i h
    exact hflawed tree htree h
  · dsimp only
    rw [convertDocument_eq]
    exact (documentOf_meets (hadmits tree htree)).bind fun _ hsound => hsound

/-- **How parsing ends**: with a sound component, or for one of the reasons that are explained. -/
theorem parse_meets (g : Grammars) (modern : Bool) (s : Source) :
    Meets (Explained g s) (fun parsed => FragmentSound parsed.component.fragment)
      (parse g modern s) :=
  parse_meets_of (Grammars.parse_meets .markup)
    (fun tree _ _ => .rejected _ (flawCause_le tree.root))
    fun _ htree => contextFor_admits (scriptLanguage_ne_svelte _) htree

end

/-- **A rejection points into the source**: it has an offset from zero up to the number of
characters, the position of this offset, and the path of the source. -/
theorem parse_malformed_located {g : Grammars} {modern : Bool} {s : Source} {d : Diagnostic}
    (h : parse g modern s = .error (.malformed d)) :
    ∃ offset : Int, d.offset = some offset ∧ 0 ≤ offset ∧ offset ≤ s.size ∧
      d.position = some (s.position offset) ∧ d.path = some s.path := by
  cases (parse_meets g modern s).of_error h with
  | @rejected cause offset hle =>
    exact ⟨offset, rfl, Int.natCast_nonneg _, Int.ofNat_le.mpr hle, rfl, rfl⟩
  | excused hexcused => cases hexcused

/-! An insertion without an expression, in the line after a letter of two units. -/

/-- The source is rejected just past the keyword. -/
def blankInsertion : Source :=
  .ofText "Blank.svelte" (Char.ofNat 0x1D400 :: "\n\x7b@html \x7d".toList)

/-- Grammars that know its tree. -/
def blankGrammars : Grammars where
  tree? _ _ := some ⟨.node ⟨"document", 0, 13, true, false, []⟩
    [.node ⟨"html_expr", 5, 13, true, false, []⟩ []], false⟩

theorem blankInsertion_located : ∃ (d : Diagnostic) (offset : Int),
    parse blankGrammars false blankInsertion = .error (.malformed d) ∧ d.offset = some offset ∧
      offset = 8 ∧ 0 ≤ offset ∧ offset ≤ blankInsertion.size ∧ d.position = some ⟨2, 6⟩ ∧
      d.path = some "Blank.svelte" := by
  obtain ⟨d, hd, htest⟩ := exists_malformed_of_any (x := parse blankGrammars false blankInsertion)
    (p := fun d => d.code == "missing-expression" && d.offset == some 8) (by decide +kernel)
  obtain ⟨offset, hoffset, hpos, hle, hposition, hpath⟩ := parse_malformed_located hd
  rw [Bool.and_eq_true, beq_iff_eq, beq_iff_eq] at htest
  obtain rfl : offset = 8 := Option.some.inj (hoffset.symm.trans htest.2)
  refine ⟨d, 8, hd, hoffset, rfl, hpos, hle, ?_, hpath⟩
  rw [hposition]
  decide +kernel

end RawHtmlLint

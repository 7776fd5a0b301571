import RawHtmlLint.Proofs.Grammar.Preorder
import RawHtmlLint.Proofs.Template.Adaptation
import RawHtmlLint.Proofs.Template.Rejection
import RawHtmlLint.Proofs.Template.Tiling

/-!
# The first flaw

If a grammar cannot read a text, the nodes of its tree show where: some are of what could not be
read, and some stand for what is missing. The search for the first of them keeps a list of the trees
still to be searched, and takes a tree apart by putting its children in front. So it goes through
the nodes of these trees in the order of the document.

A component is rejected for the first flaw of the tree of its markup, or of a script. What the
diagnostic points at is the character that the flaw starts with, in the text that was read; or the
start of this text, if the grammar says that there is a flaw and no node shows it. Nothing else that
a component is rejected for has one of these two codes.

Results:
* `firstFlawAmong?_eq_find?`: the search goes through the nodes in order;
* `firstFlaw?_eq_some_iff`, `firstFlaw?_eq_none_iff`: what it finds, and when it finds nothing;
* `flawCause_startsAt`, `Script.check_flawed`: where a flaw of the markup and one of a script is;
* `flaws_located`: the diagnostics of flaws point at the first flaw.
-/

namespace RawHtmlLint

open Grammar Text

/-! ## The search -/

namespace Grammar.Tree

/-- The node at the place is a flaw, and no node before it is one. -/
structure IsFirstFlaw (t : Tree) (place : Place) (u : Tree) : Prop where
  stands : t.at? place = some u
  isFlaw : u.isFlaw = true
  first : ∀ before v, before < place → t.at? before = some v → v.isFlaw = false

/-- No node is a flaw. -/
def IsFlawless (t : Tree) : Prop := ∀ place u, t.at? place = some u → u.isFlaw = false

/-- **The search goes through the nodes in order**: what is still to be searched has the nodes that
it will come to. -/
theorem firstFlawAmong?_eq_find? (todo : List Tree) :
    firstFlawAmong? todo = (nodesAll todo).find? isFlaw := by
  fun_induction firstFlawAmong? todo with
  | case1 => rfl
  | case2 t todo hflaw =>
    rw [nodesAll, nodes_eq, List.cons_append, List.find?_cons_of_pos hflaw]
  | case3 t todo hflaw ih =>
    rw [ih, nodesAll_append, nodesAll, nodes_eq, List.cons_append, List.find?_cons_of_neg hflaw]

theorem firstFlaw?_eq_find? (t : Tree) : t.firstFlaw? = t.nodes.find? isFlaw := by
  rw [firstFlaw?, firstFlawAmong?_eq_find?, nodesAll, nodesAll, List.append_nil]

/-- **What is found** is the first flaw in the order of the document. -/
theorem firstFlaw?_eq_some_iff {t u : Tree} :
    t.firstFlaw? = some u ↔ ∃ place, t.IsFirstFlaw place u := by
  rw [firstFlaw?_eq_find?, find?_nodes_eq_some_iff]
  exact exists_congr fun place => ⟨fun ⟨hat, hflaw, hfirst⟩ => ⟨hat, hflaw, hfirst⟩,
    fun h => ⟨h.stands, h.isFlaw, h.first⟩⟩

/-- **Nothing is found** exactly if there is no flaw. -/
theorem firstFlaw?_eq_none_iff {t : Tree} : t.firstFlaw? = none ↔ t.IsFlawless := by
  rw [firstFlaw?_eq_find?, List.find?_eq_none]
  constructor
  · intro h place u hat
    exact Bool.eq_false_iff.mpr (h u (mem_nodes_iff.mpr ⟨place, hat⟩))
  · intro h u hu
    obtain ⟨place, hat⟩ := mem_nodes_iff.mp hu
    exact Bool.eq_false_iff.mp (h place u hat)

/-- In a tree with nested bytes no flaw starts at an earlier byte than the one that is found. -/
theorem startByte_firstFlaw?_le {t u : Tree} (h : AllBytesNested t) (hu : t.firstFlaw? = some u)
    {v : Tree} (hv : v ∈ t.nodes) (hflaw : v.isFlaw = true) :
    u.label.startByte ≤ v.label.startByte := by
  rw [firstFlaw?_eq_find?, List.find?_eq_some_iff_append] at hu
  obtain ⟨_, before, after, hnodes, hbefore⟩ := hu
  have hsorted := starts_sorted h
  rw [hnodes] at hsorted hv
  rcases List.mem_append.mp hv with hv | hv
  · have hnot := hbefore v hv
    rw [hflaw] at hnot
    exact absurd hnot (by decide)
  · rcases List.mem_cons.mp hv with rfl | hv
    · exact Nat.le_refl _
    · exact (List.pairwise_cons.mp (List.pairwise_append.mp hsorted).2.1).1 v hv

end Grammar.Tree

/-! ## Where the diagnostics point -/

/-- Where the first flaw of a tree starts in a text: at the character that holds the first byte of
the flaw; at the start of the text if there is none. -/
inductive FlawStartsAt (text : List Char) (root : Tree) : Nat → Prop
  | first {place : Tree.Place} {u : Tree} (h : root.IsFirstFlaw place u) :
    FlawStartsAt text root (ownerOf text u.label.startByte)
  | flawless (h : root.IsFlawless) : FlawStartsAt text root 0

/-- The diagnostic has the place in the source at which the first flaw of a tree is in a text, which
starts at `base` in the source. -/
structure PointsAtFlaw (s : Source) (base : Nat) (text : List Char) (root : Tree)
    (d : Diagnostic) : Prop where
  located : ∃ offset, FlawStartsAt text root offset ∧ d.offset = some ↑(base + offset) ∧
    d.position = some (s.position ↑(base + offset))
  path : d.path = some s.path

/-- The diagnostic is of the markup: it points at the first flaw of its tree, by the bytes of the
source; and by those of the text that the grammar was given, if it keeps all wide characters. -/
structure TellsOfMarkup (g : Grammars) (s : Source) (tree : Parse) (d : Diagnostic) : Prop where
  parsed : g.parse Language.svelte.name (Template.Markup.adapt s.text) = .ok tree
  flawed : tree.flawed = true
  points : PointsAtFlaw s 0 s.text tree.root d
  points_adapted : Template.Markup.KeepsWide s.text (Template.Markup.adapt s.text) →
    PointsAtFlaw s 0 (Template.Markup.adapt s.text) tree.root d

/-- The diagnostic is of a script: it points at the first flaw of its tree. -/
structure TellsOfScript (g : Grammars) (s : Source) (language : String) (start stop : Nat)
    (tree : Parse) (d : Diagnostic) : Prop where
  parsed : g.parse language (s.slice start stop) = .ok tree
  flawed : tree.flawed = true
  points : PointsAtFlaw s start (s.slice start stop) tree.root d

variable {g : Grammars} {s : Source}

theorem pointsAtFlaw_diagnose {base offset : Nat} {text : List Char} {root : Tree} {cause : Cause}
    (h : FlawStartsAt text root offset) :
    PointsAtFlaw s base text root (s.diagnose cause (base + offset)) :=
  ⟨⟨offset, h, rfl, rfl⟩, rfl⟩

theorem FlawStartsAt.congr {text text' : List Char} {root : Tree} {offset : Nat}
    (h : FlawStartsAt text root offset)
    (hbytes : ∀ byte, ownerOf text byte = ownerOf text' byte) :
    FlawStartsAt text' root offset := by
  cases h with
  | first h =>
    rw [hbytes]
    exact .first h
  | flawless h => exact .flawless h

namespace Template

theorem flawCause_startsAt (root : Tree) : FlawStartsAt s.text root (flawCause s root).2 := by
  unfold flawCause
  split
  · rename_i hnone
    exact .flawless (Tree.firstFlaw?_eq_none_iff.mp hnone)
  · rename_i u hsome
    obtain ⟨place, hfirst⟩ := Tree.firstFlaw?_eq_some_iff.mp hsome
    have hstarts : FlawStartsAt s.text root (s.charOffset u.label.startByte) := by
      rw [s.charOffset_eq_ownerOf]
      exact .first hfirst
    -- the offset is the same whatever the cause is
    dsimp only
    split
    · exact hstarts
    · split <;> exact hstarts

theorem code_flawCause (root : Tree) : (flawCause s root).1.code = "invalid-syntax" := by
  unfold flawCause
  split
  · dsimp only
    split <;> rfl
  · dsimp only
    split
    · rfl
    · split <;> rfl

theorem tellsOfMarkup_flawCause {tree : Parse}
    (htree : g.parse Language.svelte.name (Markup.adapt s.text) = .ok tree)
    (hflawed : tree.flawed = true) : TellsOfMarkup g s tree
      (s.diagnose (flawCause s tree.root).1 (flawCause s tree.root).2) := by
  have hstarts := flawCause_startsAt (s := s) tree.root
  rw [← Nat.zero_add (flawCause s tree.root).2]
  exact ⟨htree, hflawed, pointsAtFlaw_diagnose hstarts, fun hwide =>
    pointsAtFlaw_diagnose (hstarts.congr (Markup.ownerOf_adapt hwide))⟩

/-- **Flawed markup is rejected** at the first flaw of its tree. -/
theorem parse_flawed {modern : Bool} {tree : Parse}
    (htree : g.parse Language.svelte.name (Markup.adapt s.text) = .ok tree)
    (hflawed : tree.flawed = true) :
    ∃ d, parse g modern s = .error (.malformed d) ∧ d.code = "invalid-syntax" ∧
      TellsOfMarkup g s tree d := by
  refine ⟨_, ?_, code_flawCause tree.root, tellsOfMarkup_flawCause htree hflawed⟩
  unfold parse
  rw [htree]
  exact if_pos hflawed

end Template

/-- **A flawed script is rejected** at the first flaw of its tree. -/
theorem Script.check_flawed {language : String} {start stop : Nat} {tree : Parse}
    (htree : g.parse language (s.slice start stop) = .ok tree) (hflawed : tree.flawed = true) :
    ∃ d, Script.check s g language start stop = .error (.malformed d) ∧
      d.code = "invalid-script" ∧ TellsOfScript g s language start stop tree d := by
  have hcheck : ∃ offset, FlawStartsAt (s.slice start stop) tree.root offset ∧
      Script.check s g language start stop = s.reject .invalidScript (start + offset) := by
    unfold Script.check
    dsimp only
    rw [htree]
    refine ⟨_, ?_, if_pos hflawed⟩
    split
    · rename_i u hsome
      obtain ⟨place, hfirst⟩ := Tree.firstFlaw?_eq_some_iff.mp hsome
      rw [charsWithin_bytesOf]
      exact .first hfirst
    · rename_i hnone
      exact .flawless (Tree.firstFlaw?_eq_none_iff.mp hnone)
  obtain ⟨offset, hstarts, hcheck⟩ := hcheck
  exact ⟨_, hcheck, rfl, htree, hflawed, pointsAtFlaw_diagnose hstarts⟩

/-! ## Nothing else is told as a flaw -/

/-- A diagnostic with one of the two codes is of the markup or of a script. -/
def AccountsForFlaws (g : Grammars) (s : Source) (failure : Failure) : Prop :=
  ∀ d, failure = .malformed d →
    (d.code = "invalid-syntax" → ∃ tree, TellsOfMarkup g s tree d) ∧
    (d.code = "invalid-script" → ∃ language : Language, language ≠ .svelte ∧
      ∃ start stop tree, TellsOfScript g s language.name start stop tree d)

theorem accountsForFlaws_of_isFlaw_eq_false {cause : Cause} {offset : Nat}
    (h : cause.isFlaw = false) :
    AccountsForFlaws g s (.malformed (s.diagnose cause offset)) := by
  rintro d ⟨⟩
  obtain ⟨hmarkup, hscript⟩ := Cause.code_ne_of_isFlaw_eq_false h
  exact ⟨fun hcode => absurd hcode hmarkup, fun hcode => absurd hcode hscript⟩

theorem accountsForFlaws_parse (name : String) (text : List Char) :
    Meets (AccountsForFlaws g s) (fun _ => True) (g.parse name text) := by
  unfold Grammars.parse
  split
  · exact fun d hd => (nomatch hd)
  · split
    · trivial
    · exact fun d hd => (nomatch hd)

theorem accountsForFlaws_check {language : Language} (hlanguage : language ≠ .svelte)
    (start stop : Nat) :
    Meets (AccountsForFlaws g s) (fun _ => True) (Script.check s g language.name start stop) := by
  have hmeets := accountsForFlaws_parse (g := g) (s := s) language.name (s.slice start stop)
  by_cases hflawed : ∃ tree, g.parse language.name (s.slice start stop) = .ok tree ∧
      tree.flawed = true
  · obtain ⟨tree, htree, hflawed⟩ := hflawed
    obtain ⟨d, hcheck, hcode, htells⟩ := Script.check_flawed htree hflawed
    rw [hcheck]
    rintro d' ⟨⟩
    refine ⟨fun hmarkup => absurd (hcode.symm.trans hmarkup) (by decide), fun _ => ?_⟩
    exact ⟨language, hlanguage, start, stop, tree, htells⟩
  · unfold Script.check
    refine hmeets.bind_ok fun tree htree _ => ?_
    rw [if_neg fun h => hflawed ⟨tree, htree, h⟩]
    trivial

theorem contextFor_admitsFlaws {modern : Bool} {language : Language} {root : Tree} :
    Template.Admits (AccountsForFlaws g s) (Template.contextFor g s modern language) root where
  rejected _ _ hcause _ := accountsForFlaws_of_isFlaw_eq_false hcause
  read _ stop hstart := Expression.read_meets_of stop
    (fun _ _ hcause _ => accountsForFlaws_of_isFlaw_eq_false hcause)
    (accountsForFlaws_parse _ _) hstart
  checkScript _ start stop hother _ := accountsForFlaws_check hother start stop
  undecoded _ _ _ := fun _ hd => (nomatch hd)
  headless _ _ _ := fun _ hd => (nomatch hd)

/-- **Parsing accounts for flaws.** -/
theorem parse_accountsForFlaws (g : Grammars) (modern : Bool) (s : Source) :
    Meets (AccountsForFlaws g s) (fun parsed => Template.FragmentSound parsed.component.fragment)
      (Template.parse g modern s) := by
  refine parse_meets_of (accountsForFlaws_parse _ _) ?_ fun _ _ => contextFor_admitsFlaws
  rintro tree htree hflawed d ⟨⟩
  refine ⟨fun _ => ⟨tree, Template.tellsOfMarkup_flawCause htree hflawed⟩, fun hscript => ?_⟩
  exact absurd ((Template.code_flawCause tree.root).symm.trans hscript) (by decide)

/-- **The diagnostics of flaws point at the first flaw.** The search of a tree finds the first of
its nodes that is a flaw, and nothing exactly if there is none; in a tree with nested bytes, no
flaw starts at an earlier byte. Markup and scripts that are flawed are rejected there; and wherever
a component is rejected with one of the two codes, its markup or one of its scripts is flawed, and
the diagnostic points at the first flaw. -/
theorem flaws_located (g : Grammars) (modern : Bool) (s : Source) :
    (∀ t : Tree, (∀ u, t.firstFlaw? = some u ↔ ∃ place, t.IsFirstFlaw place u) ∧
      (t.firstFlaw? = none ↔ t.IsFlawless) ∧
      (t.AllBytesNested → ∀ u, t.firstFlaw? = some u → ∀ v ∈ t.nodes, v.isFlaw = true →
        u.label.startByte ≤ v.label.startByte)) ∧
    (∀ tree, g.parse Language.svelte.name (Template.Markup.adapt s.text) = .ok tree →
      tree.flawed = true → ∃ d, Template.parse g modern s = .error (.malformed d) ∧
        d.code = "invalid-syntax" ∧ TellsOfMarkup g s tree d) ∧
    (∀ language start stop tree, g.parse language (s.slice start stop) = .ok tree →
      tree.flawed = true → ∃ d, Script.check s g language start stop = .error (.malformed d) ∧
        d.code = "invalid-script" ∧ TellsOfScript g s language start stop tree d) ∧
    ∀ d, Template.parse g modern s = .error (.malformed d) →
      (d.code = "invalid-syntax" → ∃ tree, TellsOfMarkup g s tree d) ∧
      (d.code = "invalid-script" → ∃ language : Language, language ≠ .svelte ∧
        ∃ start stop tree, TellsOfScript g s language.name start stop tree d) :=
  ⟨fun _ => ⟨fun _ => Tree.firstFlaw?_eq_some_iff, Tree.firstFlaw?_eq_none_iff,
      fun hnested _ hu _ hv hflaw => Tree.startByte_firstFlaw?_le hnested hu hv hflaw⟩,
    fun _ htree hflawed => Template.parse_flawed htree hflawed,
    fun _ _ _ _ htree hflawed => Script.check_flawed htree hflawed,
    fun d hd => (parse_accountsForFlaws g modern s).of_error hd d rfl⟩

/-! Markup that breaks off at a brace, and a script that breaks off at a sign, both after a letter of
two bytes. -/

def brokenSource : Source := .ofText "Broken.svelte" "<p>\u00e9\x7d".toList

def brokenTree : Tree :=
  Template.sampleNode "document" 0 6 [
    Template.sampleNode "element" 0 6 [Template.sampleNode "start_tag" 0 3 [],
      Template.sampleNode "text" 3 5 [], Template.sampleNode "ERROR" 5 6 [],
      .node ⟨"end_tag", 6, 6, true, true, []⟩ []]]

def brokenScript : Source :=
  .ofText "Script.svelte" "<script>\u00e9 =</script>".toList

def brokenScriptMarkup : Tree :=
  Template.sampleNode "document" 0 21 [
    Template.sampleNode "script_element" 0 21 [
      Template.sampleNode "start_tag" 0 8 [Template.sampleNode "tag_name" 1 7 []],
      Template.sampleNode "raw_text" 8 12 [], Template.sampleNode "end_tag" 12 21 []]]

def brokenScriptTree : Tree :=
  Template.sampleNode "program" 0 4 [
    Template.sampleNode "identifier" 0 2 [], Template.sampleNode "ERROR" 3 4 []]

/-- Grammars that cannot read the markup. -/
def brokenGrammars : Grammars where
  tree? _ _ := some ⟨brokenTree, true⟩

/-- Grammars that cannot read the script. -/
def brokenScriptGrammars : Grammars where
  tree? language _ :=
    some (if language = .svelte then ⟨brokenScriptMarkup, false⟩ else ⟨brokenScriptTree, true⟩)

/-- The brace comes before the missing tag, and the sign is the third character of the script. -/
theorem brokenSource_located :
    (∃ u, brokenTree.firstFlaw? = some u ∧ brokenTree.AllBytesNested ∧
      ∀ v ∈ brokenTree.nodes, v.isFlaw = true → u.label.startByte ≤ v.label.startByte) ∧
    (∃ d, Template.parse brokenGrammars false brokenSource = .error (.malformed d) ∧
      d.code = "invalid-syntax" ∧ d.offset = some 4 ∧
      TellsOfMarkup brokenGrammars brokenSource ⟨brokenTree, true⟩ d) ∧
    (∃ d, Script.check brokenScript brokenScriptGrammars "javascript" 8 11 =
        .error (.malformed d) ∧ d.code = "invalid-script" ∧
      TellsOfScript brokenScriptGrammars brokenScript "javascript" 8 11
        ⟨brokenScriptTree, true⟩ d) ∧
    ∃ d, Template.parse brokenScriptGrammars false brokenScript = .error (.malformed d) ∧
      d.code = "invalid-script" ∧ d.offset = some 10 ∧
      ∃ language : Language, language ≠ .svelte ∧ ∃ start stop tree,
        TellsOfScript brokenScriptGrammars brokenScript language.name start stop tree d := by
  obtain ⟨hsearch, hmarkup, _, _⟩ := flaws_located brokenGrammars false brokenSource
  obtain ⟨_, _, hscript, hrejected⟩ := flaws_located brokenScriptGrammars false brokenScript
  refine ⟨?_, ?_, hscript "javascript" 8 11 ⟨brokenScriptTree, true⟩ rfl rfl, ?_⟩
  · have hnested : brokenTree.AllBytesNested := by decide
    have hfound : (brokenTree.firstFlaw?).isSome = true := by decide +kernel
    obtain ⟨u, hu⟩ := Option.isSome_iff_exists.mp hfound
    exact ⟨u, hu, hnested, (hsearch brokenTree).2.2 hnested u hu⟩
  · obtain ⟨d, hd, hcode, htells⟩ := hmarkup ⟨brokenTree, true⟩ rfl rfl
    obtain ⟨d', hd', hoffset⟩ := exists_malformed_of_any
      (x := Template.parse brokenGrammars false brokenSource)
      (p := fun d => d.offset == some 4) (by decide +kernel)
    rw [hd] at hd'
    cases hd'
    exact ⟨d, hd, hcode, beq_iff_eq.mp hoffset, htells⟩
  · obtain ⟨d, hd, htest⟩ := exists_malformed_of_any
      (x := Template.parse brokenScriptGrammars false brokenScript)
      (p := fun d => d.code == "invalid-script" && d.offset == some 10) (by decide +kernel)
    rw [Bool.and_eq_true, beq_iff_eq, beq_iff_eq] at htest
    exact ⟨d, hd, htest.1, htest.2, (hrejected d hd).2 htest.1⟩

end RawHtmlLint

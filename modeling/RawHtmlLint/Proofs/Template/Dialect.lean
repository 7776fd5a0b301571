import RawHtmlLint.Proofs.Process
import RawHtmlLint.Proofs.Template.Tiling

/-!
# The two dialects

The newer dialect only adds to the older one. What it adds are snippets, the tags that render them,
and each blocks without `as`; the older dialect rejects a component at the first of these that is
read, and reads all else in the same way. So when the older dialect reads a component, the newer
one reads the same; and when it rejects one for another reason, so does the newer one.

Two runs are compared by `Extends`, step by step: a run that has not ended yet has met nothing that
only the newer dialect knows.

Results:
* `documentOf_extends`: the conversion of a document in the newer dialect extends that in the older;
* `parse_extends`: so does parsing;
* `parse_renewed`: what the older dialect parses, the newer one parses to the same component, and
  its report is the same.
-/

namespace RawHtmlLint

open Grammar

/-- Only the older dialect rejects a component for the cause. -/
def Cause.isDialectal : Cause → Bool
  | .unknownTag modern | .unknownBlock modern => !modern
  | .eachWithoutAs => true
  | _ => false

namespace Template

/-- The second outcome is the first one, unless this is a rejection that only the older dialect
has. -/
inductive Extends (s : Source) {α : Type} : Outcome α → Outcome α → Prop
  | same (x : Outcome α) : Extends s x x
  | rejected {cause : Cause} (hcause : cause.isDialectal = true) (offset : Nat) (y : Outcome α) :
    Extends s (s.reject cause offset) y

theorem Extends.of_eq {α : Type} {s : Source} {x y : Outcome α} (h : x = y) : Extends s x y :=
  h ▸ .same x

/-- Two steps in sequence extend two others if each step does. -/
theorem Extends.bind {α β : Type} {s : Source} {x y : Outcome α} {f g : α → Outcome β}
    (hx : Extends s x y) (hf : ∀ a, Extends s (f a) (g a)) : Extends s (x >>= f) (y >>= g) := by
  cases hx with
  | rejected hcause offset y => exact .rejected hcause offset _
  | same x =>
    cases x with
    | error failure => exact .same _
    | ok a => exact hf a

/-- So do two choices by one condition. -/
theorem Extends.ite {α : Type} {s : Source} {p : Prop} [Decidable p] {x x' y y' : Outcome α}
    (hx : Extends s x y) (hx' : Extends s x' y') :
    Extends s (if p then x else x') (if p then y else y') := by
  split
  · exact hx
  · exact hx'

theorem Extends.of_ok {α : Type} {s : Source} {x y : Outcome α} {a : α} (h : Extends s x y)
    (hx : x = .ok a) : y = .ok a := by
  cases h with
  | same => exact hx
  | rejected => exact absurd hx reject_ne_ok

/-- The component read in the newer dialect. -/
def Context.renewed (ctx : Context) : Context := { ctx with modern := true }

theorem Context.renewed_eq_self {ctx : Context} (h : ctx.modern = true) : ctx.renewed = ctx := by
  cases ctx
  cases h
  rfl

variable {ctx : Context}

/-! ## What does not depend on the dialect -/

theorem checkGroups_renewed : ∀ (braces : List Nat) (next : Nat),
    checkGroups ctx.renewed next braces = checkGroups ctx next braces
  | [], _ => rfl
  | brace :: braces, next => by
    unfold checkGroups
    simp only [checkGroups_renewed braces]
    rfl

theorem checkAttribute_renewed : checkAttribute ctx.renewed = checkAttribute ctx := by
  funext name value span
  unfold checkAttribute
  simp only [checkGroups_renewed]
  rfl

theorem readAttribute_renewed : readAttribute ctx.renewed = readAttribute ctx := by
  funext t
  unfold readAttribute
  rw [checkAttribute_renewed]
  rfl

theorem readElementTag_renewed (t : Tree) :
    ElementTag.read ctx.renewed t = ElementTag.read ctx t := by
  unfold ElementTag.read readAttributes
  rw [readAttribute_renewed]
  rfl

theorem addBranch_renewed : addBranch ctx.renewed = addBranch ctx := rfl

theorem closeBlock_renewed : closeBlock ctx.renewed = closeBlock ctx := rfl

/-! ## What the newer dialect adds -/

/-- The tags that render snippets. -/
theorem readSpecialTag_extends (keyword : List Char) (rest : Nat) (span : Span) :
    Extends ctx.source (readSpecialTag ctx keyword rest span)
      (readSpecialTag ctx.renewed keyword rest span) := by
  cases hmodern : ctx.modern with
  | true => exact .of_eq (by rw [ctx.renewed_eq_self hmodern])
  | false =>
    unfold readSpecialTag
    dsimp only
    split
    · exact .same _
    · exact .same _
    · exact .same _
    · rw [hmodern]
      exact .rejected rfl _ _
    · rw [hmodern]
      exact .rejected rfl _ _

theorem readTag_extends (span : Span) :
    Extends ctx.source (readTag ctx span) (readTag ctx.renewed span) := by
  unfold readTag
  exact (readSpecialTag_extends _ _ _).ite (.same _)

/-- Each blocks without `as`. -/
theorem readEach_extends (body : List Char) (rest start : Nat) :
    Extends ctx.source (readEach ctx body rest start) (readEach ctx.renewed body rest start) := by
  cases hmodern : ctx.modern with
  | true => exact .of_eq (by rw [ctx.renewed_eq_self hmodern])
  | false =>
    unfold readEach
    split
    · rw [hmodern]
      exact .rejected rfl _ _
    · exact .same _

/-- Snippets. -/
theorem openBlock_extends (h : Header) (stop : Nat) :
    Extends ctx.source (openBlock ctx h stop) (openBlock ctx.renewed h stop) := by
  cases hmodern : ctx.modern with
  | true => exact .of_eq (by rw [ctx.renewed_eq_self hmodern])
  | false =>
    unfold openBlock
    dsimp only
    split
    · exact .same _
    · exact (readEach_extends _ _ _).bind fun header => .same _
    · exact .same _
    · exact .same _
    · rw [hmodern]
      exact .rejected rfl _ _
    · rw [hmodern]
      exact .rejected rfl _ _

theorem readBlock_extends (span : Span) (hs : List Header) :
    Extends ctx.source (readBlock ctx span hs) (readBlock ctx.renewed span hs) := by
  cases hs with
  | nil => exact .same _
  | cons opening later =>
    rw [readBlock, readBlock, addBranch_renewed, closeBlock_renewed]
    exact (Extends.same _).ite ((openBlock_extends opening span.stop).bind fun frame => .same _)

/-! ## Documents -/

mutual

/-- A part becomes the same item, or the older dialect rejects something in it. -/
theorem itemOf_extends (lifted : Lifted) (topLevel : Bool) (part : Part) (t : Tree) :
    Extends ctx.source (itemOf ctx lifted topLevel part t)
      (itemOf ctx.renewed lifted topLevel part t) := by
  cases part with
  | comment =>
    rw [itemOf, itemOf]
    exact .same _
  | strayClosingTag =>
    rw [itemOf, itemOf]
    exact .same _
  | tag =>
    rw [itemOf, itemOf]
    exact (readTag_extends _).bind fun node => .same _
  | element =>
    rw [itemOf, itemOf, readElementTag_renewed]
    refine (Extends.same _).bind fun e => ?_
    split
    · exact .same _
    · refine (Extends.same _).bind fun _ => ?_
      exact (itemsOf_extends lifted false _).bind fun items => .same _
  | block =>
    rw [itemOf, itemOf]
    refine (Extends.same _).bind fun hs => ?_
    refine (readBlock_extends _ hs).bind fun frame => ?_
    exact (itemsOf_extends lifted false _).bind fun items => .same _
termination_by 2 * t.size
decreasing_by
  · have := sizeOfParts_lt ctx.source e.content.start e.content.stop t
    omega
  · have := sizeOfParts_lt ctx.source (ctx.source.span t).start (ctx.source.span t).stop t
    omega

/-- So do parts one after the other. -/
theorem itemsOf_extends (lifted : Lifted) (topLevel : Bool) (ps : List (Part × Tree)) :
    Extends ctx.source (itemsOf ctx lifted topLevel ps)
      (itemsOf ctx.renewed lifted topLevel ps) := by
  match ps with
  | [] =>
    rw [itemsOf, itemsOf]
    exact .same _
  | (part, t) :: ps =>
    rw [itemsOf, itemsOf]
    refine (itemOf_extends lifted topLevel part t).bind fun item => ?_
    exact (itemsOf_extends item.2 topLevel ps).bind fun items => .same _
termination_by 2 * sizeOfParts ps + 1
decreasing_by
  · simp only [sizeOfParts_cons]
    omega
  · simp only [sizeOfParts_cons, Tree.size_eq t]
    omega

end

/-- **The conversion of a document in the newer dialect extends that in the older one.** -/
theorem documentOf_extends (root : Tree) :
    Extends ctx.source (documentOf ctx root) (documentOf ctx.renewed root) := by
  unfold documentOf
  refine (Extends.same _).bind fun _ => ?_
  exact (itemsOf_extends {} true _).bind fun items => .same _

/-! ## Components -/

/-- The component as the newer dialect has it. -/
def Parsed.renewed (p : Parsed) : Parsed :=
  { p with component := { p.component with modern := true } }

/-- **Parsing in the newer dialect extends parsing in the older one.** -/
theorem parse_extends (g : Grammars) (s : Source) :
    Extends s (do return (← parse g false s).renewed) (parse g true s) := by
  unfold parse
  rw [bind_assoc]
  refine (Extends.same _).bind fun tree => ?_
  cases tree.flawed with
  | true => exact .same _
  | false =>
    dsimp only
    rw [if_neg Bool.false_ne_true, if_neg Bool.false_ne_true, convertDocument_eq,
      convertDocument_eq, bind_assoc]
    have hconvert :=
      @documentOf_extends (contextFor g s false (scriptLanguage s tree.root)) tree.root
    exact hconvert.bind fun answer => .same _

end Template

open Template

/-- **The newer dialect is a conservative extension of the older one.** -/
theorem parse_renewed (g : Grammars) (s : Source) :
    (∀ p, parse g false s = .ok p → parse g true s = .ok p.renewed) ∧
      ∀ sanitizers a, analyze g ⟨sanitizers, false⟩ s = .ok a → a.report.isParsed = true →
        ∃ b, analyze g ⟨sanitizers, true⟩ s = .ok b ∧ b.report = a.report := by
  have hparse : ∀ p, parse g false s = .ok p → parse g true s = .ok p.renewed := by
    intro p hp
    refine (parse_extends g s).of_ok ?_
    rw [hp]
    rfl
  refine ⟨hparse, fun sanitizers a ha hparsed => ?_⟩
  rw [analyze_eq] at ha
  split at ha
  · cases ha
    exact (nomatch hparsed)
  · cases ha
  · rename_i p hp
    obtain ⟨insertions, hdetect, ha⟩ := bind_eq_ok.mp ha
    obtain rfl := pure_eq_ok.mp ha
    rw [analyze_eq]
    rw [hparse p hp]
    exact ⟨_, bind_eq_ok.mpr ⟨insertions, hdetect, rfl⟩, rfl⟩

theorem parse_renewed_sample : ∃ p a b,
    parse sampleGrammars false sampleSource = .ok p ∧
      parse sampleGrammars true sampleSource = .ok p.renewed ∧
      analyze sampleGrammars ⟨["clean"], false⟩ sampleSource = .ok a ∧
      analyze sampleGrammars ⟨["clean"], true⟩ sampleSource = .ok b ∧ b.report = a.report := by
  obtain ⟨p, hp⟩ := sample_parses
  obtain ⟨a, ha, hparsed⟩ := exists_ok_of_any
    (x := analyze sampleGrammars ⟨["clean"], false⟩ sampleSource) (p := (·.report.isParsed))
    (by decide +kernel)
  obtain ⟨hparse, hanalyze⟩ := parse_renewed sampleGrammars sampleSource
  obtain ⟨b, hb, hreport⟩ := hanalyze _ a ha hparsed
  exact ⟨p, a, b, hp, hparse p hp, ha, hb, hreport⟩

end RawHtmlLint

import RawHtmlLint.Proofs.Rule.SourceOrder
import RawHtmlLint.Proofs.Template.Rejection

/-!
# Suppression and the source

A comment suppresses the rule for an insertion if it stands beside it among its siblings, with at
most one text of white space between. The siblings of a fragment cover its range of the source,
but for the scripts and styles that were lifted out of the root. So between the comment and the
insertion there is nothing in the source but white space and what was lifted; below the root,
nothing but white space.

Results:
* `isSuppressed_eq_sides`: both sides of an insertion are asked in the same way;
* `isSuppressed_near`: where the comment stands among the siblings;
* `Covered.gap_between`: between two siblings that follow one another is nothing but gaps;
* `suppressed_adjacent`: between the comment and the insertion is nothing but white space;
* `lifted_between`: a script stands between a comment and the insertion it suppresses.
-/

namespace RawHtmlLint

open Grammar Template Text

/-! ## What stands outside gaps -/

/-- The characters of the source between two offsets that are in none of the gaps. -/
def Source.outside (s : Source) (gaps : List Span) (start stop : Nat) : List Char :=
  (((s.slice start stop).zipIdx start).filter fun c =>
    !gaps.any fun g => decide (g.Has c.2)).map Prod.fst

namespace Source

variable {s : Source} {gaps : List Span} {start stop : Nat}

theorem bounds_of_mem_zipIdx {c : Char × Nat} (h : c ∈ (s.slice start stop).zipIdx start) :
    start ≤ c.2 ∧ c.2 < stop := by
  have hle := List.le_snd_of_mem_zipIdx h
  have hlt := List.snd_lt_add_of_mem_zipIdx h
  unfold Source.slice at hlt
  rw [length_slice] at hlt
  omega

/-- Where there are no gaps, everything is outside them. -/
theorem outside_eq_slice (h : ∀ p, start ≤ p → p < stop → ∀ g ∈ gaps, ¬ g.Has p) :
    s.outside gaps start stop = s.slice start stop := by
  unfold outside
  rw [List.filter_eq_self.mpr ?_, List.zipIdx_map_fst]
  intro c hc
  obtain ⟨hle, hlt⟩ := bounds_of_mem_zipIdx hc
  rw [Bool.not_eq_true', List.any_eq_false]
  intro g hg hhas
  exact h c.2 hle hlt g hg (of_decide_eq_true hhas)

/-- Where there is nothing but gaps, nothing is outside them. -/
theorem outside_eq_nil (h : ∀ p, start ≤ p → p < stop → ∃ g ∈ gaps, g.Has p) :
    s.outside gaps start stop = [] := by
  unfold outside
  rw [List.filter_eq_nil_iff.mpr ?_, List.map_nil]
  intro c hc hnot
  obtain ⟨hle, hlt⟩ := bounds_of_mem_zipIdx hc
  obtain ⟨g, hg, hhas⟩ := h c.2 hle hlt
  rw [Bool.not_eq_true', List.any_eq_false] at hnot
  exact hnot g hg (decide_eq_true hhas)

theorem outside_append {middle : Nat} (hstart : start ≤ middle) (hstop : middle ≤ stop) :
    s.outside gaps start middle ++ s.outside gaps middle stop = s.outside gaps start stop := by
  have hsplit : (s.slice start stop).zipIdx start =
      (s.slice start middle).zipIdx start ++ (s.slice middle stop).zipIdx middle := by
    unfold Source.slice
    rw [← slice_append hstart hstop, List.zipIdx_append, length_slice]
    rcases Nat.le_total middle s.text.length with hle | hle
    · rw [Nat.min_eq_left hle, Nat.add_sub_cancel' hstart]
    · -- past the end there is nothing more
      rw [slice_eq_nil (Or.inr hle)]
      rfl
  unfold outside
  rw [hsplit, List.filter_append, List.map_append]

end Source

/-- The first span ends before the other one starts, and between them there is nothing in the
source but gaps and what shows as white space. -/
def BlankBetween (s : Source) (gaps : List Span) (a b : Span) : Prop :=
  a.Precedes b ∧
    ∃ data, decode (s.outside gaps a.stop b.start) = some data ∧ allBlank data = true

/-! ## Siblings and gaps -/

/-- The spans of siblings are in order and cover a range together with the gaps, each offset of
it once. -/
def Covered (spans gaps : List Span) : Prop :=
  ∃ start stop tiles, Tiles stop start tiles ∧ tiles.Perm (spans ++ gaps) ∧ spans.Sublist tiles

namespace Covered

variable {spans gaps : List Span}

theorem apart (h : Covered spans gaps) :
    (∀ c ∈ spans, c.start ≤ c.stop) ∧ spans.Pairwise Span.Precedes := by
  obtain ⟨_, _, tiles, htiles, _, hsub⟩ := h
  exact ⟨fun c hc => (htiles.inside c (hsub.subset hc)).1, htiles.apart.sublist hsub⟩

/-- No offset of a sibling is in a gap. -/
theorem not_gap (h : Covered spans gaps) {c : Span} (hc : c ∈ spans) {p : Nat} (hp : c.Has p) :
    ∀ g ∈ gaps, ¬ g.Has p := by
  obtain ⟨start, stop, tiles, htiles, hperm, _⟩ := h
  intro g hg hgp
  have hcount := htiles.countP_has (p := p)
  rw [hperm.countP_eq, List.countP_append] at hcount
  have hspans : 0 < spans.countP fun c => decide (c.Has p) :=
    List.countP_pos_iff.mpr ⟨c, hc, decide_eq_true hp⟩
  have hgaps : 0 < gaps.countP fun c => decide (c.Has p) :=
    List.countP_pos_iff.mpr ⟨g, hg, decide_eq_true hgp⟩
  split at hcount <;> omega

/-- **Between two siblings that follow one another is nothing but gaps.** -/
theorem gap_between (h : Covered spans gaps) {i : Nat} {a b : Span} (ha : spans[i]? = some a)
    (hb : spans[i + 1]? = some b) {p : Nat} (hle : a.stop ≤ p) (hlt : p < b.start) :
    ∃ g ∈ gaps, g.Has p := by
  have happ := List.pairwise_iff_getElem.mp h.apart.2
  obtain ⟨hi, rfl⟩ := List.getElem?_eq_some_iff.mp ha
  obtain ⟨hj, rfl⟩ := List.getElem?_eq_some_iff.mp hb
  obtain ⟨start, stop, tiles, htiles, hperm, hsub⟩ := h
  have hain := htiles.inside _ (hsub.subset (List.getElem_mem hi))
  have hbin := htiles.inside _ (hsub.subset (List.getElem_mem hj))
  have hstart : start ≤ p := Nat.le_trans hain.2.1 (Nat.le_trans hain.1 hle)
  have hstop : p < stop := Nat.lt_of_lt_of_le hlt (Nat.le_trans hbin.1 hbin.2.2)
  obtain ⟨c, hc, hhas⟩ := htiles.exists_has hstart hstop
  rcases List.mem_append.mp (hperm.mem_iff.mp hc) with hc | hc
  · -- the siblings up to the first end before the offset, all others start after it
    obtain ⟨k, hk, rfl⟩ := List.mem_iff_getElem.mp hc
    exfalso
    obtain ⟨hkp, hpk⟩ := hhas
    rcases Nat.lt_trichotomy k i with hki | rfl | hik
    · have hprecedes : spans[k].stop ≤ spans[i].start := happ k i hk hi hki
      have haspan := hain.1
      omega
    · omega
    · rcases Nat.eq_or_lt_of_le (show i + 1 ≤ k from hik) with rfl | hik
      · omega
      · have hprecedes : spans[i + 1].stop ≤ spans[k].start := happ (i + 1) k hj hk hik
        have hbspan := hbin.1
        omega
  · exact ⟨c, hc, hhas⟩

end Covered

/-! ## Where the comment stands -/

namespace Rule

/-- The second index is that of the next sibling, or of the one after a text of white space. -/
def Near (siblings : List Node) (i j : Nat) : Prop :=
  j = i + 1 ∨ j = i + 2 ∧ ∃ x, siblings[i + 1]? = some x ∧ x.isBlankText = true

theorem siblingAt?_eq_some {siblings : List Node} {i : Int} {x : Node}
    (h : siblingAt? siblings i = some x) : 0 ≤ i ∧ siblings[i.toNat]? = some x := by
  unfold siblingAt? at h
  split at h
  · rename_i hin
    exact ⟨hin.1, h⟩
  · cases h

theorem siblingAt?_sub {siblings : List Node} {i k : Nat} {x : Node}
    (h : siblingAt? siblings ((i : Int) - k) = some x) : k ≤ i ∧ siblings[i - k]? = some x := by
  obtain ⟨hle, h⟩ := siblingAt?_eq_some h
  rw [show ((i : Int) - k).toNat = i - k by omega] at h
  exact ⟨by omega, h⟩

theorem siblingAt?_add {siblings : List Node} {i k : Nat} {x : Node}
    (h : siblingAt? siblings ((i : Int) + k) = some x) : siblings[i + k]? = some x := by
  obtain ⟨_, h⟩ := siblingAt?_eq_some h
  rwa [show ((i : Int) + k).toNat = i + k by omega] at h

/-- A comment that suppresses the rule stands on the side of the sibling at `index` to which
`step` leads, next to it or after one text of white space. -/
def isSuppressedOn (siblings : List Node) (index step : Int) (rule : String) : Bool :=
  let near := siblingAt? siblings (index + step)
  near.any (·.suppresses rule) ||
    (near.any (·.isBlankText) && (siblingAt? siblings (index + 2 * step)).any (·.suppresses rule))

/-- **The places after an insertion and those before it** are asked in the same way, by steps of one
and of minus one. -/
theorem isSuppressed_eq_sides (siblings : List Node) (index : Int) (rule : String) :
    isSuppressed siblings index rule =
      (isSuppressedOn siblings index 1 rule || isSuppressedOn siblings index (-1) rule) := by
  have hfar : index + 2 * 1 = index + 2 := rfl
  have hnear : index + -1 = index - 1 := rfl
  have hfar' : index + 2 * -1 = index - 2 := rfl
  unfold isSuppressed isSuppressedOn
  dsimp only
  rw [hfar, hnear, hfar']
  generalize (siblingAt? siblings (index + 1)).any (·.suppresses rule) = after
  generalize (siblingAt? siblings (index - 1)).any (·.suppresses rule) = before
  cases after with
  | true => rw [if_pos rfl, Bool.true_or, Bool.true_or]
  | false =>
    rw [if_neg Bool.false_ne_true, Bool.false_or]
    split
    · rename_i hblank
      rw [hblank, Bool.true_or]
    · rename_i hnot
      rw [Bool.eq_false_iff.mpr hnot, Bool.false_or]
      cases before <;> rfl

theorem isSuppressedOn_cases {siblings : List Node} {index step : Int} {rule : String}
    (h : isSuppressedOn siblings index step rule = true) :
    (∃ c, siblingAt? siblings (index + step) = some c ∧ c.suppresses rule = true) ∨
      ∃ x c, siblingAt? siblings (index + step) = some x ∧ x.isBlankText = true ∧
        siblingAt? siblings (index + 2 * step) = some c ∧ c.suppresses rule = true := by
  unfold isSuppressedOn at h
  rw [Bool.or_eq_true, Bool.and_eq_true, Option.any_eq_true, Option.any_eq_true,
    Option.any_eq_true] at h
  rcases h with ⟨c, hc, hsuppresses⟩ | ⟨⟨x, hx, hblank⟩, c, hc, hsuppresses⟩
  · exact Or.inl ⟨c, hc, hsuppresses⟩
  · exact Or.inr ⟨x, c, hx, hblank, hc, hsuppresses⟩

/-- **Where the comment stands**: next to the insertion, or past one text of white space, before
it or after it. -/
theorem isSuppressed_near {siblings : List Node} {i : Nat} {rule : String}
    (h : isSuppressed siblings i rule = true) :
    ∃ j c, siblings[j]? = some c ∧ c.suppresses rule = true ∧
      (Near siblings i j ∨ Near siblings j i) := by
  rw [isSuppressed_eq_sides, Bool.or_eq_true] at h
  rcases h with h | h
  · rcases isSuppressedOn_cases h with ⟨c, hc, hsuppresses⟩ | ⟨x, c, hx, hblank, hc, hsuppresses⟩
    · exact ⟨i + 1, c, siblingAt?_add hc, hsuppresses, Or.inl (Or.inl rfl)⟩
    · exact ⟨i + 2, c, siblingAt?_add hc, hsuppresses,
        Or.inl (Or.inr ⟨rfl, x, siblingAt?_add hx, hblank⟩)⟩
  · rcases isSuppressedOn_cases h with ⟨c, hc, hsuppresses⟩ | ⟨x, c, hx, hblank, hc, hsuppresses⟩
    · obtain ⟨hle, hc⟩ := siblingAt?_sub (k := 1) hc
      exact ⟨i - 1, c, hc, hsuppresses, Or.inr (Or.inl (by omega))⟩
    · obtain ⟨hle, hc⟩ := siblingAt?_sub (k := 2) hc
      obtain ⟨_, hx⟩ := siblingAt?_sub (k := 1) hx
      refine ⟨i - 2, c, hc, hsuppresses, Or.inr (Or.inr ⟨by omega, x, ?_, hblank⟩)⟩
      rw [show i - 2 + 1 = i - 1 by omega]
      exact hx

/-- **Near siblings have nothing but white space and gaps between them**, if text among siblings
is as it is written and decoded. -/
theorem Near.blankBetween {s : Source} {siblings : List Node} {gaps : List Span} {i j : Nat}
    {x y : Node} (hnear : Near siblings i j) (hx : siblings[i]? = some x)
    (hy : siblings[j]? = some y) (hcovered : Covered (siblings.map Node.span) gaps)
    (htexts : ∀ span raw data, Node.text span raw data ∈ siblings →
      decode (s.textOf span) = some data.toList) : BlankBetween s gaps x.span y.span := by
  have hspan : ∀ {k : Nat} {z : Node}, siblings[k]? = some z →
      (siblings.map Node.span)[k]? = some z.span := fun {k z} hz => by
    rw [List.getElem?_map, hz, Option.map_some]
  obtain ⟨hle, happ⟩ := hcovered.apart
  have hprecedes : ∀ {k l : Nat} {z w : Node}, k < l → siblings[k]? = some z →
      siblings[l]? = some w → z.span.Precedes w.span := by
    intro k l z w hlt hz hw
    obtain ⟨hk, hz⟩ := List.getElem?_eq_some_iff.mp (hspan hz)
    obtain ⟨hl, hw⟩ := List.getElem?_eq_some_iff.mp (hspan hw)
    rw [← hz, ← hw]
    exact List.pairwise_iff_getElem.mp happ k l hk hl hlt
  have hgap : ∀ {k : Nat} {z w : Node}, siblings[k]? = some z → siblings[k + 1]? = some w →
      s.outside gaps z.span.stop w.span.start = [] := fun hz hw =>
    Source.outside_eq_nil fun p hlow hhigh => hcovered.gap_between (hspan hz) (hspan hw) hlow hhigh
  rcases hnear with rfl | ⟨rfl, t, ht, hblank⟩
  · refine ⟨hprecedes (Nat.lt_succ_self i) hx hy, [], ?_, rfl⟩
    rw [hgap hx hy, decode]
  · refine ⟨hprecedes (by omega) hx hy, ?_⟩
    cases t with
    | text span raw data =>
      have hmem : span ∈ siblings.map Node.span := List.mem_of_getElem? (hspan ht)
      have hbefore : x.span.stop ≤ span.start := hprecedes (Nat.lt_succ_self i) hx ht
      have hafter : span.stop ≤ y.span.start := hprecedes (Nat.lt_succ_self (i + 1)) ht hy
      have hfirst : s.outside gaps x.span.stop span.start = [] := hgap hx ht
      have hlast : s.outside gaps span.stop y.span.start = [] := hgap ht hy
      have htext : s.outside gaps span.start span.stop = s.textOf span :=
        Source.outside_eq_slice fun p hlow hhigh => hcovered.not_gap hmem ⟨hlow, hhigh⟩
      refine ⟨data.toList, ?_, hblank⟩
      calc decode (s.outside gaps x.span.stop y.span.start)
          = decode (s.outside gaps x.span.stop span.start ++ (s.outside gaps span.start span.stop ++
              s.outside gaps span.stop y.span.start)) := by
            rw [Source.outside_append (hle span hmem) hafter,
              Source.outside_append hbefore (Nat.le_trans (hle span hmem) hafter)]
        _ = decode (s.textOf span) := by
            rw [hfirst, hlast, htext, List.nil_append, List.append_nil]
        _ = some data.toList := htexts span raw data (List.mem_of_getElem? ht)
    | _ => exact absurd hblank Bool.false_ne_true

end Rule

/-! ## Components -/

/-- The siblings of a visited node are the children of a fragment: of the node that the path starts
from, or of one below a child of it. -/
theorem siblings_of_leads {x : Node} {v : Node.Visit} (h : x.Leads v) :
    (∃ f ∈ x.fragments, v.siblings = f.children ∧ v.path.length = 1) ∨
      ∃ f ∈ x.fragments, ∃ c ∈ f.children, ∃ y, c.Holds y ∧
        (∃ k ∈ y.fragments, v.siblings = k.children) ∧ 1 < v.path.length := by
  induction h with
  | @child x i j f hf hj => exact Or.inl ⟨f, List.mem_of_getElem? hf, rfl, rfl⟩
  | @deeper x c i j f v hf hc _ ih =>
    refine Or.inr ⟨f, List.mem_of_getElem? hf, c, List.mem_of_getElem? hc, ?_⟩
    rcases ih with ⟨k, hk, hsiblings, hlength⟩ | ⟨k, hk, d, hd, y, hy, hfragment, hlength⟩
    · refine ⟨c, .self c, ⟨k, hk, hsiblings⟩, ?_⟩
      show 1 < v.path.length + 1
      omega
    · refine ⟨y, .child hk hd hy, hfragment, ?_⟩
      show 1 < v.path.length + 1
      omega

/-- What was lifted from among the siblings of a visited node; nothing is lifted below the root. -/
def Template.Component.liftedBeside (c : Component) (v : Node.Visit) : List Span :=
  if v.path.length = 1 then c.lifted.spans else []

section Component

variable {g : Grammars} {modern : Bool} {s : Source} {parsed : Parsed} {tree : Parse}

/-- The siblings of a node cover a range of the source with what was lifted from among them, and
text with siblings is as it is written, with its references replaced. -/
theorem siblings_covered (hwf : WellFormed s tree.root)
    (htree : g.parse Language.svelte.name (Markup.adapt s.text) = .ok tree)
    (hok : parse g modern s = .ok parsed) {v : Node.Visit}
    (hv : (Node.fragment parsed.component.fragment).Leads v) :
    Covered (v.siblings.map Node.span) (parsed.component.liftedBeside v) ∧
      ∀ span raw data, Node.text span raw data ∈ v.siblings → 1 < v.siblings.length →
        decode (s.textOf span) = some data.toList := by
  have hfaithful := documentOf_faithful hwf (parse_ok htree hok)
  have hsound := (parse_meets g modern s).of_ok hok
  have hdecode : ∀ {f : Fragment Node}, Decoded f →
      (∀ span raw data, Node.text span raw data ∈ f.children → raw.toList = s.textOf span) →
      ∀ span raw data, Node.text span raw data ∈ f.children → 1 < f.children.length →
        decode (s.textOf span) = some data.toList := by
    intro f hf htexts span raw data hmem hlength
    rcases hf _ hmem rfl with ⟨_, _, _, hx, hdata⟩ | hlone
    · cases hx
      rw [← htexts span raw data hmem]
      exact hdata
    · rw [hlone] at hlength
      exact absurd hlength (Nat.lt_irrefl 1)
  rcases siblings_of_leads hv with
    ⟨f, hf, hsiblings, hlength⟩ | ⟨f, hf, c, hc, y, hy, ⟨k, hk, hsiblings⟩, hlength⟩
  · obtain rfl := List.mem_singleton.mp hf
    rw [hsiblings, Component.liftedBeside, if_pos hlength]
    obtain ⟨tiles, htiles⟩ := hfaithful.tiles
    exact ⟨⟨0, s.size, tiles, htiles⟩, hdecode hsound.decoded fun span raw data hmem =>
      (hfaithful.texts span raw data hmem).2⟩
  · obtain rfl := List.mem_singleton.mp hf
    have hk' := (hfaithful.below c hc y hy).fragments k hk
    rw [hsiblings, Component.liftedBeside, if_neg (Nat.ne_of_gt hlength)]
    refine ⟨?_, hdecode ((hsound.below c hc y hy).decoded k hk) fun span raw data hmem =>
      (hk'.texts span raw data hmem).2⟩
    rcases Nat.lt_or_ge k.span.stop k.span.start with hlt | hle
    · rw [hk'.empty hlt]
      exact ⟨0, 0, [], rfl, .refl _, .slnil⟩
    · refine ⟨_, _, _, hk'.tiles hle, ?_, .refl _⟩
      rw [List.append_nil]

/-- **Between a comment and the insertion that it suppresses is nothing but white space** in the
source, with references replaced. In the root, the scripts and styles that were lifted out of it
are left out of account. -/
theorem suppressed_adjacent (hwf : WellFormed s tree.root)
    (htree : g.parse Language.svelte.name (Markup.adapt s.text) = .ok tree)
    (hok : parse g modern s = .ok parsed) {v : Node.Visit}
    (hv : (Node.fragment parsed.component.fragment).Leads v) {span : Span}
    {expression : Option Expression} (hnode : v.node? = some (.tag .rawHtml span expression))
    (hsuppressed : Rule.isSuppressed v.siblings v.index = true) :
    ∃ place data ignores, Node.comment place data ignores ∈ v.siblings ∧
      ignores.contains Rule.name = true ∧
      (BlankBetween s (parsed.component.liftedBeside v) place span ∨
        BlankBetween s (parsed.component.liftedBeside v) span place) := by
  obtain ⟨hcovered, htexts⟩ := siblings_covered hwf htree hok hv
  obtain ⟨j, c, hc, hsuppresses, hnear⟩ := Rule.isSuppressed_near hsuppressed
  cases c with
  | comment place data ignores =>
    have hlength : 1 < v.siblings.length := by
      obtain ⟨hi, _⟩ := List.getElem?_eq_some_iff.mp hnode
      obtain ⟨hj, _⟩ := List.getElem?_eq_some_iff.mp hc
      rcases hnear with (rfl | ⟨rfl, _⟩) | (hij | ⟨hij, _⟩) <;> omega
    have htexts := fun place raw data hmem => htexts place raw data hmem hlength
    refine ⟨place, data, ignores, List.mem_of_getElem? hc, hsuppresses, ?_⟩
    rcases hnear with hnear | hnear
    · exact Or.inr (hnear.blankBetween hnode hc hcovered htexts)
    · exact Or.inl (hnear.blankBetween hc hnode hcovered htexts)
  | _ => exact absurd hsuppresses Bool.false_ne_true

end Component

/-! A comment that suppresses, a reference to a blank, and an insertion; and an insertion with a
script between it and the comment. -/

/-- The node is an insertion. -/
def Template.Node.isInsertion : Node → Bool
  | .tag .rawHtml .. => true
  | _ => false

theorem exists_of_isInsertion {x : Node} (h : x.isInsertion = true) :
    ∃ span expression, x = .tag .rawHtml span expression := by
  unfold Node.isInsertion at h
  split at h
  · exact ⟨_, _, rfl⟩
  · exact (nomatch h)

def blankSource : Source :=
  .ofText "Blank.svelte" "<!-- svelte-ignore unsafe_html -->&#32;\x7b@html x\x7d".toList

def blankTree : Tree :=
  sampleNode "document" 0 48 [sampleNode "comment" 0 34 [], sampleNode "html_expr" 39 48 []]

theorem blankSource_adjacent : ∃ (parsed : Parsed) (v : Node.Visit) (span : Span)
    (expression : Option Expression), parse (grammarsOf blankTree) false blankSource = .ok parsed ∧
      v.node? = some (.tag .rawHtml span expression) ∧
      Rule.isSuppressed v.siblings v.index = true ∧
      ∃ place data ignores, Node.comment place data ignores ∈ v.siblings ∧
        ignores.contains Rule.name = true ∧
        (BlankBetween blankSource [] place span ∨ BlankBetween blankSource [] span place) := by
  obtain ⟨parsed, hok, htest⟩ := exists_ok_of_any
    (x := parse (grammarsOf blankTree) false blankSource)
    (p := fun parsed => (parsed.component.fragment.children[2]?).any Node.isInsertion &&
      Rule.isSuppressed parsed.component.fragment.children 2 &&
      parsed.component.lifted.spans.isEmpty) (by decide +kernel)
  rw [Bool.and_eq_true, Bool.and_eq_true, Option.any_eq_true] at htest
  obtain ⟨⟨⟨x, hx, hinsertion⟩, hsuppressed⟩, hlifted⟩ := htest
  obtain ⟨span, expression, rfl⟩ := exists_of_isInsertion hinsertion
  have hv : (Node.fragment parsed.component.fragment).Leads
      ⟨[(0, 2)], parsed.component.fragment.children, 2⟩ :=
    .child rfl (List.getElem?_eq_some_iff.mp hx).1
  have htree : (grammarsOf blankTree).parse Language.svelte.name
      (Markup.adapt blankSource.text) = .ok ⟨blankTree, false⟩ := rfl
  have hadjacent := suppressed_adjacent (by decide +kernel) htree hok hv hx hsuppressed
  have hbeside : parsed.component.liftedBeside ⟨[(0, 2)], parsed.component.fragment.children, 2⟩ =
      [] := (if_pos rfl).trans (List.isEmpty_iff.mp hlifted)
  rw [hbeside] at hadjacent
  exact ⟨parsed, ⟨[(0, 2)], parsed.component.fragment.children, 2⟩, span, expression, hok, hx,
    hsuppressed, hadjacent⟩

def liftedSource : Source := .ofText "Lifted.svelte"
  "\x7b@html x\x7d<script>1</script><!-- svelte-ignore unsafe_html -->".toList

def liftedTree : Tree :=
  sampleNode "document" 0 61 [
    sampleNode "html_expr" 0 9 [],
    sampleNode "script_element" 9 27 [
      sampleNode "start_tag" 9 17 [sampleNode "tag_name" 10 16 []],
      sampleNode "raw_text" 17 18 [],
      sampleNode "end_tag" 18 27 []],
    sampleNode "comment" 27 61 []]

/-- The places of the insertion and of the comment. -/
def liftedPlaces : List Span := [⟨0, 9⟩, ⟨27, 61⟩]

theorem liftedSource_not_blank {a b : Span} (ha : a ∈ liftedPlaces) (hb : b ∈ liftedPlaces) :
    ¬ BlankBetween liftedSource [] a b := by
  rintro ⟨hprecedes, data, hdata, hblank⟩
  obtain ⟨rfl, rfl⟩ : a = ⟨0, 9⟩ ∧ b = ⟨27, 61⟩ := by
    have hplaces : ∀ a ∈ liftedPlaces, ∀ b ∈ liftedPlaces, a.Precedes b →
      a = ⟨0, 9⟩ ∧ b = ⟨27, 61⟩ := by decide
    exact hplaces a ha b hb hprecedes
  have hscript : liftedSource.outside [] 9 27 = "<script>1</script>".toList := by decide +kernel
  rw [hscript, decode_eq_self (by decide)] at hdata
  cases hdata
  exact absurd hblank (by decide)

/-- **A script stands between an insertion and the comment that suppresses it.** -/
theorem lifted_between : WellFormed liftedSource liftedTree ∧
    ∃ (parsed : Parsed) (v : Node.Visit) (span : Span) (expression : Option Expression),
      parse (grammarsOf liftedTree) false liftedSource = .ok parsed ∧
      (Node.fragment parsed.component.fragment).Leads v ∧
      v.node? = some (.tag .rawHtml span expression) ∧
      Rule.isSuppressed v.siblings v.index = true ∧
      ∀ place data ignores, Node.comment place data ignores ∈ v.siblings →
        ¬ BlankBetween liftedSource [] place span ∧ ¬ BlankBetween liftedSource [] span place := by
  obtain ⟨parsed, hok, htest⟩ := exists_ok_of_any
    (x := parse (grammarsOf liftedTree) false liftedSource)
    (p := fun parsed => (parsed.component.fragment.children[0]?).any Node.isInsertion &&
      Rule.isSuppressed parsed.component.fragment.children 0 &&
      parsed.component.fragment.children.map Node.span == liftedPlaces) (by decide +kernel)
  rw [Bool.and_eq_true, Bool.and_eq_true, Option.any_eq_true, beq_iff_eq] at htest
  obtain ⟨⟨⟨x, hx, hinsertion⟩, hsuppressed⟩, hplaces⟩ := htest
  obtain ⟨span, expression, rfl⟩ := exists_of_isInsertion hinsertion
  have hplace : ∀ y ∈ parsed.component.fragment.children, y.span ∈ liftedPlaces := by
    intro y hy
    rw [← hplaces]
    exact List.mem_map_of_mem hy
  have hspan : span ∈ liftedPlaces := hplace _ (List.mem_of_getElem? hx)
  refine ⟨by decide +kernel, parsed, ⟨[(0, 0)], parsed.component.fragment.children, 0⟩, span,
    expression, hok, .child rfl (List.getElem?_eq_some_iff.mp hx).1, hx, hsuppressed, ?_⟩
  intro place data ignores hmem
  have hcomment : place ∈ liftedPlaces := hplace _ hmem
  exact ⟨liftedSource_not_blank hcomment hspan, liftedSource_not_blank hspan hcomment⟩

end RawHtmlLint

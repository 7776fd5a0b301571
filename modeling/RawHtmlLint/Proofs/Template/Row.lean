import Mathlib.Data.List.Forall2
import RawHtmlLint.Proofs.Template.Branches
import RawHtmlLint.Proofs.Template.Faithful

/-!
# Blocks are faithful to the source

A block is a row of tags with a branch between any two of them, and nothing else. The row is read
from the left: what stands right of its first branch is a row as well. The further branches of
an if block become if blocks nested in each other, one for each such row; the branches of other
blocks become the fragments of the block.

Results:
* `Headed.starts_after`, `Headed.disjoint`: branches and tags take turns;
* `alternate_clear`: the nested if blocks are faithful;
* `build_faithful`: a block is faithful if its items are.
-/

namespace RawHtmlLint.Template

open Grammar Text

variable {ctx : Context} {root : Tree}

/-! ## Tags and branches in turn -/

/-- The tags stand in order and do not overlap, and none is empty. -/
def InOrder (hs : List Header) : Prop :=
  (hs.Pairwise fun g h => g.span.Precedes h.span) ∧ ∀ h ∈ hs, h.start < h.stop

theorem InOrder.tail {h : Header} {hs : List Header} (horder : InOrder (h :: hs)) : InOrder hs :=
  ⟨(List.pairwise_cons.mp horder.1).2, fun k hk => horder.2 k (List.mem_cons_of_mem _ hk)⟩

/-- A branch starts after the first tag, and ends where a later one starts. -/
theorem Headed.starts_after : ∀ {h : Header} {hs : List Header} {bs : List Branch},
    Headed (h :: hs) bs → InOrder (h :: hs) →
    ∀ b ∈ bs, h.stop ≤ b.start ∧ b.start ≤ b.stop ∧ ∃ k ∈ hs, b.stop = k.start
  | _, [], [], _, _, b, hb => absurd hb List.not_mem_nil
  | h, k :: hs, c :: bs, ⟨⟨_, hstart, hstop⟩, hheaded⟩, horder, b, hb => by
    have hprec : h.stop ≤ k.start := (List.pairwise_cons.mp horder.1).1 k List.mem_cons_self
    have hlt := horder.2 k (List.mem_cons_of_mem _ List.mem_cons_self)
    rcases List.mem_cons.mp hb with rfl | hb
    · exact ⟨Nat.le_of_eq hstart.symm, by omega, k, List.mem_cons_self, hstop⟩
    · obtain ⟨hge, hle, l, hl, hend⟩ := hheaded.starts_after horder.tail b hb
      exact ⟨by omega, hle, l, List.mem_cons_of_mem _ hl, hend⟩

/-- There is a tag between two branches. -/
theorem Headed.apart : ∀ {h : Header} {hs : List Header} {bs : List Branch},
    Headed (h :: hs) bs → InOrder (h :: hs) → bs.Pairwise Apart
  | _, [], [], _, _ => .nil
  | _, k :: hs, b :: bs, ⟨⟨_, _, hstop⟩, hheaded⟩, horder => by
    refine List.pairwise_cons.mpr ⟨?_, hheaded.apart horder.tail⟩
    intro c hc
    have hlt := horder.2 k (List.mem_cons_of_mem _ List.mem_cons_self)
    have hge := (hheaded.starts_after horder.tail c hc).1
    unfold Apart
    omega

/-- Between two consecutive tags there is a branch. -/
theorem Headed.exists_branch : ∀ {hs : List Header} {bs : List Branch}, Headed hs bs →
    ∀ pair ∈ hs.zip hs.tail, ∃ b ∈ bs, b.span = ⟨pair.1.stop, pair.2.start⟩
  | [_], [], _, pair, hpair => absurd hpair List.not_mem_nil
  | _ :: k :: hs, b :: bs, ⟨⟨_, hstart, hstop⟩, hheaded⟩, pair, hpair => by
    rcases List.mem_cons.mp hpair with rfl | hpair
    · refine ⟨b, List.mem_cons_self, ?_⟩
      rw [Branch.span, hstart, hstop]
    · obtain ⟨c, hc, hspan⟩ := hheaded.exists_branch pair hpair
      exact ⟨c, List.mem_cons_of_mem _ hc, hspan⟩

/-- Each tag but the first one ends a branch. -/
theorem Headed.exists_stop : ∀ {h : Header} {hs : List Header} {bs : List Branch},
    Headed (h :: hs) bs → ∀ k ∈ hs, ∃ b ∈ bs, b.stop = k.start
  | _, [], [], _, k, hk => absurd hk List.not_mem_nil
  | _, l :: hs, b :: bs, ⟨⟨_, _, hstop⟩, hheaded⟩, k, hk => by
    rcases List.mem_cons.mp hk with rfl | hk
    · exact ⟨b, List.mem_cons_self, hstop⟩
    · obtain ⟨c, hc, hend⟩ := hheaded.exists_stop k hk
      exact ⟨c, List.mem_cons_of_mem _ hc, hend⟩

/-- No tag overlaps a branch. -/
theorem Headed.disjoint : ∀ {h : Header} {hs : List Header} {bs : List Branch},
    Headed (h :: hs) bs → InOrder (h :: hs) → ∀ k ∈ h :: hs, ∀ b ∈ bs,
      k.span.Precedes b.span ∨ b.span.Precedes k.span
  | _, [], [], _, _, _, _, b, hb => absurd hb List.not_mem_nil
  | h, l :: hs, c :: bs, hall@⟨⟨_, _, hstop⟩, hheaded⟩, horder, k, hk, b, hb => by
    rcases List.mem_cons.mp hk with rfl | hk
    · exact Or.inl (hall.starts_after horder b hb).1
    · rcases List.mem_cons.mp hb with rfl | hb
      · right
        show b.stop ≤ k.start
        rcases List.mem_cons.mp hk with rfl | hk
        · exact Nat.le_of_eq hstop
        · have hprec : l.stop ≤ k.start := (List.pairwise_cons.mp horder.tail.1).1 k hk
          have hlt := horder.2 l (List.mem_cons_of_mem _ List.mem_cons_self)
          omega
      · exact hheaded.disjoint horder.tail k hk b hb

/-! ## Rows of tags -/

/-- The tags and the branches between them are a row up to the offset `stop`: no brace is
elsewhere. -/
structure Row (s : Source) (stop : Nat) (h : Header) (hs : List Header) (bs : List Branch) :
    Prop where
  headed : Headed (h :: hs) bs
  inOrder : InOrder (h :: hs)
  tags : ∀ k ∈ h :: hs, Header.read s k.start = .ok k ∧
    k.sigil.any blockSigils.contains = true ∧ k.start < stop
  covers : ∀ p, h.start ≤ p → p < stop → s.at? p = some '\x7b' →
    (∃ k ∈ h :: hs, k.span.Has p) ∨ ∃ b ∈ bs, b.span.Has p

/-- What stands right of the first branch is a row as well. -/
theorem Row.tail {s : Source} {stop : Nat} {g h : Header} {hs : List Header} {b : Branch}
    {bs : List Branch} (hrow : Row s stop g (h :: hs) (b :: bs)) : Row s stop h hs bs where
  headed := hrow.headed.2
  inOrder := hrow.inOrder.tail
  tags k hk := hrow.tags k (List.mem_cons_of_mem _ hk)
  covers p hle hlt hp := by
    have hprec : g.stop ≤ h.start :=
      (List.pairwise_cons.mp hrow.inOrder.1).1 h List.mem_cons_self
    have hstart := hrow.inOrder.2 g List.mem_cons_self
    rcases hrow.covers p (by omega) hlt hp with ⟨k, hk, hhas⟩ | ⟨c, hc, hhas⟩
    · rcases List.mem_cons.mp hk with rfl | hk
      · exact absurd hhas.2 (Nat.not_lt_of_le (Nat.le_trans hprec hle))
      · exact Or.inl ⟨k, hk, hhas⟩
    · rcases List.mem_cons.mp hc with rfl | hc
      · obtain ⟨_, _, hstop⟩ := hrow.headed.1
        have hhas : p < c.stop := hhas.2
        omega
      · exact Or.inr ⟨c, hc, hhas⟩

/-- A brace before the second tag is in the first one, or in the first branch. -/
theorem Row.covers_first {s : Source} {stop : Nat} {g h : Header} {hs : List Header} {b : Branch}
    {bs : List Branch} (hrow : Row s stop g (h :: hs) (b :: bs)) {p : Nat} (hle : g.start ≤ p)
    (hlt : p < h.start) (hp : s.at? p = some '\x7b') : g.span.Has p ∨ b.span.Has p := by
  have hstop := (hrow.tags h (List.mem_cons_of_mem _ List.mem_cons_self)).2.2
  rcases hrow.covers p hle (Nat.lt_trans hlt hstop) hp with ⟨k, hk, hhas⟩ | ⟨c, hc, hhas⟩
  · rcases List.mem_cons.mp hk with rfl | hk
    · exact Or.inl hhas
    · have hge : h.start ≤ k.start := by
        rcases List.mem_cons.mp hk with rfl | hk
        · exact Nat.le_refl _
        · have hprec : h.stop ≤ k.start := (List.pairwise_cons.mp hrow.tail.inOrder.1).1 k hk
          have hlt := hrow.tail.inOrder.2 h List.mem_cons_self
          omega
      exact absurd hhas.1 (Nat.not_le_of_lt (Nat.lt_of_lt_of_le hlt hge))
  · rcases List.mem_cons.mp hc with rfl | hc
    · exact Or.inr hhas
    · have hge := (hrow.tail.headed.starts_after hrow.tail.inOrder c hc).1
      have hstart := hrow.tail.inOrder.2 h List.mem_cons_self
      exact absurd hhas.1 (Nat.not_le_of_lt
        (Nat.lt_of_lt_of_le hlt (Nat.le_trans (Nat.le_of_lt hstart) hge)))

/-! ## If blocks -/

theorem Node.isTag_of_isBlock {x : Node} (h : x.isBlock = true) : x.isTag = false := by
  cases x <;> first | rfl | exact (nomatch h)

/-- A block is faithful if its fragments are, lie in order inside it, and leave no brace outside
of them but in the block's tags. -/
theorem block_faithful {x : Node} (hblock : x.isBlock = true)
    (hord : x.fragments.Pairwise fun f g =>
      f.span.start ≤ f.span.stop ∧ f.span.Precedes g.span)
    (hclear : ∀ f ∈ x.fragments, f.span.Inside x.span ∧ FragmentClear ctx root f)
    (hcovers : ∀ p, x.span.Has p → ctx.source.at? p = some '\x7b' →
      (∃ f ∈ x.fragments, f.span.Has p) ∨ InTagOf ctx.source x p) :
    Everywhere (Faithful ctx root) x := by
  refine everywhere_of_children ⟨hord, fun f hf => (hclear f hf).1,
    fun f hf => (hclear f hf).2.faithful, fun _ f hf => (hclear f hf).2.braceless, ?_,
    fun _ => hcovers⟩ fun f hf => (hclear f hf).2.below
  intro htag
  rw [Node.isTag_of_isBlock hblock] at htag
  exact (nomatch htag)

/-- What the further branches of an if block become. -/
def alternateOf (text : List Char) (stop : Nat) : List Branch → Outcome (Option (Fragment Node))
  | [] => .ok none
  | b :: bs => do
    let alternate ← alternateOf text stop bs
    let content ← b.freeze text
    if b.label = .alternate then return some content
    else
      let span := ⟨b.tagStart, stop⟩
      return some ⟨span, [.ifBlock span b.test (some content) alternate true]⟩

theorem alternate_eq_alternateOf (text : List Char) (f : Frame) :
    f.alternate text = alternateOf text f.span.stop f.later.reverse := by
  unfold Frame.alternate
  rw [← List.reverse_reverse f.later, List.foldlM_reverse, List.reverse_reverse]
  induction f.later.reverse with
  | nil => rfl
  | cons b bs ih =>
    rw [List.foldrM_cons, ih]
    rfl

/-- What the branches from a tag on have become is faithful, lies between this tag and the end of
the block, and leaves no brace outside but in tags of the block. -/
structure AlternateClear (ctx : Context) (root : Tree) (stop : Nat) (h : Header)
    (alternate : Option (Fragment Node)) : Prop where
  clear : ∀ f ∈ alternate.toList, f.span.Inside ⟨h.start, stop⟩ ∧ FragmentClear ctx root f
  covers : ∀ p, h.start ≤ p → p < stop → ctx.source.at? p = some '\x7b' →
    h.span.Has p ∨ ∃ f ∈ alternate.toList, f.span.Has p ∨ InTagAt ctx.source f.span.stop p

/-- The fragment that the branch became is faithful. -/
def BranchClear (ctx : Context) (root : Tree) (b : Branch) : Prop :=
  ∀ f, b.freeze ctx.source.text = .ok f → f.span = b.span ∧ FragmentClear ctx root f

theorem Row.inTagAt {s : Source} {stop p : Nat} {h k : Header} {hs : List Header}
    {bs : List Branch} (hrow : Row s stop h hs bs) (hk : k ∈ h :: hs) (hp : k.span.Has p) :
    InTagAt s k.start p :=
  ⟨k, (hrow.tags k hk).1, (hrow.tags k hk).2.1, hp⟩

theorem ifBlock_faithful {stop : Nat} {h k : Header} {hs : List Header} {b : Branch}
    {bs : List Branch} {test : Option Expression} {content : Fragment Node}
    {alternate : Option (Fragment Node)} {elseIf : Bool}
    (hrow : Row ctx.source stop h (k :: hs) (b :: bs)) (hspan : content.span = b.span)
    (hcontent : FragmentClear ctx root content)
    (halternate : AlternateClear ctx root stop k alternate) :
    Everywhere (Faithful ctx root)
      (.ifBlock ⟨h.start, stop⟩ test (some content) alternate elseIf) := by
  have hk : k ∈ h :: k :: hs := List.mem_cons_of_mem _ List.mem_cons_self
  obtain ⟨_, hstart, hstop⟩ := hrow.headed.1
  obtain ⟨hge, hle, _⟩ := hrow.headed.starts_after hrow.inOrder b List.mem_cons_self
  have hh := hrow.inOrder.2 h List.mem_cons_self
  have hhk : h.start ≤ k.start := by omega
  have hkstop := (hrow.tags k hk).2.2
  refine block_faithful rfl ?_ ?_ ?_
  · refine List.pairwise_cons.mpr ⟨?_, ?_⟩
    · intro f hf
      have hin := (halternate.clear f hf).1.1
      rw [hspan]
      exact ⟨hle, Nat.le_trans (Nat.le_of_eq hstop) hin⟩
    · cases alternate with
      | none => exact .nil
      | some f => exact List.pairwise_singleton _ _
  · intro f hf
    rcases List.mem_cons.mp hf with rfl | hf
    · refine ⟨?_, hcontent⟩
      rw [hspan]
      exact ⟨show h.start ≤ b.start by omega, show b.stop ≤ stop by omega⟩
    · obtain ⟨hin, hclear⟩ := halternate.clear f hf
      exact ⟨⟨Nat.le_trans hhk hin.1, hin.2⟩, hclear⟩
  · intro p hp hbrace
    obtain ⟨hlow, hhigh⟩ := hp
    rcases Nat.lt_or_ge p k.start with hlt | hge
    · rcases hrow.covers_first hlow hlt hbrace with hhas | hhas
      · exact Or.inr (Or.inl (hrow.inTagAt List.mem_cons_self hhas))
      · exact Or.inl ⟨content, List.mem_cons_self, hspan ▸ hhas⟩
    · rcases halternate.covers p hge hhigh hbrace with hhas | ⟨f, hf, hhas | htag⟩
      · refine Or.inr (Or.inr ⟨content, List.mem_cons_self, ?_⟩)
        rw [hspan, show b.span.stop = k.start from hstop]
        exact hrow.inTagAt hk hhas
      · exact Or.inl ⟨f, List.mem_cons_of_mem _ hf, hhas⟩
      · exact Or.inr (Or.inr ⟨f, List.mem_cons_of_mem _ hf, htag⟩)

/-- The labels are those of the further branches of an if block. -/
def ElseChain (labels : List Label) : Prop :=
  ∃ n, labels = List.replicate n .elseIf ∨ labels = List.replicate n .elseIf ++ [.alternate]

theorem elseChain_cons {label : Label} {labels : List Label} (h : ElseChain (label :: labels)) :
    label = .alternate ∧ labels = [] ∨ label = .elseIf ∧ ElseChain labels := by
  obtain ⟨n, h⟩ := h
  cases n with
  | zero =>
    rcases h with h | h
    · exact (nomatch h)
    · cases h
      exact Or.inl ⟨rfl, rfl⟩
  | succ n =>
    rw [List.replicate_succ] at h
    rcases h with h | h
    · obtain ⟨rfl, rfl⟩ := List.cons.inj h
      exact Or.inr ⟨rfl, n, Or.inl rfl⟩
    · obtain ⟨rfl, rfl⟩ := List.cons.inj h
      exact Or.inr ⟨rfl, n, Or.inr rfl⟩

/-- A fragment that is one faithful node is faithful. -/
theorem singleton_clear {x : Node} {span : Span} (hle : span.start ≤ span.stop)
    (hspan : x.span = span) (htext : x.isText = false) (hx : Everywhere (Faithful ctx root) x) :
    FragmentClear ctx root ⟨span, [x]⟩ := by
  have hnot : ∀ span raw data, Node.text span raw data ∉ [x] := fun span raw data hmem => by
    obtain rfl := List.mem_singleton.mp hmem
    exact (nomatch htext)
  refine ⟨⟨?_, fun hlt => absurd hle (Nat.not_le_of_lt hlt),
    fun span raw data hmem => absurd hmem (hnot span raw data)⟩, ?_,
    fun span raw data hmem => absurd hmem (hnot span raw data)⟩
  · intro _
    show Tiles span.stop span.start [x.span]
    rw [hspan]
    exact ⟨rfl, hle, rfl⟩
  · intro c hc
    obtain rfl := List.mem_singleton.mp hc
    exact hx

/-- The `else` branch of an if block, which is the last one, becomes its alternate as it is. -/
theorem else_clear {stop : Nat} {h k : Header} {b : Branch} {content : Fragment Node}
    (hrow : Row ctx.source stop h [k] [b]) (hspan : content.span = b.span)
    (hcontent : FragmentClear ctx root content) :
    AlternateClear ctx root stop h (some content) := by
  have hk : k ∈ [h, k] := List.mem_cons_of_mem _ List.mem_cons_self
  obtain ⟨_, _, hstop⟩ := hrow.headed.1
  obtain ⟨hge, _, _⟩ := hrow.headed.starts_after hrow.inOrder b List.mem_cons_self
  have hh := hrow.inOrder.2 h List.mem_cons_self
  have hkstop := (hrow.tags k hk).2.2
  constructor
  · intro f hf
    obtain rfl := List.mem_singleton.mp hf
    rw [hspan]
    exact ⟨⟨show h.start ≤ b.start by omega, show b.stop ≤ stop by omega⟩, hcontent⟩
  · intro p hlow hhigh hp
    rcases Nat.lt_or_ge p k.start with hlt | hge
    · rcases hrow.covers_first hlow hlt hp with hhas | hhas
      · exact Or.inl hhas
      · exact Or.inr ⟨content, List.mem_cons_self, Or.inl (hspan ▸ hhas)⟩
    · right
      refine ⟨content, List.mem_cons_self, Or.inr ?_⟩
      rcases hrow.tail.covers p hge hhigh hp with ⟨l, hl, hhas⟩ | ⟨c, hc, _⟩
      · obtain rfl := List.mem_singleton.mp hl
        rw [hspan, show b.span.stop = l.start from hstop]
        exact hrow.inTagAt hk hhas
      · exact absurd hc List.not_mem_nil

/-- **The further branches of an if block become faithful blocks.** -/
theorem alternate_clear {stop : Nat} : ∀ {h : Header} {hs : List Header} {bs : List Branch}
    {alternate : Option (Fragment Node)}, Row ctx.source stop h hs bs →
    (∀ b ∈ bs, BranchClear ctx root b) →
    ElseChain (bs.map (·.label)) →
    alternateOf ctx.source.text stop bs = .ok alternate →
    AlternateClear ctx root stop h alternate
  | h, [], [], alternate, hrow, _, _, hok => by
    cases hok
    refine ⟨fun f hf => absurd hf List.not_mem_nil, fun p hle hlt hp => Or.inl ?_⟩
    rcases hrow.covers p hle hlt hp with ⟨k, hk, hhas⟩ | ⟨b, hb, _⟩
    · obtain rfl := List.mem_singleton.mp hk
      exact hhas
    · exact absurd hb List.not_mem_nil
  | h, _ :: _, [], _, hrow, _, _, _ => hrow.headed.elim
  | h, [], _ :: _, _, hrow, _, _, _ => hrow.headed.elim
  | h, k :: hs, b :: bs, alternate, hrow, hclear, hlabels, hok => by
    obtain ⟨rest, hrest, hok⟩ := bind_eq_ok.mp hok
    obtain ⟨content, hcontent, hok⟩ := bind_eq_ok.mp hok
    obtain ⟨hspan, hfaithful⟩ := hclear b List.mem_cons_self content hcontent
    split at hok
    · rename_i halternate
      obtain rfl := pure_eq_ok.mp hok
      obtain ⟨_, hnil⟩ | ⟨helseIf, _⟩ := elseChain_cons hlabels
      · obtain rfl := List.map_eq_nil_iff.mp hnil
        cases hs with
        | nil => exact else_clear hrow hspan hfaithful
        | cons _ _ => exact hrow.tail.headed.elim
      · cases halternate.symm.trans helseIf
    · rename_i hnot
      obtain rfl := pure_eq_ok.mp hok
      obtain ⟨halternate, _⟩ | ⟨_, hlabels⟩ := elseChain_cons hlabels
      · exact absurd halternate hnot
      · have hnested := alternate_clear hrow.tail
          (fun c hc => hclear c (List.mem_cons_of_mem _ hc)) hlabels hrest
        have hstop := (hrow.tags h List.mem_cons_self).2.2
        rw [hrow.headed.1.1]
        constructor
        · intro f hf
          obtain rfl := List.mem_singleton.mp hf
          exact ⟨⟨Nat.le_refl _, Nat.le_refl _⟩, singleton_clear (Nat.le_of_lt hstop) rfl rfl
            (ifBlock_faithful hrow hspan hfaithful hnested)⟩
        · intro p hlow hhigh _
          exact Or.inr ⟨_, List.mem_cons_self, Or.inl ⟨hlow, hhigh⟩⟩

/-! ## Other blocks -/

/-- The fragment of the branch with the label, among these branches. -/
def fragmentAmong? (text : List Char) (bs : List Branch) (label : Label) :
    Outcome (Option (Fragment Node)) :=
  match bs.find? (·.label = label) with
  | some b => do return some (← b.freeze text)
  | none => .ok none

theorem fragmentAmong?_cons_of_ne {text : List Char} {b : Branch} {bs : List Branch}
    {label : Label} (h : b.label ≠ label) :
    fragmentAmong? text (b :: bs) label = fragmentAmong? text bs label := by
  unfold fragmentAmong?
  rw [List.find?_cons_of_neg (by simpa using h)]

theorem fragmentAmong?_of_not_mem {text : List Char} {bs : List Branch} {label : Label}
    (h : label ∉ bs.map (·.label)) : fragmentAmong? text bs label = .ok none := by
  have hnone : bs.find? (·.label = label) = none := by
    refine List.find?_eq_none.mpr fun b hb hlabel => h (List.mem_map.mpr ⟨b, hb, ?_⟩)
    exact of_decide_eq_true hlabel
  unfold fragmentAmong?
  rw [hnone]

/-- What is found for each of the labels, in their order. -/
def Found (text : List Char) (bs : List Branch) (labels : List Label)
    (found : List (Option (Fragment Node))) : Prop :=
  List.Forall₂ (fun label o => fragmentAmong? text bs label = .ok o) labels found

/-- A branch with another label changes nothing. -/
theorem Found.of_cons {text : List Char} {b : Branch} {bs : List Branch} {labels : List Label}
    {found : List (Option (Fragment Node))} (hnot : b.label ∉ labels)
    (h : Found text (b :: bs) labels found) : Found text bs labels found := by
  unfold Found at h ⊢
  induction h with
  | nil => exact .nil
  | @cons label o labels found ho _ ih =>
    obtain ⟨hne, hnot⟩ := List.ne_and_not_mem_of_not_mem_cons hnot
    rw [fragmentAmong?_cons_of_ne hne] at ho
    exact .cons ho (ih hnot)

/-- The fragments that are found by their labels, in the order of these, are those of all
branches. -/
theorem freeze_of_found {text : List Char} : ∀ {labels : List Label} {bs : List Branch}
    {found : List (Option (Fragment Node))}, labels.Nodup → (bs.map (·.label)).Sublist labels →
      Found text bs labels found →
      List.Forall₂ (fun b f => b.freeze text = .ok f) bs (found.flatMap Option.toList)
  | [], bs, [], _, hsub, .nil => by
    obtain rfl := List.map_eq_nil_iff.mp (List.sublist_nil.mp hsub)
    exact .nil
  | l :: labels, [], o :: found, hnodup, _, .cons ho hfound => by
    rw [fragmentAmong?_of_not_mem List.not_mem_nil] at ho
    obtain rfl := Except.ok.inj ho
    rw [List.flatMap_cons, Option.toList_none, List.nil_append]
    exact freeze_of_found (List.nodup_cons.mp hnodup).2 (List.nil_sublist _) hfound
  | l :: labels, b :: bs, o :: found, hnodup, hsub, .cons ho hfound => by
    obtain ⟨hl, hlater⟩ := List.nodup_cons.mp hnodup
    by_cases hb : b.label = l
    · -- the branch is the one with the first label
      subst hb
      have hfind : (b :: bs).find? (·.label = b.label) = some b :=
        List.find?_cons_of_pos (decide_eq_true rfl)
      unfold fragmentAmong? at ho
      rw [hfind] at ho
      obtain ⟨f, hf, ho⟩ := bind_eq_ok.mp ho
      obtain rfl := pure_eq_ok.mp ho
      exact .cons hf (freeze_of_found hlater (List.cons_sublist_cons.mp hsub)
        (Found.of_cons hl hfound))
    · -- no branch has it
      have hsub : ((b :: bs).map (·.label)).Sublist labels := by
        cases hsub with
        | cons _ h => exact h
        | cons_cons _ h => exact absurd rfl hb
      rw [fragmentAmong?_of_not_mem fun hmem => hl (hsub.subset hmem)] at ho
      obtain rfl := Except.ok.inj ho
      rw [List.flatMap_cons, Option.toList_none, List.nil_append]
      exact freeze_of_found hlater hsub hfound

/-- The fragments that the branches became span what the branches do, and are faithful. -/
theorem clear_of_forall₂ {bs : List Branch} {fs : List (Fragment Node)}
    (h : List.Forall₂ (fun b f => b.freeze ctx.source.text = .ok f) bs fs)
    (hclear : ∀ b ∈ bs, BranchClear ctx root b) :
    fs.map Fragment.span = bs.map Branch.span ∧ ∀ f ∈ fs, FragmentClear ctx root f := by
  induction h with
  | nil => exact ⟨rfl, fun f hf => absurd hf List.not_mem_nil⟩
  | @cons b f bs fs hf _ ih =>
    obtain ⟨hspans, hfaithful⟩ := ih fun c hc => hclear c (List.mem_cons_of_mem _ hc)
    obtain ⟨hspan, hfirst⟩ := hclear b List.mem_cons_self f hf
    refine ⟨by rw [List.map_cons, List.map_cons, hspans, hspan], ?_⟩
    intro g hg
    rcases List.mem_cons.mp hg with rfl | hg
    · exact hfirst
    · exact hfaithful g hg

/-- A block that owns the fragments of all its branches is faithful. -/
theorem fragments_faithful {x : Node} {stop : Nat} {h : Header} {hs : List Header}
    {bs : List Branch} (hblock : x.isBlock = true) (hspan : x.span = ⟨h.start, stop⟩)
    (hrow : Row ctx.source stop h hs bs) (hclear : ∀ b ∈ bs, BranchClear ctx root b)
    (hfrozen : List.Forall₂ (fun b f => b.freeze ctx.source.text = .ok f) bs x.fragments) :
    Everywhere (Faithful ctx root) x := by
  obtain ⟨hspans, hfaithful⟩ := clear_of_forall₂ hfrozen hclear
  have hof : ∀ b ∈ bs, ∃ f ∈ x.fragments, f.span = b.span := fun b hb => by
    have hmem : b.span ∈ x.fragments.map Fragment.span := by
      rw [hspans]
      exact List.mem_map_of_mem hb
    exact List.mem_map.mp hmem
  refine block_faithful hblock ?_ (fun f hf => ⟨?_, hfaithful f hf⟩) ?_
  · have hord : (x.fragments.map Fragment.span).Pairwise fun a b =>
        a.start ≤ a.stop ∧ a.Precedes b := by
      rw [hspans]
      refine List.pairwise_map.mpr ((hrow.headed.apart hrow.inOrder).imp_of_mem ?_)
      exact fun {b c} hb _ happ =>
        ⟨(hrow.headed.starts_after hrow.inOrder b hb).2.1, Nat.le_of_lt happ⟩
    exact List.pairwise_map.mp hord
  · have hmem : f.span ∈ bs.map Branch.span := hspans ▸ List.mem_map_of_mem hf
    obtain ⟨b, hb, hbspan⟩ := List.mem_map.mp hmem
    obtain ⟨hge, hle, k, hk, hend⟩ := hrow.headed.starts_after hrow.inOrder b hb
    have hstop := (hrow.tags k (List.mem_cons_of_mem _ hk)).2.2
    have hstart := hrow.inOrder.2 h List.mem_cons_self
    rw [← hbspan, hspan]
    exact ⟨show h.start ≤ b.start by omega, show b.stop ≤ stop by omega⟩
  · intro p hp hbrace
    rw [hspan] at hp
    rcases hrow.covers p hp.1 hp.2 hbrace with ⟨k, hk, hhas⟩ | ⟨b, hb, hhas⟩
    · have htag := hrow.inTagAt hk hhas
      right
      rcases List.mem_cons.mp hk with rfl | hk
      · left
        rw [hspan]
        exact htag
      · obtain ⟨b, hb, hend⟩ := hrow.headed.exists_stop k hk
        obtain ⟨f, hf, hfspan⟩ := hof b hb
        right
        refine ⟨f, hf, ?_⟩
        rw [hfspan, show b.span.stop = k.start from hend]
        exact htag
    · obtain ⟨f, hf, hfspan⟩ := hof b hb
      exact Or.inl ⟨f, hf, hfspan ▸ hhas⟩

/-- **A block is faithful if its branches are.** -/
theorem build_faithful {f : Frame} {h : Header} {hs : List Header} {x : Node}
    (hspan : f.span.start = h.start) (hrow : Row ctx.source f.span.stop h hs f.branches)
    (hallowed : Allowed f.shape f.labels) (hclear : ∀ b ∈ f.branches, BranchClear ctx root b)
    (hok : f.build ctx.source.text = .ok x) :
    x.span = f.span ∧ x.isText = false ∧ Everywhere (Faithful ctx root) x := by
  have hspan' : f.span = ⟨h.start, f.span.stop⟩ := by rw [← hspan]
  unfold Frame.build at hok
  unfold Allowed at hallowed
  cases hshape : f.shape with
  | document | element =>
    rw [hshape] at hallowed
    exact hallowed.elim
  | ifBlock =>
    rw [hshape] at hok hallowed
    obtain ⟨alternate, halternate, hok⟩ := bind_eq_ok.mp hok
    obtain ⟨content, hcontent, hok⟩ := bind_eq_ok.mp hok
    obtain rfl := pure_eq_ok.mp hok
    rw [alternate_eq_alternateOf] at halternate
    cases hs with
    | nil => exact hrow.headed.elim
    | cons k hs =>
      obtain ⟨hcspan, hcontent⟩ := hclear f.opening List.mem_cons_self content hcontent
      have hlabels : ElseChain (f.later.reverse.map (·.label)) := by
        obtain ⟨n, hn | hn⟩ := hallowed
        · exact ⟨n, Or.inl (List.cons.inj hn).2⟩
        · exact ⟨n, Or.inr (List.cons.inj hn).2⟩
      refine ⟨rfl, rfl, ?_⟩
      rw [hspan']
      exact ifBlock_faithful hrow hcspan hcontent (alternate_clear hrow.tail
        (fun b hb => hclear b (List.mem_cons_of_mem _ hb)) hlabels halternate)
  | eachBlock header =>
    rw [hshape] at hok hallowed
    obtain ⟨body, hbody, hok⟩ := bind_eq_ok.mp hok
    obtain ⟨fallback, hfallback, hok⟩ := bind_eq_ok.mp hok
    obtain rfl := pure_eq_ok.mp hok
    refine ⟨rfl, rfl, fragments_faithful rfl hspan' hrow hclear ?_⟩
    have hfrozen := freeze_of_found (Shape.nodup_order _) hallowed
      (.cons hbody (.cons hfallback .nil))
    simpa [Node.fragments] using hfrozen
  | awaitBlock expression value error =>
    rw [hshape] at hok hallowed
    obtain ⟨pending, hpending, hok⟩ := bind_eq_ok.mp hok
    obtain ⟨fulfilled, hfulfilled, hok⟩ := bind_eq_ok.mp hok
    obtain ⟨rejected, hrejected, hok⟩ := bind_eq_ok.mp hok
    obtain rfl := pure_eq_ok.mp hok
    refine ⟨rfl, rfl, fragments_faithful rfl hspan' hrow hclear ?_⟩
    have hfrozen := freeze_of_found (Shape.nodup_order _) hallowed
      (.cons hpending (.cons hfulfilled (.cons hrejected .nil)))
    simpa [Node.fragments] using hfrozen
  | keyBlock expression =>
    rw [hshape] at hok hallowed
    obtain ⟨content, hcontent, hok⟩ := bind_eq_ok.mp hok
    obtain rfl := pure_eq_ok.mp hok
    refine ⟨rfl, rfl, fragments_faithful rfl hspan' hrow hclear ?_⟩
    have hfrozen := freeze_of_found (Shape.nodup_order _) hallowed (.cons hcontent .nil)
    simpa [Node.fragments] using hfrozen
  | snippetBlock name parameters =>
    rw [hshape] at hok hallowed
    obtain ⟨body, hbody, hok⟩ := bind_eq_ok.mp hok
    obtain rfl := pure_eq_ok.mp hok
    refine ⟨rfl, rfl, fragments_faithful rfl hspan' hrow hclear ?_⟩
    have hfrozen := freeze_of_found (Shape.nodup_order _) hallowed (.cons hbody .nil)
    simpa [Node.fragments] using hfrozen

end RawHtmlLint.Template

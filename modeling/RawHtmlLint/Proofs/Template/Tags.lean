import RawHtmlLint.Proofs.Outcome
import RawHtmlLint.Proofs.Template.WellFormed
import RawHtmlLint.Proofs.Text.Slice

/-!
# The tags between the parts

Between the parts of a node every opening brace belongs to a tag: the search for tags passes over
the parts and over nothing else. The tags it finds are in order. Two of them can only overlap
around a part; where each part lies between two consecutive tags, no tags overlap.

Results:
* `headers_tagged`: what a search for tags finds, and that it misses no brace;
* `Tagged.apart`: the tags of a block do not overlap;
* `rejectHeaders_ok`: where no tags are allowed, all braces are in the parts.
-/

namespace RawHtmlLint.Template

open Grammar Text

/-- The characters of a tag. -/
def Header.span (h : Header) : Span := ⟨h.start, h.stop⟩

/-! ## One tag -/

theorem Header.read_ok {s : Source} {start : Nat} {h : Header} (hr : Header.read s start = .ok h) :
    h.start = start ∧ start < h.close := by
  obtain ⟨close, hclose, hrest⟩ := bind_eq_ok.mp hr
  obtain rfl := pure_eq_ok.mp hrest
  unfold Source.closingBrace at hclose
  split at hclose
  · rename_i found hfound
    cases hclose
    exact ⟨rfl, (Script.closingBrace?_some hfound).1⟩
  · exact absurd hclose reject_ne_ok

theorem Header.start_lt_stop {s : Source} {h : Header} (hr : Header.read s h.start = .ok h) :
    h.start < h.stop :=
  Nat.lt_succ_of_lt (Header.read_ok hr).2

/-! ## Tags without parts between them -/

/-- A brace either belongs to an earlier tag, or opens one that the search goes on after. -/
theorem headersAt_cons_ok {s : Source} {next brace : Nat} {braces : List Nat} {hs : List Header}
    (h : headersAt s next (brace :: braces) = .ok hs) :
    brace < next ∧ headersAt s next braces = .ok hs ∨
      next ≤ brace ∧ ∃ tag later, Header.read s brace = .ok tag ∧
        headersAt s tag.stop braces = .ok later ∧ hs = tag :: later := by
  unfold headersAt at h
  split at h
  · rename_i hlt
    exact Or.inl ⟨hlt, h⟩
  · rename_i hge
    obtain ⟨tag, htag, h⟩ := bind_eq_ok.mp h
    obtain ⟨later, hlater, h⟩ := bind_eq_ok.mp h
    exact Or.inr ⟨Nat.le_of_not_lt hge, tag, later, htag, hlater, (pure_eq_ok.mp h).symm⟩

theorem headersAt_read {s : Source} : ∀ {braces : List Nat} {next : Nat} {hs : List Header},
    headersAt s next braces = .ok hs → ∀ h ∈ hs,
      Header.read s h.start = .ok h ∧ h.start ∈ braces ∧ next ≤ h.start
  | [], next, hs, hok, h, hmem => by
    cases hok
    exact absurd hmem List.not_mem_nil
  | brace :: braces, next, hs, hok, h, hmem => by
    rcases headersAt_cons_ok hok with ⟨_, hok⟩ | ⟨hge, tag, later, htag, htail, rfl⟩
    · obtain ⟨hr, hb, hn⟩ := headersAt_read hok h hmem
      exact ⟨hr, List.mem_cons_of_mem _ hb, hn⟩
    · obtain ⟨hstart, hclose⟩ := Header.read_ok htag
      rcases List.mem_cons.mp hmem with rfl | hmem
      · rw [hstart]
        exact ⟨htag, List.mem_cons_self, hge⟩
      · obtain ⟨hr, hb, hn⟩ := headersAt_read htail h hmem
        refine ⟨hr, List.mem_cons_of_mem _ hb, ?_⟩
        unfold Header.stop at hn
        omega

theorem headersAt_covers {s : Source} : ∀ {braces : List Nat} {next : Nat} {hs : List Header},
    headersAt s next braces = .ok hs → braces.Pairwise (· < ·) → ∀ brace ∈ braces,
      brace < next ∨ ∃ h ∈ hs, h.span.Has brace
  | [], _, _, _, _, brace, hmem => absurd hmem List.not_mem_nil
  | b :: braces, next, hs, hok, hsorted, brace, hmem => by
    obtain ⟨hlater, hsorted⟩ := List.pairwise_cons.mp hsorted
    rcases headersAt_cons_ok hok with ⟨hlt, hok⟩ | ⟨hge, tag, later, htag, htail, rfl⟩
    · rcases List.mem_cons.mp hmem with rfl | hmem
      · exact Or.inl hlt
      · exact headersAt_covers hok hsorted brace hmem
    · right
      obtain ⟨hstart, hclose⟩ := Header.read_ok htag
      have hin : b ≤ brace → brace < tag.stop → tag.span.Has brace :=
        fun hle hlt => ⟨by rw [Header.span, hstart]; exact hle, hlt⟩
      rcases List.mem_cons.mp hmem with rfl | hmem
      · exact ⟨tag, List.mem_cons_self, hin (Nat.le_refl _) (Nat.lt_succ_of_lt hclose)⟩
      · rcases headersAt_covers htail hsorted brace hmem with hlt | ⟨h, hh, hin⟩
        · exact ⟨tag, List.mem_cons_self, hin (Nat.le_of_lt (hlater brace hmem)) hlt⟩
        · exact ⟨h, List.mem_cons_of_mem _ hh, hin⟩

theorem headersAt_apart {s : Source} : ∀ {braces : List Nat} {next : Nat} {hs : List Header},
    headersAt s next braces = .ok hs → hs.Pairwise fun g h => g.span.Precedes h.span
  | [], _, _, hok => by
    cases hok
    exact .nil
  | brace :: braces, next, hs, hok => by
    rcases headersAt_cons_ok hok with ⟨_, hok⟩ | ⟨_, tag, later, _, htail, rfl⟩
    · exact headersAt_apart hok
    · exact List.pairwise_cons.mpr
        ⟨fun h hh => (headersAt_read htail h hh).2.2, headersAt_apart htail⟩

/-! ## Tags and parts -/

/-- The second tag starts after the first one: at its end or later, or after one of the spans
that stands between the starts of both. -/
def Follows (spans : List Span) (g h : Header) : Prop :=
  g.start < h.start ∧
    (g.span.Precedes h.span ∨ ∃ c ∈ spans, g.start < c.start ∧ c.stop ≤ h.start)

/-- The tags are those that stand in the window outside the spans. -/
structure Tagged (s : Source) (low high : Nat) (spans : List Span) (hs : List Header) : Prop where
  read : ∀ h ∈ hs, Header.read s h.start = .ok h
  inside : ∀ h ∈ hs, low ≤ h.start ∧ h.start < high
  covers : ∀ p, low ≤ p → p < high → s.at? p = some '\x7b' →
    (∃ c ∈ spans, c.Has p) ∨ ∃ h ∈ hs, h.span.Has p
  follows : hs.Pairwise (Follows spans)

/-- The tags up to the first span. -/
theorem tagged_of_headersAt {s : Source} {low high : Nat} {hs : List Header}
    (h : headersAt s low (positions (· == '\x7b') s.text low high) = .ok hs) :
    Tagged s low high [] hs where
  read g hg := (headersAt_read h g hg).1
  inside g hg := by
    obtain ⟨hle, hlt, _⟩ := mem_positions_iff.mp (headersAt_read h g hg).2.1
    exact ⟨hle, hlt⟩
  covers p hle hlt hp := by
    have hmem : p ∈ positions (· == '\x7b') s.text low high :=
      mem_positions_iff.mpr ⟨hle, hlt, '\x7b', hp, rfl⟩
    rcases headersAt_covers h (positions_sorted _ _ _ _) p hmem with hlt | hin
    · exact absurd hle (Nat.not_le_of_lt hlt)
    · exact Or.inr hin
  follows := (headersAt_apart h).imp_of_mem fun {f g} hf _ hfg =>
    ⟨Nat.lt_of_lt_of_le (Header.start_lt_stop (headersAt_read h f hf).1) hfg, Or.inl hfg⟩

/-- The tags after a span that stands after other tags. -/
theorem Tagged.append {s : Source} {low high next : Nat} {span : Span} {spans : List Span}
    {here later : List Header} (hnext : next = max low span.stop) (hspan : span.start ≤ span.stop)
    (hin : span.Inside ⟨low, high⟩) (hhere : Tagged s low span.start [] here)
    (hlater : Tagged s next high spans later) :
    Tagged s low high (span :: spans) (here ++ later) where
  read h hh := (List.mem_append.mp hh).elim (hhere.read h) (hlater.read h)
  inside h hh := by
    have hstop : span.stop ≤ high := hin.2
    rcases List.mem_append.mp hh with hh | hh
    · obtain ⟨hle, hlt⟩ := hhere.inside h hh
      omega
    · obtain ⟨hle, hlt⟩ := hlater.inside h hh
      omega
  covers p hle hlt hp := by
    rcases Nat.lt_or_ge p span.start with hbefore | hstart
    · rcases hhere.covers p hle hbefore hp with ⟨c, hc, _⟩ | ⟨h, hh, hhas⟩
      · exact absurd hc List.not_mem_nil
      · exact Or.inr ⟨h, List.mem_append_left _ hh, hhas⟩
    · rcases Nat.lt_or_ge p span.stop with hinside | hafter
      · exact Or.inl ⟨span, List.mem_cons_self, hstart, hinside⟩
      · rcases hlater.covers p (by omega) hlt hp with ⟨c, hc, hhas⟩ | ⟨h, hh, hhas⟩
        · exact Or.inl ⟨c, List.mem_cons_of_mem _ hc, hhas⟩
        · exact Or.inr ⟨h, List.mem_append_right _ hh, hhas⟩
  follows := by
    refine List.pairwise_append.mpr ⟨hhere.follows.imp ?_, hlater.follows.imp ?_, ?_⟩
    · rintro g h ⟨hlt, hfg | ⟨c, hc, _⟩⟩
      · exact ⟨hlt, Or.inl hfg⟩
      · exact absurd hc List.not_mem_nil
    · rintro g h ⟨hlt, hfg | ⟨c, hc, hbetween⟩⟩
      · exact ⟨hlt, Or.inl hfg⟩
      · exact ⟨hlt, Or.inr ⟨c, List.mem_cons_of_mem _ hc, hbetween⟩⟩
    · intro g hg h hh
      have hgin := (hhere.inside g hg).2
      have hhin := (hlater.inside h hh).1
      exact ⟨by omega, Or.inr ⟨span, List.mem_cons_self, hgin, by omega⟩⟩

theorem headersBetween_tagged {s : Source} {high : Nat} : ∀ {spans : List Span} {low : Nat}
    {hs : List Header}, headersBetween s low (spans ++ [⟨high, high⟩]) = .ok hs →
    (∀ c ∈ spans, c.start ≤ c.stop ∧ c.Inside ⟨low, high⟩) →
    (spans.Pairwise Span.Precedes) → Tagged s low high spans hs
  | [], low, hs, hok, _, _ => by
    obtain ⟨here, hhere, hrest⟩ := bind_eq_ok.mp hok
    obtain ⟨later, hlater, hrest⟩ := bind_eq_ok.mp hrest
    cases hlater
    obtain rfl := pure_eq_ok.mp hrest
    rw [List.append_nil]
    exact tagged_of_headersAt hhere
  | span :: spans, low, hs, hok, hspans, happ => by
    obtain ⟨here, hhere, hrest⟩ := bind_eq_ok.mp hok
    obtain ⟨later, hlater, hrest⟩ := bind_eq_ok.mp hrest
    obtain rfl := pure_eq_ok.mp hrest
    obtain ⟨hspan, hin⟩ := hspans span List.mem_cons_self
    obtain ⟨hfirst, happ⟩ := List.pairwise_cons.mp happ
    refine Tagged.append rfl hspan hin (tagged_of_headersAt hhere)
      (headersBetween_tagged hlater ?_ happ)
    intro c hc
    obtain ⟨hc', hcin⟩ := hspans c (List.mem_cons_of_mem _ hc)
    exact ⟨hc', Nat.max_le.mpr ⟨hcin.1, hfirst c hc⟩, hcin.2⟩

/-- The spans of the parts. -/
def spansOf (s : Source) (ps : List (Part × Tree)) : List Span := ps.map fun p => s.span p.2

theorem start_le_stop_of_mem_parts {s : Source} {low high : Nat} {t : Tree} {p : Part × Tree}
    (hwf : WellFormed s t) (hp : p ∈ parts s low high t) :
    (s.span p.2).start ≤ (s.span p.2).stop :=
  (hwf.of_mem (mem_nodes_of_mem_parts hp)).self.start_le_stop

/-- **A search for tags between the parts of a node misses no brace.** -/
theorem headers_tagged {s : Source} {low high : Nat} {t : Tree} {hs : List Header}
    (hwf : WellFormed s t) (h : headers s low high (parts s low high t) = .ok hs) :
    Tagged s low high (spansOf s (parts s low high t)) hs := by
  refine headersBetween_tagged h ?_ ?_
  · intro c hc
    obtain ⟨p, hp, rfl⟩ := List.mem_map.mp hc
    exact ⟨start_le_stop_of_mem_parts hwf hp, (mem_partsAmong hp).2.2⟩
  · exact List.pairwise_map.mpr (parts_apart hwf.nests low high)

/-- **The tags of a block do not overlap**, as each part lies between two consecutive ones. -/
theorem Tagged.apart {s : Source} {low high : Nat} {spans : List Span} {hs : List Header}
    (h : Tagged s low high spans hs) (hspans : ∀ c ∈ spans, c.start ≤ c.stop)
    (hbetween : ∀ c ∈ spans, ∃ pair ∈ hs.zip hs.tail, c.Inside ⟨pair.1.stop, pair.2.start⟩) :
    hs.Pairwise fun g h => g.span.Precedes h.span := by
  have hord := List.pairwise_iff_getElem.mp h.follows
  have hlt_of : ∀ i j (hi : i < hs.length) (hj : j < hs.length),
      hs[i].start < hs[j].start → i < j := by
    intro i j hi hj hlt
    rcases Nat.lt_trichotomy i j with hij | rfl | hji
    · exact hij
    · exact absurd hlt (Nat.lt_irrefl _)
    · exact absurd (hord j i hj hi hji).1 (Nat.lt_asymm hlt)
  have hstep : ∀ i (hi : i + 1 < hs.length), hs[i].stop ≤ hs[i + 1].start := by
    intro i hi
    obtain ⟨_, hprec | ⟨c, hc, hgc, hch⟩⟩ := hord i (i + 1) (by omega) hi (Nat.lt_succ_self i)
    · exact hprec
    · -- the part stands between two consecutive tags, and these can only be the two
      obtain ⟨pair, hpair, hin⟩ := hbetween c hc
      obtain ⟨k, hk, rfl⟩ := List.mem_iff_getElem.mp hpair
      rw [List.getElem_zip, List.getElem_tail] at hin
      rw [List.length_zip, List.length_tail] at hk
      obtain ⟨hafter, hbefore⟩ := hin
      dsimp only at hafter hbefore
      have hc := hspans c hc
      have hkstop := Header.start_lt_stop (h.read hs[k] (List.getElem_mem _))
      have hik := hlt_of i (k + 1) (by omega) (by omega) (by omega)
      have hki := hlt_of k (i + 1) (by omega) hi (by omega)
      obtain rfl : i = k := by omega
      exact Nat.le_trans hafter (Nat.le_trans hc hch)
  rw [List.pairwise_iff_getElem]
  intro i j hi hj hij
  show hs[i].stop ≤ hs[j].start
  rcases Nat.eq_or_lt_of_le hij with rfl | hlt
  · exact hstep i hj
  · exact Nat.le_trans (hstep i (by omega)) (Nat.le_of_lt (hord (i + 1) j (by omega) hj hlt).1)

/-- **Where no tags are allowed, all braces are in the parts.** -/
theorem rejectHeaders_ok {s : Source} {low high : Nat} {t : Tree} {u : Unit}
    (hwf : WellFormed s t) (h : rejectHeaders s low high (parts s low high t) = .ok u) {p : Nat}
    (hle : low ≤ p) (hlt : p < high) (hp : s.at? p = some '\x7b') :
    ∃ c ∈ spansOf s (parts s low high t), c.Has p := by
  obtain ⟨hs, hhs, hrest⟩ := bind_eq_ok.mp h
  cases hs with
  | nil =>
    rcases (headers_tagged hwf hhs).covers p hle hlt hp with hin | ⟨h, hh, _⟩
    · exact hin
    · exact absurd hh List.not_mem_nil
  | cons header later =>
    dsimp only [Header.stray] at hrest
    split at hrest
    · exact absurd hrest reject_ne_ok
    · split at hrest <;> exact absurd hrest reject_ne_ok

end RawHtmlLint.Template

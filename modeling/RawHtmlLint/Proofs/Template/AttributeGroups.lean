import RawHtmlLint.Proofs.Template.BranchLabels
import RawHtmlLint.Proofs.Template.Failures
import RawHtmlLint.Proofs.Template.Scripts
import RawHtmlLint.Proofs.Text.Blank
import RawHtmlLint.Proofs.Text.Search

/-!
# The braces of an attribute

What an attribute holds in braces must be an expression. The value of an attribute is the end of
its text, and is scanned from its start: from the first brace that opens, the brace that closes the
group is looked for, what is between the two is read as an expression, and the scan goes on after
the group, which may end outside the value. So the value is accepted exactly if each brace that
opens in it is in one of a row of such groups (`Grouped`). An attribute without a name must be a
spread or a shorthand.

Results:
* `scanFrom_ok_iff`: the values that the scan accepts;
* `checkShorthand_ok_iff`: what is accepted of an attribute without a name;
* `Scan.turns_end`: the scan ends;
* `readAttributes_checked`: opening tags are accepted exactly if all their attributes were checked.
-/

namespace RawHtmlLint.Template

open Grammar Script Text

variable {ctx : Context}

/-! ## Groups -/

/-- The span is a group: it starts with a brace that opens and ends with the brace that closes it,
and there is an expression between the two. -/
structure IsGroup (ctx : Context) (g : Span) : Prop where
  opens : ctx.source.at? g.start = some '\x7b'
  closes : closingBrace? ctx.source.text (g.start + 1) = some g.stop
  holds : ∃ e, ctx.read (g.start + 1) g.stop = .ok e

theorem IsGroup.start_lt {g : Span} (h : IsGroup ctx g) : g.start < g.stop :=
  (closingBrace?_some h.closes).1

/-- The groups follow one another and start between the two offsets, and each brace that opens
there is in one of them. -/
structure Grouped (ctx : Context) (start stop : Nat) (groups : List Span) : Prop where
  isGroup : ∀ g ∈ groups, IsGroup ctx g
  within : ∀ g ∈ groups, start ≤ g.start ∧ g.start < stop
  apart : groups.Pairwise fun g h => g.stop < h.start
  covered : ∀ i, start ≤ i → i < stop → ctx.source.at? i = some '\x7b' →
    ∃ g ∈ groups, g.start ≤ i ∧ i ≤ g.stop

/-- The offset is that of the first brace that opens between two offsets. -/
structure IsFirstBrace (s : Source) (start stop brace : Nat) : Prop where
  within : start ≤ brace ∧ brace < stop
  opens : s.at? brace = some '\x7b'
  first : ∀ i, start ≤ i → i < brace → s.at? i ≠ some '\x7b'

theorem Grouped.nil {start stop : Nat}
    (h : ∀ i, start ≤ i → i < stop → ctx.source.at? i ≠ some '\x7b') :
    Grouped ctx start stop [] where
  isGroup _ hg := absurd hg List.not_mem_nil
  within _ hg := absurd hg List.not_mem_nil
  apart := .nil
  covered i hle hlt hi := absurd hi (h i hle hlt)

/-- A group from the first brace on, and groups after it. -/
theorem Grouped.cons {start stop : Nat} {g : Span} {groups : List Span}
    (hfirst : IsFirstBrace ctx.source start stop g.start) (hg : IsGroup ctx g)
    (h : Grouped ctx (g.stop + 1) stop groups) : Grouped ctx start stop (g :: groups) where
  isGroup := List.forall_mem_cons.mpr ⟨hg, h.isGroup⟩
  within := by
    refine List.forall_mem_cons.mpr ⟨hfirst.within, fun k hk => ?_⟩
    have hlt := hg.start_lt
    have hk := h.within k hk
    have hstart := hfirst.within.1
    exact ⟨by omega, hk.2⟩
  apart := List.pairwise_cons.mpr ⟨fun k hk => (h.within k hk).1, h.apart⟩
  covered i hle hlt hi := by
    rcases Nat.lt_or_ge g.stop i with hafter | hinside
    · obtain ⟨k, hk, hcover⟩ := h.covered i hafter hlt hi
      exact ⟨k, List.mem_cons_of_mem _ hk, hcover⟩
    · refine ⟨g, List.mem_cons_self, Nat.not_lt.mp fun hbefore => ?_, hinside⟩
      exact hfirst.first i hle hbefore hi

/-- If a brace opens, the first group starts with the first brace, and the others are groups of what
follows. -/
theorem Grouped.exists_cons {start stop brace : Nat} {groups : List Span}
    (hfirst : IsFirstBrace ctx.source start stop brace) (h : Grouped ctx start stop groups) :
    ∃ g rest, groups = g :: rest ∧ g.start = brace ∧ IsGroup ctx g ∧
      Grouped ctx (g.stop + 1) stop rest := by
  obtain ⟨hle, hlt⟩ := hfirst.within
  obtain ⟨k, hk, hstart, hstop⟩ := h.covered brace hle hlt hfirst.opens
  -- no group starts before the first brace
  have hlate : ∀ g ∈ groups, brace ≤ g.start := fun g hg =>
    Nat.not_lt.mp fun hbefore => hfirst.first _ (h.within g hg).1 hbefore (h.isGroup g hg).opens
  cases groups with
  | nil => exact absurd hk List.not_mem_nil
  | cons g rest =>
    have hgroup := h.isGroup g List.mem_cons_self
    have hapart := List.pairwise_cons.mp h.apart
    refine ⟨g, rest, rfl, ?_, hgroup, ?_⟩
    · rcases List.mem_cons.mp hk with rfl | hk
      · exact Nat.le_antisymm hstart (hlate k List.mem_cons_self)
      · have hbefore := hapart.1 k hk
        have hfrom := hlate g List.mem_cons_self
        have hlt := hgroup.start_lt
        omega
    · refine ⟨fun k hk => h.isGroup k (List.mem_cons_of_mem _ hk), fun k hk => ?_, hapart.2, ?_⟩
      · exact ⟨hapart.1 k hk, (h.within k (List.mem_cons_of_mem _ hk)).2⟩
      · intro i hafter hlt hi
        have hfrom := (h.within g List.mem_cons_self).1
        have hstop := hgroup.start_lt
        obtain ⟨k, hk, hcover⟩ := h.covered i (by omega) hlt hi
        rcases List.mem_cons.mp hk with rfl | hk
        · omega
        · exact ⟨k, hk, hcover⟩

/-! ## The scan -/

/-- What the scan of a value that ends at `stop` finds from an offset on. -/
def scanFrom (ctx : Context) (stop next : Nat) : Outcome Unit :=
  checkGroups ctx next (positions (· == '\x7b') ctx.source.text next stop)

/-- The first brace that opens between the two offsets. -/
def firstBrace? (s : Source) (start stop : Nat) : Option Nat :=
  (positions (· == '\x7b') s.text start stop).head?

theorem isFirstBrace_of_firstBrace? {s : Source} {start stop brace : Nat}
    (h : firstBrace? s start stop = some brace) : IsFirstBrace s start stop brace := by
  obtain ⟨braces, hbraces⟩ := List.head?_eq_some_iff.mp h
  obtain ⟨⟨hle, hlt, c, hget, hc⟩, hnone, _⟩ := positions_eq_cons hbraces
  obtain rfl := beq_iff_eq.mp hc
  refine ⟨⟨hle, hlt⟩, hget, fun i hi hlt hopens => ?_⟩
  have hmem : i ∈ positions (· == '\x7b') s.text start brace :=
    mem_positions_iff.mpr ⟨hi, hlt, _, hopens, beq_self_eq_true _⟩
  rw [hnone] at hmem
  exact absurd hmem List.not_mem_nil

theorem no_brace_of_firstBrace? {s : Source} {start stop : Nat}
    (h : firstBrace? s start stop = none) {i : Nat} (hle : start ≤ i) (hlt : i < stop) :
    s.at? i ≠ some '\x7b' := by
  intro hopens
  have hmem : i ∈ positions (· == '\x7b') s.text start stop :=
    mem_positions_iff.mpr ⟨hle, hlt, _, hopens, beq_self_eq_true _⟩
  rw [List.head?_eq_none_iff.mp h] at hmem
  exact absurd hmem List.not_mem_nil

/-- Braces before the place where the scan goes on are passed over. -/
theorem checkGroups_append {next : Nat} {front : List Nat} (h : ∀ brace ∈ front, brace < next)
    (back : List Nat) : checkGroups ctx next (front ++ back) = checkGroups ctx next back := by
  induction front with
  | nil => rfl
  | cons brace front ih =>
    obtain ⟨hbrace, hfront⟩ := List.forall_mem_cons.mp h
    rw [List.cons_append, checkGroups, if_pos hbrace, ih hfront]

/-- From a later place on there are the same braces, but for those before it. -/
theorem positions_later (s : Source) {low next stop : Nat} (h : low ≤ next) :
    ∃ front, positions (· == '\x7b') s.text low stop =
        front ++ positions (· == '\x7b') s.text next stop ∧ ∀ brace ∈ front, brace < next := by
  rcases Nat.le_total next stop with hstop | hstop
  · exact ⟨_, (positions_append h hstop).symm, fun brace hbrace => (positions_lt hbrace).2⟩
  · have hnone : positions (· == '\x7b') s.text next stop = [] :=
      List.eq_nil_iff_forall_not_mem.mpr fun brace hbrace => by
        have hbounds := positions_lt hbrace
        omega
    refine ⟨_, by rw [hnone, List.append_nil], fun brace hbrace => ?_⟩
    exact Nat.lt_of_lt_of_le (positions_lt hbrace).2 hstop

/-- The braces from an earlier place on make no difference. -/
theorem checkGroups_positions (ctx : Context) {low next : Nat} (stop : Nat) (h : low ≤ next) :
    checkGroups ctx next (positions (· == '\x7b') ctx.source.text low stop) =
      scanFrom ctx stop next := by
  obtain ⟨front, hfront, hbefore⟩ := positions_later ctx.source h
  rw [hfront, checkGroups_append hbefore, scanFrom]

theorem closingBrace_eq_ok {s : Source} {opening close : Nat} :
    s.closingBrace opening = .ok close ↔ closingBrace? s.text (opening + 1) = some close := by
  unfold Source.closingBrace
  cases closingBrace? s.text (opening + 1) with
  | none => exact ⟨fun h => absurd h reject_ne_ok, fun h => (nomatch h)⟩
  | some found => exact ⟨fun h => by cases h; rfl, fun h => by cases h; rfl⟩

/-- **The scan goes from group to group**: it reads what is in the first one, and goes on after
it. -/
theorem scanFrom_eq (ctx : Context) (stop next : Nat) :
    scanFrom ctx stop next = (match firstBrace? ctx.source next stop with
      | none => .ok ()
      | some brace => do
        let close ← ctx.source.closingBrace brace
        let _ ← ctx.read (brace + 1) close
        scanFrom ctx stop (close + 1)) := by
  unfold firstBrace?
  cases hbraces : positions (· == '\x7b') ctx.source.text next stop with
  | nil =>
    unfold scanFrom
    rw [hbraces]
    rfl
  | cons brace braces =>
    obtain ⟨⟨hle, _⟩, _, rfl⟩ := positions_eq_cons hbraces
    have hscan : scanFrom ctx stop next = checkGroups ctx next
        (brace :: positions (· == '\x7b') ctx.source.text (brace + 1) stop) := by
      rw [scanFrom, hbraces]
    rw [hscan, checkGroups, if_neg (Nat.not_lt.mpr hle)]
    show ctx.source.closingBrace brace >>= _ = ctx.source.closingBrace brace >>= _
    cases hclose : ctx.source.closingBrace brace with
    | error failure => rfl
    | ok close =>
      have hlt := (closingBrace?_some (closingBrace_eq_ok.mp hclose)).1
      have hrest := checkGroups_positions ctx stop (Nat.le_succ_of_le hlt)
      show (ctx.read (brace + 1) close >>= fun _ => checkGroups ctx (close + 1) _) = _
      rw [hrest]
      rfl

/-- **The values that the scan accepts** are those in which each brace that opens is in one of a row
of groups. -/
theorem scanFrom_ok_iff (ctx : Context) (stop next : Nat) :
    scanFrom ctx stop next = .ok () ↔ ∃ groups, Grouped ctx next stop groups := by
  rw [scanFrom_eq]
  cases hbrace : firstBrace? ctx.source next stop with
  | none =>
    exact ⟨fun _ => ⟨[], .nil fun i => no_brace_of_firstBrace? hbrace⟩, fun _ => rfl⟩
  | some brace =>
    have hfirst := isFirstBrace_of_firstBrace? hbrace
    dsimp only
    constructor
    · intro hok
      obtain ⟨close, hclose, hok⟩ := bind_eq_ok.mp hok
      obtain ⟨e, hread, hok⟩ := bind_eq_ok.mp hok
      have hcloses := closingBrace_eq_ok.mp hclose
      have hlt := (closingBrace?_some hcloses).1
      have hwithin := hfirst.within
      obtain ⟨groups, hgroups⟩ := (scanFrom_ok_iff ctx stop (close + 1)).mp hok
      exact ⟨⟨brace, close⟩ :: groups, .cons hfirst ⟨hfirst.opens, hcloses, e, hread⟩ hgroups⟩
    · rintro ⟨groups, hgroups⟩
      obtain ⟨g, rest, rfl, rfl, hg, hrest⟩ := hgroups.exists_cons hfirst
      obtain ⟨e, hread⟩ := hg.holds
      have hlt := hg.start_lt
      have hwithin := hfirst.within
      have hok := (scanFrom_ok_iff ctx stop (g.stop + 1)).mpr ⟨rest, hrest⟩
      refine bind_eq_ok.mpr ⟨g.stop, closingBrace_eq_ok.mpr hg.closes, ?_⟩
      exact bind_eq_ok.mpr ⟨e, hread, hok⟩
termination_by stop - next
decreasing_by all_goals omega

/-! ## The loop -/

/-- The scan between two turns of its loop: it goes on at an offset, or it has ended. -/
inductive Scan where
  | running (next : Nat)
  | ended (result : Outcome Unit)

namespace Scan

/-- One turn of the loop, up to the end of the first group that is ahead. -/
def turn (ctx : Context) (stop : Nat) : Scan → Scan
  | .ended result => .ended result
  | .running next =>
    match firstBrace? ctx.source next stop with
    | none => .ended (.ok ())
    | some brace =>
      match ctx.source.closingBrace brace with
      | .error failure => .ended (.error failure)
      | .ok close =>
        match ctx.read (brace + 1) close with
        | .error failure => .ended (.error failure)
        | .ok _ => .running (close + 1)

/-- What the scan finds from where it is. -/
def outcome (ctx : Context) (stop : Nat) : Scan → Outcome Unit
  | .running next => scanFrom ctx stop next
  | .ended result => result

/-- The braces that are ahead, and one turn to see that there are no more. -/
def left (s : Source) (stop : Nat) : Scan → Nat
  | .running next => (positions (· == '\x7b') s.text next stop).length + 1
  | .ended _ => 0

/-- A turn changes nothing about what is found. -/
theorem outcome_turn (ctx : Context) (stop : Nat) (σ : Scan) :
    (σ.turn ctx stop).outcome ctx stop = σ.outcome ctx stop := by
  cases σ with
  | ended result => rfl
  | running next =>
    unfold turn outcome
    dsimp only
    rw [scanFrom_eq ctx stop next]
    cases firstBrace? ctx.source next stop with
    | none => rfl
    | some brace =>
      dsimp only
      cases ctx.source.closingBrace brace with
      | error failure => rfl
      | ok close =>
        dsimp only [bind, Except.bind]
        cases ctx.read (brace + 1) close with
        | error failure => rfl
        | ok e => rfl

/-- A turn leaves fewer braces ahead. -/
theorem left_turn (ctx : Context) (stop : Nat) (σ : Scan) :
    (σ.turn ctx stop).left ctx.source stop ≤ σ.left ctx.source stop - 1 := by
  cases σ with
  | ended result => exact Nat.le_refl _
  | running next =>
    unfold turn
    dsimp only
    cases hbrace : firstBrace? ctx.source next stop with
    | none => exact Nat.zero_le _
    | some brace =>
      dsimp only
      cases hclose : ctx.source.closingBrace brace with
      | error failure => exact Nat.zero_le _
      | ok close =>
        dsimp only
        cases ctx.read (brace + 1) close with
        | error failure => exact Nat.zero_le _
        | ok e =>
          obtain ⟨braces, hbraces⟩ := List.head?_eq_some_iff.mp hbrace
          obtain ⟨_, _, rfl⟩ := positions_eq_cons hbraces
          have hlt := (closingBrace?_some (closingBrace_eq_ok.mp hclose)).1
          have hlater : brace + 1 ≤ close + 1 := Nat.le_succ_of_le hlt
          obtain ⟨front, hfront, _⟩ := positions_later ctx.source hlater
          unfold left
          dsimp only
          rw [hbraces, List.length_cons, hfront, List.length_append]
          omega

/-- **The scan ends** after at most as many turns as braces are ahead, and one. -/
theorem turns_end (ctx : Context) (stop : Nat) : ∀ (n : Nat) (σ : Scan),
    σ.left ctx.source stop ≤ n → (turn ctx stop)^[n] σ = .ended (σ.outcome ctx stop)
  | 0, .ended result, _ => rfl
  | n + 1, σ, h => by
    have hleft := left_turn ctx stop σ
    rw [Function.iterate_succ_apply, turns_end ctx stop n (σ.turn ctx stop) (by omega),
      outcome_turn]

end Scan

/-! ## Shorthands -/

/-- Three dots, with which a spread starts. -/
def dots : List Char := ['.', '.', '.']

theorem trimmed_dots : Trimmed dots := by decide

/-- In the braces at the two offsets is a spread: white space, three dots, and an expression. -/
def IsSpread (ctx : Context) (start close : Nat) : Prop :=
  ∃ blank inside, allBlank blank = true ∧ inside ≤ close ∧
    ctx.source.slice (start + 1) inside = blank ++ dots ∧ ∃ e, ctx.read inside close = .ok e

/-- With the brace at the offset starts a spread, or a single identifier in braces. -/
def IsShorthand (ctx : Context) (start : Nat) : Prop :=
  ∃ close, closingBrace? ctx.source.text (start + 1) = some close ∧
    (IsSpread ctx start close ∨ isIdentifier (trim (ctx.source.slice (start + 1) close)) = true)

theorem not_dots_infix {blank : List Char} (hblank : allBlank blank = true) :
    ¬ dots <:+: '\x7b' :: blank ++ dots.dropLast := by
  intro hin
  have hnone : blank.count '.' = 0 := List.count_eq_zero.mpr fun hdot =>
    absurd (forall_of_allBlank hblank '.' hdot) (by decide)
  have hcount := hin.sublist.count_le '.'
  rw [List.cons_append, List.count_cons_of_ne (by decide), List.count_append, hnone] at hcount
  exact absurd hcount (by decide)

/-- The place of the dots, after the brace at `start`. -/
theorem before_dots {s : Source} {start close : Nat} {blank rest : List Char}
    (hopens : s.at? start = some '\x7b') (hle : start + 1 ≤ close)
    (hblank : allBlank blank = true)
    (hbody : s.slice (start + 1) close = blank ++ dots ++ rest) :
    before dots (s.text.drop start) = blank.length + 1 := by
  obtain ⟨hlt, hget⟩ := List.getElem?_eq_some_iff.mp hopens
  have hdrop : s.text.drop start =
      ('\x7b' :: blank) ++ dots ++ (rest ++ s.text.drop close) := by
    rw [List.drop_eq_getElem_cons hlt, hget, ← slice_append_drop hle]
    show _ :: (s.slice (start + 1) close ++ _) = _
    rw [hbody]
    simp only [List.append_assoc, List.cons_append]
  have hfind := (find?_eq_some_iff (by decide : dots ≠ [])).mpr
    ⟨_, _, hdrop, rfl, not_dots_infix hblank⟩
  rw [before, hfind, Option.getD_some, List.length_cons]

/-- A spread is what starts with three dots, with an expression after these. -/
theorem isSpread_iff {start close : Nat} (hopens : ctx.source.at? start = some '\x7b')
    (hcloses : closingBrace? ctx.source.text (start + 1) = some close) :
    IsSpread ctx start close ↔
      dots <+: trim (ctx.source.slice (start + 1) close) ∧
        ∃ e, ctx.read (start + before dots (ctx.source.text.drop start) + 3) close = .ok e := by
  obtain ⟨hle, hclose⟩ := closingBrace?_some hcloses
  rw [prefix_trim_iff trimmed_dots]
  constructor
  · rintro ⟨blank, inside, hblank, hinside, hslice, hread⟩
    have hsize : inside ≤ ctx.source.text.length :=
      Nat.le_trans hinside (Nat.le_of_lt (List.getElem?_eq_some_iff.mp hclose).1)
    have hstop := stop_of_slice_eq hslice hsize (by simp [dots])
    rw [List.length_append, show dots.length = 3 from rfl] at hstop
    have hbody : ctx.source.slice (start + 1) close =
        blank ++ dots ++ ctx.source.slice inside close := by
      rw [← hslice]
      exact (slice_append (by omega) hinside).symm
    refine ⟨⟨blank, _, hblank, hbody⟩, ?_⟩
    rw [before_dots hopens hle hblank hbody,
      show start + (blank.length + 1) + 3 = inside by omega]
    exact hread
  · rintro ⟨⟨blank, rest, hblank, hbody⟩, hread⟩
    rw [before_dots hopens hle hblank hbody] at hread
    have hpart : ctx.source.slice (start + 1) close = [] ++ (blank ++ dots) ++ rest := hbody
    have hslice := slice_part hle hpart
    have hfits : (blank ++ dots).length ≤ close - (start + 1) := by
      have hlength := congrArg List.length hbody
      have hcut : (ctx.source.slice (start + 1) close).length ≤ close - (start + 1) := by
        rw [Source.slice, length_slice]
        omega
      rw [List.length_append] at hlength
      omega
    rw [List.length_append, show dots.length = 3 from rfl] at hslice hfits
    refine ⟨blank, start + 1 + (blank.length + 3), hblank, by omega, hslice, ?_⟩
    rw [show start + 1 + (blank.length + 3) = start + (blank.length + 1) + 3 by omega]
    exact hread

/-- **What is accepted in braces of its own** is a spread of an expression, or an identifier. -/
theorem checkShorthand_ok_iff {start : Nat} (hopens : ctx.source.at? start = some '\x7b') :
    checkShorthand ctx start = .ok () ↔ IsShorthand ctx start := by
  unfold checkShorthand IsShorthand
  rw [bind_eq_ok]
  refine exists_congr fun close => ?_
  rw [closingBrace_eq_ok]
  refine and_congr_right fun hcloses => ?_
  rw [isSpread_iff hopens hcloses]
  dsimp only
  split
  · rename_i hdots
    have hprefix : dots <+: trim (ctx.source.slice (start + 1) close) :=
      List.isPrefixOf_iff_prefix.mp hdots
    -- what starts with dots is no identifier
    have hnot : isIdentifier (trim (ctx.source.slice (start + 1) close)) ≠ true := by
      obtain ⟨rest, hrest⟩ := hprefix
      rw [← hrest]
      exact Bool.false_ne_true
    rw [or_iff_left hnot, and_iff_right hprefix, bind_eq_ok]
    exact exists_congr fun e => and_iff_left rfl
  · rename_i hdots
    rw [or_iff_right fun h => hdots (List.isPrefixOf_iff_prefix.mpr h.1)]
    cases hname : isIdentifier (trim (ctx.source.slice (start + 1) close)) with
    | true => exact ⟨fun _ => rfl, fun _ => rfl⟩
    | false => exact ⟨fun h => absurd h reject_ne_ok, fun h => (nomatch h)⟩

/-! ## Attributes -/

/-- The name of the attribute starts with a brace. -/
def StartsWithBrace (s : Source) (c : Tree) : Prop :=
  (s.textOf (nameSpan s c)).head? = some '\x7b'

/-- The attribute has a name, apart from what it is as a whole. -/
def IsNamed (c : Tree) : Prop := (c.childOfKind? ["attribute_name"]).isSome = true

/-- What the attribute holds in braces was checked: its value, at the end of its text, is made of
groups and text without braces; without a name it is a shorthand. -/
structure Checked (ctx : Context) (c : Tree) : Prop where
  value : IsNamed c → ¬ StartsWithBrace ctx.source c → ∀ value,
    writtenValue? ctx.source c = some value →
    ctx.source.slice ((ctx.source.span c).stop - value.length) (ctx.source.span c).stop = value ∧
      ∃ groups, Grouped ctx ((ctx.source.span c).stop - value.length) (ctx.source.span c).stop groups
  shorthand : ¬ IsNamed c → StartsWithBrace ctx.source c →
    IsShorthand ctx (ctx.source.span c).start

/-- The value after a name is the end of the text. -/
theorem valueAfter?_suffix {rest value : List Char} (h : valueAfter? rest = some value) :
    value <:+ rest := by
  unfold valueAfter? at h
  split at h
  · rename_i tail hstart
    cases h
    exact (trimStart_suffix tail).trans
      ((List.suffix_cons '=' tail).trans (hstart ▸ trimStart_suffix rest))
  · cases h

theorem slice_of_writtenValue? {s : Source} {c : Tree} {value : List Char}
    (h : writtenValue? s c = some value) :
    s.slice ((s.span c).stop - value.length) (s.span c).stop = value := by
  have hsize : (s.span c).stop ≤ s.text.length := s.charOffset_le_size c.label.stopByte
  unfold writtenValue? at h
  split at h
  · cases h
  · rename_i name _
    generalize (s.span name).stop = start at h
    generalize (s.span c).stop = stop at h hsize ⊢
    obtain ⟨front, hfront⟩ := valueAfter?_suffix h
    have hlength := congrArg List.length hfront
    rw [List.length_append, Source.slice, length_slice, Nat.min_eq_left hsize] at hlength
    rcases Nat.le_total start stop with hle | hle
    · have hpart : s.slice start stop = front ++ value ++ [] := by rw [hfront, List.append_nil]
      have hslice := slice_part hle hpart
      rw [show start + front.length + value.length = stop by omega,
        show start + front.length = stop - value.length by omega] at hslice
      exact hslice
    · obtain rfl : value = [] := List.eq_nil_of_length_eq_zero (by omega)
      exact slice_eq_nil (.inl (Nat.le_refl _))

/-- An attribute is checked, and then is what is written. -/
theorem readAttribute_eq_check (ctx : Context) (c : Tree) :
    readAttribute ctx c = do
      checkAttribute ctx (ctx.source.textOf (nameSpan ctx.source c)) (writtenValue? ctx.source c)
        (ctx.source.span c)
      return attributeOf ctx.source c := by
  unfold readAttribute attributeOf nameSpan writtenValue?
  cases c.childOfKind? ["attribute_name"] <;> rfl

theorem readAttribute_ok_iff {c : Tree} {a : Attribute} :
    readAttribute ctx c = .ok a ↔
      checkAttribute ctx (ctx.source.textOf (nameSpan ctx.source c)) (writtenValue? ctx.source c)
        (ctx.source.span c) = .ok () ∧ a = attributeOf ctx.source c := by
  rw [readAttribute_eq_check, bind_eq_ok]
  exact ⟨fun ⟨_, hcheck, ha⟩ => ⟨hcheck, (pure_eq_ok.mp ha).symm⟩,
    fun ⟨hcheck, ha⟩ => ⟨(), hcheck, pure_eq_ok.mpr ha.symm⟩⟩

theorem nameSpan_of_not_named {s : Source} {c : Tree} (h : ¬ IsNamed c) :
    nameSpan s c = s.span c ∧ writtenValue? s c = none := by
  unfold IsNamed at h
  rw [Bool.not_eq_true, Option.isSome_eq_false_iff, Option.isNone_iff_eq_none] at h
  unfold nameSpan writtenValue?
  rw [h]
  exact ⟨rfl, rfl⟩

theorem at?_of_head? {s : Source} {span : Span} {c : Char} (h : (s.textOf span).head? = some c) :
    s.at? span.start = some c := by
  rw [Source.textOf, Source.slice, List.head?_eq_getElem?, getElem?_slice] at h
  split at h
  · exact h
  · cases h

/-- **An attribute is accepted exactly if it was checked**, one with a name as long as this does not
start with a brace. -/
theorem checkAttribute_ok_iff {c : Tree} (hplain : IsNamed c → ¬ StartsWithBrace ctx.source c) :
    checkAttribute ctx (ctx.source.textOf (nameSpan ctx.source c)) (writtenValue? ctx.source c)
        (ctx.source.span c) = .ok () ↔ Checked ctx c := by
  unfold checkAttribute
  split
  · rename_i hbrace
    have hunnamed : ¬ IsNamed c := fun hnamed => hplain hnamed hbrace
    have hopens := hbrace
    rw [(nameSpan_of_not_named hunnamed).1] at hopens
    rw [checkShorthand_ok_iff (at?_of_head? hopens)]
    exact ⟨fun h => ⟨fun hnamed => absurd hnamed hunnamed, fun _ _ => h⟩,
      fun h => h.shorthand hunnamed hbrace⟩
  · rename_i hbrace
    cases hvalue : writtenValue? ctx.source c with
    | none =>
      refine ⟨fun _ => ⟨fun _ _ value h => ?_, fun _ h => absurd h hbrace⟩, fun _ => rfl⟩
      rw [hvalue] at h
      cases h
    | some value =>
      have hnamed : IsNamed c := by
        by_contra hunnamed
        rw [(nameSpan_of_not_named hunnamed).2] at hvalue
        cases hvalue
      have hscan := scanFrom_ok_iff ctx (ctx.source.span c).stop
        ((ctx.source.span c).stop - value.length)
      refine ⟨fun h => ⟨fun _ _ found hfound => ?_, fun hunnamed => absurd hnamed hunnamed⟩,
        fun h => hscan.mpr (h.value hnamed hbrace value hvalue).2⟩
      obtain rfl := Option.some.inj (hvalue.symm.trans hfound)
      exact ⟨slice_of_writtenValue? hvalue, hscan.mp h⟩

/-- What is accepted was checked, whatever its name starts with. -/
theorem checked_of_readAttribute {c : Tree} {a : Attribute} (hok : readAttribute ctx c = .ok a) :
    Checked ctx c := by
  by_cases hodd : IsNamed c ∧ StartsWithBrace ctx.source c
  · exact ⟨fun _ hnot => absurd hodd.2 hnot, fun hnot => absurd hodd.1 hnot⟩
  · have hplain : IsNamed c → ¬ StartsWithBrace ctx.source c := not_and.mp hodd
    exact (checkAttribute_ok_iff hplain).mp (readAttribute_ok_iff.mp hok).1

/-! ## Opening tags -/

theorem rejection_admitsReading (ctx : Context) : AdmitsReading (Rejection ctx) ctx where
  rejected _ _ _ _ := .inl ⟨_, rfl⟩
  read start stop _ := read_meets ctx start stop

/-- An element is read only if its attributes are, or it is rejected. -/
theorem ElementTag.read_rejects (ctx : Context) {t tag : Tree} (htag : openingTag? t = some tag) :
    Meets (Rejection ctx) (fun _ => ∃ attributes, readAttributes ctx tag = .ok attributes)
      (ElementTag.read ctx t) := by
  have hattributes := readAttributes_meets (rejection_admitsReading ctx) tag
  unfold ElementTag.read
  rw [htag]
  dsimp only
  -- whatever the name is, it is empty or not
  split
  all_goals
    split
    · exact reject_meets
    · exact hattributes.bind_ok fun attributes hok _ => ⟨attributes, hok⟩

theorem readAttributes_of_forall {cs : List Tree}
    (h : ∀ c ∈ cs, readAttribute ctx c = .ok (attributeOf ctx.source c)) :
    cs.mapM (readAttribute ctx) = .ok (cs.map (attributeOf ctx.source)) := by
  induction cs with
  | nil => rfl
  | cons c cs ih =>
    obtain ⟨hc, hcs⟩ := List.forall_mem_cons.mp h
    rw [List.mapM_cons, hc, ih hcs]
    rfl

theorem exists_readAttribute_of_mapM {c : Tree} : ∀ {cs : List Tree} {as : List Attribute},
    cs.mapM (readAttribute ctx) = .ok as → c ∈ cs → ∃ a, readAttribute ctx c = .ok a
  | d :: cs, as, hok, hc => by
    rw [List.mapM_cons] at hok
    obtain ⟨a, ha, hok⟩ := bind_eq_ok.mp hok
    obtain ⟨bs, hbs, _⟩ := bind_eq_ok.mp hok
    rcases List.mem_cons.mp hc with rfl | hc
    · exact ⟨a, ha⟩
    · exact exists_readAttribute_of_mapM hbs hc

/-- **Opening tags are accepted exactly if all their attributes were checked.** The braces in a value
all are in groups that hold expressions, and an attribute without a name that starts with a brace is
a spread or a shorthand; otherwise the element is rejected. Attributes that were checked are
accepted, as long as no name starts with a brace. The scan of a value ends on every text, with what
`checkGroups` says of the braces. -/
theorem readAttributes_checked (ctx : Context) (tag : Tree) :
    (∀ attributes, readAttributes ctx tag = .ok attributes →
      attributes = (attributeNodes tag).map (attributeOf ctx.source) ∧
        ∀ c ∈ attributeNodes tag, Checked ctx c) ∧
    (∀ t, openingTag? t = some tag → (∃ c ∈ attributeNodes tag, ¬ Checked ctx c) →
      ∃ failure, ElementTag.read ctx t = .error failure ∧ Rejection ctx failure) ∧
    ((∀ c ∈ attributeNodes tag, IsNamed c → ¬ StartsWithBrace ctx.source c) →
      (∀ c ∈ attributeNodes tag, Checked ctx c) →
      readAttributes ctx tag = .ok ((attributeNodes tag).map (attributeOf ctx.source))) ∧
    ∀ start stop n, (positions (· == '\x7b') ctx.source.text start stop).length < n →
      (Scan.turn ctx stop)^[n] (.running start) = .ended
        (checkGroups ctx start (positions (· == '\x7b') ctx.source.text start stop)) := by
  have hchecked : ∀ attributes, readAttributes ctx tag = .ok attributes →
      ∀ c ∈ attributeNodes tag, Checked ctx c := by
    intro attributes hok c hc
    obtain ⟨a, ha⟩ := exists_readAttribute_of_mapM hok hc
    exact checked_of_readAttribute ha
  refine ⟨fun attributes hok => ⟨readAttributes_eq hok, hchecked attributes hok⟩, ?_, ?_, ?_⟩
  · rintro t htag ⟨c, hc, hnot⟩
    have hread := ElementTag.read_rejects ctx htag
    cases hresult : ElementTag.read ctx t with
    | ok e =>
      obtain ⟨attributes, hok⟩ := hread.of_ok hresult
      exact absurd (hchecked attributes hok c hc) hnot
    | error failure => exact ⟨failure, rfl, hread.of_error hresult⟩
  · intro hplain hall
    refine readAttributes_of_forall fun c hc => readAttribute_ok_iff.mpr ⟨?_, rfl⟩
    exact (checkAttribute_ok_iff (hplain c hc)).mpr (hall c hc)
  · intro start stop n hn
    exact Scan.turns_end ctx stop n (.running start) hn

/-- A value in braces, a spread and a shorthand. -/
def tagSource : Source := .ofText "Tag.svelte" "<a b=\x7bx\x7d \x7b...y\x7d \x7bw\x7d>".toList

def sampleTag : Tree :=
  sampleNode "start_tag" 0 20 [sampleNode "tag_name" 1 2 [],
    sampleNode "attribute" 3 8 [sampleNode "attribute_name" 3 4 []],
    sampleNode "attribute" 9 15 [], sampleNode "attribute" 16 19 []]

/-- The brace of the value is not closed. -/
def brokenSource : Source := .ofText "Broken.svelte" "<a b=\x7bx>".toList

def brokenTag : Tree :=
  sampleNode "start_tag" 0 8 [sampleNode "tag_name" 1 2 [],
    sampleNode "attribute" 3 7 [sampleNode "attribute_name" 3 4 []]]

theorem readAttributes_samples :
    (∃ attributes, readAttributes (sampleContext tagSource) sampleTag = .ok attributes ∧
      attributes.length = 3 ∧ ∀ c ∈ attributeNodes sampleTag, Checked (sampleContext tagSource) c) ∧
    (∃ c ∈ attributeNodes brokenTag, ¬ Checked (sampleContext brokenSource) c) ∧
    ∃ failure, ElementTag.read (sampleContext brokenSource) (sampleNode "element" 0 8 [brokenTag]) =
      .error failure ∧ Rejection (sampleContext brokenSource) failure := by
  have hbroken : ∃ c ∈ attributeNodes brokenTag, ¬ Checked (sampleContext brokenSource) c := by
    by_contra hnone
    have hall : ∀ c ∈ attributeNodes brokenTag, Checked (sampleContext brokenSource) c :=
      fun c hc => not_not.mp fun hnot => hnone ⟨c, hc, hnot⟩
    have hplain : ∀ c ∈ attributeNodes brokenTag,
        IsNamed c → ¬ StartsWithBrace brokenSource c := by
      intro c hc _
      have hbraces : ∀ c ∈ attributeNodes brokenTag,
          (brokenSource.textOf (nameSpan brokenSource c)).head? ≠ some '\x7b' := by decide +kernel
      exact hbraces c hc
    have hok := (readAttributes_checked (sampleContext brokenSource) brokenTag).2.2.1 hplain hall
    have hfails : (readAttributes (sampleContext brokenSource) brokenTag).isOk = false := by
      decide +kernel
    rw [hok] at hfails
    cases hfails
  obtain ⟨attributes, hok, hlength⟩ := exists_ok_of_any
    (x := readAttributes (sampleContext tagSource) sampleTag) (p := (·.length == 3))
    (by decide +kernel)
  exact ⟨⟨attributes, hok, beq_iff_eq.mp hlength,
      ((readAttributes_checked (sampleContext tagSource) sampleTag).1 attributes hok).2⟩,
    hbroken, (readAttributes_checked (sampleContext brokenSource) brokenTag).2.1 _ rfl hbroken⟩

end RawHtmlLint.Template

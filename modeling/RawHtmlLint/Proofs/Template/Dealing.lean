import Mathlib.Data.List.Forall2
import RawHtmlLint.Proofs.Template.Recursion

/-!
# Items are dealt to the branches of a block

A frame gives each item to the newest branch that starts at or before it. So the items of a block
are dealt: each branch, from the newest one on, takes what starts in it or after it and was not
taken yet, and the first branch keeps what is left. Items that come in order stay in order.

Results:
* `deal_perm`, `deal_of_sorted`: nothing is lost, and what is in order stays in order;
* `contents_foldl_add`: what the branches of a frame hold after it was given items.
-/

namespace RawHtmlLint.Template

/-! ## Dealing -/

section Deal

variable {α β : Type}

/-- The elements by groups: the first of the starts takes all with a key from it on, the next one
all such that are left, and so on; what no start takes is a group as well. The groups are in the
opposite order of the starts, so what no start takes comes first. -/
def deal (key : α → Nat) : List Nat → List α → List (List α)
  | [], l => [l]
  | start :: starts, l =>
    deal key starts (l.filter (key · < start)) ++ [l.filter (start ≤ key ·)]

/-- **Nothing is lost.** -/
theorem deal_perm (key : α → Nat) : ∀ (starts : List Nat) (l : List α),
    (deal key starts l).flatten.Perm l
  | [], l => by rw [deal, List.flatten_singleton]
  | start :: starts, l => by
    have hrest : l.filter (start ≤ key ·) = l.filter fun a => !decide (key a < start) :=
      List.filter_congr fun a _ => by simp only [← decide_not, Nat.not_lt]
    rw [deal, List.flatten_append, List.flatten_singleton, hrest]
    exact (List.Perm.append_right _ (deal_perm key starts _)).trans (List.filter_append_perm _ l)

theorem filter_lt_append_filter_le {key : α → Nat} (start : Nat) : ∀ {l : List α},
    l.Pairwise (key · ≤ key ·) → l.filter (key · < start) ++ l.filter (start ≤ key ·) = l
  | [], _ => rfl
  | a :: l, h => by
    obtain ⟨hfirst, h⟩ := List.pairwise_cons.mp h
    rcases Nat.lt_or_ge (key a) start with hlt | hge
    · rw [List.filter_cons_of_pos (p := (key · < start)) (decide_eq_true hlt),
        List.filter_cons_of_neg (p := (start ≤ key ·)) (by simpa using hlt), List.cons_append,
        filter_lt_append_filter_le start h]
    · have hall : ∀ b ∈ a :: l, start ≤ key b :=
        List.forall_mem_cons.mpr ⟨hge, fun b hb => Nat.le_trans hge (hfirst b hb)⟩
      rw [List.filter_eq_nil_iff.mpr fun b hb => by simpa using hall b hb, List.nil_append,
        List.filter_eq_self.mpr fun b hb => decide_eq_true (hall b hb)]

/-- **What is in order stays in order.** -/
theorem deal_of_sorted {key : α → Nat} : ∀ (starts : List Nat) {l : List α},
    l.Pairwise (key · ≤ key ·) → (deal key starts l).flatten = l
  | [], l, _ => by rw [deal, List.flatten_singleton]
  | start :: starts, l, h => by
    rw [deal, List.flatten_append, List.flatten_singleton, deal_of_sorted starts (h.filter _),
      filter_lt_append_filter_le start h]

/-- What belongs together and has the same key is dealt to the same group. -/
theorem deal_forall₂ {R : α → β → Prop} {key : α → Nat} {key' : β → Nat}
    (hkey : ∀ a b, R a b → key a = key' b) : ∀ (starts : List Nat) {l : List α} {m : List β},
    List.Forall₂ R l m → List.Forall₂ (List.Forall₂ R) (deal key starts l) (deal key' starts m)
  | [], _, _, h => .cons h .nil
  | start :: starts, l, m, h => by
    have hlt := List.rel_filter (R := R) (p := (key · < start)) (q := (key' · < start))
      (fun a b hab => by simp only [hkey a b hab]) h
    have hle := List.rel_filter (R := R) (p := (start ≤ key ·)) (q := (start ≤ key' ·))
      (fun a b hab => by simp only [hkey a b hab]) h
    exact List.rel_append (deal_forall₂ hkey starts hlt) (.cons hle .nil)

end Deal

/-! ## Frames -/

namespace Frame

/-- What the branches of a frame hold, in order. -/
def contents (f : Frame) : List (List Item) := f.branches.map (·.items.reverse)

/-- The frame with one more branch, the newest one. -/
def push (f : Frame) (b : Branch) : Frame := { f with later := b :: f.later }

theorem contents_push (f : Frame) (b : Branch) :
    (f.push b).contents = f.contents ++ [b.items.reverse] := by
  simp only [contents, branches, push, List.reverse_cons, List.map_cons, List.map_append,
    List.map_nil, List.cons_append]

/-- An item that starts before the newest branch is given to the other ones. -/
theorem push_add_of_lt {f : Frame} {b : Branch} {item : Item} (h : item.span.start < b.start) :
    (f.push b).add item = (f.add item).push b := by
  have hlater : addToNewest item (f.push b).later = (addToNewest item f.later).map (b :: ·) :=
    if_neg (Nat.not_le_of_lt h)
  unfold add
  rw [hlater]
  cases addToNewest item f.later <;> rfl

theorem push_add_of_le {f : Frame} {b : Branch} {item : Item} (h : b.start ≤ item.span.start) :
    (f.push b).add item = f.push (b.add item) := by
  have hlater : addToNewest item (f.push b).later = some (b.add item :: f.later) := if_pos h
  unfold add
  rw [hlater]
  rfl

/-- **The newest branch takes the items that start in it or after it**, the other ones take the
rest. -/
theorem foldl_add_push : ∀ (items : List Item) (f : Frame) (b : Branch),
    items.foldl add (f.push b) =
      ((items.filter (·.span.start < b.start)).foldl add f).push
        { b with items := (items.filter (b.start ≤ ·.span.start)).reverse ++ b.items }
  | [], _, _ => rfl
  | item :: items, f, b => by
    rcases Nat.lt_or_ge item.span.start b.start with hlt | hge
    · rw [List.foldl_cons, push_add_of_lt hlt, foldl_add_push items,
        List.filter_cons_of_pos (p := fun i : Item => i.span.start < b.start) (decide_eq_true hlt),
        List.filter_cons_of_neg (p := fun i : Item => b.start ≤ i.span.start) (by simpa using hlt),
        List.foldl_cons]
    · rw [List.foldl_cons, push_add_of_le hge, foldl_add_push items,
        List.filter_cons_of_neg (p := fun i : Item => i.span.start < b.start) (by simpa using hge),
        List.filter_cons_of_pos (p := fun i : Item => b.start ≤ i.span.start) (decide_eq_true hge),
        List.reverse_cons, List.append_assoc]
      rfl

/-- **What the branches of a frame hold** after it was given items: the items are dealt to them by
where they start. -/
theorem contents_foldl_add (items : List Item) {f : Frame}
    (hempty : ∀ b ∈ f.branches, b.items = []) :
    (items.foldl add f).contents = deal (·.span.start) (f.later.map (·.start)) items := by
  obtain ⟨shape, span, opening, later⟩ := f
  induction later generalizing items with
  | nil =>
    have hopening : opening.items = [] := hempty opening List.mem_cons_self
    rw [foldl_add_of_later_nil items rfl, contents]
    show [(items.reverse ++ opening.items).reverse] = _
    rw [hopening, List.append_nil, List.reverse_reverse]
    rfl
  | cons b later ih =>
    obtain ⟨hopening, hlater⟩ := List.forall_mem_cons.mp hempty
    have hb : b.items = [] := hlater b (List.mem_reverse.mpr List.mem_cons_self)
    have hrest : ∀ c ∈ opening :: later.reverse, c.items = [] :=
      List.forall_mem_cons.mpr ⟨hopening, fun c hc =>
        hlater c (List.mem_reverse.mpr (List.mem_cons_of_mem b (List.mem_reverse.mp hc)))⟩
    show (items.foldl add (push ⟨shape, span, opening, later⟩ b)).contents = _
    rw [foldl_add_push, contents_push, ih _ hrest, hb, List.append_nil, List.reverse_reverse]
    rfl

end Frame

end RawHtmlLint.Template

import Mathlib.Data.List.Perm.Basic
import RawHtmlLint.Proofs.Outcome
import RawHtmlLint.Proofs.Template.Recursion

/-!
# What the conversion visits

Each turn of the loop of `convert` that does not build a node visits the next part of the frame on
top of the stack. A part that is opened has its own parts visited before what comes after it, so a
successful conversion visits the parts of the document in preorder.

Results:
* `preorder_perm`, `preorder_congr`: what a preorder depends on;
* `visit_pending`: what is still to be visited after a visit depends on the part alone;
* `visited_eq_preorder`: the loop visits the parts in preorder.
-/

namespace RawHtmlLint.Template

open Grammar

/-! ## Preorder -/

/-- What is gone through after a part and before what follows the part: parts that are together
smaller. -/
structure Within where
  of : Part × Tree → List (Part × Tree)
  size_lt : ∀ p, sizeOfParts (of p) < p.2.size

namespace Within

/-- The parts, each with what is within it after it. -/
def preorder (w : Within) : List (Part × Tree) → List (Part × Tree)
  | [] => []
  | p :: ps => p :: (w.preorder (w.of p) ++ w.preorder ps)
termination_by ps => sizeOfParts ps
decreasing_by
  · have hlt := w.size_lt p
    rw [sizeOfParts_cons]
    omega
  · rw [sizeOfParts_cons, Tree.size_eq]
    omega

variable {w w' : Within}

theorem preorder_eq_flatMap (w : Within) : ∀ ps : List (Part × Tree),
    w.preorder ps = ps.flatMap fun p => p :: w.preorder (w.of p)
  | [] => by
    rw [preorder]
    rfl
  | p :: ps => by
    rw [preorder, List.flatMap_cons, preorder_eq_flatMap w ps, List.cons_append]

/-- The same parts in another order, on every level, are gone through in another order. -/
theorem preorder_perm (h : ∀ p, (w'.of p).Perm (w.of p)) (ps : List (Part × Tree)) :
    (w'.preorder ps).Perm (w.preorder ps) := by
  fun_induction w.preorder ps with
  | case1 =>
    rw [preorder]
  | case2 p ps ihWithin ihAfter =>
    rw [preorder]
    refine .cons p (.append (.trans ?_ ihWithin) ihAfter)
    rw [preorder_eq_flatMap, preorder_eq_flatMap w' (w.of p)]
    exact (h p).flatMap_right _

/-- A preorder depends only on what is within the parts that it goes through. -/
theorem preorder_congr {ps : List (Part × Tree)} (h : ∀ p ∈ w.preorder ps, w'.of p = w.of p) :
    w'.preorder ps = w.preorder ps := by
  fun_induction w.preorder ps with
  | case1 => rw [preorder]
  | case2 p ps ihWithin ihAfter =>
    obtain ⟨hp, h⟩ := List.forall_mem_cons.mp h
    obtain ⟨hwithin, hafter⟩ := List.forall_mem_append.mp h
    rw [preorder, hp, ihWithin hwithin, ihAfter hafter]

/-- What holds of parts and of all that is within such parts holds of all that is gone through. -/
theorem forall_preorder {P : Part × Tree → Prop} (hwithin : ∀ p, P p → ∀ q ∈ w.of p, P q)
    {ps : List (Part × Tree)} (hps : ∀ p ∈ ps, P p) : ∀ p ∈ w.preorder ps, P p := by
  fun_induction w.preorder ps with
  | case1 => exact hps
  | case2 p ps ihWithin ihAfter =>
    obtain ⟨hp, hps⟩ := List.forall_mem_cons.mp hps
    exact List.forall_mem_cons.mpr
      ⟨hp, List.forall_mem_append.mpr ⟨ihWithin (hwithin p hp), ihAfter hps⟩⟩

end Within

/-! ## The parts of what is opened -/

/-- The parts of what a part opens, if it opens anything. -/
def pendingOf (ctx : Context) : Part × Tree → List (Part × Tree)
  | (.block, t) => parts ctx.source (ctx.source.span t).start (ctx.source.span t).stop t
  | (.element, t) =>
    match ElementTag.read ctx t with
    | .ok e =>
      if t.kind ≠ "element" ∨ e.isRaw then []
      else parts ctx.source e.content.start e.content.stop t
    | .error _ => []
  | _ => []

theorem pendingOf_element {ctx : Context} {t : Tree} {e : ElementTag}
    (he : ElementTag.read ctx t = .ok e) : pendingOf ctx (.element, t) =
      if t.kind ≠ "element" ∨ e.isRaw then []
      else parts ctx.source e.content.start e.content.stop t := by
  rw [pendingOf, he]

theorem sizeOfParts_nil_lt (t : Tree) : sizeOfParts [] < t.size := by
  rw [Tree.size_eq]
  exact Nat.succ_pos _

theorem pendingOf_lt (ctx : Context) : ∀ p, sizeOfParts (pendingOf ctx p) < p.2.size
  | (.block, t) => sizeOfParts_lt _ _ _ t
  | (.element, t) => by
    rw [pendingOf]
    split
    · split
      · exact sizeOfParts_nil_lt t
      · exact sizeOfParts_lt _ _ _ t
    · exact sizeOfParts_nil_lt t
  | (.comment, t) | (.tag, t) | (.strayClosingTag, t) => sizeOfParts_nil_lt t

/-- The parts of what is opened, within the part that opens it. -/
def pendingWithin (ctx : Context) : Within := ⟨pendingOf ctx, pendingOf_lt ctx⟩

/-- What is still to be visited after a visit: the parts of the frame that it opens. -/
def Visit.pending {t : Tree} : Visit t → List (Part × Tree)
  | .item .. => []
  | .opened inner => inner.pending

/-- **What is still to be visited after a visit** depends on the part alone. -/
theorem visit_pending {ctx : Context} {lifted : Lifted} {topLevel : Bool} {part : Part} {t : Tree}
    {v : Visit t} (hok : visit ctx lifted topLevel part t = .ok v) :
    v.pending = pendingOf ctx (part, t) := by
  unfold visit at hok
  cases part with
  | comment =>
    cases hok
    rfl
  | strayClosingTag => exact absurd hok reject_ne_ok
  | tag =>
    obtain ⟨x, _, hok⟩ := bind_eq_ok.mp hok
    cases hok
    rfl
  | element =>
    obtain ⟨e, he, hok⟩ := bind_eq_ok.mp (show visitElement ctx lifted topLevel t = .ok v from hok)
    rw [pendingOf_element he]
    split at hok
    · rename_i hraw
      rw [if_pos hraw]
      split at hok
      · obtain ⟨_, _, hok⟩ := bind_eq_ok.mp hok
        cases hok
        rfl
      · cases hok
        rfl
    · rename_i hraw
      rw [if_neg hraw]
      obtain ⟨_, _, hok⟩ := bind_eq_ok.mp hok
      cases hok
      rfl
  | block =>
    obtain ⟨hs, _, hok⟩ := bind_eq_ok.mp hok
    obtain ⟨f, _, hok⟩ := bind_eq_ok.mp hok
    cases hok
    rfl

/-! ## The loop -/

/-- The part that the next turn visits. -/
def Stage.next? : Stage → Option (Part × Tree)
  | .running _ ⟨_, p :: _⟩ _ => some p
  | _ => none

/-- The parts that the next turns of the loop visit, in order. -/
def visited (ctx : Context) : Nat → Stage → List (Part × Tree)
  | 0, _ => []
  | n + 1, stage => stage.next?.toList ++ visited ctx n (turn ctx stage)

theorem visited_ended (ctx : Context) (answer : Outcome (Frame × Lifted)) : ∀ n : Nat,
    visited ctx n (.ended answer) = []
  | 0 => rfl
  | n + 1 => visited_ended ctx answer n

/-- **The loop visits the parts in preorder**, those on the top of the stack first, if it comes to
an end without a failure. -/
theorem visited_eq_preorder {ctx : Context} {answer : Frame × Lifted} : ∀ (n : Nat)
    {lifted : Lifted} {top : Level} {below : List Level}, weight (top :: below) ≤ n →
    convert ctx lifted top below = .ok answer → visited ctx n (.running lifted top below) =
      (top :: below).flatMap fun l => (pendingWithin ctx).preorder l.pending
  | 0, lifted, top, below, h, _ => by
    simp only [weight, Level.weight] at h
    omega
  | n + 1, lifted, ⟨frame, []⟩, [], _, _ => by
    rw [visited, turn, visited_ended, List.flatMap_singleton, Within.preorder]
    rfl
  | n + 1, lifted, ⟨frame, []⟩, outer :: below, h, hok => by
    simp only [weight, Level.weight] at h
    rw [convert] at hok
    obtain ⟨node, hbuild, hok⟩ := bind_eq_ok.mp hok
    have ih := visited_eq_preorder n (by simp only [weight, Level.weight]; omega) hok
    rw [visited, turn, hbuild, List.flatMap_cons, Within.preorder, List.nil_append]
    exact ih
  | n + 1, lifted, ⟨frame, (part, t) :: pending⟩, below, h, hok => by
    simp only [weight, Level.weight, sizeOfParts_cons] at h
    have hpos := Tree.size_eq t
    rw [convert] at hok
    obtain ⟨v, hvisit, hok⟩ := bind_eq_ok.mp hok
    have hpending : v.pending = (pendingWithin ctx).of (part, t) := visit_pending hvisit
    rw [visited, turn, hvisit, List.flatMap_cons, Within.preorder, ← hpending]
    cases v with
    | item item lifted' =>
      have ih := visited_eq_preorder n (by simp only [weight, Level.weight]; omega) hok
      show (part, t) :: visited ctx n _ = _
      rw [ih, Visit.pending, Within.preorder, List.nil_append, List.flatMap_cons, List.cons_append]
    | opened inner =>
      have hlt := inner.size_lt
      have ih := visited_eq_preorder n (by simp only [weight, Level.weight]; omega) hok
      show (part, t) :: visited ctx n _ = _
      rw [ih, Visit.pending, List.flatMap_cons, List.flatMap_cons, List.cons_append,
        List.append_assoc]

end RawHtmlLint.Template

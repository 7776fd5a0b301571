import RawHtmlLint.Proofs.Rule.Adjacency

/-!
# Barriers among siblings

Whether an insertion is suppressed depends on the two siblings on each side of it, and on the
second of them only past a text of white space. So a sibling that neither suppresses nor is a text
of white space looks, from its neighbours, as if the siblings ended there (`SetApart`). A barrier
is such a sibling which is no insertion itself: what is found in a fragment is then what is found
before the barrier, in it, and after it, each as in a fragment of its own.

Results:
* `SetApart.isSuppressed_eq`: the verdicts on siblings that are set apart are those on these
  siblings alone;
* `insertions_split`: the insertions to be reported on both sides of a barrier;
* `detect_splits_at_barrier`: the findings of a fragment, split at a barrier.
-/

namespace RawHtmlLint.Rule

open Template

/-! ## What the rule sees of a sibling -/

/-- From beside it, the node looks as if there were none. -/
structure Unseen (rule : String) (x : Node) : Prop where
  notBlank : x.isBlankText = false
  notSuppressing : x.suppresses rule = false

/-- The two places, where a sibling may be missing, look the same to an insertion beside them. -/
structure SameBeside (rule : String) (a b : Option Node) : Prop where
  suppresses : a.any (·.suppresses rule) = b.any (·.suppresses rule)
  blank : a.any (·.isBlankText) = b.any (·.isBlankText)

theorem SameBeside.refl {rule : String} (a : Option Node) : SameBeside rule a a := ⟨rfl, rfl⟩

/-- A place where nothing is seen looks like an empty one. -/
theorem SameBeside.of_unseen {rule : String} {a : Option Node} (h : ∀ x ∈ a, Unseen rule x) :
    SameBeside rule a none := by
  cases a with
  | none => exact .refl none
  | some x => exact ⟨(h x rfl).notSuppressing, (h x rfl).notBlank⟩

theorem siblingAt?_natCast (siblings : List Node) (i : Nat) :
    siblingAt? siblings i = siblings[i]? := by
  unfold siblingAt?
  split
  · rw [Int.toNat_natCast]
  · rename_i hnot
    exact (List.getElem?_eq_none (by omega)).symm

theorem siblingAt?_of_neg (siblings : List Node) {i : Int} (h : i < 0) :
    siblingAt? siblings i = none :=
  if_neg fun hin => absurd hin.1 (Int.not_le.mpr h)

theorem siblingAt?_of_length_le (siblings : List Node) {i : Int} (h : siblings.length ≤ i) :
    siblingAt? siblings i = none :=
  if_neg fun hin => absurd hin.2 (Int.not_lt.mpr h)

/-- An index where a sibling stands is in range. -/
theorem bounds_of_siblingAt?_any {siblings : List Node} {i : Int} {p : Node → Bool}
    (h : (siblingAt? siblings i).any p = true) : 0 ≤ i ∧ i < siblings.length := by
  obtain ⟨x, hx, _⟩ := Option.any_eq_true _ _ |>.mp h
  unfold siblingAt? at hx
  split at hx
  · assumption
  · cases hx

/-- On one side, an insertion is suppressed alike where the sibling next to it looks the same, and
where the one past a text of white space does. -/
theorem isSuppressedOn_congr {xs ys : List Node} {i j step : Int} {rule : String}
    (hnear : SameBeside rule (siblingAt? xs (i + step)) (siblingAt? ys (j + step)))
    (hfar : (siblingAt? ys (j + step)).any (·.isBlankText) = true →
      SameBeside rule (siblingAt? xs (i + 2 * step)) (siblingAt? ys (j + 2 * step))) :
    isSuppressedOn xs i step rule = isSuppressedOn ys j step rule := by
  unfold isSuppressedOn
  dsimp only
  rw [hnear.suppresses, hnear.blank]
  cases hblank : (siblingAt? ys (j + step)).any (·.isBlankText) with
  | false => rfl
  | true => rw [(hfar hblank).suppresses]

/-! ## Siblings that are set apart -/

/-- The siblings `part` stand among `whole` from an index on, and nothing is seen of what stands
next to them. -/
structure SetApart (rule : String) (whole part : List Node) (offset : Nat) : Prop where
  within : ∀ i < part.length, whole[offset + i]? = part[i]?
  before : ∀ x ∈ siblingAt? whole ((offset : Int) - 1), Unseen rule x
  after : ∀ x ∈ whole[offset + part.length]?, Unseen rule x

namespace SetApart

variable {rule : String} {whole part : List Node} {offset : Nat}

/-- From one place before siblings that are set apart to one place after them, all looks as if
they were alone. -/
theorem sameBeside (h : SetApart rule whole part offset) {k : Int} (hlow : -1 ≤ k)
    (hhigh : k ≤ part.length) :
    SameBeside rule (siblingAt? whole (offset + k)) (siblingAt? part k) := by
  rcases Int.lt_or_le k 0 with hneg | hnonneg
  · obtain rfl : k = -1 := by omega
    rw [siblingAt?_of_neg part hneg]
    exact .of_unseen h.before
  · obtain ⟨i, rfl⟩ := Int.eq_ofNat_of_zero_le hnonneg
    rw [← Int.natCast_add, siblingAt?_natCast]
    rcases Nat.lt_or_ge i part.length with hlt | hge
    · rw [h.within i hlt, siblingAt?_natCast]
      exact .refl _
    · obtain rfl : i = part.length := by omega
      rw [siblingAt?_of_length_le part (Int.le_refl _)]
      exact .of_unseen h.after

/-- On either side, what is next to a sibling that is set apart, and what is next to that, is seen
as if there were no others. -/
theorem isSuppressedOn_eq (h : SetApart rule whole part offset) {i : Nat} (hi : i < part.length)
    {step : Int} (hlow : -1 ≤ step) (hhigh : step ≤ 1) :
    isSuppressedOn whole (offset + i) step rule = isSuppressedOn part i step rule := by
  refine isSuppressedOn_congr ?_ fun hblank => ?_
  · rw [Int.add_assoc]
    exact h.sameBeside (by omega) (by omega)
  · -- the text of white space is one of the siblings, so no more than one place past them is seen
    have hbounds := bounds_of_siblingAt?_any hblank
    rw [Int.add_assoc]
    exact h.sameBeside (by omega) (by omega)

/-- **The verdicts on siblings that are set apart are those on these siblings alone.** -/
theorem isSuppressed_eq (h : SetApart rule whole part offset) {i : Nat} (hi : i < part.length) :
    isSuppressed whole (offset + i) rule = isSuppressed part i rule := by
  rw [isSuppressed_eq_sides, isSuppressed_eq_sides, h.isSuppressedOn_eq hi (by decide) (by decide),
    h.isSuppressedOn_eq hi (by decide) (by decide)]

end SetApart

/-! ## What is found in a fragment -/

/-- The insertions to be reported at a sibling and below it. -/
def foundFrom (trusted : List String) (siblings : List Node) (c : Node × Nat) :
    List (Span × Option Expression) :=
  (insertionAt? trusted ⟨siblings, c.2⟩).toList ++
    (c.1.descendants.map scopeAt).filterMap (insertionAt? trusted)

theorem insertions_eq_flatMap (trusted : List String) (f : Fragment Node) :
    insertions trusted (.fragment f) =
      f.children.zipIdx.flatMap (foundFrom trusted f.children) := by
  have hahead : (Node.fragment f).descendants.map scopeAt = (scopeOf f).ahead := by
    rw [← ahead_scopesOf]
    exact List.append_nil _
  have hmap : insertions trusted (.fragment f) =
      ((Node.fragment f).descendants.map scopeAt).filterMap (insertionAt? trusted) := by
    rw [insertions_fragment, List.filterMap_map]
    rfl
  rw [hmap, hahead, ahead_scopeOf, List.filterMap_flatMap]
  refine List.flatMap_congr ?_
  intro c _
  rw [List.filterMap_cons, foundFrom]
  cases insertionAt? trusted ⟨f.children, c.2⟩ <;> rfl

/-- An insertion is reported alike where the same node is found and judged alike. -/
theorem insertionAt?_congr {trusted : List String} {xs ys : List Node} {i j : Nat}
    (hnode : xs[i]? = ys[j]?) (hverdict : isSuppressed xs i = isSuppressed ys j) :
    insertionAt? trusted ⟨xs, i⟩ = insertionAt? trusted ⟨ys, j⟩ := by
  unfold insertionAt?
  dsimp only
  rw [hnode, hverdict]

/-- At a node that is no insertion nothing is reported. -/
theorem insertionAt?_eq_none {trusted : List String} {siblings : List Node} {i : Nat} {x : Node}
    (hnode : siblings[i]? = some x) (hx : ∀ span expression, x ≠ .tag .rawHtml span expression) :
    insertionAt? trusted ⟨siblings, i⟩ = none := by
  unfold insertionAt?
  split
  · rename_i span expression heq
    cases hnode.symm.trans heq
    exact absurd rfl (hx span expression)
  · rfl

/-- From siblings that are set apart is found what is found from them alone. -/
theorem SetApart.flatMap_foundFrom {whole part : List Node} {offset : Nat}
    (h : SetApart Rule.name whole part offset) (trusted : List String) :
    (part.zipIdx offset).flatMap (foundFrom trusted whole) =
      part.zipIdx.flatMap (foundFrom trusted part) := by
  rw [List.zipIdx_eq_map_add, List.flatMap_map]
  refine List.flatMap_congr ?_
  rintro ⟨x, i⟩ hx
  have hi : i < part.length := List.snd_lt_of_mem_zipIdx hx
  have hverdict := h.isSuppressed_eq hi
  rw [← Int.natCast_add] at hverdict
  rw [foundFrom, foundFrom, insertionAt?_congr (h.within i hi) hverdict]

/-! ## Barriers -/

/-- The node is no insertion, no text of white space and no comment that suppresses the rule. -/
structure IsBarrier (x : Node) : Prop where
  notInsertion : ∀ span expression, x ≠ .tag .rawHtml span expression
  unseen : Unseen Rule.name x

section Split

variable {rule : String} {s : Node}

theorem getElem?_between (front : List Node) (s : Node) (back : List Node) :
    (front ++ [s] ++ back)[front.length]? = some s := by
  rw [List.append_assoc, List.getElem?_append_right (Nat.le_refl _), Nat.sub_self]
  rfl

/-- What stands before a node that is not seen is set apart by it. -/
theorem setApart_front (front back : List Node) (hs : Unseen rule s) :
    SetApart rule (front ++ [s] ++ back) front 0 where
  within i hi := by
    rw [Nat.zero_add, List.append_assoc, List.getElem?_append_left hi]
  before x hx := by
    rw [siblingAt?_of_neg _ (by decide)] at hx
    cases hx
  after x hx := by
    rw [Nat.zero_add, getElem?_between] at hx
    cases hx
    exact hs

/-- What stands after a node that is not seen is set apart by it. -/
theorem setApart_back (front back : List Node) (hs : Unseen rule s) :
    SetApart rule (front ++ [s] ++ back) back (front.length + 1) where
  within i _ := by
    rw [List.getElem?_append_right (by simp), List.length_append, List.length_singleton,
      Nat.add_sub_cancel_left]
  before x hx := by
    rw [Int.natCast_add, Int.natCast_one, Int.add_sub_cancel, siblingAt?_natCast,
      getElem?_between] at hx
    cases hx
    exact hs
  after x hx := by
    rw [List.getElem?_eq_none (by simp only [List.length_append, List.length_singleton, le_refl])]
      at hx
    cases hx

/-- **The insertions to be reported on both sides of a barrier** are those of the two sides, and in
between those below the barrier. -/
theorem insertions_split (trusted : List String) {whole before middle after : Fragment Node}
    (hs : IsBarrier s) (hmiddle : middle.children = [s])
    (hwhole : whole.children = before.children ++ [s] ++ after.children) :
    insertions trusted (.fragment whole) = insertions trusted (.fragment before) ++
      insertions trusted (.fragment middle) ++ insertions trusted (.fragment after) := by
  have hfront :=
    (setApart_front before.children after.children hs.unseen).flatMap_foundFrom trusted
  have hback :=
    (setApart_back before.children after.children hs.unseen).flatMap_foundFrom trusted
  have hbarrier : insertions trusted (.fragment middle) =
      foundFrom trusted whole.children (s, before.children.length) := by
    have hlone : middle.children[0]? = some s := by rw [hmiddle]; rfl
    have hamong : whole.children[before.children.length]? = some s := by
      rw [hwhole, getElem?_between]
    rw [insertions_eq_flatMap, foundFrom, insertionAt?_eq_none hamong hs.notInsertion,
      ← insertionAt?_eq_none hlone hs.notInsertion, hmiddle]
    exact List.append_nil _
  have hzip : whole.children.zipIdx = before.children.zipIdx ++ [(s, before.children.length)] ++
      after.children.zipIdx (before.children.length + 1) := by
    rw [hwhole, List.zipIdx_append, List.zipIdx_append, List.length_append, Nat.zero_add,
      Nat.zero_add]
    rfl
  rw [← hwhole] at hfront hback
  rw [insertions_eq_flatMap, hzip, List.flatMap_append, List.flatMap_append, hfront, hback,
    ← insertions_eq_flatMap, ← insertions_eq_flatMap, hbarrier]
  exact congrArg (· ++ _) (congrArg (_ ++ ·) (List.append_nil _))

/-- The findings of a fragment. -/
def findings (trusted : List String) (path : String) (f : Fragment Node) :
    Outcome (List Finding) :=
  (detect trusted (.fragment f)).map (·.map (Finding.ofInsertion path))

theorem findings_eq_mapM (trusted : List String) (path : String) (f : Fragment Node) :
    findings trusted path f =
      (insertions trusted (.fragment f)).mapM fun i => findingOf path i.2 := by
  rw [findings, detect_eq_mapM, map_findings]

/-- Where all insertions have an expression, the findings can be told. -/
theorem exists_findings (trusted : List String) (path : String) {f : Fragment Node}
    (h : ∀ span, ¬ (Node.fragment f).Holds (.tag .rawHtml span none)) :
    ∃ found, findings trusted path f = .ok found := by
  have hall : ∀ i ∈ insertions trusted (.fragment f), i.2 ≠ none := by
    rintro ⟨span, expression⟩ hi rfl
    exact h span (holds_of_mem_insertions hi)
  cases hdetect : detect trusted (.fragment f) with
  | ok found => exact ⟨_, by rw [findings, hdetect]; rfl⟩
  | error failure =>
    obtain ⟨i, hi, hnone⟩ := (mapM_fails_iff _).mp ⟨failure, (detect_eq_mapM ..).symm.trans hdetect⟩
    exact absurd hnone (hall i hi)

/-- What a fragment holds is held by each fragment that has all its children. -/
theorem holds_of_subset {part whole : Fragment Node} (h : part.children ⊆ whole.children)
    {span : Span} {expression : Option Expression}
    (hx : (Node.fragment part).Holds (.tag .rawHtml span expression)) :
    (Node.fragment whole).Holds (.tag .rawHtml span expression) := by
  rcases holds_fragment hx with heq | ⟨c, hc, hx⟩
  · cases heq
  · exact .child (List.mem_singleton_self _) (h hc) hx

/-- The siblings of a node below a node are the children of a fragment of this node, or of one
below it. -/
theorem owner_of_leads {x : Node} {v : Node.Visit} (h : x.Leads v) :
    ∃ owner, x.Holds owner ∧ ∃ f ∈ owner.fragments, v.siblings = f.children := by
  rcases siblings_of_leads h with ⟨f, hf, hsiblings, _⟩ | ⟨f, hf, c, hc, y, hy, howns, _⟩
  · exact ⟨x, .self x, f, hf, hsiblings⟩
  · exact ⟨y, .child hf hc hy, howns⟩

/-- **Detection splits at a barrier.** The findings of a fragment are those of the siblings before
the barrier, those below it, and those of the siblings after it, each as in a fragment of their
own; and there are such findings if all insertions have an expression. Each sibling on one side is
suppressed as if there were nothing on the other side, and what is below the barrier has all its
siblings below it. -/
theorem detect_splits_at_barrier (trusted : List String) (path : String)
    {whole before middle after : Fragment Node} (hs : IsBarrier s)
    (hmiddle : middle.children = [s])
    (hwhole : whole.children = before.children ++ [s] ++ after.children) :
    (findings trusted path whole = do
      let first ← findings trusted path before
      let below ← findings trusted path middle
      let last ← findings trusted path after
      return first ++ below ++ last) ∧
    ((∀ span, ¬ (Node.fragment whole).Holds (.tag .rawHtml span none)) →
      ∃ first below last, findings trusted path before = .ok first ∧
        findings trusted path middle = .ok below ∧ findings trusted path after = .ok last ∧
        findings trusted path whole = .ok (first ++ below ++ last)) ∧
    (∀ i < before.children.length,
      isSuppressed whole.children i = isSuppressed before.children i) ∧
    (∀ i < after.children.length, isSuppressed whole.children (before.children.length + 1 + i) =
      isSuppressed after.children i) ∧
    ∀ v, s.Leads v →
      (Node.fragment whole).Leads (v.under (0, before.children.length)) ∧
      ∃ owner, s.Holds owner ∧ ∃ f ∈ owner.fragments, v.siblings = f.children := by
  have hsplit : findings trusted path whole = do
      let first ← findings trusted path before
      let below ← findings trusted path middle
      let last ← findings trusted path after
      return first ++ below ++ last := by
    simp only [findings_eq_mapM, insertions_split trusted hs hmiddle hwhole, List.mapM_append,
      bind_assoc, pure_bind]
  refine ⟨hsplit, fun hall => ?_, fun i hi => ?_, fun i hi => ?_, fun v hv => ⟨?_, ?_⟩⟩
  · have htold : ∀ part : Fragment Node, part.children ⊆ whole.children →
        ∃ found, findings trusted path part = .ok found := fun part hpart =>
      exists_findings trusted path fun span hx => hall span (holds_of_subset hpart hx)
    obtain ⟨first, hfirst⟩ := htold before (by rw [hwhole]; simp)
    obtain ⟨below, hbelow⟩ := htold middle (by rw [hwhole, hmiddle]; simp)
    obtain ⟨last, hlast⟩ := htold after (by rw [hwhole]; simp)
    refine ⟨first, below, last, hfirst, hbelow, hlast, ?_⟩
    rw [hsplit, hfirst, hbelow, hlast]
    rfl
  · have h := (setApart_front before.children after.children hs.unseen).isSuppressed_eq hi
    rw [← hwhole] at h
    rw [← h, Int.natCast_zero, Int.zero_add]
  · have h := (setApart_back before.children after.children hs.unseen).isSuppressed_eq hi
    rw [← hwhole, Int.natCast_add, Int.natCast_one] at h
    exact h
  · refine .deeper rfl ?_ hv
    rw [hwhole, getElem?_between]
  · exact owner_of_leads hv

end Split

/-! An insertion, a paragraph with an insertion and a comment in it, and a comment. -/

def hedgeInsertion (start : Nat) : Node :=
  .tag .rawHtml ⟨start, start + 9⟩ (some ⟨"identifier", "x",
    ⟨⟨1, start + 7⟩, ⟨1, start + 8⟩⟩, start + 7, start + 8, some "x", none⟩)

def hedgeComment (start : Nat) : Node :=
  .comment ⟨start, start + 34⟩ " svelte-ignore unsafe_html " (RuleSet.ofList [Rule.name])

def hedgeParagraph : Node :=
  .element .element ⟨9, 59⟩ "p" [] (some ⟨⟨12, 55⟩, [hedgeInsertion 12, hedgeComment 21]⟩)

def hedge : Fragment Node :=
  ⟨⟨0, 93⟩, [hedgeInsertion 0, hedgeParagraph, hedgeComment 59]⟩

/-- Neither comment suppresses the first insertion, and the one in the paragraph is suppressed. -/
theorem hedge_findings : IsBarrier hedgeParagraph ∧
    isSuppressed hedge.children 0 = false ∧
    findings [] "Hedge.svelte" hedge = .ok [⟨"Hedge.svelte", ⟨⟨1, 7⟩, ⟨1, 8⟩⟩, message⟩] := by
  have hbarrier : IsBarrier hedgeParagraph := ⟨fun _ _ h => (nomatch h), ⟨rfl, rfl⟩⟩
  have hwhole : hedge.children = (⟨⟨0, 9⟩, [hedgeInsertion 0]⟩ : Fragment Node).children ++
      [hedgeParagraph] ++ (⟨⟨59, 93⟩, [hedgeComment 59]⟩ : Fragment Node).children := rfl
  have hmiddle : (⟨⟨9, 59⟩, [hedgeParagraph]⟩ : Fragment Node).children = [hedgeParagraph] := rfl
  have hsplit := detect_splits_at_barrier [] "Hedge.svelte" hbarrier hmiddle hwhole
  have hfound : ∀ (f : Fragment Node) (found : List Finding),
      (findings [] "Hedge.svelte" f).toOption.any (· == found) = true →
      findings [] "Hedge.svelte" f = .ok found := by
    intro f found h
    obtain ⟨told, hok, htold⟩ := exists_ok_of_any h
    rw [hok, eq_of_beq htold]
  refine ⟨hbarrier, (hsplit.2.2.1 0 (by decide)).trans (by decide +kernel), hsplit.1.trans ?_⟩
  rw [hfound _ [⟨"Hedge.svelte", ⟨⟨1, 7⟩, ⟨1, 8⟩⟩, message⟩] (by decide +kernel),
    hfound _ [] (by decide +kernel), hfound _ [] (by decide +kernel)]
  rfl

end RawHtmlLint.Rule

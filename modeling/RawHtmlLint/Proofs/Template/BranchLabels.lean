import RawHtmlLint.Proofs.Template.Row

/-!
# Which branches the tags of a block start

The first tag of a block starts a branch, and each tag between the first and the last one asks for
another. What it asks for depends on the kind of block and on the tag alone. Whether the block can
have this branch depends on the branches before it: they are asked for in a fixed order, and only
an if block may have the same one twice, its `else if`.

Results:
* `labels_addBranch`, `labels_foldlM`: a tag that is accepted, and a row of them, start the branches
  they ask for;
* `labels_readBlock`: the branches of a block are those that its tags ask for, in a form that it
  can have;
* `readBlock_rejected`, `readBlock_accepted`: other tags are rejected, and these are accepted if
  they enclose the block and the tests of its `else if` tags can be read.
-/

namespace RawHtmlLint.Template

open Text

/-! ## What a block can have -/

/-- The labels are those of all branches of a block of this shape, in order. -/
def Shape.Form : Shape → List Label → Prop
  | .document, _ | .element .., _ => False
  | .ifBlock, labels => ∃ further, labels = .consequent :: further ∧ ElseChain further
  | .eachBlock _, labels => labels = [.body] ∨ labels = [.body, .fallback]
  | .awaitBlock .., labels => labels ∈
    [[.pending], [.pending, .settled .fulfilled], [.pending, .settled .rejected],
      [.pending, .settled .fulfilled, .settled .rejected],
      [.settled .fulfilled], [.settled .fulfilled, .settled .rejected], [.settled .rejected]]
  | .keyBlock _, labels => labels = [.content]
  | .snippetBlock .., labels => labels = [.body]

/-- The branch that a tag inside a block of this shape asks for. -/
def Shape.continuation? (s : Source) (shape : Shape) (h : Header) : Option Label :=
  let keyword := String.ofList h.keyword
  if h.sigil ≠ some ':' then none
  else match shape with
    | .ifBlock =>
      if keyword ≠ "else" then none
      else if (Separator.elseIf (h.body s)).isSome then some .elseIf
      else if allBlank (h.body s) then some .alternate
      else none
    | .eachBlock _ =>
      if keyword ≠ "else" then none
      else if (Separator.elseIf (h.body s)).isNone && allBlank (h.body s) then some .fallback
      else none
    | .awaitBlock .. =>
      if keyword = "then" then some (.settled .fulfilled)
      else if keyword = "catch" then some (.settled .rejected)
      else none
    | .document | .element .. | .keyBlock _ | .snippetBlock .. => none

/-- The second shape is the first one, but for what the branches of an await block bind. -/
inductive Shape.Rebound : Shape → Shape → Prop
  | refl (shape : Shape) : Rebound shape shape
  | awaitBlock (expression : Expression) (value error value' error' : Option String) :
    Rebound (.awaitBlock expression value error) (.awaitBlock expression value' error')

namespace Shape.Rebound

variable {a b c : Shape}

theorem trans (hab : Rebound a b) (hbc : Rebound b c) : Rebound a c := by
  cases hab with
  | refl => exact hbc
  | awaitBlock =>
    cases hbc with
    | refl => exact .awaitBlock ..
    | awaitBlock => exact .awaitBlock ..

theorem form_eq (h : Rebound a b) : a.Form = b.Form := by
  cases h with
  | refl => rfl
  | awaitBlock => rfl

theorem keyword_eq (h : Rebound a b) : a.keyword = b.keyword := by
  cases h with
  | refl => rfl
  | awaitBlock => rfl

theorem continuation?_eq (h : Rebound a b) (s : Source) :
    a.continuation? s = b.continuation? s := by
  cases h with
  | refl => rfl
  | awaitBlock => rfl

end Shape.Rebound

/-- Some of the branches in order, the first one not missing, are all that a block can have. -/
theorem Shape.form_of_allowed {shape : Shape} {first : Label} {rest : List Label}
    (h : Allowed shape (first :: rest)) (hfirst : first ≠ .fallback) :
    shape.Form (first :: rest) := by
  cases shape with
  | document | element => exact h.elim
  | ifBlock =>
    obtain ⟨n, h | h⟩ := h
    · exact ⟨_, h, n, Or.inl rfl⟩
    · exact ⟨_, h, n, Or.inr rfl⟩
  | eachBlock header =>
    have h : (first :: rest).Sublist [.body, .fallback] := h
    simp only [List.sublist_cons_iff, List.sublist_nil, reduceCtorEq, List.cons.injEq,
      exists_eq_right, false_or, ↓existsAndEq, and_true] at h
    rcases h with ⟨rfl, rfl⟩ | ⟨rfl, rfl | rfl⟩
    · exact absurd rfl hfirst
    · exact Or.inl rfl
    · exact Or.inr rfl
  | awaitBlock expression value error =>
    have h : (first :: rest).Sublist
      [.pending, .settled .fulfilled, .settled .rejected] := h
    simp only [List.sublist_cons_iff, List.sublist_nil, reduceCtorEq, List.cons.injEq,
      exists_eq_right, false_or, ↓existsAndEq, and_true] at h
    rcases h with (⟨rfl, rfl⟩ | ⟨rfl, rfl | rfl⟩) | ⟨rfl, (rfl | rfl) | ⟨r, rfl, rfl | rfl⟩⟩ <;>
      simp [Form]
  | keyBlock expression =>
    have h : (first :: rest).Sublist [.content] := h
    exact List.sublist_singleton.mp h |>.resolve_left (List.cons_ne_nil _ _)
  | snippetBlock name parameters =>
    have h : (first :: rest).Sublist [.body] := h
    exact List.sublist_singleton.mp h |>.resolve_left (List.cons_ne_nil _ _)

/-- In a form, some of the branches that a block can have stand in order. -/
theorem Shape.Form.allowed {shape : Shape} {labels : List Label} (h : shape.Form labels) :
    Allowed shape labels := by
  cases shape with
  | document | element => exact h
  | ifBlock =>
    obtain ⟨further, rfl, n, rfl | rfl⟩ := h
    · exact ⟨n, Or.inl rfl⟩
    · exact ⟨n, Or.inr rfl⟩
  | eachBlock header =>
    rcases h with rfl | rfl
    · exact List.sublist_append_left [Label.body] [.fallback]
    · exact .refl _
  | awaitBlock expression value error =>
    have hforms : ∀ labels ∈
      [[.pending], [.pending, .settled .fulfilled], [.pending, .settled .rejected],
        [.pending, .settled .fulfilled, .settled .rejected],
        [.settled .fulfilled], [.settled .fulfilled, .settled .rejected], [.settled .rejected]],
        labels.Sublist [Label.pending, .settled .fulfilled, .settled .rejected] := by decide
    exact hforms labels h
  | keyBlock expression =>
    cases h
    exact .refl _
  | snippetBlock name parameters =>
    cases h
    exact .refl _

/-- **The first tag** starts a branch that can come first. -/
theorem label_openBlock {ctx : Context} {h : Header} {stop : Nat} {f : Frame}
    (hok : openBlock ctx h stop = .ok f) : f.opening.label ≠ .fallback := by
  unfold openBlock at hok
  dsimp only at hok
  split at hok
  · obtain ⟨test, _, hok⟩ := bind_eq_ok.mp hok
    obtain rfl := pure_eq_ok.mp hok
    exact nofun
  · obtain ⟨header, _, hok⟩ := bind_eq_ok.mp hok
    obtain rfl := pure_eq_ok.mp hok
    exact nofun
  · split at hok
    · obtain ⟨expression, _, hok⟩ := bind_eq_ok.mp hok
      obtain rfl := pure_eq_ok.mp hok
      exact nofun
    · obtain ⟨expression, _, hok⟩ := bind_eq_ok.mp hok
      split at hok <;> obtain rfl := pure_eq_ok.mp hok <;> exact nofun
  · obtain ⟨expression, _, hok⟩ := bind_eq_ok.mp hok
    obtain rfl := pure_eq_ok.mp hok
    exact nofun
  · split at hok
    · split at hok
      · obtain rfl := pure_eq_ok.mp hok
        exact nofun
      · exact absurd hok reject_ne_ok
    · exact absurd hok reject_ne_ok
  · exact absurd hok reject_ne_ok

/-! ## The further tags -/

theorem label_continueElse {ctx : Context} {f f' : Frame} {h : Header}
    (hsigil : h.sigil = some ':') (hkeyword : String.ofList h.keyword = "else")
    (hok : continueElse ctx f h = .ok f') : f'.shape = f.shape ∧ ∃ label,
      f.shape.continuation? ctx.source h = some label ∧ f'.labels = f.labels ++ [label] := by
  unfold continueElse at hok
  dsimp only at hok
  split at hok
  · rename_i hshape
    have hasks : f.shape.continuation? ctx.source h =
        if (Separator.elseIf (h.body ctx.source)).isSome then some .elseIf
        else if allBlank (h.body ctx.source) then some .alternate else none := by
      unfold Shape.continuation?
      rw [hshape, hsigil, hkeyword]
      rfl
    split at hok
    · exact absurd hok reject_ne_ok
    · split at hok
      · rename_i length hlength
        obtain ⟨test, _, hok⟩ := bind_eq_ok.mp hok
        obtain rfl := pure_eq_ok.mp hok
        refine ⟨shape_nextBranch _ _, .elseIf, ?_, labels_nextBranch _ _⟩
        rw [hasks, hlength]
        rfl
      · rename_i hnone
        split at hok
        · rename_i hblank
          obtain rfl := pure_eq_ok.mp hok
          refine ⟨shape_nextBranch _ _, .alternate, ?_, labels_nextBranch _ _⟩
          rw [hasks, hnone, hblank]
          rfl
        · exact absurd hok reject_ne_ok
  · rename_i header hshape
    split at hok
    · exact absurd hok reject_ne_ok
    · rename_i hplain
      split at hok
      · exact absurd hok reject_ne_ok
      · rename_i hnot
        obtain rfl := pure_eq_ok.mp hok
        refine ⟨shape_nextBranch _ _, .fallback, ?_, labels_nextBranch _ _⟩
        have hblank : allBlank (h.body ctx.source) = true := by
          cases hall : allBlank (h.body ctx.source) with
          | true => rfl
          | false =>
            rw [hall, Bool.not_false, Bool.or_true] at hnot
            exact absurd rfl hnot
        unfold Shape.continuation?
        rw [hshape, hsigil, hkeyword]
        dsimp only
        rw [hblank, ← Option.not_isSome, Bool.eq_false_iff.mpr hplain]
        rfl
  · exact absurd hok reject_ne_ok

theorem label_continueAwait {ctx : Context} {f f' : Frame} {h : Header} (settlement : Settlement)
    (hsigil : h.sigil = some ':') (hkeyword : String.ofList h.keyword = settlement.keyword)
    (hok : continueAwait ctx f h settlement = .ok f') : f.shape.Rebound f'.shape ∧ ∃ label,
      f.shape.continuation? ctx.source h = some label ∧ f'.labels = f.labels ++ [label] := by
  unfold continueAwait at hok
  dsimp only at hok
  split at hok
  · rename_i expression value error hshape
    split at hok
    · exact absurd hok reject_ne_ok
    · cases hok
      refine ⟨?_, .settled settlement, ?_, labels_nextBranch _ _⟩
      · rw [shape_nextBranch, hshape]
        cases settlement <;> exact .awaitBlock ..
      · unfold Shape.continuation?
        rw [hshape, hsigil, hkeyword]
        cases settlement <;> rfl
  · exact absurd hok reject_ne_ok

/-- **A tag that is accepted** starts the branch it asks for. -/
theorem labels_addBranch {ctx : Context} {f f' : Frame} {h : Header}
    (hok : addBranch ctx f h = .ok f') : f.shape.Rebound f'.shape ∧ ∃ label,
      f.shape.continuation? ctx.source h = some label ∧ f'.labels = f.labels ++ [label] := by
  unfold addBranch at hok
  split at hok
  · rename_i hsigil
    unfold continueBlock at hok
    split at hok
    · rename_i hkeyword
      obtain ⟨hshape, hlabel⟩ := label_continueElse hsigil hkeyword hok
      exact ⟨hshape ▸ .refl _, hlabel⟩
    · rename_i hkeyword
      exact label_continueAwait .fulfilled hsigil hkeyword hok
    · rename_i hkeyword
      exact label_continueAwait .rejected hsigil hkeyword hok
    · exact absurd hok reject_ne_ok
  · split at hok <;> exact absurd hok reject_ne_ok

/-- **A row of tags that are accepted** starts the branches they ask for. -/
theorem labels_foldlM {ctx : Context} : ∀ {middle : List Header} {f f' : Frame},
    middle.foldlM (addBranch ctx) f = .ok f' → f.shape.Rebound f'.shape ∧ ∃ labels,
      middle.map (f.shape.continuation? ctx.source) = labels.map some ∧
        f'.labels = f.labels ++ labels
  | [], f, f', hfold => by
    cases hfold
    exact ⟨.refl _, [], rfl, (List.append_nil _).symm⟩
  | h :: middle, f, f', hfold => by
    rw [List.foldlM_cons] at hfold
    obtain ⟨f₁, hadd, hfold⟩ := bind_eq_ok.mp hfold
    obtain ⟨hrebound, label, hlabel, hlabels⟩ := labels_addBranch hadd
    obtain ⟨hrest, labels, hasks, hall⟩ := labels_foldlM hfold
    refine ⟨hrebound.trans hrest, label :: labels, ?_, ?_⟩
    · rw [List.map_cons, List.map_cons, hlabel, hrebound.continuation?_eq, hasks]
    · rw [hall, hlabels, List.append_assoc]
      rfl

/-! ## Rejection -/

/-- The component is rejected, or an expression cannot be read. -/
def Rejection (ctx : Context) (failure : Failure) : Prop :=
  (∃ d, failure = .malformed d) ∨ ∃ start stop, ctx.read start stop = .error failure

theorem reject_meets {ctx : Context} {α : Type} {P : α → Prop} {cause : Cause} {offset : Nat} :
    Meets (Rejection ctx) P (ctx.reject cause offset : Outcome α) :=
  Or.inl ⟨_, rfl⟩

theorem read_meets (ctx : Context) (start stop : Nat) :
    Meets (Rejection ctx) (fun _ => True) (ctx.read start stop) := by
  cases hread : ctx.read start stop with
  | ok expression => trivial
  | error failure => exact Or.inr ⟨start, stop, hread⟩

theorem continueElse_rejects (ctx : Context) (f : Frame) (h : Header) :
    Meets (Rejection ctx) (fun _ => True) (continueElse ctx f h) := by
  unfold continueElse
  dsimp only
  split
  · split
    · exact reject_meets
    · split
      · exact (read_meets ctx _ _).bind fun _ _ => trivial
      · split
        · trivial
        · exact reject_meets
  · split
    · exact reject_meets
    · split
      · exact reject_meets
      · trivial
  · exact reject_meets

theorem continueAwait_rejects (ctx : Context) (f : Frame) (h : Header) (settlement : Settlement) :
    Meets (Rejection ctx) (fun _ => True) (continueAwait ctx f h settlement) := by
  unfold continueAwait
  split
  · dsimp only
    split
    · exact reject_meets
    · trivial
  · exact reject_meets

/-- **A tag inside a block** is accepted or rejected. -/
theorem addBranch_rejects (ctx : Context) (f : Frame) (h : Header) :
    Meets (Rejection ctx) (fun _ => True) (addBranch ctx f h) := by
  unfold addBranch
  split
  · unfold continueBlock
    split
    · exact continueElse_rejects ctx f h
    · exact continueAwait_rejects ctx f h .fulfilled
    · exact continueAwait_rejects ctx f h .rejected
    · exact reject_meets
  · split <;> exact reject_meets

theorem closeBlock_rejects (ctx : Context) (f : Frame) (later : List Header) :
    Meets (Rejection ctx) (fun _ => True) (closeBlock ctx f later) := by
  unfold closeBlock
  dsimp only
  split
  · exact reject_meets
  · split
    · exact reject_meets
    · split
      · exact reject_meets
      · trivial

/-! ## Acceptance -/

/-- A label that never comes before this one has not come. -/
theorem not_mem_of_sublist {older rest order : List Label} {other label : Label}
    (h : (older ++ label :: rest).Sublist order) (hnot : ¬ [other, label].Sublist order) :
    other ∉ older := fun hmem =>
  hnot (((List.singleton_sublist.mpr hmem).append
    (List.singleton_sublist.mpr List.mem_cons_self)).trans h)

/-- Nothing comes after an `else`. -/
theorem alternate_not_mem {label : Label} {rest : List Label} : ∀ {older : List Label},
    ElseChain (older ++ label :: rest) → Label.alternate ∉ older
  | [], _ => List.not_mem_nil
  | l :: older, h => by
    have h : ElseChain (l :: (older ++ label :: rest)) := h
    rcases elseChain_cons h with ⟨_, hnil⟩ | ⟨rfl, hchain⟩
    · exact absurd hnil (List.append_ne_nil_of_right_ne_nil _ (List.cons_ne_nil _ _))
    · rw [List.mem_cons, not_or]
      exact ⟨nofun, alternate_not_mem hchain⟩

/-- The test of the tag can be read, if it asks for an `else if`. -/
def Header.TestRead (ctx : Context) (shape : Shape) (h : Header) : Prop :=
  shape.continuation? ctx.source h = some .elseIf → ∀ length,
    Separator.elseIf (h.body ctx.source) = some length →
      ∃ test, ctx.read (h.rest + length) h.close = .ok test

theorem sigil_of_continuation? {s : Source} {shape : Shape} {h : Header} {label : Label}
    (hasks : shape.continuation? s h = some label) : h.sigil = some ':' := by
  unfold Shape.continuation? at hasks
  dsimp only at hasks
  split at hasks
  · cases hasks
  · exact not_not.mp ‹_›

section

variable {ctx : Context} {f : Frame} {h : Header} {label : Label} {rest : List Label}

theorem continueElse_accepts_if (hshape : f.shape = .ifBlock)
    (hasks : f.shape.continuation? ctx.source h = some label)
    (hform : f.shape.Form (f.labels ++ label :: rest)) (htest : h.TestRead ctx f.shape) :
    String.ofList h.keyword = "else" ∧ ∃ f', continueElse ctx f h = .ok f' := by
  have hnot : ¬ f.labels.contains .alternate = true := by
    rw [List.contains_iff_mem]
    rw [hshape] at hform
    obtain ⟨further, hfurther, hchain⟩ := hform
    obtain ⟨hopening, hfurther⟩ := List.cons.inj hfurther
    have hlater : Label.alternate ∉ f.later.reverse.map (·.label) :=
      alternate_not_mem (hfurther ▸ hchain)
    intro hmem
    rcases List.mem_cons.mp hmem with h | h
    · cases hopening.symm.trans h.symm
    · exact hlater h
  unfold Header.TestRead at htest
  rw [hshape] at hasks htest
  unfold Shape.continuation? at hasks htest
  unfold continueElse
  rw [hshape]
  dsimp only at hasks htest ⊢
  rw [if_neg hnot]
  split at hasks
  · cases hasks
  · rename_i hsigil
    split at hasks
    · cases hasks
    · rename_i hkeyword
      refine ⟨not_not.mp hkeyword, ?_⟩
      cases helse : Separator.elseIf (h.body ctx.source) with
      | some length =>
        rw [if_neg hsigil, if_neg hkeyword, helse] at htest
        obtain ⟨test, hread⟩ := htest rfl length rfl
        exact ⟨_, bind_eq_ok.mpr ⟨test, hread, rfl⟩⟩
      | none =>
        rw [helse] at hasks
        cases hblank : allBlank (h.body ctx.source) with
        | true => exact ⟨_, rfl⟩
        | false =>
          rw [hblank] at hasks
          cases hasks

theorem continueElse_accepts_each {header : Each} (hshape : f.shape = .eachBlock header)
    (hasks : f.shape.continuation? ctx.source h = some label)
    (hform : f.shape.Form (f.labels ++ label :: rest)) :
    String.ofList h.keyword = "else" ∧ ∃ f', continueElse ctx f h = .ok f' := by
  have hallowed := hform.allowed
  rw [hshape] at hasks hallowed
  have hallowed : (f.labels ++ label :: rest).Sublist [.body, .fallback] := hallowed
  unfold Shape.continuation? at hasks
  unfold continueElse
  rw [hshape]
  dsimp only at hasks ⊢
  split at hasks
  · cases hasks
  · split at hasks
    · cases hasks
    · rename_i hkeyword
      split at hasks
      · rename_i hplain
        cases hasks
        rw [Bool.and_eq_true, Option.isNone_iff_eq_none] at hplain
        have hnot : f.labels.contains .fallback = false := by
          rw [← Bool.not_eq_true, List.contains_iff_mem]
          exact not_mem_of_sublist hallowed (by decide)
        refine ⟨not_not.mp hkeyword, ?_⟩
        rw [hplain.1, hplain.2, hnot]
        exact ⟨_, rfl⟩
      · cases hasks

theorem continueAwait_accepts {settlement : Settlement} {expression : Expression}
    {value error : Option String} (hshape : f.shape = .awaitBlock expression value error)
    (hform : f.shape.Form (f.labels ++ .settled settlement :: rest)) :
    ∃ f', continueAwait ctx f h settlement = .ok f' := by
  have hallowed := hform.allowed
  rw [hshape] at hallowed
  have hallowed : (f.labels ++ .settled settlement :: rest).Sublist
      [.pending, .settled .fulfilled, .settled .rejected] := hallowed
  have hself : f.labels.contains (.settled settlement) = false := by
    rw [← Bool.not_eq_true, List.contains_iff_mem]
    exact not_mem_of_sublist hallowed (by cases settlement <;> decide)
  have hearlier : (settlement = .fulfilled && f.labels.contains (.settled .rejected)) = false := by
    rw [← Bool.not_eq_true, Bool.and_eq_true, List.contains_iff_mem, decide_eq_true_iff]
    rintro ⟨rfl, hmem⟩
    exact not_mem_of_sublist hallowed (by decide) hmem
  unfold continueAwait
  rw [hshape]
  dsimp only
  rw [hself, hearlier]
  exact ⟨_, rfl⟩

/-- **A tag whose branch has its place in a form** is accepted. -/
theorem addBranch_accepts (hasks : f.shape.continuation? ctx.source h = some label)
    (hform : f.shape.Form (f.labels ++ label :: rest)) (htest : h.TestRead ctx f.shape) :
    ∃ f', addBranch ctx f h = .ok f' := by
  unfold addBranch
  rw [if_pos (sigil_of_continuation? hasks)]
  unfold continueBlock
  cases hshape : f.shape with
  | document | element | keyBlock | snippetBlock =>
    rw [hshape] at hasks
    unfold Shape.continuation? at hasks
    dsimp only at hasks
    split at hasks <;> cases hasks
  | ifBlock =>
    obtain ⟨hkeyword, haccepts⟩ := continueElse_accepts_if hshape hasks hform htest
    rw [hkeyword]
    exact haccepts
  | eachBlock header =>
    obtain ⟨hkeyword, haccepts⟩ := continueElse_accepts_each hshape hasks hform
    rw [hkeyword]
    exact haccepts
  | awaitBlock expression value error =>
    have hlabel := hasks
    rw [hshape] at hlabel
    unfold Shape.continuation? at hlabel
    dsimp only at hlabel
    split at hlabel
    · cases hlabel
    · split at hlabel
      · rename_i hkeyword
        cases hlabel
        rw [hkeyword]
        exact continueAwait_accepts hshape hform
      · split at hlabel
        · rename_i hkeyword
          cases hlabel
          rw [hkeyword]
          exact continueAwait_accepts hshape hform
        · cases hlabel

end

/-- **A row of tags whose branches complete a form** is accepted. -/
theorem foldlM_accepts {ctx : Context} : ∀ {middle : List Header} {f : Frame} {rest : List Label},
    middle.map (f.shape.continuation? ctx.source) = rest.map some →
    f.shape.Form (f.labels ++ rest) → (∀ h ∈ middle, h.TestRead ctx f.shape) →
    ∃ f', middle.foldlM (addBranch ctx) f = .ok f'
  | [], f, _, _, _, _ => ⟨f, rfl⟩
  | _ :: _, _, [], hasks, _, _ => nomatch hasks
  | h :: middle, f, label :: rest, hasks, hform, htests => by
    obtain ⟨hlabel, hmiddle⟩ := List.cons.inj hasks
    obtain ⟨f₁, hadd⟩ := addBranch_accepts hlabel hform (htests h List.mem_cons_self)
    obtain ⟨hrebound, added, hadded, hlabels⟩ := labels_addBranch hadd
    cases hlabel.symm.trans hadded
    -- what the branches of an await block bind has changed, but not what its tags ask for
    have hasks₁ : middle.map (f₁.shape.continuation? ctx.source) = rest.map some := by
      rw [← hrebound.continuation?_eq]
      exact hmiddle
    have hform₁ : f₁.shape.Form (f₁.labels ++ rest) := by
      rw [← hrebound.form_eq, hlabels, List.append_assoc]
      exact hform
    have htests₁ : ∀ k ∈ middle, k.TestRead ctx f₁.shape := fun k hk => by
      unfold Header.TestRead
      rw [← hrebound.continuation?_eq]
      exact htests k (List.mem_cons_of_mem _ hk)
    obtain ⟨f', hfold⟩ := foldlM_accepts hasks₁ hform₁ htests₁
    refine ⟨f', ?_⟩
    rw [List.foldlM_cons]
    exact bind_eq_ok.mpr ⟨f₁, hadd, hfold⟩

/-! ## All tags of a block -/

/-- The first tag of a block opens it at its start, and the last one ends it. -/
def Encloses (s : Source) (span : Span) (shape : Shape) (opening : Header)
    (later : List Header) : Prop :=
  opening.sigil = some '#' ∧ opening.start = span.start ∧
    ∃ closing, later.getLast? = some closing ∧ closing.sigil = some '/' ∧
      String.ofList closing.keyword = shape.keyword ∧ allBlank (closing.body s) = true

/-- The branches that the tags of a block ask for are `labels`, in a form that it can have; `first`
is what its first tag makes, and the last tag asks for none. -/
def Asks (s : Source) (first : Frame) (later : List Header) (labels : List Label) : Prop :=
  first.shape.Form labels ∧ ∃ rest, labels = first.opening.label :: rest ∧
    later.dropLast.map (first.shape.continuation? s) = rest.map some

theorem closeBlock_ok {ctx : Context} {f f' : Frame} {later : List Header}
    (hok : closeBlock ctx f later = .ok f') :
    ∃ closing, later.getLast? = some closing ∧ f' = f.endBranch closing.start := by
  unfold closeBlock at hok
  dsimp only at hok
  split at hok
  · exact absurd hok reject_ne_ok
  · rename_i closing hclosing
    split at hok
    · exact absurd hok reject_ne_ok
    · split at hok
      · exact absurd hok reject_ne_ok
      · cases hok
        exact ⟨closing, hclosing, rfl⟩

theorem labels_openBlock {ctx : Context} {h : Header} {stop : Nat} {f : Frame}
    (hok : openBlock ctx h stop = .ok f) : f.labels = [f.opening.label] := by
  rw [Frame.labels, Frame.branches, (openBlock_ok hok).2.1]
  rfl

/-- **The branches of a block** are those that its tags ask for, in a form that it can have. -/
theorem labels_readBlock {ctx : Context} {span : Span} {opening : Header} {later : List Header}
    {f : Frame} (hok : readBlock ctx span (opening :: later) = .ok f) :
    ∃ first, openBlock ctx opening span.stop = .ok first ∧ first.shape.Rebound f.shape ∧
      f.branches.length = later.length ∧ Asks ctx.source first later f.labels := by
  obtain ⟨_, hallowed, _⟩ := readBlock_ok hok
  rw [readBlock] at hok
  split at hok
  · exact absurd hok reject_ne_ok
  · obtain ⟨first, hfirst, hok⟩ := bind_eq_ok.mp hok
    obtain ⟨f₁, hfold, hok⟩ := bind_eq_ok.mp hok
    obtain ⟨closing, hclosing, rfl⟩ := closeBlock_ok hok
    obtain ⟨hrebound, rest, hasks, hlabels⟩ := labels_foldlM hfold
    rw [labels_openBlock hfirst, List.singleton_append] at hlabels
    rw [shape_endBranch, labels_endBranch, hlabels] at hallowed
    refine ⟨first, hfirst, by rwa [shape_endBranch], ?_, ?_, rest, ?_, hasks⟩
    · have hlength := congrArg List.length hasks
      obtain ⟨middle, rfl⟩ := List.getLast?_eq_some_iff.mp hclosing
      have hcount : (f₁.endBranch closing.start).labels.length = rest.length + 1 := by
        rw [labels_endBranch, hlabels]
        rfl
      rw [List.length_map, List.length_map, List.dropLast_concat] at hlength
      rw [Frame.labels, List.length_map] at hcount
      rw [hcount, List.length_append, hlength]
      rfl
    · rw [hrebound.form_eq, labels_endBranch, hlabels]
      exact Shape.form_of_allowed hallowed (label_openBlock hfirst)
    · rw [labels_endBranch, hlabels]

/-- **Other tags are rejected.** -/
theorem readBlock_rejected {ctx : Context} {span : Span} {opening : Header} {later : List Header}
    {first : Frame} (hfirst : openBlock ctx opening span.stop = .ok first)
    (hnot : ¬ ∃ labels, Asks ctx.source first later labels) :
    ∃ failure, readBlock ctx span (opening :: later) = .error failure ∧ Rejection ctx failure := by
  have hmeets : Meets (Rejection ctx) (fun _ => True) (readBlock ctx span (opening :: later)) := by
    rw [readBlock]
    split
    · exact reject_meets
    · rw [hfirst]
      have hfold : Meets (Rejection ctx) (fun _ => True)
          (later.dropLast.foldlM (addBranch ctx) first) :=
        Meets.foldlM trivial fun f h _ _ => addBranch_rejects ctx f h
      exact hfold.bind fun f _ => closeBlock_rejects ctx f later
  cases hok : readBlock ctx span (opening :: later) with
  | error failure => exact ⟨failure, rfl, hmeets.of_error hok⟩
  | ok f =>
    obtain ⟨first', hfirst', _, _, hasks⟩ := labels_readBlock hok
    cases hfirst.symm.trans hfirst'
    exact absurd ⟨_, hasks⟩ hnot

/-- **Tags that enclose a block**, and ask for branches in a form that it can have, are accepted. -/
theorem readBlock_accepted {ctx : Context} {span : Span} {opening : Header} {later : List Header}
    {first : Frame} {labels : List Label} (hfirst : openBlock ctx opening span.stop = .ok first)
    (hencloses : Encloses ctx.source span first.shape opening later)
    (hasks : Asks ctx.source first later labels)
    (htests : ∀ h ∈ later.dropLast, h.TestRead ctx first.shape) :
    ∃ f, readBlock ctx span (opening :: later) = .ok f := by
  obtain ⟨hsigil, hstart, closing, hclosing, hslash, hkeyword, hblank⟩ := hencloses
  obtain ⟨hform, rest, rfl, hrest⟩ := hasks
  rw [← List.singleton_append, ← labels_openBlock hfirst] at hform
  obtain ⟨f, hfold⟩ := foldlM_accepts hrest hform htests
  have hclose : closeBlock ctx f later = .ok (f.endBranch closing.start) := by
    unfold closeBlock
    dsimp only
    rw [hclosing]
    dsimp only
    rw [if_neg (not_not.mpr hslash), hkeyword, (labels_foldlM hfold).1.keyword_eq, hblank,
      if_neg (by simp)]
  refine ⟨f.endBranch closing.start, ?_⟩
  rw [readBlock, if_neg (by simp [hsigil, hstart])]
  exact bind_eq_ok.mpr ⟨first, hfirst, bind_eq_ok.mpr ⟨f, hfold, hclose⟩⟩

end RawHtmlLint.Template

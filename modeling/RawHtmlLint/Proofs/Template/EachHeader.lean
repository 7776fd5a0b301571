import RawHtmlLint.Proofs.Script.Complete
import RawHtmlLint.Proofs.Text.Blank
import RawHtmlLint.Template.Block

/-!
# Reading an each header undoes writing it

A header is written from its parts: the list, `as`, the context, and perhaps a comma with the name
of the index and a key in parentheses, with white space between them (`EachText`). It is read by
three searches in what is left of it each time. None of them goes astray if the list and the
context are complete code and do not hold the separator themselves, outside of brackets and
literals: each search passes the part before its separator and stops at the separator.

Results:
* `Written.topLevel?_eachAs`: where the separator of the list is found;
* `Written.readKey_text`, `Written.readIndex_binding`: what is read after it;
* `readEach_text`: what is read of a written header.
-/

namespace RawHtmlLint.Template

open Script Text

/-! ## Written headers -/

/-- A comma, and the name of the index with white space around it. -/
structure IndexText where
  before : List Char
  name : List Char
  after : List Char

def IndexText.text (i : IndexText) : List Char := ',' :: (i.before ++ i.name ++ i.after)

/-- A key in parentheses, with all that stands between them, and white space after them. -/
structure KeyText where
  content : List Char
  after : List Char

def KeyText.text (k : KeyText) : List Char := '(' :: (k.content ++ ')' :: k.after)

/-- The parts of an each header, and the white space before and between them. -/
structure EachText where
  beforeList : List Char
  list : List Char
  beforeAs : List Char
  afterAs : List Char
  context : List Char
  afterContext : List Char
  index : Option IndexText
  key : Option KeyText

namespace EachText

/-- The text before the separator. -/
def opening (h : EachText) : List Char := h.beforeList ++ h.list

/-- The white space after the list, `as`, and the white space after that. -/
def separator (h : EachText) : List Char := h.beforeAs ++ 'a' :: 's' :: h.afterAs

def indexText (h : EachText) : List Char := (h.index.map (·.text)).getD []

def keyText (h : EachText) : List Char := (h.key.map (·.text)).getD []

/-- What is written between the separator and the key. -/
def binding (h : EachText) : List Char := h.context ++ h.afterContext ++ h.indexText

/-- The header as it is written, after its keyword. -/
def text (h : EachText) : List Char :=
  h.opening ++ h.separator ++ (h.binding ++ h.keyText)

/-- Where the content of the key starts, if there is a key. -/
def keyPlace (h : EachText) : Nat := (h.opening ++ h.separator ++ h.binding).length + 1

/-- The key, if its content starts at the offset. -/
def keyAt (ctx : Context) (h : EachText) (place : Nat) : Outcome (Option Expression) :=
  match h.key with
  | none => .ok none
  | some k => do return some (← ctx.read place (place + k.content.length))

/-- What the header says, if it starts at the offset: the list and the key are read as expressions,
and the context and the name of the index are as they are written. -/
def meaning (ctx : Context) (h : EachText) (rest : Nat) : Outcome Each := do
  let expression ← ctx.read rest (rest + h.opening.length)
  let key ← h.keyAt ctx (rest + h.keyPlace)
  return { expression, context := some (String.ofList h.context),
           index := h.index.map fun i => String.ofList i.name, key }

/-- A header that can be read in one way only. The list and the context are complete and trimmed;
no separator stands in the list, no parenthesis and no comma in the context, outside of brackets
and literals; the index is an identifier; and white space is white space. -/
structure Written (h : EachText) : Prop where
  beforeList : allBlank h.beforeList = true
  list_complete : Complete h.list
  list_trimmed : Trimmed h.list
  list_noAs : topLevel? Separator.eachAs (' ' :: (h.list ++ [' '])) 0 = none
  beforeAs : allBlank h.beforeAs = true ∧ h.beforeAs ≠ []
  afterAs : allBlank h.afterAs = true ∧ h.afterAs ≠ []
  context_complete : Complete h.context
  context_trimmed : Trimmed h.context
  context_noParenthesis : topLevel? Separator.openParenthesis h.context 0 = none
  context_noComma : topLevel? Separator.comma h.context 0 = none
  afterContext : allBlank h.afterContext = true
  index : ∀ i ∈ h.index, allBlank i.before = true ∧ Trimmed i.name ∧
    isIdentifier i.name = true ∧ allBlank i.after = true
  key : ∀ k ∈ h.key, allBlank k.after = true

end EachText

/-! ## The separator `as` -/

/-- The text starts with `as` and white space. -/
def startsWithAs (s : List Char) : Bool := ['a', 's'].isPrefixOf s && 0 < blankCount (s.drop 2)

theorem isSome_eachAs (s : List Char) : (Separator.eachAs s).isSome =
    (decide (0 < blankCount s) && startsWithAs (trimStart s)) := by
  have hdrop : s.drop (blankCount s) = trimStart s := by
    have hsplit : s.takeWhile isBlank ++ s.dropWhile isBlank = s := List.takeWhile_append_dropWhile
    nth_rewrite 2 [← hsplit]
    exact List.drop_left
  unfold Separator.eachAs startsWithAs
  dsimp only
  rw [hdrop, Bool.and_assoc]
  split
  · rename_i h
    rw [h]
    rfl
  · rename_i h
    rw [Bool.not_eq_true] at h
    rw [h]
    rfl

/-- Whether `as` comes at the end of a text or in it can be told from any one character of white
space after the text. -/
theorem startsWithAs_append {s t : List Char} {c : Char} (hs : s ≠ []) (hc : isBlank c = true) :
    startsWithAs (s ++ c :: t) = startsWithAs (s ++ [' ']) := by
  have hblank : ∀ d (u : List Char), decide (0 < blankCount (d :: u)) = isBlank d := fun d u => by
    by_cases hd : isBlank d = true <;> simp [blankCount, hd]
  have hs' : c ≠ 's' := by
    rintro rfl
    cases hc
  match s with
  | [] => exact absurd rfl hs
  | [a] => simp [startsWithAs, List.isPrefixOf, hs'.symm]
  | [a, b] =>
    show (['a', 's'].isPrefixOf (a :: b :: c :: t) && decide (0 < blankCount (c :: t))) =
      (['a', 's'].isPrefixOf (a :: b :: [' ']) && decide (0 < blankCount [' ']))
    rw [hblank, hblank, hc]
    rfl
  | a :: b :: d :: s =>
    show (['a', 's'].isPrefixOf (a :: b :: d :: (s ++ c :: t)) &&
        decide (0 < blankCount (d :: (s ++ c :: t)))) =
      (['a', 's'].isPrefixOf (a :: b :: d :: (s ++ [' '])) &&
        decide (0 < blankCount (d :: (s ++ [' ']))))
    rw [hblank, hblank]
    rfl

/-- Whether the separator stands in a text that is not blank can be told from any one character of
white space after the text. -/
theorem isSome_eachAs_append {s t : List Char} {c : Char} (hs : trimStart s ≠ [])
    (hc : isBlank c = true) :
    (Separator.eachAs (s ++ c :: t)).isSome = (Separator.eachAs (s ++ [' '])).isSome := by
  have hcount : ∀ u : List Char, decide (0 < blankCount (s ++ u)) = decide (0 < blankCount s) := by
    intro u
    cases s with
    | nil => exact absurd rfl hs
    | cons d s => by_cases hd : isBlank d = true <;> simp [blankCount, hd]
  rw [isSome_eachAs, isSome_eachAs, hcount, hcount, trimStart_append hs, trimStart_append hs,
    startsWithAs_append hs hc]

/-- After white space, only the rest matters. -/
theorem isSome_eachAs_blank {blank s : List Char} (hblank : allBlank blank = true)
    (hne : blank ≠ []) : (Separator.eachAs (blank ++ s)).isSome = startsWithAs (trimStart s) := by
  have hcount : 0 < blankCount (blank ++ s) := by
    cases blank with
    | nil => exact absurd rfl hne
    | cons c blank =>
      have hc := forall_of_allBlank hblank c List.mem_cons_self
      simp [blankCount, hc]
  rw [isSome_eachAs, decide_eq_true hcount, trimStart_blank_append hblank, Bool.true_and]

namespace EachText

variable {h : EachText}

theorem Written.opening_complete (hh : h.Written) : Complete h.opening :=
  Complete.inert_append (inert_of_allBlank hh.beforeList) hh.list_complete

/-- The separator stands nowhere in the list, nor between the white space before it and the
list. -/
theorem Written.opening_noAs (hh : h.Written) {i : Nat} {t : List Char} {c : Char}
    (hc : isBlank c = true) (hi : (i, 0) ∈ State.start.met 0 h.opening) :
    Separator.eachAs (h.opening.drop i ++ c :: t) = none := by
  have hnone := topLevel?_eq_none_iff.mp hh.list_noAs
  refine Option.not_isSome_iff_eq_none.mp (Bool.eq_false_iff.mp ?_)
  by_cases hlt : i < h.beforeList.length
  · -- the white space before the list, which can be any, is a space in the hypothesis
    have hfirst : Separator.eachAs ([' '] ++ (h.list ++ [' '])) = none :=
      hnone 0 (State.mem_met_iff.mpr ⟨0, ' ', rfl, rfl, rfl, rfl⟩)
    have hbefore : allBlank (h.beforeList.drop i) = true :=
      List.all_eq_true.mpr fun d hd => forall_of_allBlank hh.beforeList d (List.mem_of_mem_drop hd)
    have hne : h.beforeList.drop i ≠ [] := fun hnil =>
      absurd (List.drop_eq_nil_iff.mp hnil) (Nat.not_le_of_lt hlt)
    have hlist : trimStart h.list ≠ [] := hh.list_trimmed.trimStart_drop_ne_nil (i := 0)
      (List.length_pos_iff.mpr hh.list_trimmed.1)
    calc (Separator.eachAs (h.opening.drop i ++ c :: t)).isSome
        = (Separator.eachAs (h.beforeList.drop i ++ (h.list ++ c :: t))).isSome := by
          rw [opening, List.drop_append_of_le_length (Nat.le_of_lt hlt), List.append_assoc]
      _ = startsWithAs (trimStart h.list ++ c :: t) := by
          rw [isSome_eachAs_blank hbefore hne, trimStart_append hlist]
      _ = startsWithAs (trimStart h.list ++ [' ']) := startsWithAs_append hlist hc
      _ = (Separator.eachAs ([' '] ++ (h.list ++ [' ']))).isSome := by
          rw [isSome_eachAs_blank rfl (List.cons_ne_nil _ _), trimStart_append hlist]
      _ = false := by rw [hfirst]; rfl
  · obtain ⟨j, rfl⟩ := Nat.exists_eq_add_of_le (Nat.le_of_not_lt hlt)
    have hj := (mem_met_inert_append (inert_of_allBlank hh.beforeList)).mp hi
    have hle := Nat.le_of_lt (lt_of_mem_met hj)
    have hmem : (1 + j, 0) ∈ State.start.met 0 ([' '] ++ (h.list ++ [' '])) := by
      refine (mem_met_inert_append (x := [' ']) (inert_of_allBlank rfl)).mpr ?_
      rw [hh.list_complete.met_append (noComment_of_isBlank rfl [])]
      exact List.mem_append_left _ hj
    have hlist := hnone (1 + j) hmem
    rw [Nat.add_comm, List.drop_succ_cons, List.drop_append_of_le_length hle] at hlist
    have hdrop : h.opening.drop (h.beforeList.length + j) = h.list.drop j := by
      rw [← List.drop_drop, opening, List.drop_left]
    rw [hdrop, isSome_eachAs_append (hh.list_trimmed.trimStart_drop_ne_nil (lt_of_mem_met hj)) hc,
      hlist]
    rfl

/-- The separator, with the white space around it. -/
theorem Written.eachAs_separator (hh : h.Written) (t : List Char) :
    Separator.eachAs (h.separator ++ (h.context ++ t)) = some (h.separator.length, ()) := by
  obtain ⟨hbefore, hbefore_ne⟩ := hh.beforeAs
  obtain ⟨hafter, hafter_ne⟩ := hh.afterAs
  obtain ⟨c, rest, hcontext, hc⟩ := hh.context_trimmed.exists_head
  have hword : h.separator ++ (h.context ++ t) =
      h.beforeAs ++ 'a' :: 's' :: (h.afterAs ++ (h.context ++ t)) := by
    simp only [separator, List.append_assoc, List.cons_append]
  have hlead : blankCount (h.beforeAs ++ 'a' :: 's' :: (h.afterAs ++ (h.context ++ t))) =
      h.beforeAs.length := blankCount_append hbefore (by simp [isBlank])
  have htrail : blankCount (h.afterAs ++ (h.context ++ t)) = h.afterAs.length := by
    refine blankCount_append hafter fun d hd => ?_
    rw [hcontext] at hd
    cases hd
    exact hc
  have hlength : h.separator.length = h.beforeAs.length + 2 + h.afterAs.length := by
    simp only [separator, List.length_append, List.length_cons]
    omega
  have hpos := List.length_pos_iff.mpr hbefore_ne
  have hpos' := List.length_pos_iff.mpr hafter_ne
  unfold Separator.eachAs
  dsimp only
  rw [hword, hlead, List.drop_left]
  show (if decide (0 < h.beforeAs.length) && ['a', 's'].isPrefixOf ('a' :: 's' :: _) &&
    decide (0 < blankCount (h.afterAs ++ (h.context ++ t))) then _ else _) = _
  rw [htrail, decide_eq_true hpos, decide_eq_true hpos', hlength]
  simp [List.isPrefixOf, htrail]

theorem Written.separator_cons (hh : h.Written) :
    ∃ c t, h.separator = c :: t ∧ isBlank c = true := by
  obtain ⟨hbefore, hne⟩ := hh.beforeAs
  obtain ⟨c, blank, hc⟩ := List.exists_cons_of_ne_nil hne
  refine ⟨c, blank ++ 'a' :: 's' :: h.afterAs, by rw [separator, hc]; rfl, ?_⟩
  exact forall_of_allBlank hbefore c (hc ▸ List.mem_cons_self)

/-- **The separator is found after the list.** -/
theorem Written.topLevel?_eachAs (hh : h.Written) : topLevel? Separator.eachAs h.text 0 =
    some (h.opening.length, h.opening.length + h.separator.length, ()) := by
  obtain ⟨c, t, hcons, hc⟩ := hh.separator_cons
  have hfound := hh.eachAs_separator (h.afterContext ++ h.indexText ++ h.keyText)
  have htext : h.text = h.opening ++ (h.separator ++
      (h.context ++ (h.afterContext ++ h.indexText ++ h.keyText))) := by
    simp only [text, opening, binding, List.append_assoc]
  rw [hcons] at hfound
  rw [htext, hcons]
  exact topLevel?_append_cons hh.opening_complete
    (Inert.isCode (inert_of_class (by decide) hc) _) (noComment_of_isBlank hc _)
    (fun i hi => hh.opening_noAs hc hi) hfound

/-! ## The key and the index -/

theorem inert_of_isIdentifier {s : List Char} (h : isIdentifier s = true) : ∀ c ∈ s, Inert c := by
  cases s with
  | nil => exact fun c hc => absurd hc List.not_mem_nil
  | cons c rest =>
    rw [isIdentifier, Bool.and_eq_true] at h
    refine List.forall_mem_cons.mpr ⟨inert_of_class (by decide) h.1, fun d hd => ?_⟩
    exact inert_of_class (by decide) (List.all_eq_true.mp h.2 d hd)

theorem Written.inert_indexText (hh : h.Written) : ∀ c ∈ h.indexText, Inert c := by
  unfold indexText
  cases hindex : h.index with
  | none => exact fun c hc => absurd hc List.not_mem_nil
  | some i =>
    obtain ⟨hbefore, _, hname, hafter⟩ := hh.index i hindex
    refine List.forall_mem_cons.mpr ⟨by decide, List.forall_mem_append.mpr
      ⟨List.forall_mem_append.mpr ⟨?_, inert_of_isIdentifier hname⟩, ?_⟩⟩
    · exact inert_of_allBlank hbefore
    · exact inert_of_allBlank hafter

theorem openParenthesis_eq (s : List Char) :
    Separator.openParenthesis s = if s.head? = some '(' then some (1, ()) else none := by
  unfold Separator.openParenthesis
  split
  · rfl
  · rename_i hnot
    rw [if_neg]
    rintro hhead
    obtain ⟨t, rfl⟩ := List.head?_eq_some_iff.mp hhead
    exact hnot t rfl

theorem comma_eq (s : List Char) :
    Separator.comma s = if s.head? = some ',' then some (1, ()) else none := by
  unfold Separator.comma
  split
  · rfl
  · rename_i hnot
    rw [if_neg]
    rintro hhead
    obtain ⟨t, rfl⟩ := List.head?_eq_some_iff.mp hhead
    exact hnot t rfl

theorem readsOne_of_head {pattern : List Char → Option (Nat × Unit)} {d : Char}
    (h : ∀ s, pattern s = if s.head? = some d then some (1, ()) else none) : ReadsOne pattern :=
  ⟨h [], fun c s => by rw [h, h]; rfl⟩

/-- Nothing but white space, a comma and the name of an index follows the context. -/
theorem Written.binding_complete (hh : h.Written) : Complete h.binding := by
  rw [binding, List.append_assoc]
  refine hh.context_complete.append_inert (List.forall_mem_append.mpr ⟨?_, hh.inert_indexText⟩)
  exact inert_of_allBlank hh.afterContext

/-- No parenthesis stands before the key. -/
theorem Written.binding_noParenthesis (hh : h.Written) :
    topLevel? Separator.openParenthesis h.binding 0 = none := by
  have hinert : ∀ c ∈ h.afterContext ++ h.indexText, Inert c :=
    List.forall_mem_append.mpr ⟨inert_of_allBlank hh.afterContext, hh.inert_indexText⟩
  rw [binding, List.append_assoc]
  refine topLevel?_append_eq_none (readsOne_of_head openParenthesis_eq) hh.context_complete
    (noComment_of_inert hinert) hh.context_noParenthesis fun c hc => ?_
  rw [openParenthesis_eq, if_neg]
  intro hparen
  cases hparen
  exact absurd (hinert _ hc) (by decide)

/-- The key is what stands between the parentheses. -/
theorem Written.readKey_text (hh : h.Written) (ctx : Context) (offset start : Nat) :
    readKey ctx (h.binding ++ h.keyText) offset start = do
      let key ← h.keyAt ctx (offset + h.binding.length + 1)
      return (key, h.binding) := by
  unfold readKey keyAt
  cases hkey : h.key with
  | none =>
    have htext : h.keyText = [] := by rw [keyText, hkey]; rfl
    rw [htext, List.append_nil, hh.binding_noParenthesis]
    rfl
  | some k =>
    have htext : h.keyText = k.text := by rw [keyText, hkey]; rfl
    have hmiss := topLevel?_eq_none_iff.mp hh.binding_noParenthesis
    have hfound : topLevel? Separator.openParenthesis (h.binding ++ k.text) 0 =
        some (h.binding.length, h.binding.length + 1, ()) := by
      refine topLevel?_append_cons (m := (1, ())) hh.binding_complete rfl ⟨nofun, nofun⟩
        (fun i hi => ?_) rfl
      rw [(readsOne_of_head openParenthesis_eq).drop_append (lt_of_mem_met hi), hmiss i hi]
    have hwritten : h.binding ++ k.text = (h.binding ++ '(' :: k.content) ++ [')'] ++ k.after := by
      simp only [KeyText.text, List.append_assoc, List.cons_append, List.nil_append]
    have htrim : trimEnd (h.binding ++ k.text) = (h.binding ++ '(' :: k.content) ++ [')'] := by
      rw [hwritten, trimEnd_append_blank (hh.key k hkey), trimEnd_concat (by decide)]
    have hstop : offset + (h.binding ++ '(' :: k.content ++ [')']).length - 1 =
        offset + h.binding.length + 1 + k.content.length := by
      simp only [List.length_append, List.length_cons, List.length_nil]
      omega
    rw [htext, hfound]
    dsimp only
    rw [htrim, List.getLast?_concat, if_pos rfl, hstop, List.take_left, ← Nat.add_assoc]
    cases ctx.read (offset + h.binding.length + 1)
      (offset + h.binding.length + 1 + k.content.length) <;> rfl

/-- The name of the index is what stands after the comma. -/
theorem Written.readIndex_binding (hh : h.Written) (ctx : Context) (start : Nat) :
    readIndex ctx h.binding start =
      .ok (h.index.map fun i => String.ofList i.name, h.context ++ h.afterContext) := by
  have hreads := readsOne_of_head comma_eq
  have hblank := inert_of_allBlank hh.afterContext
  have hnone : topLevel? Separator.comma (h.context ++ h.afterContext) 0 = none := by
    refine topLevel?_append_eq_none hreads hh.context_complete (noComment_of_inert hblank)
      hh.context_noComma fun c hc => ?_
    rw [comma_eq, if_neg]
    intro hcomma
    cases hcomma
    exact absurd (forall_of_allBlank hh.afterContext _ hc) (by decide)
  unfold readIndex
  cases hindex : h.index with
  | none =>
    have htext : h.binding = h.context ++ h.afterContext := by
      rw [binding, indexText, hindex]
      exact List.append_nil _
    rw [htext, hnone]
    rfl
  | some i =>
    obtain ⟨hbefore, htrimmed, hname, hafter⟩ := hh.index i hindex
    have htext : h.binding = h.context ++ h.afterContext ++ i.text := by
      rw [binding, indexText, hindex]
      rfl
    have hmiss := topLevel?_eq_none_iff.mp hnone
    have hfound : topLevel? Separator.comma (h.context ++ h.afterContext ++ i.text) 0 =
        some ((h.context ++ h.afterContext).length, (h.context ++ h.afterContext).length + 1, ()) := by
      refine topLevel?_append_cons (m := (1, ())) (hh.context_complete.append_inert hblank) rfl
        ⟨nofun, nofun⟩ (fun j hj => ?_) rfl
      rw [hreads.drop_append (lt_of_mem_met hj), hmiss j hj]
    have hdrop : (h.context ++ h.afterContext ++ i.text).drop
        ((h.context ++ h.afterContext).length + 1) = i.before ++ i.name ++ i.after := by
      rw [← List.drop_drop, List.drop_left]
      rfl
    rw [htext, hfound]
    dsimp only
    rw [hdrop, trim_pad hbefore htrimmed hafter, if_pos hname, List.take_left]
    rfl

end EachText

/-! ## The header -/

/-- **Reading an each header undoes writing it.** The list is read from the start of the header to
its end, and the key is what stands between the parentheses; the context and the name of the index
are as they are written. -/
theorem readEach_text (ctx : Context) {h : EachText} (hh : h.Written) (rest start : Nat) :
    readEach ctx h.text rest start = h.meaning ctx rest ∧
      slice h.text 0 h.opening.length = h.beforeList ++ h.list ∧
      ∀ k ∈ h.key, slice h.text h.keyPlace (h.keyPlace + k.content.length) = k.content := by
  refine ⟨?_, ?_, fun k hk => ?_⟩
  · have hdrop : h.text.drop (h.opening.length + h.separator.length) = h.binding ++ h.keyText := by
      rw [EachText.text, ← List.length_append, List.drop_left]
    have hplace : rest + (h.opening.length + h.separator.length) + h.binding.length + 1 =
        rest + h.keyPlace := by
      simp only [EachText.keyPlace, List.length_append]
      omega
    unfold readEach EachText.meaning
    rw [hh.topLevel?_eachAs]
    dsimp only
    rw [hdrop, hh.readKey_text, hplace]
    cases ctx.read rest (rest + h.opening.length) with
    | error failure => rfl
    | ok expression =>
      cases h.keyAt ctx (rest + h.keyPlace) with
      | error failure => rfl
      | ok key =>
        show (readIndex ctx h.binding start >>= _) = _
        rw [hh.readIndex_binding]
        have hcontext : trim (h.context ++ h.afterContext) = h.context :=
          trim_pad (show allBlank [] = true from rfl) hh.context_trimmed hh.afterContext
        have hne : ¬ h.context.isEmpty = true := fun hempty =>
          hh.context_trimmed.1 (List.isEmpty_iff.mp hempty)
        show (if (trim (h.context ++ h.afterContext)).isEmpty then _ else _) = _
        rw [hcontext, if_neg hne]
        rfl
  · rw [EachText.text, List.append_assoc, slice, List.drop_zero, List.take_left]
    rfl
  · have htext : h.keyText = k.text := by
      rw [EachText.keyText, hk]
      rfl
    have hsplit : h.text = h.opening ++ h.separator ++ h.binding ++
        ('(' :: (k.content ++ ')' :: k.after)) := by
      rw [EachText.text, htext, ← List.append_assoc]
      rfl
    have hdrop : h.text.drop h.keyPlace = k.content ++ ')' :: k.after := by
      rw [hsplit, EachText.keyPlace, ← List.drop_drop, List.drop_left]
      rfl
    rw [slice, List.drop_take, Nat.add_sub_cancel_left, hdrop, List.take_left]

/-- A header with separators inside brackets and literals. -/
def nestedHeader : EachText where
  beforeList := [' ']
  list := "rows(\" as \", [x as y])".toList
  beforeAs := [' ', '\n']
  afterAs := [' ']
  context := "\x7b a, b: (c) \x7d".toList
  afterContext := []
  index := some ⟨[' '], ['i'], [' ']⟩
  key := some ⟨"f(c, ')')".toList, [' ']⟩

theorem nestedHeader_written : nestedHeader.Written where
  beforeList := by decide
  list_complete := by decide
  list_trimmed := by decide
  list_noAs := by rw [topLevel?_eq]; decide
  beforeAs := by decide
  afterAs := by decide
  context_complete := by decide
  context_trimmed := by decide
  context_noParenthesis := by rw [topLevel?_eq]; decide
  context_noComma := by rw [topLevel?_eq]; decide
  afterContext := by decide
  index := by
    rintro i ⟨rfl⟩
    decide
  key := by
    rintro k ⟨rfl⟩
    decide

/-- A context that takes every text for an expression. -/
def lenientContext : Context where
  source := .ofText "Each.svelte" []
  modern := false
  read start stop := .ok ⟨"identifier", "", ⟨⟨1, start⟩, ⟨1, stop⟩⟩, start, stop, none, none⟩
  checkScript _ _ _ := .ok ()

/-- The list ends before the white space at offset 29, and the key starts after its parenthesis. -/
theorem readEach_nestedHeader : nestedHeader.Written ∧
    nestedHeader.text = " rows(\" as \", [x as y]) \nas \x7b a, b: (c) \x7d, i (f(c, ')')) ".toList ∧
    (readEach lenientContext nestedHeader.text 6 0).map
      (fun e => (e.expression.stop, e.context, e.index, e.key.map fun k => (k.start, k.stop))) =
      .ok (29, some "\x7b a, b: (c) \x7d", some "i", some (52, 61)) := by
  refine ⟨nestedHeader_written, by decide, ?_⟩
  rw [(readEach_text lenientContext nestedHeader_written 6 0).1]
  rfl

end RawHtmlLint.Template

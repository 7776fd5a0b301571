import Mathlib.Data.List.TakeWhile
import RawHtmlLint.Proofs.Text.Search
import RawHtmlLint.Script.Cursor

/-!
# Which brace closes a tag

The code of a tag is a row of items: plain characters, string literals, comments, template
literals, and brackets with items between them. `Item` says so as a grammar. Each rule is about
the text from the item on, since what an item is can depend on the character after it, and about
the rest that the item leaves. Between brackets any closing bracket ends the innermost level; on
the outermost level `)` and `]` are passed, and `}` is the end.

The scan keeps what is open in a list, innermost first. It is described twice. Whatever is open,
an item takes the scan to the rest that it leaves (`Item.leads`). And if the scan finds a brace,
then the text up to it ends all that is open, one level after the other (`endsAt_of_closes`).

Results:
* `Item.leads`, `Items.leads`, `Literal.leads`: what is complete is passed;
* `endsAt_of_closes`: what is passed is complete;
* `closingBrace_eq_iff_body`: the two together, from the start of a tag on.
-/

namespace RawHtmlLint.Script

open Text

/-! ## The grammar -/

/-- The character is only itself if `next` comes after it: no quote, no bracket, and not the start
of a comment. -/
def Plain (c : Char) (next : List Char) : Prop :=
  c ∉ ['"', '\'', '\x60'] ∧ isOpening c = false ∧ isClosing c = false ∧
    ¬ (c = '/' ∧ (next.head? = some '/' ∨ next.head? = some '*'))

/-- After the opening quote, the first text is a string literal up to its end and then the second
one. The quote or a line feed ends the literal; a backslash takes any character with it. -/
inductive Quoted (quote : Char) : List Char → List Char → Prop
  | close {c : Char} (s : List Char) (hend : c = quote ∨ c = '\n') : Quoted quote (c :: s) s
  | escape {c : Char} {s t : List Char} (h : Quoted quote s t) : Quoted quote ('\\' :: c :: s) t
  | char {c : Char} {s t : List Char} (hc : c ≠ quote ∧ c ≠ '\n' ∧ c ≠ '\\')
      (h : Quoted quote s t) : Quoted quote (c :: s) t

mutual

/-- The first text is an item and then the second one. -/
inductive Item : List Char → List Char → Prop
  | plain {c : Char} {s : List Char} (hc : Plain c s) : Item (c :: s) s
  | quoted {quote : Char} {s t : List Char} (hquote : quote = '"' ∨ quote = '\'')
      (h : Quoted quote s t) : Item (quote :: s) t
  /-- The first `*/` ends the comment. -/
  | blockComment {comment s : List Char} (hfirst : ¬ ['*', '/'] <:+: comment) :
      Item ('/' :: '*' :: (comment ++ '*' :: '/' :: s)) s
  /-- The comment ends before a line feed, which must be there. -/
  | lineComment {comment s : List Char} (hline : '\n' ∉ comment) (hend : s.head? = some '\n') :
      Item ('/' :: '/' :: (comment ++ s)) s
  | literal {s t : List Char} (h : Literal s t) : Item ('\x60' :: s) t
  /-- Any closing bracket closes any opening one. -/
  | bracket {c d : Char} {s t : List Char} (hopen : isOpening c = true) (h : Items s (d :: t))
      (hclose : isClosing d = true) : Item (c :: s) t

/-- The first text is a row of items and then the second one. -/
inductive Items : List Char → List Char → Prop
  | nil (s : List Char) : Items s s
  | cons {s t u : List Char} (h : Item s t) (hs : Items t u) : Items s u

/-- After the opening backtick, the first text is a template literal up to its end and then the
second one. -/
inductive Literal : List Char → List Char → Prop
  | close (s : List Char) : Literal ('\x60' :: s) s
  | escape {c : Char} {s t : List Char} (h : Literal s t) : Literal ('\\' :: c :: s) t
  | char {c : Char} {s t : List Char} (hc : c ≠ '\x60' ∧ c ≠ '\\')
      (hdollar : ¬ (c = '$' ∧ s.head? = some '\x7b')) (h : Literal s t) : Literal (c :: s) t
  | substitution {d : Char} {s t u : List Char} (h : Items s (d :: t))
      (hclose : isClosing d = true) (hs : Literal t u) : Literal ('$' :: '\x7b' :: s) u

end

/-- The first text is a row of items and of brackets `)` and `]` that close nothing, and then the
second one. -/
inductive Body : List Char → List Char → Prop
  | nil (s : List Char) : Body s s
  | item {s t u : List Char} (h : Item s t) (hs : Body t u) : Body s u
  | stray {c : Char} {s t : List Char} (hc : c = ')' ∨ c = ']') (hs : Body s t) : Body (c :: s) t

/-! ## String literals and comments -/

theorem Quoted.length {quote : Char} (hquote : quote ≠ '\\') {s t : List Char}
    (h : Quoted quote s t) : s.length = literalLength quote s + t.length ∧
      s.drop (literalLength quote s) = t := by
  induction h with
  | @close c s hend =>
    have hc : c ≠ '\\' := by
      rcases hend with rfl | rfl
      · exact hquote
      · decide
    have hlength : literalLength quote (c :: s) = 1 := by
      simp [literalLength, hc, hend]
    rw [hlength]
    exact ⟨Nat.add_comm _ _, rfl⟩
  | @escape c s t _ ih =>
    have hlength : literalLength quote ('\\' :: c :: s) = literalLength quote s + 2 := rfl
    rw [hlength, List.length_cons, List.length_cons]
    exact ⟨by omega, ih.2⟩
  | @char c s t hc _ ih =>
    have hlength : literalLength quote (c :: s) = literalLength quote s + 1 := by
      simp [literalLength, hc]
    rw [hlength, List.length_cons]
    exact ⟨by omega, ih.2⟩

/-- A string literal ends where the scan says, or it takes all of the text. -/
theorem quoted_of_literalLength (quote : Char) (s : List Char) :
    Quoted quote s (s.drop (literalLength quote s)) ∨ s.drop (literalLength quote s) = [] := by
  fun_induction literalLength quote s with
  | case1 => exact Or.inr rfl
  | case2 => exact Or.inr rfl
  | case3 c rest ih => exact ih.imp .escape id
  | case4 c rest hlone hpair hend =>
    exact Or.inl (.close rest (by simpa using hend))
  | case5 c rest hlone hpair hend ih =>
    have hc : c ≠ '\\' := by
      rintro rfl
      cases rest with
      | nil => exact hlone rfl rfl
      | cons d rest => exact hpair d rest rfl rfl
    simp only [Bool.or_eq_true, decide_eq_true_eq, not_or] at hend
    exact ih.imp (.char ⟨hend.1, hend.2, hc⟩) id

theorem lineLength_append {comment s : List Char} (hline : '\n' ∉ comment)
    (hend : s.head? = some '\n') : lineLength (comment ++ s) = comment.length := by
  have hall : ∀ c ∈ comment, decide (c ≠ '\n') = true := fun c hc =>
    decide_eq_true fun h => hline (h ▸ hc)
  have hstop : s.takeWhile (fun c => decide (c ≠ '\n')) = [] := by
    obtain ⟨rest, rfl⟩ := List.head?_eq_some_iff.mp hend
    rfl
  unfold lineLength
  rw [List.takeWhile_append_of_pos hall, hstop, List.append_nil]

/-- A comment ends before a line feed, or it takes all of the text. -/
theorem line_of_lineLength (s : List Char) :
    (∃ comment rest, s = comment ++ rest ∧ '\n' ∉ comment ∧ rest.head? = some '\n' ∧
      s.drop (lineLength s) = rest) ∨ s.drop (lineLength s) = [] := by
  have hsplit : s.takeWhile (fun c => decide (c ≠ '\n')) ++
      s.dropWhile (fun c => decide (c ≠ '\n')) = s := List.takeWhile_append_dropWhile
  have hdrop : s.drop (lineLength s) = s.dropWhile (fun c => decide (c ≠ '\n')) := by
    unfold lineLength
    nth_rewrite 2 [← hsplit]
    exact List.drop_left
  rw [hdrop]
  cases hrest : s.dropWhile (fun c => decide (c ≠ '\n')) with
  | nil => exact Or.inr rfl
  | cons c rest =>
    left
    have hc : c = '\n' := by
      have hhead := List.head?_dropWhile_not (fun c => decide (c ≠ '\n')) s
      rw [hrest] at hhead
      simpa using hhead
    rw [hrest] at hsplit
    refine ⟨_, _, hsplit.symm, fun hmem => ?_, by rw [hc]; rfl, rfl⟩
    exact absurd (List.mem_takeWhile_imp hmem) (by decide : ¬ decide ('\n' ≠ '\n') = true)

/-- That a comment holds no end can also be said of the comment with the first character of the
end. -/
theorem not_end_append {comment : List Char} (hfirst : ¬ ['*', '/'] <:+: comment) :
    ¬ ['*', '/'] <:+: comment ++ ['*', '/'].dropLast := by
  intro hin
  rcases List.infix_concat_iff.mp hin with hsuffix | hin
  · obtain ⟨front, hfront⟩ := hsuffix
    have hlast := congrArg List.getLast? hfront
    simp at hlast
  · exact hfirst hin

theorem before_end {comment s : List Char} (hfirst : ¬ ['*', '/'] <:+: comment) :
    before ['*', '/'] (comment ++ '*' :: '/' :: s) = comment.length := by
  have hfound : find? ['*', '/'] (comment ++ '*' :: '/' :: s) = some comment.length :=
    (find?_eq_some_iff (List.cons_ne_nil _ _)).mpr
      ⟨comment, s, by simp, rfl, not_end_append hfirst⟩
  rw [before, hfound, Option.getD_some]

/-- A comment ends after its first `*/`, or it takes all of the text. -/
theorem block_of_before (s : List Char) :
    (∃ comment rest, s = comment ++ '*' :: '/' :: rest ∧ ¬ ['*', '/'] <:+: comment ∧
      s.drop (before ['*', '/'] s + 2) = rest) ∨ s.drop (before ['*', '/'] s + 2) = [] := by
  cases hfound : find? ['*', '/'] s with
  | none =>
    right
    rw [before, hfound, Option.getD_none]
    exact List.drop_of_length_le (Nat.le_add_right _ _)
  | some n =>
    left
    obtain ⟨comment, rest, rfl, rfl, hfirst⟩ :=
      (find?_eq_some_iff (List.cons_ne_nil _ _)).mp hfound
    refine ⟨comment, rest, by simp, fun hin => hfirst (hin.trans ?_), ?_⟩
    · exact (List.prefix_append _ _).isInfix
    · rw [before, hfound, Option.getD_some, List.append_assoc, ← List.drop_drop, List.drop_left]
      rfl

/-! ## Moves of the scan -/

/-- The brace that closes the tag, from the cursor on. -/
def closes (c : Cursor) : Option Nat :=
  c.findCode? fun c => if c.depth = 0 ∧ c.rest.head? = some '\x7d' then some c.index else none

theorem closes_skip {c next : Cursor} (h : c.move = .skip next) : closes c = closes next := by
  unfold closes
  rw [Cursor.findCode?]
  split
  · rename_i h'
    cases h.symm.trans h'
  · rename_i h'
    cases h.symm.trans h'
    rfl
  · rename_i h'
    cases h.symm.trans h'

theorem closes_code {c next : Cursor} (h : c.move = .code next) :
    closes c = if c.depth = 0 ∧ c.rest.head? = some '\x7d' then some c.index else closes next := by
  unfold closes
  rw [Cursor.findCode?]
  split
  · rename_i h'
    cases h.symm.trans h'
  · rename_i h'
    cases h.symm.trans h'
  · rename_i h'
    cases h.symm.trans h'
    split
    · rename_i hfound
      split at hfound
      · rename_i hbrace
        cases hfound
        rw [if_pos hbrace]
      · cases hfound
    · rename_i hfound
      split at hfound
      · cases hfound
      · rename_i hbrace
        rw [if_neg hbrace]

theorem closes_finish {c : Cursor} (h : c.move = .finish) : closes c = none := by
  unfold closes
  rw [Cursor.findCode?]
  split
  · rfl
  · rename_i h'
    cases h.symm.trans h'
  · rename_i h'
    cases h.symm.trans h'

/-- Passing a character that opens or closes nothing changes nothing but the place. -/
theorem pass_plain {c : Cursor} {char : Char} (hopen : isOpening char = false)
    (hclose : isClosing char = false) : c.pass char = c.advance 1 := by
  unfold Cursor.pass
  rw [hopen, hclose]
  rfl

theorem pass_opening {c : Cursor} {char : Char} (hopen : isOpening char = true) :
    c.pass char = { c.advance 1 with opened := .bracket :: c.opened } := by
  unfold Cursor.pass
  rw [if_pos hopen]

/-- No bracket both opens and closes. -/
theorem isOpening_of_isClosing {char : Char} (hclose : isClosing char = true) :
    isOpening char = false := by
  simp only [isClosing, Bool.or_eq_true, beq_iff_eq] at hclose
  rcases hclose with (rfl | rfl) | rfl <;> rfl

theorem pass_closing {c : Cursor} {char : Char} (hclose : isClosing char = true) :
    c.pass char = match c.opened with
      | [] => c.advance 1
      | .bracket :: opened => { c.advance 1 with opened }
      | .substitution :: opened => { c.advance 1 with opened, inTemplate := true } := by
  unfold Cursor.pass
  rw [isOpening_of_isClosing hclose, hclose]
  rfl

/-- A character that starts no literal and no comment is code. -/
theorem codeMove_code {c : Cursor} {char : Char} {rest : List Char}
    (hquote : char ∉ ['"', '\'', '\x60'])
    (hcomment : ¬ (char = '/' ∧ (rest.head? = some '/' ∨ rest.head? = some '*'))) :
    c.codeMove char rest = .code (c.pass char) := by
  simp only [List.mem_cons, List.not_mem_nil, or_false, not_or] at hquote
  obtain ⟨hdouble, hsingle, hback⟩ := hquote
  have hline : ¬ (char = '/' ∧ rest.head? = some '/') := fun h => hcomment ⟨h.1, Or.inl h.2⟩
  have hblock : ¬ (char = '/' ∧ rest.head? = some '*') := fun h => hcomment ⟨h.1, Or.inr h.2⟩
  unfold Cursor.codeMove
  rw [if_neg (by simp [hdouble, hsingle]), if_neg hback, if_neg (by simpa using hline),
    if_neg (by simpa using hblock)]

/-- A bracket is code. -/
theorem codeMove_bracket {c : Cursor} {char : Char} {rest : List Char}
    (hbracket : isOpening char = true ∨ isClosing char = true) :
    c.codeMove char rest = .code (c.pass char) := by
  simp only [isOpening, isClosing, Bool.or_eq_true, beq_iff_eq] at hbracket
  rcases hbracket with ((rfl | rfl) | rfl) | ((rfl | rfl) | rfl) <;>
    exact codeMove_code (by decide) (by simp)

/-! ## What is complete is passed -/

/-- Whatever is open, the scan of the first text goes on with the second one, further on; `mode`
tells whether the place is inside a template literal. -/
def Leads (mode : Bool) (s : List Char) (mode' : Bool) (t : List Char) : Prop :=
  ∃ n, s.length = n + t.length ∧ ∀ index opened,
    closes ⟨index, s, opened, mode⟩ = closes ⟨index + n, t, opened, mode'⟩

theorem Leads.refl (mode : Bool) (s : List Char) : Leads mode s mode s :=
  ⟨0, (Nat.zero_add _).symm, fun _ _ => rfl⟩

theorem Leads.trans {m m' m'' : Bool} {s t u : List Char} (hst : Leads m s m' t)
    (htu : Leads m' t m'' u) : Leads m s m'' u := by
  obtain ⟨n, hn, hst⟩ := hst
  obtain ⟨k, hk, htu⟩ := htu
  refine ⟨n + k, by omega, fun index opened => ?_⟩
  rw [hst, htu, Nat.add_assoc]

/-- A move that skips some characters. -/
theorem Leads.of_skip {mode mode' : Bool} {s t : List Char} {n : Nat}
    (hlength : s.length = n + t.length) (hmove : ∀ index opened,
      (Cursor.mk index s opened mode).move = .skip ⟨index + n, t, opened, mode'⟩) :
    Leads mode s mode' t :=
  ⟨n, hlength, fun index opened => closes_skip (hmove index opened)⟩

/-- The end of a level: the scan goes on one level further out, inside a template literal if a
substitution has ended. -/
theorem closes_closing {d : Char} (hclose : isClosing d = true) (index : Nat) (t : List Char)
    (opener : Opener) (opened : List Opener) :
    closes ⟨index, d :: t, opener :: opened, false⟩ =
      closes ⟨index + 1, t, opened, opener == .substitution⟩ := by
  have hmove : (Cursor.mk index (d :: t) (opener :: opened) false).move =
      .code ⟨index + 1, t, opened, opener == .substitution⟩ := by
    show Cursor.codeMove _ d t = _
    rw [codeMove_bracket (Or.inr hclose), pass_closing hclose]
    cases opener <;> rfl
  rw [closes_code hmove, if_neg fun h => absurd h.1 (Nat.succ_ne_zero _)]

/-- A level that is opened, its items, and its end. -/
theorem Leads.level (opener : Opener) (k : Nat) {mode : Bool} {d : Char} {s s' t : List Char}
    (hlength : s.length = k + s'.length)
    (hopened : ∀ index opened, closes ⟨index, s, opened, mode⟩ =
      closes ⟨index + k, s', opener :: opened, false⟩)
    (hitems : Leads false s' false (d :: t)) (hclose : isClosing d = true) :
    Leads mode s (opener == .substitution) t := by
  obtain ⟨n, hn, hitems⟩ := hitems
  rw [List.length_cons] at hn
  refine ⟨k + n + 1, by omega, fun index opened => ?_⟩
  have hindex : index + k + n + 1 = index + (k + n + 1) := by omega
  rw [hopened, hitems, closes_closing hclose, hindex]

mutual

/-- **An item is passed**, whatever is open. -/
theorem Item.leads : ∀ {s t : List Char}, Item s t → Leads false s false t
  | _, _, .plain (c := c) (s := s) hc => by
    obtain ⟨hquote, hopen, hclose, hcomment⟩ := hc
    refine ⟨1, Nat.add_comm _ _, fun index opened => ?_⟩
    have hmove : (Cursor.mk index (c :: s) opened false).move =
        .code ⟨index + 1, s, opened, false⟩ := by
      show Cursor.codeMove _ c s = _
      rw [codeMove_code hquote hcomment, pass_plain hopen hclose]
      rfl
    have hbrace : c ≠ '\x7d' := by
      rintro rfl
      exact absurd hclose (by decide)
    rw [closes_code hmove, if_neg fun h => hbrace (Option.some.inj h.2)]
  | _, _, @Item.quoted quote s _ hquote h => by
    have hescape : quote ≠ '\\' := by rcases hquote with rfl | rfl <;> decide
    obtain ⟨hlength, hdrop⟩ := h.length hescape
    refine Leads.of_skip (n := literalLength quote s + 1) ?_ fun index opened => ?_
    · rw [List.length_cons]
      omega
    · show Cursor.codeMove _ quote s = _
      unfold Cursor.codeMove
      rw [if_pos (by simpa using hquote)]
      simp [Cursor.advance, hdrop]
  | _, _, @Item.blockComment comment s hfirst => by
    refine Leads.of_skip (n := comment.length + 4) ?_ fun index opened => ?_
    · simp only [List.length_cons, List.length_append]
      omega
    · show Cursor.codeMove _ '/' ('*' :: (comment ++ '*' :: '/' :: s)) = _
      simp [Cursor.codeMove, Cursor.advance, before_end hfirst]
  | _, _, @Item.lineComment comment s hline hend => by
    have hslash : '\n' ∉ '/' :: comment := by simpa using hline
    have hlength : lineLength ('/' :: (comment ++ s)) = comment.length + 1 :=
      lineLength_append hslash hend
    refine Leads.of_skip (n := comment.length + 2) ?_ fun index opened => ?_
    · simp only [List.length_cons, List.length_append]
      omega
    · show Cursor.codeMove _ '/' ('/' :: (comment ++ s)) = _
      simp [Cursor.codeMove, Cursor.advance, hlength]
  | _, _, .literal (s := s) h =>
    have hopened : Leads false ('\x60' :: s) true s :=
      Leads.of_skip (n := 1) (Nat.add_comm _ _) fun _ _ => rfl
    hopened.trans h.leads
  | _, _, .bracket (c := c) (s := s) hopen h hclose => by
    refine Leads.level .bracket 1 (Nat.add_comm _ _) (fun index opened => ?_) h.leads hclose
    have hmove : (Cursor.mk index (c :: s) opened false).move =
        .code ⟨index + 1, s, .bracket :: opened, false⟩ := by
      show Cursor.codeMove _ c s = _
      rw [codeMove_bracket (Or.inl hopen), pass_opening hopen]
      rfl
    have hbrace : c ≠ '\x7d' := by
      rintro rfl
      exact absurd hopen (by decide)
    rw [closes_code hmove, if_neg fun h => hbrace (Option.some.inj h.2)]

/-- A row of items is passed. -/
theorem Items.leads : ∀ {s t : List Char}, Items s t → Leads false s false t
  | _, _, .nil s => Leads.refl false s
  | _, _, .cons h hs => h.leads.trans hs.leads

/-- What is left of a template literal is passed. -/
theorem Literal.leads : ∀ {s t : List Char}, Literal s t → Leads true s false t
  | _, _, .close s => Leads.of_skip (n := 1) (Nat.add_comm _ _) fun _ _ => rfl
  | _, _, .escape (c := c) (s := s) h =>
    have hescape : Leads true ('\\' :: c :: s) true s :=
      Leads.of_skip (n := 2) (by simp only [List.length_cons]; omega) fun _ _ => rfl
    hescape.trans h.leads
  | _, _, .char (c := c) (s := s) hc hdollar h => by
    have hchar : Leads true (c :: s) true s := by
      refine Leads.of_skip (n := 1) (Nat.add_comm _ _) fun index opened => ?_
      show Cursor.templateMove _ c s = _
      unfold Cursor.templateMove
      rw [if_neg hc.2, if_neg hc.1, if_neg (by simpa using hdollar)]
      rfl
    exact hchar.trans h.leads
  | _, _, .substitution (s := s) h hclose hs =>
    have hlevel : Leads true ('$' :: '\x7b' :: s) true _ :=
      Leads.level .substitution 2 (by simp only [List.length_cons]; omega)
        (fun _ _ => closes_skip rfl) h.leads hclose
    hlevel.trans hs.leads

end

/-! ## What is passed is complete -/

/-- The first text ends all that is open, innermost first, and the tag goes on outside of it until
the second text: each level is ended by a closing bracket, that of a substitution goes on with the
template literal around it. -/
def Ends : List Opener → List Char → List Char → Prop
  | [], s, rest => Body s rest
  | .bracket :: opened, s, rest =>
    ∃ d t, Items s (d :: t) ∧ isClosing d = true ∧ Ends opened t rest
  | .substitution :: opened, s, rest =>
    ∃ d t u, Items s (d :: t) ∧ isClosing d = true ∧ Literal t u ∧ Ends opened u rest

/-- The text from a cursor on ends all that is open there. -/
def EndsAt (c : Cursor) (rest : List Char) : Prop :=
  if c.inTemplate then ∃ t, Literal c.rest t ∧ Ends c.opened t rest
  else Ends c.opened c.rest rest

theorem Ends.item {s t rest : List Char} (h : Item s t) : ∀ {opened : List Opener},
    Ends opened t rest → Ends opened s rest
  | [], hends => Body.item h hends
  | .bracket :: _, ⟨d, u, hitems, hends⟩ => ⟨d, u, .cons h hitems, hends⟩
  | .substitution :: _, ⟨d, u, v, hitems, hends⟩ => ⟨d, u, v, .cons h hitems, hends⟩

theorem Body.length_le {s t : List Char} (h : Body s t) : t.length ≤ s.length := by
  induction h with
  | nil => exact Nat.le_refl _
  | item h _ ih =>
    obtain ⟨n, hn, _⟩ := h.leads
    omega
  | stray _ _ ih => exact Nat.le_succ_of_le ih

/-- Nothing that goes on can come out of no text. -/
theorem not_ends_nil {c : Char} {rest : List Char} : ∀ {opened : List Opener},
    ¬ Ends opened [] (c :: rest)
  | [], h => Nat.not_succ_le_zero _ (Body.length_le h)
  | .bracket :: _, ⟨_, _, h, _⟩ => by
    obtain ⟨n, hn, _⟩ := h.leads
    exact absurd hn (by simp)
  | .substitution :: _, ⟨_, _, _, h, _⟩ => by
    obtain ⟨n, hn, _⟩ := h.leads
    exact absurd hn (by simp)

/-- **One step back inside a template literal.** -/
theorem endsAt_of_templateMove {c next : Cursor} {char : Char} {tail rest : List Char}
    (hrest : c.rest = char :: tail) (hmode : c.inTemplate = true)
    (hmove : c.templateMove char tail = .skip next) (hends : EndsAt next rest) :
    EndsAt c rest := by
  obtain ⟨index, text, opened, mode⟩ := c
  obtain rfl : text = char :: tail := hrest
  obtain rfl : mode = true := hmode
  show ∃ t, Literal (char :: tail) t ∧ Ends opened t rest
  unfold Cursor.templateMove at hmove
  split at hmove
  · rename_i hescape
    cases hmove
    obtain ⟨t, ht, hends⟩ := hends
    subst hescape
    cases tail with
    | nil => exact (nomatch ht)
    | cons d tail => exact ⟨t, .escape ht, hends⟩
  · rename_i hescape
    split at hmove
    · rename_i hclose
      cases hmove
      subst hclose
      exact ⟨tail, .close tail, hends⟩
    · rename_i hclose
      split at hmove
      · rename_i hdollar
        cases hmove
        simp only [Bool.and_eq_true, decide_eq_true_eq] at hdollar
        obtain ⟨rfl, hbrace⟩ := hdollar
        obtain ⟨tail, rfl⟩ := List.head?_eq_some_iff.mp hbrace
        obtain ⟨d, t, u, hitems, hd, hliteral, hends⟩ := hends
        exact ⟨u, .substitution hitems hd hliteral, hends⟩
      · rename_i hdollar
        cases hmove
        obtain ⟨t, ht, hends⟩ := hends
        exact ⟨t, .char ⟨hclose, hescape⟩ (by simpa using hdollar) ht, hends⟩

/-- **One step back over a literal or a comment.** The scan passes one that is not complete as
well, but then nothing is left. -/
theorem endsAt_of_codeMove {c next : Cursor} {char : Char} {tail rest : List Char} {d : Char}
    (hrest : c.rest = char :: tail) (hmode : c.inTemplate = false)
    (hmove : c.codeMove char tail = .skip next) (hends : EndsAt next (d :: rest)) :
    EndsAt c (d :: rest) := by
  obtain ⟨index, text, opened, mode⟩ := c
  obtain rfl : text = char :: tail := hrest
  obtain rfl : mode = false := hmode
  show Ends opened (char :: tail) (d :: rest)
  unfold Cursor.codeMove at hmove
  split at hmove
  · rename_i hquote
    cases hmove
    have hends : Ends opened (tail.drop (literalLength char tail)) (d :: rest) := hends
    rcases quoted_of_literalLength char tail with hquoted | hnil
    · exact hends.item (.quoted (by simpa using hquote) hquoted)
    · rw [hnil] at hends
      exact absurd hends not_ends_nil
  · split at hmove
    · rename_i hback
      cases hmove
      subst hback
      obtain ⟨t, ht, hends⟩ := hends
      exact hends.item (.literal ht)
    · split at hmove
      · rename_i hline
        cases hmove
        simp only [Bool.and_eq_true, decide_eq_true_eq] at hline
        obtain ⟨rfl, hslash⟩ := hline
        obtain ⟨tail, rfl⟩ := List.head?_eq_some_iff.mp hslash
        have hends : Ends opened (tail.drop (lineLength tail)) (d :: rest) := hends
        rcases line_of_lineLength tail with ⟨comment, t, rfl, hline, hend, hdrop⟩ | hnil
        · rw [hdrop] at hends
          exact hends.item (.lineComment hline hend)
        · rw [hnil] at hends
          exact absurd hends not_ends_nil
      · split at hmove
        · rename_i hblock
          cases hmove
          simp only [Bool.and_eq_true, decide_eq_true_eq] at hblock
          obtain ⟨rfl, hstar⟩ := hblock
          obtain ⟨tail, rfl⟩ := List.head?_eq_some_iff.mp hstar
          have hends : Ends opened (tail.drop (before ['*', '/'] tail + 2)) (d :: rest) := hends
          rcases block_of_before tail with ⟨comment, t, rfl, hfirst, hdrop⟩ | hnil
          · rw [hdrop] at hends
            exact hends.item (.blockComment hfirst)
          · rw [hnil] at hends
            exact absurd hends not_ends_nil
        · cases hmove

/-- Code that is passed is plain or a bracket. -/
theorem plain_of_codeMove {c next : Cursor} {char : Char} {tail : List Char}
    (hmove : c.codeMove char tail = .code next) :
    Plain char tail ∨ isOpening char = true ∨ isClosing char = true := by
  unfold Cursor.codeMove at hmove
  split at hmove
  · cases hmove
  · rename_i hquote
    split at hmove
    · cases hmove
    · rename_i hback
      split at hmove
      · cases hmove
      · rename_i hline
        split at hmove
        · cases hmove
        · rename_i hblock
          by_cases hopen : isOpening char = true
          · exact Or.inr (Or.inl hopen)
          by_cases hclose : isClosing char = true
          · exact Or.inr (Or.inr hclose)
          rw [Bool.not_eq_true] at hopen hclose
          left
          refine ⟨?_, hopen, hclose, ?_⟩
          · simp only [Bool.or_eq_true, decide_eq_true_eq, not_or] at hquote
            simp [hquote, hback]
          · simp only [Bool.and_eq_true, decide_eq_true_eq] at hline hblock
            rintro ⟨hslash, hnext | hnext⟩
            · exact hline ⟨hslash, hnext⟩
            · exact hblock ⟨hslash, hnext⟩

/-- **One step back over code.** On the outermost level `}` would be the end. -/
theorem endsAt_of_pass {c : Cursor} {char : Char} {tail rest : List Char}
    (hrest : c.rest = char :: tail) (hmode : c.inTemplate = false)
    (hcode : Plain char tail ∨ isOpening char = true ∨ isClosing char = true)
    (hnot : ¬ (c.depth = 0 ∧ c.rest.head? = some '\x7d')) (hends : EndsAt (c.pass char) rest) :
    EndsAt c rest := by
  obtain ⟨index, text, opened, mode⟩ := c
  obtain rfl : text = char :: tail := hrest
  obtain rfl : mode = false := hmode
  show Ends opened (char :: tail) rest
  rcases hcode with hplain | hopen | hclose
  · rw [pass_plain hplain.2.1 hplain.2.2.1] at hends
    have hends : Ends opened tail rest := hends
    exact hends.item (.plain hplain)
  · rw [pass_opening hopen] at hends
    obtain ⟨d, t, hitems, hd, hends⟩ := hends
    exact Ends.item (.bracket hopen hitems hd) hends
  · rw [pass_closing hclose] at hends
    match opened with
    -- the level that `char` ends has no items before it; earlier steps back add them
    | [] =>
      have hends : Body tail rest := hends
      refine .stray ?_ hends
      have hbrace : char ≠ '\x7d' := fun h => hnot ⟨rfl, congrArg some h⟩
      simpa [isClosing, hbrace] using hclose
    | .bracket :: opened => exact ⟨char, tail, .nil _, hclose, hends⟩
    | .substitution :: opened =>
      obtain ⟨t, ht, hends⟩ := hends
      exact ⟨char, tail, t, .nil _, hclose, ht, hends⟩

/-- **What is passed is complete**: if the scan finds a brace, the text before it ends all that is
open. -/
theorem endsAt_of_closes {c : Cursor} {i : Nat} (h : closes c = some i) :
    ∃ n rest, i = c.index + n ∧ c.rest.drop n = '\x7d' :: rest ∧ EndsAt c ('\x7d' :: rest) := by
  cases hmove : c.move with
  | finish =>
    rw [closes_finish hmove] at h
    cases h
  | skip next =>
    rw [closes_skip hmove] at h
    obtain ⟨k, _, hindex, hnext⟩ := Cursor.ahead_of_skip hmove
    obtain ⟨n, rest, hi, hdrop, hends⟩ := endsAt_of_closes h
    refine ⟨k + n, rest, by omega, ?_, ?_⟩
    · rw [← hdrop, hnext, List.drop_drop]
    · unfold Cursor.move at hmove
      split at hmove
      · cases hmove
      · rename_i char tail hrest
        split at hmove
        · rename_i hmode
          exact endsAt_of_templateMove hrest hmode hmove hends
        · rename_i hmode
          exact endsAt_of_codeMove hrest (by simpa using hmode) hmove hends
  | code next =>
    obtain ⟨hmode, char, tail, hrest, rfl⟩ := Cursor.code_iff hmove
    rw [closes_code hmove] at h
    split at h
    · rename_i hfound
      cases h
      -- the brace itself: nothing is open, and no text is before it
      obtain ⟨rest, hbrace⟩ := List.head?_eq_some_iff.mp hfound.2
      have hopened : c.opened = [] := List.eq_nil_of_length_eq_zero hfound.1
      refine ⟨0, rest, rfl, hbrace, ?_⟩
      unfold EndsAt
      rw [hmode, hopened, hbrace]
      exact .nil _
    · rename_i hnot
      obtain ⟨n, rest, hi, hdrop, hends⟩ := endsAt_of_closes h
      have hcode : c.codeMove char tail = .code (c.pass char) := by
        have hcode := hmove
        unfold Cursor.move at hcode
        rw [hrest] at hcode
        simpa [hmode] using hcode
      refine ⟨1 + n, rest, ?_, ?_, endsAt_of_pass hrest hmode (plain_of_codeMove hcode) hnot hends⟩
      · rw [hi, Cursor.index_pass, Nat.add_assoc]
      · rw [← hdrop, Cursor.rest_pass, List.drop_drop]
termination_by c.rest.length
decreasing_by
  · exact Cursor.length_lt_of_skip hmove
  · exact Cursor.length_lt_of_code hmove

/-! ## The closing brace -/

/-- On the outermost level, what is complete is passed. -/
theorem Body.passed {s t : List Char} (h : Body s t) : ∃ n, s.length = n + t.length ∧
    ∀ index, closes ⟨index, s, [], false⟩ = Script.closes ⟨index + n, t, [], false⟩ := by
  induction h with
  | nil => exact ⟨0, (Nat.zero_add _).symm, fun _ => rfl⟩
  | item h _ ih =>
    obtain ⟨n, hn, hitem⟩ := h.leads
    obtain ⟨k, hk, hbody⟩ := ih
    refine ⟨n + k, by omega, fun index => ?_⟩
    rw [hitem, hbody, Nat.add_assoc]
  | @stray c s t hc _ ih =>
    obtain ⟨k, hk, hbody⟩ := ih
    refine ⟨k + 1, by rw [List.length_cons]; omega, fun index => ?_⟩
    have hclose : isClosing c = true := by rcases hc with rfl | rfl <;> rfl
    have hmove : (Cursor.mk index (c :: s) [] false).move = .code ⟨index + 1, s, [], false⟩ := by
      show Cursor.codeMove _ c s = _
      rw [codeMove_bracket (Or.inr hclose), pass_closing hclose]
      rfl
    have hbrace : c ≠ '\x7d' := by rcases hc with rfl | rfl <;> decide
    rw [closes_code hmove, if_neg fun h => hbrace (Option.some.inj h.2), hbody, Nat.add_assoc,
      Nat.add_comm 1]

theorem closes_brace (index : Nat) (rest : List Char) :
    closes ⟨index, '\x7d' :: rest, [], false⟩ = some index := by
  rw [closes_code rfl, if_pos ⟨rfl, rfl⟩]

/-- **The brace that closes a tag** is the one before which the text, from the start on, is a row
of items and of brackets `)` and `]` that close nothing. If there is none, none is found. -/
theorem closingBrace_eq_iff_body (text : List Char) (start : Nat) :
    (∀ i, closingBrace? text start = some i ↔
      start ≤ i ∧ text[i]? = some '\x7d' ∧ Body (text.drop start) (text.drop i)) ∧
    (closingBrace? text start = none ↔
      ∀ i, start ≤ i → text[i]? = some '\x7d' → ¬ Body (text.drop start) (text.drop i)) := by
  have hiff : ∀ i, closingBrace? text start = some i ↔
      start ≤ i ∧ text[i]? = some '\x7d' ∧ Body (text.drop start) (text.drop i) := by
    intro i
    constructor
    · intro h
      obtain ⟨hle, hbrace⟩ := closingBrace?_some h
      obtain ⟨n, rest, hi, hdrop, hends⟩ := endsAt_of_closes (c := .ofText text start) h
      obtain rfl : i = start + n := hi
      have hdrop : text.drop (start + n) = '\x7d' :: rest := by
        rw [← hdrop, Cursor.ofText, List.drop_drop]
      refine ⟨hle, hbrace, ?_⟩
      rw [hdrop]
      exact hends
    · rintro ⟨hle, hbrace, hbody⟩
      obtain ⟨n, hn, hcloses⟩ := hbody.passed
      obtain ⟨hlt, hget⟩ := List.getElem?_eq_some_iff.mp hbrace
      have hend : text.drop i = '\x7d' :: text.drop (i + 1) := by
        rw [List.drop_eq_getElem_cons hlt, hget]
      rw [List.length_drop, List.length_drop] at hn
      obtain rfl : i = start + n := by omega
      show Script.closes (.ofText text start) = _
      rw [Cursor.ofText, hcloses, hend, closes_brace]
  refine ⟨hiff, ?_⟩
  rw [Option.eq_none_iff_forall_not_mem]
  exact forall_congr' fun i => by
    rw [Option.mem_def, hiff]
    simp only [not_and]

end RawHtmlLint.Script

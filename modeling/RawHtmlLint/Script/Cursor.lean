import RawHtmlLint.Text.Slice

/-!
# Scanning embedded script

Model of `iter_code`, `_skip_quoted`, `find_closing_brace` and `find_top_level`. A `Cursor` walks
over script code and knows which brackets are open. String literals, template literals and comments
are passed over, so a bracket inside them never counts; a substitution `${` in a template literal is
code again up to its closing bracket. Regular expressions are not told from division.

Any closing bracket closes the innermost one that is open, whatever its shape; one without an
open bracket is passed like any other character.

Results:
* `code_index_lt`: characters of code are met in increasing order of their index.
* `findCode?_eq_findSome?`: searching with a cursor is searching the list of all its stops.
* `closingBrace?_some`: what is found is a closing brace at or after the start.
-/

namespace RawHtmlLint.Script

open Text

/-- What opened the innermost level of nesting. -/
inductive Opener where
  | bracket
  /-- The `${` of a template literal, to which its closing bracket leads back. -/
  | substitution
  deriving DecidableEq, Repr

/-- A place in script code. -/
structure Cursor where
  index : Nat
  /-- The text from the index on. -/
  rest : List Char
  /-- What is open, innermost first. -/
  opened : List Opener
  /-- The place is inside a template literal. -/
  inTemplate : Bool

/-- The number of characters of a string literal after its opening quote, with the quote or
line feed that ends it; a backslash takes the next character with it. -/
def literalLength (quote : Char) : List Char → Nat
  | [] => 0
  | ['\\'] => 1
  | '\\' :: _ :: rest => literalLength quote rest + 2
  | c :: rest => if c = quote || c = '\n' then 1 else literalLength quote rest + 1

/-- The number of characters before the end of the line. -/
def lineLength (s : List Char) : Nat := (s.takeWhile (· ≠ '\n')).length

/-- One of the brackets that open a level. -/
def isOpening (c : Char) : Bool := c == '(' || c == '[' || c == '\x7b'

/-- One of the brackets that close a level. -/
def isClosing (c : Char) : Bool := c == ')' || c == ']' || c == '\x7d'

namespace Cursor

/-- The start of a scan at an index of a text. -/
def ofText (text : List Char) (start : Nat) : Cursor := ⟨start, text.drop start, [], false⟩

/-- The nesting level at the cursor, not counting a bracket that it stands on. -/
def depth (c : Cursor) : Nat := c.opened.length

/-- The cursor `n` characters on, at the same level. -/
def advance (c : Cursor) (n : Nat) : Cursor :=
  { c with index := c.index + n, rest := c.rest.drop n }

/-- The cursor past one character of code. -/
def pass (c : Cursor) (char : Char) : Cursor :=
  let next := c.advance 1
  if isOpening char then { next with opened := .bracket :: c.opened }
  else if isClosing char then
    match c.opened with
    | [] => next
    | .bracket :: opened => { next with opened }
    | .substitution :: opened => { next with opened, inTemplate := true }
  else next

/-- What the next move is. -/
inductive Move where
  /-- The text is at its end. -/
  | finish
  /-- Characters that are not code, or that belong to a literal or comment, are passed. -/
  | skip (next : Cursor)
  /-- The cursor stands on a character of code and passes it. -/
  | code (next : Cursor)

/-- The next move from inside a template literal that goes on with `char` and then `rest`. -/
def templateMove (c : Cursor) (char : Char) (rest : List Char) : Move :=
  if char = '\\' then .skip (c.advance 2)
  else if char = '\x60' then .skip { c.advance 1 with inTemplate := false }
  else if char = '$' && rest.head? = some '\x7b' then
    .skip { c.advance 2 with opened := .substitution :: c.opened, inTemplate := false }
  else .skip (c.advance 1)

/-- The next move from code that goes on with `char` and then `rest`. -/
def codeMove (c : Cursor) (char : Char) (rest : List Char) : Move :=
  if char = '"' || char = '\'' then .skip (c.advance (literalLength char rest + 1))
  else if char = '\x60' then .skip { c.advance 1 with inTemplate := true }
  else if char = '/' && rest.head? = some '/' then .skip (c.advance (lineLength rest + 1))
  else if char = '/' && rest.head? = some '*' then
    .skip (c.advance (before ['*', '/'] (rest.drop 1) + 4))
  else .code (c.pass char)

/-- The next move. -/
def move (c : Cursor) : Move :=
  match c.rest with
  | [] => .finish
  | char :: rest => if c.inTemplate then c.templateMove char rest else c.codeMove char rest

theorem rest_pass (c : Cursor) (char : Char) : (c.pass char).rest = c.rest.drop 1 := by
  simp only [pass]
  split
  · rfl
  · split
    · split <;> rfl
    · rfl

theorem index_pass (c : Cursor) (char : Char) : (c.pass char).index = c.index + 1 := by
  simp only [pass]
  split
  · rfl
  · split
    · split <;> rfl
    · rfl

/-- What a move leads to: some way further on in the same text. -/
def Ahead (c next : Cursor) : Prop :=
  ∃ n, 0 < n ∧ next.index = c.index + n ∧ next.rest = c.rest.drop n

theorem ahead_of_templateMove {c next : Cursor} {char : Char} {rest : List Char}
    (h : c.templateMove char rest = .skip next) : c.Ahead next := by
  unfold templateMove at h
  split at h
  · cases h
    exact ⟨2, by decide, rfl, rfl⟩
  · split at h
    · cases h
      exact ⟨1, by decide, rfl, rfl⟩
    · split at h
      · cases h
        exact ⟨2, by decide, rfl, rfl⟩
      · cases h
        exact ⟨1, by decide, rfl, rfl⟩

theorem templateMove_ne_code {c next : Cursor} {char : Char} {rest : List Char} :
    c.templateMove char rest ≠ .code next := by
  unfold templateMove
  split
  · exact Move.noConfusion
  · split
    · exact Move.noConfusion
    · split <;> exact Move.noConfusion

theorem ahead_of_codeMove {c next : Cursor} {char : Char} {rest : List Char}
    (h : c.codeMove char rest = .skip next) : c.Ahead next := by
  unfold codeMove at h
  split at h
  · cases h
    exact ⟨_, Nat.succ_pos _, rfl, rfl⟩
  · split at h
    · cases h
      exact ⟨1, by decide, rfl, rfl⟩
    · split at h
      · cases h
        exact ⟨_, Nat.succ_pos _, rfl, rfl⟩
      · split at h
        · cases h
          exact ⟨_, Nat.succ_pos _, rfl, rfl⟩
        · cases h

theorem code_of_codeMove {c next : Cursor} {char : Char} {rest : List Char}
    (h : c.codeMove char rest = .code next) : next = c.pass char := by
  unfold codeMove at h
  split at h
  · cases h
  · split at h
    · cases h
    · split at h
      · cases h
      · split at h <;> cases h
        rfl

theorem ahead_of_skip {c next : Cursor} (h : c.move = .skip next) : c.Ahead next := by
  unfold move at h
  split at h
  · cases h
  · split at h
    · exact ahead_of_templateMove h
    · exact ahead_of_codeMove h

/-- A character of code is passed on its own. -/
theorem code_iff {c next : Cursor} (h : c.move = .code next) :
    c.inTemplate = false ∧ ∃ char rest, c.rest = char :: rest ∧ next = c.pass char := by
  unfold move at h
  split at h
  · cases h
  · rename_i char rest hrest
    split at h
    · exact absurd h templateMove_ne_code
    · rename_i hmode
      exact ⟨by simpa using hmode, char, rest, hrest, code_of_codeMove h⟩

theorem ahead_of_code {c next : Cursor} (h : c.move = .code next) : c.Ahead next := by
  obtain ⟨_, char, rest, _, rfl⟩ := code_iff h
  exact ⟨1, by decide, index_pass c char, rest_pass c char⟩

theorem rest_ne_nil_of_move {c : Cursor} (h : c.move ≠ .finish) : c.rest ≠ [] := by
  intro hnil
  apply h
  unfold move
  rw [hnil]

theorem length_lt_of_skip {c next : Cursor} (h : c.move = .skip next) :
    next.rest.length < c.rest.length := by
  obtain ⟨n, hn, _, hrest⟩ := ahead_of_skip h
  have hne := rest_ne_nil_of_move (c := c) (by rw [h]; exact Move.noConfusion)
  have hpos := List.length_pos_iff.mpr hne
  rw [hrest, List.length_drop]
  omega

theorem length_lt_of_code {c next : Cursor} (h : c.move = .code next) :
    next.rest.length < c.rest.length := by
  obtain ⟨n, hn, _, hrest⟩ := ahead_of_code h
  have hne := rest_ne_nil_of_move (c := c) (by rw [h]; exact Move.noConfusion)
  have hpos := List.length_pos_iff.mpr hne
  rw [hrest, List.length_drop]
  omega

/-- The first answer that `f` gives at a character of code, from the cursor on. -/
def findCode? {α : Type} (f : Cursor → Option α) (c : Cursor) : Option α :=
  match _h : c.move with
  | .finish => none
  | .skip next => findCode? f next
  | .code next =>
    match f c with
    | some a => some a
    | none => findCode? f next
termination_by c.rest.length
decreasing_by
  · exact length_lt_of_skip _h
  · exact length_lt_of_code _h

/-- The stops of the cursor at characters of code. -/
def stops (c : Cursor) : List Cursor :=
  match _h : c.move with
  | .finish => []
  | .skip next => stops next
  | .code next => c :: stops next
termination_by c.rest.length
decreasing_by
  · exact length_lt_of_skip _h
  · exact length_lt_of_code _h

end Cursor

/-- The characters of code from `start` on, each by its index and its nesting level. -/
def code (text : List Char) (start : Nat) : List (Nat × Nat) :=
  (Cursor.ofText text start).stops.map fun c => (c.index, c.depth)

/-- The index of the closing brace that ends the code which starts at `start`. -/
def closingBrace? (text : List Char) (start : Nat) : Option Nat :=
  (Cursor.ofText text start).findCode? fun c =>
    if c.depth = 0 ∧ c.rest.head? = some '\x7d' then some c.index else none

/-- The first place outside brackets, literals and comments, from `start` on, where the text
goes on as `pattern` wants: the start and end of the match and what the pattern tells of it. The
pattern answers the length of what it matches. -/
def topLevel? {α : Type} (pattern : List Char → Option (Nat × α)) (text : List Char)
    (start : Nat) : Option (Nat × Nat × α) :=
  (Cursor.ofText text start).findCode? fun c =>
    if c.depth = 0 then
      (pattern c.rest).map fun m => (c.index, c.index + m.1, m.2)
    else none

/-- Searching with a cursor is searching the list of all its stops. -/
theorem findCode?_eq_findSome? {α : Type} (f : Cursor → Option α) (c : Cursor) :
    c.findCode? f = c.stops.findSome? f := by
  fun_induction Cursor.stops c with
  | case1 c h =>
    rw [Cursor.findCode?]
    split
    · rfl
    · rename_i h'
      exact absurd (h.symm.trans h') Cursor.Move.noConfusion
    · rename_i h'
      exact absurd (h.symm.trans h') Cursor.Move.noConfusion
  | case2 c next h ih =>
    rw [Cursor.findCode?]
    split
    · rename_i h'
      exact absurd (h.symm.trans h') Cursor.Move.noConfusion
    · rename_i h'
      cases h.symm.trans h'
      exact ih
    · rename_i h'
      exact absurd (h.symm.trans h') Cursor.Move.noConfusion
  | case3 c next h ih =>
    rw [Cursor.findCode?, List.findSome?_cons]
    split
    · rename_i h'
      exact absurd (h.symm.trans h') Cursor.Move.noConfusion
    · rename_i h'
      exact absurd (h.symm.trans h') Cursor.Move.noConfusion
    · rename_i h'
      cases h.symm.trans h'
      cases hf : f c with
      | some a => rfl
      | none => exact ih

/-- Every stop lies ahead in the same text. -/
theorem stop_ahead {c stop : Cursor} (h : stop ∈ c.stops) :
    ∃ n, stop.index = c.index + n ∧ stop.rest = c.rest.drop n ∧ stop.rest ≠ [] := by
  fun_induction Cursor.stops c with
  | case1 c hm => exact absurd h List.not_mem_nil
  | case2 c next hm ih =>
    obtain ⟨m, hidx, hrest, hne⟩ := ih h
    obtain ⟨k, _, hidx', hrest'⟩ := Cursor.ahead_of_skip hm
    exact ⟨k + m, by omega, by rw [hrest, hrest', List.drop_drop], hne⟩
  | case3 c next hm ih =>
    rcases List.mem_cons.mp h with rfl | h
    · exact ⟨0, rfl, rfl, Cursor.rest_ne_nil_of_move (by rw [hm]; exact Cursor.Move.noConfusion)⟩
    · obtain ⟨m, hidx, hrest, hne⟩ := ih h
      obtain ⟨k, _, hidx', hrest'⟩ := Cursor.ahead_of_code hm
      exact ⟨k + m, by omega, by rw [hrest, hrest', List.drop_drop], hne⟩

/-- Characters of code are met in increasing order of their index. -/
theorem code_index_lt (c : Cursor) : c.stops.Pairwise (fun a b => a.index < b.index) := by
  fun_induction Cursor.stops c with
  | case1 c hm => exact List.Pairwise.nil
  | case2 c next hm ih => exact ih
  | case3 c next hm ih =>
    refine List.pairwise_cons.mpr ⟨fun stop hs => ?_, ih⟩
    obtain ⟨m, hidx, _, _⟩ := stop_ahead hs
    obtain ⟨k, hk, hidx', _⟩ := Cursor.ahead_of_code hm
    omega

/-- **What is found is a closing brace of the text, at or after the start.** -/
theorem closingBrace?_some {text : List Char} {start i : Nat}
    (h : closingBrace? text start = some i) : start ≤ i ∧ text[i]? = some '\x7d' := by
  rw [closingBrace?, findCode?_eq_findSome?] at h
  obtain ⟨stop, hmem, hstop⟩ := List.exists_of_findSome?_eq_some h
  obtain ⟨n, hidx, hrest, _⟩ := stop_ahead hmem
  split at hstop
  · rename_i hc
    cases hstop
    refine ⟨by rw [hidx]; exact Nat.le_add_right _ _, ?_⟩
    have hhead := hc.2
    rw [hrest, Cursor.ofText, List.drop_drop, List.head?_drop] at hhead
    rw [hidx]
    exact hhead
  · cases hstop

end RawHtmlLint.Script

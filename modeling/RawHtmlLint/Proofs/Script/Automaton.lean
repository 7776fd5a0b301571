import Mathlib.Logic.Function.Iterate
import RawHtmlLint.Script.Cursor

/-!
# The scan of script code, one character at a time

The cursor passes a literal or a comment in one move, with searches and steps of two characters
that can run past the end of the text. The automaton here reads every character on its own. Its
state is what it is inside of (`Mode`) and what is open around that, innermost first. The two
characters that start or end a comment, an escape or a substitution are read one after the other,
so that a text may end between them.

After a `/` of code the automaton does not know yet whether a comment starts. Only whether that `/`
is a character of code depends on the next character; the state never does.

Results:
* `Cursor.map_stops`: the cursor stops where the automaton meets code;
* `State.met_append`: the automaton reads a text in two parts;
* `code_eq_met`: the scan meets the code that the automaton does;
* `code_agrees_with_automaton`: each character of code once, in order, at its level.
-/

namespace RawHtmlLint.Script

open Text

/-! ## The automaton -/

/-- What the automaton is inside of. -/
inductive Mode where
  | code
  /-- Code, after a `/`. -/
  | slash
  | literal (quote : Char)
  /-- A string literal, after a backslash. -/
  | literalEscape (quote : Char)
  | template
  /-- A template literal, after a backslash. -/
  | templateEscape
  /-- A template literal, after a `$`. -/
  | dollar
  | lineComment
  | blockComment
  /-- A block comment, after a `*`. -/
  | star
  deriving DecidableEq, Repr

/-- The mode, and what is open, innermost first. -/
structure State where
  mode : Mode
  opened : List Opener
  deriving DecidableEq, Repr

/-- In code, the character is code itself if `next` comes after it: no quote, and not the start of
a comment. -/
def isCode (c : Char) (next : Option Char) : Bool :=
  c != '"' && c != '\'' && c != '\x60' && !(c == '/' && (next == some '/' || next == some '*'))

theorem isCode_iff {c : Char} {next : Option Char} : isCode c next = true ↔
    c ≠ '"' ∧ c ≠ '\'' ∧ c ≠ '\x60' ∧ (c = '/' → next ≠ some '/' ∧ next ≠ some '*') := by
  simp only [isCode, Bool.and_eq_true, bne_iff_ne, Bool.not_eq_true', Bool.and_eq_false_iff,
    beq_eq_false_iff_ne, Bool.or_eq_false_iff, and_assoc, ← imp_iff_not_or]

namespace State

/-- Where a scan starts. -/
def start : State := ⟨.code, []⟩

/-- The number of brackets and substitutions that are open. -/
def depth (σ : State) : Nat := σ.opened.length

/-- The state after a character of code, with these levels open. -/
def stepCode (opened : List Opener) (c : Char) : State :=
  if c = '"' ∨ c = '\'' then ⟨.literal c, opened⟩
  else if c = '\x60' then ⟨.template, opened⟩
  else if c = '/' then ⟨.slash, opened⟩
  else if isOpening c then ⟨.code, .bracket :: opened⟩
  else if isClosing c then
    match opened with
    | [] => ⟨.code, []⟩
    | .bracket :: opened => ⟨.code, opened⟩
    | .substitution :: opened => ⟨.template, opened⟩
  else ⟨.code, opened⟩

/-- The state after a character of a template literal. -/
def stepTemplate (opened : List Opener) (c : Char) : State :=
  if c = '\\' then ⟨.templateEscape, opened⟩
  else if c = '\x60' then ⟨.code, opened⟩
  else if c = '$' then ⟨.dollar, opened⟩
  else ⟨.template, opened⟩

/-- The state after one more character. -/
def step (σ : State) (c : Char) : State :=
  match σ.mode with
  | .code => stepCode σ.opened c
  | .slash =>
    if c = '/' then ⟨.lineComment, σ.opened⟩
    else if c = '*' then ⟨.blockComment, σ.opened⟩
    else stepCode σ.opened c
  | .literal quote =>
    if c = '\\' then ⟨.literalEscape quote, σ.opened⟩
    else if c = quote ∨ c = '\n' then ⟨.code, σ.opened⟩
    else σ
  | .literalEscape quote => ⟨.literal quote, σ.opened⟩
  | .template => stepTemplate σ.opened c
  | .templateEscape => ⟨.template, σ.opened⟩
  | .dollar =>
    if c = '\x7b' then ⟨.code, .substitution :: σ.opened⟩ else stepTemplate σ.opened c
  | .lineComment => if c = '\n' then ⟨.code, σ.opened⟩ else σ
  | .blockComment => if c = '*' then ⟨.star, σ.opened⟩ else σ
  | .star =>
    if c = '/' then ⟨.code, σ.opened⟩
    else if c = '*' then σ
    else ⟨.blockComment, σ.opened⟩

/-- The state after a text. -/
def after (σ : State) (s : List Char) : State := s.foldl step σ

/-- The character is one of code, if `next` comes after it. The line feed that ends a comment is
code again. -/
def reads (σ : State) (c : Char) (next : Option Char) : Bool :=
  match σ.mode with
  | .code => isCode c next
  | .slash => c != '/' && c != '*' && isCode c next
  | .lineComment => c == '\n'
  | _ => false

/-- The characters of code in a text that starts at the index, each by its index and level. -/
def met (σ : State) (index : Nat) : List Char → List (Nat × Nat)
  | [] => []
  | c :: rest =>
    let further := (σ.step c).met (index + 1) rest
    if σ.reads c rest.head? then (index, σ.depth) :: further else further

/-- The text does not start with a character that would make a `/` before it a comment. -/
def NoComment (s : List Char) : Prop := s.head? ≠ some '/' ∧ s.head? ≠ some '*'

theorem reads_of_noComment {σ : State} {c : Char} {s : List Char} (h : NoComment s) :
    σ.reads c s.head? = σ.reads c none := by
  have hcode : isCode c s.head? = isCode c none := by
    have hslash : (s.head? == some '/') = false := beq_eq_false_iff_ne.mpr h.1
    have hstar : (s.head? == some '*') = false := beq_eq_false_iff_ne.mpr h.2
    simp [isCode, hslash, hstar]
  unfold reads
  rw [hcode]

/-! ## Between two characters -/

variable {opened : List Opener} {index : Nat}

/-- States that take the next character alike meet the same code. -/
theorem met_cons_congr {σ τ : State} {c : Char} {rest : List Char} (hdepth : σ.depth = τ.depth)
    (hreads : σ.reads c rest.head? = τ.reads c rest.head?) (hstep : σ.step c = τ.step c) :
    met σ index (c :: rest) = met τ index (c :: rest) := by
  simp only [met, hdepth, hreads, hstep]

/-- A `/` that starts no comment is left behind. -/
theorem met_slash {s : List Char} (h : NoComment s) :
    met ⟨.slash, opened⟩ index s = met ⟨.code, opened⟩ index s := by
  cases s with
  | nil => rfl
  | cons c rest =>
    have hslash : c ≠ '/' := fun hc => h.1 (congrArg some hc)
    have hstar : c ≠ '*' := fun hc => h.2 (congrArg some hc)
    refine met_cons_congr rfl ?_ ?_
    · simp [reads, hslash, hstar]
    · simp [step, hslash, hstar]

/-- So is a `$` that starts no substitution. -/
theorem met_dollar {s : List Char} (h : s.head? ≠ some '\x7b') :
    met ⟨.dollar, opened⟩ index s = met ⟨.template, opened⟩ index s := by
  cases s with
  | nil => rfl
  | cons c rest =>
    have hbrace : c ≠ '\x7b' := fun hc => h (congrArg some hc)
    refine met_cons_congr rfl rfl ?_
    simp [step, hbrace]

/-- And a `*` that ends no comment. -/
theorem met_star {s : List Char} (h : s.head? ≠ some '/') :
    met ⟨.star, opened⟩ index s = met ⟨.blockComment, opened⟩ index s := by
  cases s with
  | nil => rfl
  | cons c rest =>
    have hslash : c ≠ '/' := fun hc => h (congrArg some hc)
    refine met_cons_congr rfl rfl ?_
    simp [step, hslash]

/-- A character that is not code only changes the state. -/
theorem met_cons_of_not {σ : State} {c : Char} {rest : List Char}
    (h : σ.reads c rest.head? = false) :
    met σ index (c :: rest) = met (σ.step c) (index + 1) rest := by
  simp [met, h]

theorem met_cons_of_reads {σ : State} {c : Char} {rest : List Char}
    (h : σ.reads c rest.head? = true) :
    met σ index (c :: rest) = (index, σ.depth) :: met (σ.step c) (index + 1) rest := by
  simp [met, h]

/-! ## Literals and comments -/

/-- After the opening quote, no code is met up to the end of the string literal. -/
theorem met_literal {quote : Char} (s : List Char) (index : Nat) :
    met ⟨.literal quote, opened⟩ index s =
      met ⟨.code, opened⟩ (index + literalLength quote s) (s.drop (literalLength quote s)) := by
  fun_induction literalLength quote s generalizing index with
  | case1 => rfl
  | case2 => rfl
  | case3 c rest ih =>
    rw [met_cons_of_not rfl]
    show met ⟨.literalEscape quote, opened⟩ (index + 1) (c :: rest) = _
    rw [met_cons_of_not rfl]
    show met ⟨.literal quote, opened⟩ (index + 1 + 1) rest = _
    rw [ih, Nat.add_assoc index 1 1, Nat.add_assoc, Nat.add_comm 2, List.drop_succ_cons,
      List.drop_succ_cons]
  | case4 c rest hlone hpair hend =>
    have hescape : c ≠ '\\' := by
      rintro rfl
      cases rest with
      | nil => exact hlone rfl rfl
      | cons d rest => exact hpair d rest rfl rfl
    have hstep : step ⟨.literal quote, opened⟩ c = ⟨.code, opened⟩ := by
      have hend : c = quote ∨ c = '\n' := by simpa using hend
      simp [step, hescape, hend]
    rw [met_cons_of_not rfl, hstep]
    rfl
  | case5 c rest hlone hpair hend ih =>
    have hescape : c ≠ '\\' := by
      rintro rfl
      cases rest with
      | nil => exact hlone rfl rfl
      | cons d rest => exact hpair d rest rfl rfl
    have hstep : step ⟨.literal quote, opened⟩ c = ⟨.literal quote, opened⟩ := by
      have hend : ¬ (c = quote ∨ c = '\n') := by simpa using hend
      simp [step, hescape, hend]
    rw [met_cons_of_not rfl, hstep, ih, Nat.add_assoc, Nat.add_comm 1, List.drop_succ_cons]

/-- After the `//`, no code is met up to the end of the line. -/
theorem met_lineComment (s : List Char) (index : Nat) :
    met ⟨.lineComment, opened⟩ index s =
      met ⟨.code, opened⟩ (index + lineLength s) (s.drop (lineLength s)) := by
  induction s generalizing index with
  | nil => rfl
  | cons c rest ih =>
    by_cases hline : c = '\n'
    · subst hline
      rw [met_cons_of_reads rfl]
      show _ = met _ index ('\n' :: rest)
      rw [met_cons_of_reads rfl]
      rfl
    · have hlength : lineLength (c :: rest) = lineLength rest + 1 := by
        simp [lineLength, hline]
      have hreads : reads ⟨.lineComment, opened⟩ c rest.head? = false := by
        simp [reads, hline]
      have hstep : step ⟨.lineComment, opened⟩ c = ⟨.lineComment, opened⟩ := by
        simp [step, hline]
      rw [met_cons_of_not hreads, hstep, ih, hlength, Nat.add_assoc, Nat.add_comm 1,
        List.drop_succ_cons]

theorem before_cons_of_not {c : Char} {rest : List Char}
    (h : ¬ ['*', '/'].isPrefixOf (c :: rest) = true) :
    before ['*', '/'] (c :: rest) = before ['*', '/'] rest + 1 := by
  have hshift : ∀ (count : Nat) (s : List Char),
      findFrom? ['*', '/'] (count + 1) s = (findFrom? ['*', '/'] count s).map (· + 1) := by
    intro count s
    induction s generalizing count with
    | nil => rfl
    | cons d s ih =>
      rw [findFrom?, findFrom?]
      split
      · rfl
      · exact ih (count + 1)
  unfold before find?
  rw [findFrom?, if_neg h, hshift]
  cases findFrom? ['*', '/'] 0 rest <;> rfl

/-- After the `/*`, no code is met up to the first `*/`. -/
theorem met_blockComment (s : List Char) (index : Nat) :
    met ⟨.blockComment, opened⟩ index s =
      met ⟨.code, opened⟩ (index + before ['*', '/'] s + 2) (s.drop (before ['*', '/'] s + 2)) := by
  induction s generalizing index with
  | nil => rfl
  | cons c rest ih =>
    by_cases hend : ['*', '/'].isPrefixOf (c :: rest) = true
    · obtain ⟨back, hback⟩ := List.isPrefixOf_iff_prefix.mp hend
      cases (show c :: rest = '*' :: '/' :: back from hback.symm)
      have hbefore : before ['*', '/'] ('*' :: '/' :: back) = 0 := by
        simp [before, find?, findFrom?]
      rw [hbefore]
      exact (met_cons_of_not rfl).trans (met_cons_of_not rfl)
    · rw [before_cons_of_not hend, met_cons_of_not rfl]
      -- a `*` that is left behind changes nothing, since no `/` follows it
      have hstep : met (step ⟨.blockComment, opened⟩ c) (index + 1) rest =
          met ⟨.blockComment, opened⟩ (index + 1) rest := by
        by_cases hstar : c = '*'
        · subst hstar
          refine met_star fun hslash => hend ?_
          obtain ⟨back, rfl⟩ := List.head?_eq_some_iff.mp hslash
          simp
        · simp [step, hstar]
      have hindex : index + 1 + before ['*', '/'] rest + 2 =
          index + (before ['*', '/'] rest + 1) + 2 := by omega
      have hdrop : (c :: rest).drop (before ['*', '/'] rest + 1 + 2) =
          rest.drop (before ['*', '/'] rest + 2) := rfl
      rw [hstep, ih, hindex, hdrop]

end State

/-! ## The cursor -/

namespace Cursor

/-- The state of the automaton at a cursor. -/
def state (c : Cursor) : State := ⟨if c.inTemplate then .template else .code, c.opened⟩

/-- What the automaton meets from a cursor on. -/
def met (c : Cursor) : List (Nat × Nat) := c.state.met c.index c.rest

theorem met_of_templateMove {c next : Cursor} {char : Char} {rest : List Char}
    (hrest : c.rest = char :: rest) (hmode : c.inTemplate = true)
    (hmove : c.templateMove char rest = .skip next) : c.met = next.met := by
  obtain ⟨index, text, opened, mode⟩ := c
  obtain rfl : text = char :: rest := hrest
  obtain rfl : mode = true := hmode
  show State.met ⟨.template, opened⟩ index (char :: rest) = _
  rw [State.met_cons_of_not rfl]
  unfold templateMove at hmove
  split at hmove
  · rename_i hescape
    cases hmove
    subst hescape
    -- the escaped character may be missing
    cases rest with
    | nil => rfl
    | cons d rest => exact State.met_cons_of_not rfl
  · rename_i hescape
    split at hmove
    · rename_i hclose
      cases hmove
      subst hclose
      rfl
    · rename_i hclose
      split at hmove
      · rename_i hdollar
        cases hmove
        simp only [Bool.and_eq_true, decide_eq_true_eq] at hdollar
        obtain ⟨rfl, hbrace⟩ := hdollar
        obtain ⟨tail, rfl⟩ := List.head?_eq_some_iff.mp hbrace
        exact State.met_cons_of_not rfl
      · rename_i hdollar
        cases hmove
        have hmet : State.met ⟨.template, opened⟩ (index + 1) rest =
            (Cursor.mk (index + 1) rest opened true).met := rfl
        by_cases hchar : char = '$'
        · subst hchar
          exact (State.met_dollar (by simpa using hdollar)).trans hmet
        · have hstep : State.step ⟨.template, opened⟩ char = ⟨.template, opened⟩ := by
            simp [State.step, State.stepTemplate, hescape, hclose, hchar]
          rw [hstep]
          exact hmet

theorem met_of_codeMove {c next : Cursor} {char : Char} {rest : List Char}
    (hrest : c.rest = char :: rest) (hmode : c.inTemplate = false)
    (hmove : c.codeMove char rest = .skip next) : c.met = next.met := by
  obtain ⟨index, text, opened, mode⟩ := c
  obtain rfl : text = char :: rest := hrest
  obtain rfl : mode = false := hmode
  show State.met ⟨.code, opened⟩ index (char :: rest) = _
  unfold codeMove at hmove
  split at hmove
  · rename_i hquote
    cases hmove
    have hquote : char = '"' ∨ char = '\'' := by simpa using hquote
    have hreads : State.reads ⟨.code, opened⟩ char rest.head? = false := by
      rcases hquote with rfl | rfl <;> rfl
    have hstep : State.step ⟨.code, opened⟩ char = ⟨.literal char, opened⟩ := by
      simp [State.step, State.stepCode, hquote]
    rw [State.met_cons_of_not hreads, hstep, State.met_literal, Nat.add_assoc, Nat.add_comm 1]
    rfl
  · split at hmove
    · rename_i hback
      cases hmove
      subst hback
      exact State.met_cons_of_not rfl
    · split at hmove
      · rename_i hline
        cases hmove
        simp only [Bool.and_eq_true, decide_eq_true_eq] at hline
        obtain ⟨rfl, hslash⟩ := hline
        obtain ⟨rest, rfl⟩ := List.head?_eq_some_iff.mp hslash
        have hlength : lineLength ('/' :: rest) = lineLength rest + 1 := by simp [lineLength]
        have hindex : index + 1 + 1 + lineLength rest = index + (lineLength rest + 1 + 1) := by omega
        rw [State.met_cons_of_not rfl]
        show State.met ⟨.slash, opened⟩ (index + 1) ('/' :: rest) = _
        rw [State.met_cons_of_not rfl]
        show State.met ⟨.lineComment, opened⟩ (index + 1 + 1) rest = _
        rw [State.met_lineComment, hlength, hindex]
        rfl
      · split at hmove
        · rename_i hblock
          cases hmove
          simp only [Bool.and_eq_true, decide_eq_true_eq] at hblock
          obtain ⟨rfl, hstar⟩ := hblock
          obtain ⟨rest, rfl⟩ := List.head?_eq_some_iff.mp hstar
          have hindex : index + 1 + 1 + before ['*', '/'] rest + 2 =
              index + (before ['*', '/'] rest + 4) := by omega
          rw [State.met_cons_of_not rfl]
          show State.met ⟨.slash, opened⟩ (index + 1) ('*' :: rest) = _
          rw [State.met_cons_of_not rfl]
          show State.met ⟨.blockComment, opened⟩ (index + 1 + 1) rest = _
          rw [State.met_blockComment, hindex]
          rfl
        · cases hmove

theorem met_of_skip {c next : Cursor} (h : c.move = .skip next) : c.met = next.met := by
  unfold move at h
  split at h
  · cases h
  · rename_i char rest hrest
    split at h
    · rename_i hmode
      exact met_of_templateMove hrest hmode h
    · rename_i hmode
      exact met_of_codeMove hrest (by simpa using hmode) h

/-- A character that the cursor stops at is code. -/
theorem isCode_of_codeMove {c next : Cursor} {char : Char} {rest : List Char}
    (h : c.codeMove char rest = .code next) : isCode char rest.head? = true := by
  unfold codeMove at h
  split at h
  · cases h
  · rename_i hquote
    split at h
    · cases h
    · rename_i hback
      split at h
      · cases h
      · rename_i hline
        split at h
        · cases h
        · rename_i hblock
          simp only [Bool.or_eq_true, decide_eq_true_eq, not_or] at hquote
          simp only [Bool.and_eq_true, decide_eq_true_eq] at hline hblock
          refine isCode_iff.mpr ⟨hquote.1, hquote.2, hback, fun hslash => ?_⟩
          exact ⟨fun hnext => hline ⟨hslash, hnext⟩, fun hnext => hblock ⟨hslash, hnext⟩⟩

/-- A character of code is passed as the automaton reads it, but for a `/`. -/
theorem state_pass {c : Cursor} {char : Char} (hmode : c.inTemplate = false)
    (hquote : char ≠ '"' ∧ char ≠ '\'' ∧ char ≠ '\x60') (hslash : char ≠ '/') :
    (c.pass char).state = State.stepCode c.opened char := by
  obtain ⟨index, text, opened, mode⟩ := c
  obtain rfl : mode = false := hmode
  unfold pass State.stepCode
  rw [if_neg (not_or.mpr ⟨hquote.1, hquote.2.1⟩), if_neg hquote.2.2, if_neg hslash]
  split
  · rfl
  · split
    · cases opened with
      | nil => rfl
      | cons opener opened => cases opener <;> rfl
    · rfl

theorem met_of_code {c next : Cursor} (h : c.move = .code next) :
    c.met = (c.index, c.depth) :: next.met := by
  obtain ⟨hmode, char, rest, hrest, rfl⟩ := code_iff h
  have hcodeMove : c.codeMove char rest = .code (c.pass char) := by
    unfold move at h
    rw [hrest] at h
    simpa [hmode] using h
  have hcode := isCode_of_codeMove hcodeMove
  have hstate : c.state = ⟨.code, c.opened⟩ := by rw [state, hmode]; rfl
  have hnext : (c.pass char).rest = rest := by rw [rest_pass, hrest]; rfl
  have hreads : State.reads ⟨.code, c.opened⟩ char rest.head? = true := hcode
  rw [met, hrest, hstate, State.met_cons_of_reads hreads, met, index_pass, hnext]
  congr 1
  obtain ⟨hdouble, hsingle, hback, hcomment⟩ := isCode_iff.mp hcode
  by_cases hslash : char = '/'
  · subst hslash
    have hpass : (c.pass '/').state = ⟨.code, c.opened⟩ := by
      rw [← hstate]
      rfl
    rw [hpass]
    exact State.met_slash (hcomment rfl)
  · rw [state_pass hmode ⟨hdouble, hsingle, hback⟩ hslash]
    rfl

/-- The scan is only finished at the end of the text. -/
theorem rest_of_finish {c : Cursor} (h : c.move = .finish) : c.rest = [] := by
  unfold move at h
  split at h
  · assumption
  · split at h
    · unfold templateMove at h
      split at h
      · cases h
      · split at h
        · cases h
        · split at h <;> cases h
    · unfold codeMove at h
      split at h
      · cases h
      · split at h
        · cases h
        · split at h
          · cases h
          · split at h <;> cases h

/-- **The cursor stops where the automaton meets code**, at the same level. -/
theorem map_stops (c : Cursor) : c.stops.map (fun stop => (stop.index, stop.depth)) = c.met := by
  fun_induction stops c with
  | case1 c h =>
    rw [met, rest_of_finish h]
    rfl
  | case2 c next h ih => rw [ih, met_of_skip h]
  | case3 c next h ih => rw [List.map_cons, ih, met_of_code h]

end Cursor

/-! ## The scan of a text -/

/-- **The characters of code are those that the automaton meets**, with their levels. -/
theorem code_eq_met (text : List Char) (start : Nat) :
    code text start = State.start.met start (text.drop start) :=
  Cursor.map_stops (.ofText text start)

/-- The state at the index `i` of a text whose scan starts at the index `start`. -/
def stateAt (text : List Char) (start i : Nat) : State := State.start.after (slice text start i)

namespace State

/-- Code is met at each place where the state there reads it. -/
theorem mem_met_iff {s : List Char} : ∀ {σ : State} {index i depth : Nat},
    (i, depth) ∈ σ.met index s ↔ ∃ k c, i = index + k ∧ s[k]? = some c ∧
      (σ.after (s.take k)).reads c s[k + 1]? = true ∧ depth = (σ.after (s.take k)).depth := by
  induction s with
  | nil => simp [met]
  | cons c rest ih =>
    intro σ index i depth
    have hhere : (i, depth) ∈ σ.met index (c :: rest) ↔
        (σ.reads c rest.head? = true ∧ i = index ∧ depth = σ.depth) ∨
          (i, depth) ∈ (σ.step c).met (index + 1) rest := by
      by_cases hreads : σ.reads c rest.head? = true
      · simp [met_cons_of_reads hreads, hreads]
      · rw [Bool.not_eq_true] at hreads
        simp [met_cons_of_not hreads, hreads]
    rw [hhere, ih]
    constructor
    · rintro (⟨hreads, rfl, rfl⟩ | ⟨k, d, rfl, hd, hreads, rfl⟩)
      · exact ⟨0, c, rfl, rfl, by rwa [List.head?_eq_getElem?] at hreads, rfl⟩
      · exact ⟨k + 1, d, by omega, hd, hreads, rfl⟩
    · rintro ⟨_ | k, d, rfl, hd, hreads, rfl⟩
      · cases hd
        exact Or.inl ⟨by rwa [List.head?_eq_getElem?], rfl, rfl⟩
      · exact Or.inr ⟨k, d, by omega, hd, hreads, rfl⟩

/-- What is met of a text does not depend on what comes after it, unless that makes a comment of
its last character. -/
theorem met_append {x y : List Char} (h : NoComment y) : ∀ {σ : State} {index : Nat},
    σ.met index (x ++ y) = σ.met index x ++ (σ.after x).met (index + x.length) y := by
  induction x with
  | nil => exact rfl
  | cons c x ih =>
    intro σ index
    have hreads : σ.reads c (x ++ y).head? = σ.reads c x.head? := by
      cases x with
      | nil => exact reads_of_noComment h
      | cons d x => rfl
    have hlength : index + 1 + x.length = index + (c :: x).length := by
      rw [List.length_cons]
      omega
    show met σ index (c :: (x ++ y)) = _
    by_cases hcode : σ.reads c x.head? = true
    · rw [met_cons_of_reads (hreads.trans hcode), met_cons_of_reads hcode, ih, hlength]
      rfl
    · rw [Bool.not_eq_true] at hcode
      rw [met_cons_of_not (hreads.trans hcode), met_cons_of_not hcode, ih, hlength]
      rfl

end State

/-! ## The end of the scan -/

/-- One turn of the scan. -/
def Cursor.turn (c : Cursor) : Cursor :=
  match c.move with
  | .finish => c
  | .skip next | .code next => next

/-- **The scan ends**: each turn takes the cursor further on, as long as there is text. -/
theorem Cursor.turns_end : ∀ (n : Nat) (c : Cursor), c.rest.length ≤ n → (turn^[n] c).move = .finish
  | 0, c, h => by
    have hrest : c.rest = [] := List.eq_nil_of_length_eq_zero (Nat.le_zero.mp h)
    show c.move = .finish
    unfold move
    rw [hrest]
  | n + 1, c, h => by
    rw [Function.iterate_succ_apply]
    refine turns_end n c.turn ?_
    unfold turn
    split
    · rename_i hmove
      rw [rest_of_finish hmove]
      exact Nat.zero_le n
    · rename_i hmove
      have hlt := length_lt_of_skip hmove
      omega
    · rename_i hmove
      have hlt := length_lt_of_code hmove
      omega

/-- **The scan agrees with the automaton.** It stops at each character of code once, in order of the
index, with the number of brackets and substitutions that are open there; and it ends after at most
as many turns as there are characters. -/
theorem code_agrees_with_automaton (text : List Char) (start : Nat) :
    code text start = State.start.met start (text.drop start) ∧
      (∀ i depth, (i, depth) ∈ code text start ↔ ∃ c, start ≤ i ∧ text[i]? = some c ∧
        (stateAt text start i).reads c text[i + 1]? = true ∧
        depth = (stateAt text start i).depth) ∧
      (code text start).Pairwise (fun a b => a.1 < b.1) ∧
      (Cursor.turn^[text.length - start] (.ofText text start)).move = .finish := by
  refine ⟨code_eq_met text start, fun i depth => ?_, ?_, ?_⟩
  · have hstate : ∀ k, stateAt text start (start + k) =
        State.start.after ((text.drop start).take k) := fun k => by
      rw [stateAt, slice, List.drop_take, Nat.add_sub_cancel_left]
    rw [code_eq_met, State.mem_met_iff]
    constructor
    · rintro ⟨k, c, rfl, hc, hreads, rfl⟩
      rw [List.getElem?_drop] at hc hreads
      exact ⟨c, Nat.le_add_right _ _, hc, by rwa [hstate], by rw [hstate]⟩
    · rintro ⟨c, hle, hc, hreads, rfl⟩
      obtain ⟨k, rfl⟩ := Nat.exists_eq_add_of_le hle
      rw [hstate] at hreads ⊢
      exact ⟨k, c, rfl, by rwa [List.getElem?_drop], by rwa [List.getElem?_drop], rfl⟩
  · exact List.pairwise_map.mpr (code_index_lt _)
  · exact Cursor.turns_end _ _ (Nat.le_of_eq List.length_drop)

end RawHtmlLint.Script

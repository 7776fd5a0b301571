import RawHtmlLint.Text.Blank

/-!
# Environment files

Model of how `Settings` reads its `.env` file. An environment file assigns values to names, one
assignment to a line: a name, perhaps after the word `export`, then an equals sign and a value. A
name without an equals sign is assigned nothing. Names may stand in single quotes and values in
single or double ones; then they can contain line feeds, and values can contain escapes. White space
and `#` start a comment, after the equals sign and after a value without quotes. A line that is not
understood is passed over, and so is a byte order mark in front of the first.

In a value `${name}` stands for what the name is assigned further up in the file, or else for
its value in the environment; `${name:-default}` has a default for a name without one.

Results:
* `line_length_lt`: reading a line leaves less text.
-/

namespace RawHtmlLint.EnvFile

open Text

/-- A name and the value it is assigned, if any. -/
abbrev Assignment := String × Option String

/-- White space inside a line. -/
def isInlineBlank (c : Char) : Bool := isBlank c && c ≠ '\n'

/-- The text from the first character on that is no white space, or from the end of the line. -/
def skipInline (s : List Char) : List Char := s.dropWhile isInlineBlank

/-- The text after the line. -/
def skipLine (s : List Char) : List Char := (s.dropWhile (· ≠ '\n')).drop 1

/-- The text after the word `export` and white space, if it starts so. -/
def afterExport (s : List Char) : List Char :=
  if "export".toList.isPrefixOf s && (s.drop 6).head?.any isInlineBlank then skipInline (s.drop 6)
  else s

/-- The character can be part of a name without quotes. -/
def isNameChar (c : Char) : Bool := !isBlank c && c ≠ '=' && c ≠ '#'

/-- The name at the start of a text, and what follows it. -/
def name? : List Char → Option (List Char × List Char)
  | '\'' :: s =>
    let name := s.takeWhile (· ≠ '\'')
    match s.drop name.length with
    | _ :: rest => if name.isEmpty then none else some (name, rest)
    | [] => none
  | s =>
    let name := s.takeWhile isNameChar
    if name.isEmpty then none else some (name, s.drop name.length)

/-- The length of a quoted text up to the quote that closes it. A backslash belongs together with
the character after it, so neither a quote there closes the text nor a backslash there starts
another pair. -/
def closing? (quote : Char) : List Char → Option Nat
  | [] => none
  | ['\\'] => none
  | '\\' :: _ :: rest => (closing? quote rest).map (· + 2)
  | c :: rest => if c = quote then some 0 else (closing? quote rest).map (· + 1)

/-- The character that a backslash and `c` stand for in single quotes. -/
def singleEscape? (c : Char) : Option Char := if c = '\\' || c = '\'' then some c else none

/-- The character that a backslash and `c` stand for in double quotes. -/
def doubleEscape? (c : Char) : Option Char :=
  match c with
  | '\\' | '\'' | '"' => some c
  | 'a' => some '\x07'
  | 'b' => some '\x08'
  | 'f' => some '\x0C'
  | 'n' => some '\n'
  | 'r' => some '\r'
  | 't' => some '\t'
  | 'v' => some '\x0B'
  | _ => none

/-- The text with its escapes replaced. -/
def unescape (escape? : Char → Option Char) : List Char → List Char
  | [] => []
  | '\\' :: c :: rest =>
    match escape? c with
    | some image => image :: unescape escape? rest
    | none => '\\' :: unescape escape? (c :: rest)
  | c :: rest => c :: unescape escape? rest

/-- The text up to white space and `#`. -/
def beforeComment : List Char → List Char
  | [] => []
  | c :: rest =>
    if isBlank c && (trimStart rest).head? == some '#' then [] else c :: beforeComment rest

/-- The quoted text at the start of a text, and what follows the quote that closes it. -/
def quoted? (quote : Char) (escape? : Char → Option Char) (s : List Char) :
    Option (List Char × List Char) :=
  (closing? quote s).map fun n => (unescape escape? (s.take n), s.drop (n + 1))

/-- The value at the start of a text, and what follows it. -/
def value? : List Char → Option (List Char × List Char)
  | '\'' :: s => quoted? '\'' singleEscape? s
  | '"' :: s => quoted? '"' doubleEscape? s
  | s =>
    let line := s.takeWhile (· ≠ '\n')
    some (trimEnd (beforeComment line), s.drop line.length)

/-- The text after the line, if nothing but a comment is left of it. -/
def lineEnd? (s : List Char) : Option (List Char) :=
  match skipInline s with
  | [] => some []
  | c :: rest => if c = '\n' then some rest else if c = '#' then some (skipLine rest) else none

/-- The text after an equals sign goes on with white space and a comment. -/
def startsComment (s : List Char) : Bool :=
  s.head?.any isInlineBlank && (skipInline s).head? == some '#'

/-- What is assigned after a name, and what follows it. Where a comment stands for the value, the
value is empty. -/
def assigned? (s : List Char) : Option (Option String × List Char) :=
  match skipInline s with
  | '=' :: s =>
    if startsComment s then some (some "", s)
    else (value? (skipInline s)).map fun v => (some (String.ofList v.1), v.2)
  | s => some (none, s)

/-- The assignment that the line at the start of a text makes, if any, and the text after the
line. What follows a mistake up to the next line feed is passed over. -/
def line (s : List Char) : Option Assignment × List Char :=
  let s := afterExport s
  match name? s with
  | none => (none, skipLine s)
  | some (name, s) =>
    match assigned? s with
    | none => (none, skipLine s)
    | some (value, s) =>
      match lineEnd? s with
      | none => (none, skipLine s)
      | some rest => (some (String.ofList name, value), rest)

theorem length_dropWhile_le {α : Type} (p : α → Bool) (s : List α) :
    (s.dropWhile p).length ≤ s.length := (List.dropWhile_sublist p).length_le

theorem length_skipLine_lt {s : List Char} (h : s ≠ []) : (skipLine s).length < s.length := by
  have hle := length_dropWhile_le (fun c : Char => c ≠ '\n') s
  have hpos := List.length_pos_iff.mpr h
  simp only [skipLine, List.length_drop]
  omega

theorem length_skipLine_le (s : List Char) : (skipLine s).length ≤ s.length := by
  cases s with
  | nil => exact Nat.le_refl _
  | cons c rest => exact Nat.le_of_lt (length_skipLine_lt (List.cons_ne_nil c rest))

theorem length_afterExport_le (s : List Char) : (afterExport s).length ≤ s.length := by
  unfold afterExport
  split
  · refine Nat.le_trans (length_dropWhile_le _ _) ?_
    simp
  · exact Nat.le_refl _

theorem length_name?_lt {s name rest : List Char} (h : name? s = some (name, rest)) :
    rest.length < s.length := by
  unfold name? at h
  split at h
  · rename_i t
    dsimp only at h
    split at h
    · rename_i c r hdrop
      split at h
      · cases h
      · cases h
        have := congrArg List.length hdrop
        simp only [List.length_drop, List.length_cons] at this ⊢
        omega
    · cases h
  · dsimp only at h
    split at h
    · cases h
    · rename_i hne
      cases h
      have hpos := List.length_pos_iff.mpr (mt List.isEmpty_iff.mpr hne)
      have hle := (List.takeWhile_sublist (l := s) isNameChar).length_le
      simp only [List.length_drop]
      omega

theorem length_quoted?_le {quote : Char} {escape? : Char → Option Char} {s v rest : List Char}
    (h : quoted? quote escape? s = some (v, rest)) : rest.length ≤ s.length := by
  unfold quoted? at h
  obtain ⟨n, _, hn⟩ := Option.map_eq_some_iff.mp h
  cases hn
  simp

theorem length_value?_le {s v rest : List Char} (h : value? s = some (v, rest)) :
    rest.length ≤ s.length := by
  unfold value? at h
  split at h
  · exact Nat.le_succ_of_le (length_quoted?_le h)
  · exact Nat.le_succ_of_le (length_quoted?_le h)
  · cases h
    simp

theorem length_assigned?_le {s rest : List Char} {v : Option String}
    (h : assigned? s = some (v, rest)) : rest.length ≤ s.length := by
  have hskip := length_dropWhile_le isInlineBlank s
  unfold assigned? at h
  split at h
  · rename_i t ht
    have hinner := length_dropWhile_le isInlineBlank t
    have htail := congrArg List.length ht
    simp only [skipInline, List.length_cons] at htail
    split at h
    · cases h
      omega
    · obtain ⟨w, hw, hv⟩ := Option.map_eq_some_iff.mp h
      cases hv
      have hvalue := length_value?_le hw
      simp only [skipInline] at hvalue
      omega
  · cases h
    exact hskip

theorem length_lineEnd?_le {s rest : List Char} (h : lineEnd? s = some rest) :
    rest.length ≤ s.length := by
  have hskip := length_dropWhile_le isInlineBlank s
  unfold lineEnd? at h
  split at h
  · cases h
    exact Nat.zero_le _
  · rename_i c r hr
    have := congrArg List.length hr
    have hline := length_skipLine_le r
    simp only [skipInline, List.length_cons] at this
    split at h
    · cases h
      omega
    · split at h
      · cases h
        omega
      · cases h

/-- Reading a line leaves less text. -/
theorem line_length_lt {s : List Char} (h : s ≠ []) : (line s).2.length < s.length := by
  have hexport := length_afterExport_le s
  have hpos := List.length_pos_iff.mpr h
  unfold line
  dsimp only
  split
  · by_cases he : afterExport s = []
    · rw [he]
      exact hpos
    · exact Nat.lt_of_lt_of_le (length_skipLine_lt he) hexport
  · rename_i name t hname
    have hlt := length_name?_lt hname
    split
    · exact Nat.lt_of_le_of_lt (length_skipLine_le t) (Nat.lt_of_lt_of_le hlt hexport)
    · rename_i value u hassigned
      have hle := length_assigned?_le hassigned
      split
      · have := length_skipLine_le u
        dsimp only
        omega
      · rename_i rest hend
        have := length_lineEnd?_le hend
        dsimp only
        omega

/-- The assignments of a text, in order. -/
def assignments (s : List Char) : List Assignment :=
  match _h : trimStart s with
  | [] => []
  | c :: rest => (line (c :: rest)).1.toList ++ assignments (line (c :: rest)).2
termination_by s.length
decreasing_by
  have hlt := line_length_lt (List.cons_ne_nil c rest)
  have hle := length_dropWhile_le isBlank s
  have := congrArg List.length _h
  simp only [trimStart] at this
  omega

/-- A reference in a value: the name, the default, and the length after the opening brace. -/
structure Reference where
  name : String
  default : String
  length : Nat

/-- The reference that a text goes on with after `$` and the opening brace. -/
def reference? (s : List Char) : Option Reference :=
  let name := s.takeWhile fun c => c ≠ '\x7d' && c ≠ ':'
  match s.drop name.length with
  | '\x7d' :: _ => some ⟨String.ofList name, "", name.length + 1⟩
  | ':' :: '-' :: s =>
    let default := s.takeWhile (· ≠ '\x7d')
    if default.length < s.length then
      some ⟨String.ofList name, String.ofList default, name.length + default.length + 3⟩
    else none
  | _ => none

/-- The value with its references replaced; `find?` tells what a name stands for. -/
def interpolate (find? : String → Option String) (s : List Char) : List Char :=
  match s with
  | [] => []
  | '$' :: '\x7b' :: rest =>
    match reference? rest with
    | some r =>
      ((find? r.name).getD r.default).toList ++ interpolate find? (rest.drop r.length)
    | none => '$' :: interpolate find? ('\x7b' :: rest)
  | c :: rest => c :: interpolate find? rest
termination_by s.length

/-- The assignments with a new one; a name that is there keeps its place. -/
def assign (assignments : List Assignment) (name : String) (value : Option String) :
    List Assignment :=
  if assignments.any (·.1 == name) then
    assignments.map fun a => if a.1 == name then (name, value) else a
  else assignments ++ [(name, value)]

/-- The assignments with the references in their values replaced. -/
def resolve (environment : String → Option String) (assignments : List Assignment) :
    List Assignment :=
  assignments.foldl (fun known a =>
    let find? (name : String) : Option String :=
      match known.lookup name with
      | some value => some (value.getD "")
      | none => environment name
    assign known a.1 (a.2.map fun v => String.ofList (interpolate find? v.toList))) []

/-- The text of a file without the byte order mark that it may start with. -/
def withoutMark : List Char → List Char
  | '\uFEFF' :: rest => rest
  | text => text

/-- What the text of a file assigns in an environment. -/
def read (environment : String → Option String) (text : List Char) : List Assignment :=
  resolve environment (assignments (withoutMark text))

end RawHtmlLint.EnvFile

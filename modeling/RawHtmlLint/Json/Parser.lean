import RawHtmlLint.Json.Basic
import RawHtmlLint.Text.Entity

/-!
# Reading JSON

A text is cut into tokens, and the tokens are read with a stack of the arrays and objects that
are still open, so the depth of a value is not bounded. Besides the standard's numbers the names
`NaN`, `Infinity` and `-Infinity` are read. A string holds no control character and no half of a
surrogate pair.
-/

namespace RawHtmlLint.Json

open Text (hexDigit? numeral)

/-- A token of JSON. -/
inductive Token where
  | openArray
  | closeArray
  | openObject
  | closeObject
  | comma
  | colon
  | value (v : Json)

/-- The UTF-16 unit that four hexadecimal digits at the start of the text write. -/
def unit? (s : List Char) : Option Nat :=
  let digits := s.take 4
  if digits.length = 4 && digits.all (fun c => (hexDigit? c).isSome) then some (numeral 16 digits)
  else none

/-- The character that an escape stands for, given the text after the backslash, and the length
of that part of the escape. -/
def escaped? : List Char → Option (Char × Nat)
  | 'u' :: rest => do
    let high ← unit? rest
    if 0xD800 ≤ high && high < 0xDC00 then
      if ['\\', 'u'].isPrefixOf (rest.drop 4) then
        let low ← unit? (rest.drop 6)
        if 0xDC00 ≤ low && low < 0xE000 then
          some (Char.ofNat (0x10000 + (high - 0xD800) * 0x400 + (low - 0xDC00)), 11)
        else none
      else none
    else if 0xDC00 ≤ high && high < 0xE000 then none
    else some (Char.ofNat high, 5)
  | c :: _ =>
    ([('"', '"'), ('\\', '\\'), ('/', '/'), ('b', '\x08'), ('f', '\x0C'), ('n', '\n'),
      ('r', '\r'), ('t', '\t')].lookup c).map (·, 1)
  | [] => none

/-- The rest of a string after its opening quote, added to `read` (last character first): its
text, and `length` more than the number of its characters up to and with the closing quote. -/
def stringRest (read : List Char) (length : Nat) : List Char → Option (String × Nat)
  | [] => none
  | '"' :: _ => some (String.ofList read.reverse, length + 1)
  | '\\' :: rest =>
    match escaped? rest with
    | some (c, more) => stringRest (c :: read) (length + 1 + more) (rest.drop more)
    | none => none
  | c :: rest => if c.toNat < 0x20 then none else stringRest (c :: read) (length + 1) rest
termination_by s => s.length

/-- The fraction that the text starts with. -/
def fraction : List Char → List Char
  | '.' :: rest =>
    let digits := rest.takeWhile Char.isDigit
    if digits.isEmpty then [] else '.' :: digits
  | _ => []

/-- The exponent that the text starts with. -/
def exponent : List Char → List Char
  | e :: rest =>
    if e == 'e' || e == 'E' then
      let sign := rest.takeWhile (fun c => c == '+' || c == '-') |>.take 1
      let digits := (rest.drop sign.length).takeWhile Char.isDigit
      if digits.isEmpty then [] else e :: sign ++ digits
    else []
  | [] => []

/-- The number that the text starts with, and its length. -/
def number? (s : List Char) : Option (Json × Nat) :=
  let sign := if s.head? = some '-' then ['-'] else []
  let digits := ((s.drop sign.length).takeWhile Char.isDigit)
  let whole := if digits.head? = some '0' then ['0'] else digits
  if whole.isEmpty then none
  else
    let length := sign.length + whole.length
    let tail := fraction (s.drop length)
    let tail := tail ++ exponent (s.drop (length + tail.length))
    let magnitude : Int := numeral 10 whole
    if tail.isEmpty then some (.int (if sign.isEmpty then magnitude else -magnitude), length)
    else some (.real (String.ofList (sign ++ whole ++ tail)), length + tail.length)

/-- The names that are values. -/
def words : List (String × Json) :=
  [("null", .null), ("true", .bool true), ("false", .bool false), ("NaN", .real "NaN"),
    ("Infinity", .real "Infinity"), ("-Infinity", .real "-Infinity")]

/-- The word or number that the text starts with, and its length. -/
def scalar? (s : List Char) : Option (Json × Nat) :=
  match words.find? fun w => w.1.toList.isPrefixOf s with
  | some (word, value) => some (value, word.length)
  | none => number? s

/-- The token that one of the six signs is. -/
def sign? : Char → Option Token
  | '[' => some .openArray
  | ']' => some .closeArray
  | '\x7b' => some .openObject
  | '\x7d' => some .closeObject
  | ',' => some .comma
  | ':' => some .colon
  | _ => none

/-- The tokens of a text, after those of `read` (last one first). -/
def tokens (read : List Token) : List Char → Option (List Token)
  | [] => some read.reverse
  | c :: rest =>
    if c == ' ' || c == '\t' || c == '\n' || c == '\r' then tokens read rest
    else if c == '"' then
      match stringRest [] 0 rest with
      | some (text, length) => tokens (.value (.str text) :: read) (rest.drop length)
      | none => none
    else match sign? c with
      | some token => tokens (token :: read) rest
      | none =>
        match scalar? (c :: rest) with
        | some (value, length) => tokens (.value value :: read) (rest.drop (length - 1))
        | none => none
termination_by s => s.length

/-- An array or object that is still open, with what it holds so far (last first). -/
inductive Open where
  | array (items : List Json)
  | object (members : List (String × Json)) (name : String)

/-- What must come next. -/
inductive Expected where
  | value
  /-- The first item of an array, or its end. -/
  | firstItem
  /-- A member's name. -/
  | name (members : List (String × Json))
  /-- The first member's name, or the end of the object. -/
  | firstName
  | colon (members : List (String × Json)) (name : String)
  /-- A comma or the end of what is open, after a value. -/
  | next (v : Json)

/-- The state of the reader. -/
structure Reader where
  opened : List Open
  expected : Expected

/-- The state after one more token. -/
def Reader.read (r : Reader) (token : Token) : Option Reader :=
  match r.expected, token with
  | .value, .value v => some ⟨r.opened, .next v⟩
  | .value, .openArray => some ⟨r.opened, .firstItem⟩
  | .value, .openObject => some ⟨r.opened, .firstName⟩
  | .firstItem, .closeArray => some ⟨r.opened, .next (.arr [])⟩
  | .firstItem, .value v => some ⟨.array [] :: r.opened, .next v⟩
  | .firstItem, .openArray => some ⟨.array [] :: r.opened, .firstItem⟩
  | .firstItem, .openObject => some ⟨.array [] :: r.opened, .firstName⟩
  | .firstName, .closeObject => some ⟨r.opened, .next (.obj [])⟩
  | .firstName, .value (.str name) => some ⟨r.opened, .colon [] name⟩
  | .name members, .value (.str name) => some ⟨r.opened, .colon members name⟩
  | .colon members name, .colon => some ⟨.object members name :: r.opened, .value⟩
  | .next v, .comma =>
    match r.opened with
    | .array items :: opened => some ⟨.array (v :: items) :: opened, .value⟩
    | .object members name :: opened => some ⟨opened, .name ((name, v) :: members)⟩
    | [] => none
  | .next v, .closeArray =>
    match r.opened with
    | .array items :: opened => some ⟨opened, .next (.arr (v :: items).reverse)⟩
    | _ => none
  | .next v, .closeObject =>
    match r.opened with
    | .object members name :: opened =>
      some ⟨opened, .next (.obj ((name, v) :: members).reverse)⟩
    | _ => none
  | _, _ => none

/-- The value that a text writes. -/
def parse? (text : List Char) : Option Json := do
  let r ← (← tokens [] text).foldlM Reader.read ⟨[], .value⟩
  match r.opened, r.expected with
  | [], .next v => some v
  | _, _ => none

end RawHtmlLint.Json

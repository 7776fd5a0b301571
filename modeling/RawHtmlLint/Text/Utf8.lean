/-!
# UTF-8

Reading bytes as UTF-8 stops at the first byte where no character can be read. A fault says
which bytes are in the way and why: a byte that starts no character, a byte that does not
continue the character before it, or the end of the data inside a character.
-/

namespace RawHtmlLint.Text.Utf8

/-- Why a character cannot be read. -/
inductive Reason where
  | invalidStart
  | invalidContinuation
  | unexpectedEnd
  deriving DecidableEq, Repr

/-- The bytes from `start` up to `stop` that are not UTF-8; `first` is the first of them. -/
structure Fault where
  first : UInt8
  start : Nat
  stop : Nat
  reason : Reason
  deriving DecidableEq, Repr

/-- The characters from byte `i` on, after those of `read` (last one first), and the byte that
stops the reading. -/
def readFrom (bytes : ByteArray) (i : Nat) (read : List Char) : List Char × Nat :=
  if _ : i < bytes.size then
    match bytes.utf8DecodeChar? i with
    | some c => readFrom bytes (i + c.utf8Size) (c :: read)
    | none => (read.reverse, i)
  else (read.reverse, i)
termination_by bytes.size - i
decreasing_by
  have := c.utf8Size_pos
  omega

/-- The characters before the first byte that does not fit. -/
def decodePrefix (bytes : ByteArray) : List Char := (readFrom bytes 0 []).1

/-- How many bytes follow the first byte of a character, or `none` if it starts none. -/
def following? (first : UInt8) : Option Nat :=
  if first < 0x80 then some 0
  else if first < 0xC2 then none
  else if first < 0xE0 then some 1
  else if first < 0xF0 then some 2
  else if first < 0xF5 then some 3
  else none

/-- The byte can be the one after `first`: no shorter form, no surrogate, nothing past the last
code point. -/
def canBeSecond (first byte : UInt8) : Bool :=
  0x80 ≤ byte && byte < 0xC0 &&
    (first != 0xE0 || 0xA0 ≤ byte) && (first != 0xED || byte < 0xA0) &&
    (first != 0xF0 || 0x90 ≤ byte) && (first != 0xF4 || byte < 0x90)

/-- How many of the bytes go on with a character that starts with `first`. -/
def continued (first : UInt8) : List UInt8 → Nat
  | [] => 0
  | second :: rest =>
    if canBeSecond first second then
      (rest.takeWhile fun byte => 0x80 ≤ byte && byte < 0xC0).length + 1
    else 0

/-- The fault at byte `i`, where no character can be read. -/
def faultAt (bytes : ByteArray) (i : Nat) : Fault :=
  match (bytes.extract i (i + 4)).toList with
  | [] => ⟨0, i, i, .unexpectedEnd⟩
  | first :: rest =>
    match following? first with
    | none => ⟨first, i, i + 1, .invalidStart⟩
    | some count =>
      let present := rest.take count
      let valid := continued first present
      if valid = present.length && present.length < count then
        ⟨first, i, i + 1 + valid, .unexpectedEnd⟩
      else ⟨first, i, i + 1 + valid, .invalidContinuation⟩

/-- The text that the bytes encode. -/
def decode (bytes : ByteArray) : Except Fault (List Char) :=
  match readFrom bytes 0 [] with
  | (text, stop) => if stop < bytes.size then .error (faultAt bytes stop) else .ok text

end RawHtmlLint.Text.Utf8

import RawHtmlLint.Text.EntityTable
import RawHtmlLint.Text.Slice
import Std.Data.HashMap

/-!
# Character references

`decode` replaces the character references of a text by what they stand for. A reference
starts at an ampersand and is a decimal or hexadecimal code point, or a name of at most 32
characters; its semicolon may be missing. An unknown name stands for the longest known
beginning of it, the rest kept, and for itself if no beginning is known. Some code points are
not what they say: those that an old code page took for letters, and those that no document
may hold.

A decimal code point of more than 4300 digits is not read: `decode` then has no result.

Results:
* `decode_eq_self`: a text without an ampersand stands for itself.
-/

namespace RawHtmlLint.Text

/-- The value of a hexadecimal digit. -/
def hexDigit? (c : Char) : Option Nat :=
  if '0' ≤ c && c ≤ '9' then some (c.toNat - '0'.toNat)
  else if 'a' ≤ c && c ≤ 'f' then some (c.toNat - 'a'.toNat + 10)
  else if 'A' ≤ c && c ≤ 'F' then some (c.toNat - 'A'.toNat + 10)
  else none

/-- The number that the digits write in the base. -/
def numeral (base : Nat) (digits : List Char) : Nat :=
  digits.foldl (fun n c => n * base + (hexDigit? c).getD 0) 0

/-- The entry that one word of the table holds. -/
def entityOfWord (word : List Char) : String × List Char :=
  let codes := (word.dropWhile (· ≠ '=')).drop 1
  (String.ofList (word.takeWhile (· ≠ '=')),
    (splitOn (· == '.') codes).map fun code => Char.ofNat (numeral 16 code))

/-- The characters that each name stands for. -/
def entities : Std.HashMap String (List Char) :=
  Std.HashMap.ofList
    ((entityLines.flatMap fun line => splitOn (· == ' ') line.toList).map entityOfWord)

/-- What a name, semicolon included, stands for. -/
def entity? (name : List Char) : Option (List Char) := entities.get? (String.ofList name)

/-- A character reference. -/
inductive Reference where
  | decimal (digits : List Char)
  | hexadecimal (digits : List Char)
  /-- A name, with its semicolon if it has one. -/
  | named (name : List Char)

/-- A character that can stand in the name of a reference. -/
def isNameChar (c : Char) : Bool :=
  !(c == '\t' || c == '\n' || c == '\x0C' || c == ' ' || c == '<' || c == '&' || c == '#' ||
    c == ';')

/-- The number of characters of `s`, with the semicolon that may follow them. -/
def withSemicolon (s rest : List Char) : Nat :=
  if rest.head? = some ';' then s.length + 1 else s.length

/-- The longest reference that the text after an ampersand starts with, and its length. -/
def reference? : List Char → Option (Reference × Nat)
  | '#' :: rest =>
    match rest.takeWhile Char.isDigit with
    | d :: ds =>
      some (.decimal (d :: ds), withSemicolon (d :: ds) (rest.dropWhile Char.isDigit) + 1)
    | [] =>
      match rest with
      | x :: rest =>
        let digits := rest.takeWhile fun c => (hexDigit? c).isSome
        if (x == 'x' || x == 'X') && !digits.isEmpty then
          some (.hexadecimal digits, withSemicolon digits (rest.drop digits.length) + 2)
        else none
      | [] => none
  | s =>
    match (s.take 32).takeWhile isNameChar with
    | [] => none
    | c :: name =>
      let length := withSemicolon (c :: name) (s.drop (name.length + 1))
      some (.named (s.take length), length)

/-- The replacement character stands for code points that are no characters. -/
def replacement : Char := '\uFFFD'

/-- The code points whose references mean another character: zero, and those between the two
halves of Latin-1, which stand for the letters and signs of an old code page. -/
def remapped : List (Nat × Nat) :=
  [(0x00, 0xFFFD), (0x0D, 0x0D), (0x80, 0x20AC), (0x81, 0x81), (0x82, 0x201A), (0x83, 0x192),
    (0x84, 0x201E), (0x85, 0x2026), (0x86, 0x2020), (0x87, 0x2021), (0x88, 0x2C6),
    (0x89, 0x2030), (0x8A, 0x160), (0x8B, 0x2039), (0x8C, 0x152), (0x8D, 0x8D), (0x8E, 0x17D),
    (0x8F, 0x8F), (0x90, 0x90), (0x91, 0x2018), (0x92, 0x2019), (0x93, 0x201C), (0x94, 0x201D),
    (0x95, 0x2022), (0x96, 0x2013), (0x97, 0x2014), (0x98, 0x2DC), (0x99, 0x2122),
    (0x9A, 0x161), (0x9B, 0x203A), (0x9C, 0x153), (0x9D, 0x9D), (0x9E, 0x17E), (0x9F, 0x178)]

/-- A code point that no document may hold: a control character or a noncharacter. -/
def isForbidden (n : Nat) : Bool :=
  (1 ≤ n && n ≤ 8) || n == 0xB || (0xE ≤ n && n ≤ 0x1F) || (0x7F ≤ n && n ≤ 0x9F) ||
    (0xFDD0 ≤ n && n ≤ 0xFDEF) || 0xFFFE ≤ n % 0x10000

/-- What the reference to a code point stands for. -/
def ofCodePoint (n : Nat) : List Char :=
  match remapped.lookup n with
  | some m => [Char.ofNat m]
  | none =>
    if (0xD800 ≤ n && n ≤ 0xDFFF) || 0x10FFFF < n then [replacement]
    else if isForbidden n then []
    else [Char.ofNat n]

/-- What the longest known beginning of `name` that has two characters at least and at most
`length` stands for, with the rest of the name. -/
def longestKnown (name : List Char) : Nat → List Char
  | length + 2 =>
    match entity? (name.take (length + 2)) with
    | some image => image ++ name.drop (length + 2)
    | none => longestKnown name (length + 1)
  | _ => '&' :: name

/-- The most decimal digits that are read. -/
def maxDecimalDigits : Nat := 4300

/-- What a reference stands for; nothing is known of a decimal one with too many digits. -/
def Reference.image? : Reference → Option (List Char)
  | .decimal digits =>
    if maxDecimalDigits < digits.length then none else some (ofCodePoint (numeral 10 digits))
  | .hexadecimal digits => some (ofCodePoint (numeral 16 digits))
  | .named name =>
    match entity? name with
    | some image => some image
    | none => some (longestKnown name (name.length - 1))

/-- The text with its character references replaced. -/
def decode : List Char → Option (List Char)
  | [] => some []
  | c :: rest =>
    if c = '&' then
      match reference? rest with
      | some (reference, length) => do
        let image ← reference.image?
        return image ++ (← decode (rest.drop length))
      | none => return c :: (← decode rest)
    else return c :: (← decode rest)
termination_by s => s.length

/-- A text without an ampersand stands for itself. -/
theorem decode_eq_self : ∀ {s : List Char}, '&' ∉ s → decode s = some s
  | [], _ => by rw [decode]
  | c :: rest, h => by
    have hc : c ≠ '&' := fun e => h (e ▸ List.mem_cons_self)
    rw [decode, if_neg hc, decode_eq_self fun hr => h (List.mem_cons_of_mem _ hr)]
    rfl

end RawHtmlLint.Text

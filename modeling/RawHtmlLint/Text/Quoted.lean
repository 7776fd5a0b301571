import RawHtmlLint.Text.Printable

/-!
# Quoted texts

A text is shown between single quotes, or between double quotes if it holds a single quote and
no double one. A backslash goes before a backslash and before the quote in use; tab, line feed
and carriage return have letters of their own; every other character that is not printable is
written as its code point in hexadecimal.
-/

namespace RawHtmlLint.Text

/-- The digits of `n` in base sixteen, at least `width` of them. -/
def hexDigits (width n : Nat) : List Char :=
  let digits := Nat.toDigits 16 n
  List.replicate (width - digits.length) '0' ++ digits

/-- The quote that a text is shown in. -/
def quoteFor (s : List Char) : Char :=
  if s.contains '\'' && !s.contains '"' then '"' else '\''

/-- How one character is shown inside `quote`. -/
def quotedChar (quote c : Char) : List Char :=
  if c = quote || c = '\\' then ['\\', c]
  else if c = '\t' then ['\\', 't']
  else if c = '\n' then ['\\', 'n']
  else if c = '\r' then ['\\', 'r']
  else if isPrintable c then [c]
  else if c.toNat ≤ 0xFF then '\\' :: 'x' :: hexDigits 2 c.toNat
  else if c.toNat ≤ 0xFFFF then '\\' :: 'u' :: hexDigits 4 c.toNat
  else '\\' :: 'U' :: hexDigits 8 c.toNat

/-- The text in quotes. -/
def quoted (s : List Char) : List Char :=
  let quote := quoteFor s
  quote :: s.flatMap (quotedChar quote) ++ [quote]

end RawHtmlLint.Text

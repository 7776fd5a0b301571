/-!
# Base 64

Four characters carry three bytes, six bits each; `=` fills up the last four.
-/

namespace RawHtmlLint.Text.Base64

/-- The six bits that a character carries. -/
def sextet? (c : Char) : Option Nat :=
  if 'A' ≤ c && c ≤ 'Z' then some (c.toNat - 'A'.toNat)
  else if 'a' ≤ c && c ≤ 'z' then some (c.toNat - 'a'.toNat + 26)
  else if '0' ≤ c && c ≤ '9' then some (c.toNat - '0'.toNat + 52)
  else if c = '+' then some 62
  else if c = '/' then some 63
  else none

/-- The bytes that the characters carry; an incomplete byte at the end is dropped. -/
def bytes? : List Char → Option (List UInt8)
  | a :: b :: c :: d :: rest => do
    let first := (← sextet? a) * 64 + (← sextet? b)
    if c = '=' then return [(first / 16).toUInt8]
    else
      let second := first * 64 + (← sextet? c)
      if d = '=' then return [(second / 1024).toUInt8, (second / 4).toUInt8]
      else
        let third := second * 64 + (← sextet? d)
        return (third / 65536).toUInt8 :: (third / 256).toUInt8 :: third.toUInt8 ::
          (← bytes? rest)
  | [] => some []
  | _ => none

/-- The bytes that a text encodes. -/
def decode? (text : String) : Option ByteArray :=
  (bytes? text.toList).map fun bytes => ⟨bytes.toArray⟩

end RawHtmlLint.Text.Base64

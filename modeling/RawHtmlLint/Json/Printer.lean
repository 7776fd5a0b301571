import RawHtmlLint.Json.Basic
import RawHtmlLint.Text.Quoted

/-!
# Writing JSON

All output is ASCII: other characters are written as the escapes of their UTF-16 units. The
compact form has no blank that is not part of a string; the indented form puts every item and
every member on a line of its own, two columns further in than what holds it.

`literal` writes a value in the notation of a log line: `None`, `True` and `False`, and strings
in quotes of their own choice.
-/

namespace RawHtmlLint.Json

open Text (hexDigits quoted)

/-- The escape of one UTF-16 unit. -/
def escapeUnit (n : Nat) : List Char := '\\' :: 'u' :: hexDigits 4 n

/-- One character as it stands in a JSON string. -/
def escapeChar (c : Char) : List Char :=
  if c = '"' || c = '\\' then ['\\', c]
  else if c = '\n' then ['\\', 'n']
  else if c = '\r' then ['\\', 'r']
  else if c = '\t' then ['\\', 't']
  else if c = '\x08' then ['\\', 'b']
  else if c = '\x0C' then ['\\', 'f']
  else
    let n := c.toNat
    if 0x20 ≤ n && n < 0x7F then [c]
    else if n < 0x10000 then escapeUnit n
    else escapeUnit (0xD800 + (n - 0x10000) / 0x400) ++ escapeUnit (0xDC00 + (n - 0x10000) % 0x400)

/-- A JSON string. -/
def stringText (s : String) : String :=
  String.ofList ('"' :: s.toList.flatMap escapeChar ++ ['"'])

mutual

/-- The compact form. -/
def compact : Json → String
  | .null => "null"
  | .bool b => if b then "true" else "false"
  | .int n => toString n
  | .real spelling => spelling
  | .str s => stringText s
  | .arr items => "[" ++ ",".intercalate (compactItems items) ++ "]"
  | .obj members => "\x7b" ++ ",".intercalate (compactMembers members) ++ "\x7d"

def compactItems : List Json → List String
  | [] => []
  | item :: items => compact item :: compactItems items

def compactMembers : List (String × Json) → List String
  | [] => []
  | (name, value) :: members => (stringText name ++ ":" ++ compact value) :: compactMembers members

end

/-- A bracketed list of lines, each on a line of its own, inside `depth` other brackets. -/
def block (opening closing : String) (depth : Nat) : List String → String
  | [] => opening ++ closing
  | lines =>
    let inner := "\n" ++ String.ofList (List.replicate (2 * depth + 2) ' ')
    let outer := "\n" ++ String.ofList (List.replicate (2 * depth) ' ')
    opening ++ inner ++ ("," ++ inner).intercalate lines ++ outer ++ closing

mutual

/-- The indented form of a value inside `depth` brackets. -/
def indentedAt (depth : Nat) : Json → String
  | .null => "null"
  | .bool b => if b then "true" else "false"
  | .int n => toString n
  | .real spelling => spelling
  | .str s => stringText s
  | .arr items => block "[" "]" depth (indentedItems (depth + 1) items)
  | .obj members => block "\x7b" "\x7d" depth (indentedMembers (depth + 1) members)

def indentedItems (depth : Nat) : List Json → List String
  | [] => []
  | item :: items => indentedAt depth item :: indentedItems depth items

def indentedMembers (depth : Nat) : List (String × Json) → List String
  | [] => []
  | (name, value) :: members =>
    (stringText name ++ ": " ++ indentedAt depth value) :: indentedMembers depth members

end

/-- The indented form. -/
def indented (j : Json) : String := indentedAt 0 j

mutual

/-- The value in the notation of a log line. -/
def literal : Json → String
  | .null => "None"
  | .bool b => if b then "True" else "False"
  | .int n => toString n
  | .real spelling => spelling
  | .str s => String.ofList (quoted s.toList)
  | .arr items => "[" ++ ", ".intercalate (literalItems items) ++ "]"
  | .obj members => "\x7b" ++ ", ".intercalate (literalMembers members) ++ "\x7d"

def literalItems : List Json → List String
  | [] => []
  | item :: items => literal item :: literalItems items

def literalMembers : List (String × Json) → List String
  | [] => []
  | (name, value) :: members =>
    (String.ofList (quoted name.toList) ++ ": " ++ literal value) :: literalMembers members

end

end RawHtmlLint.Json

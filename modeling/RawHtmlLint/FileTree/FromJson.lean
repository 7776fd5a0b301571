import RawHtmlLint.FileTree.Listed
import RawHtmlLint.Json.Basic
import RawHtmlLint.Text.Base64

/-!
# File trees from JSON

A file tree is listed as an object with a member for each entry, under the text of its path: a
string is the text of a file, `null` a directory, and an object with the member `base64` a file
of any bytes.
-/

namespace RawHtmlLint

/-- The entry that a JSON value describes. -/
def Entry.ofJson? : Json → Option Entry
  | .null => some .directory
  | .str text => some (.file text.toUTF8)
  | j => do some (.file (← Text.Base64.decode? (← (← j.member? "base64").str?)))

/-- The file tree that a JSON object lists. -/
def FileTree.ofJson? (j : Json) : Option FileTree := do
  let entries ← (← j.members?).mapM fun m => (Entry.ofJson? m.2).map (m.1, ·)
  some (.ofList entries)

end RawHtmlLint

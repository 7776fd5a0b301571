import RawHtmlLint.Text.CaseRanges
import RawHtmlLint.Text.Ranges

/-!
# Letter case of texts

`lower` maps a text to small letters by Unicode's full mapping: a capital dotted I becomes two
characters, and a capital sigma becomes the final form where a word ends with it.
-/

namespace RawHtmlLint.Text

/-- A capital letter. -/
def isCapital (c : Char) : Bool := inRanges capitalRanges c

/-- The small letter of a character, or the character itself if it has none of its own. -/
def small (c : Char) : Char :=
  let n := c.toNat
  match caseRuns.find? fun r => r.first ≤ n && n ≤ r.last && (n - r.first) % r.step == 0 with
  | some r => Char.ofNat (n + r.up - r.down)
  | none => c

/-- The first character that counts for the position of a sigma is a letter with case. -/
def nextIsCased (s : List Char) : Bool :=
  match s.dropWhile (inRanges caseIgnorableRanges) with
  | [] => false
  | c :: _ => inRanges casedRanges c

/-- Small letters of a text that follows `before`, given from its last character backwards. -/
def lowerAfter (before : List Char) : List Char → List Char
  | [] => []
  | c :: rest =>
    let image :=
      if c = '\u0130' then ['i', '\u0307']
      else if c = '\u03A3' then
        if nextIsCased before && !nextIsCased rest then ['\u03C2'] else ['\u03C3']
      else [small c]
    image ++ lowerAfter (c :: before) rest

/-- The text in small letters. -/
def lower (s : List Char) : List Char := lowerAfter [] s

end RawHtmlLint.Text

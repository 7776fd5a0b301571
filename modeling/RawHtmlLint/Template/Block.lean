import RawHtmlLint.Template.Frame
import RawHtmlLint.Template.Header

/-!
# Blocks

Model of `_block`, `_open_block`, `_each_header`, `_SNIPPET_SIGNATURE`, `_continue_block` and
`_next_branch`. How the header of a block is taken apart, which further branches it can have, and
what must end it.

An each header is `list as context, index (key)`: the list, the context pattern, and perhaps a
name for the index and an expression for the key. In the newer dialect all but the list may be
missing. An if block takes any number of `else if` branches and one `else` after them, an each
block one `else`, an await block `then` and `catch` once each, in this order.
-/

namespace RawHtmlLint.Template

open Script Text

/-- The key of an each header, in the text that starts at `offset` and goes on after `as`; the
text without it. -/
def readKey (ctx : Context) (text : List Char) (offset start : Nat) :
    Outcome (Option Expression × List Char) :=
  match topLevel? Separator.openParenthesis text 0 with
  | none => .ok (none, text)
  | some (before, after, _) => do
    let trimmed := trimEnd text
    if trimmed.getLast? = some ')' then
      let key ← ctx.read (offset + after) (offset + trimmed.length - 1)
      return (some key, text.take before)
    else ctx.reject .unclosedEachKey start

/-- The name of the index in what is left of an each header; the text without it. -/
def readIndex (ctx : Context) (text : List Char) (start : Nat) :
    Outcome (Option String × List Char) :=
  match topLevel? Separator.comma text 0 with
  | none => .ok (none, text)
  | some (before, after, _) =>
    let index := trim (text.drop after)
    if isIdentifier index then .ok (some (String.ofList index), text.take before)
    else ctx.reject .invalidEachIndex start

/-- An each header with the given body, which starts at the offset `rest`; the block starts at
`start`. -/
def readEach (ctx : Context) (body : List Char) (rest start : Nat) : Outcome Each :=
  match topLevel? Separator.eachAs body 0 with
  | none =>
    if ctx.modern then do return { expression := ← ctx.read rest (rest + body.length) }
    else ctx.reject .eachWithoutAs start
  | some (before, after, _) => do
    let expression ← ctx.read rest (rest + before)
    let (key, text) ← readKey ctx (body.drop after) (rest + after) start
    let (index, text) ← readIndex ctx text start
    let context := trim text
    if context.isEmpty then ctx.reject .missingEachContext start
    else return { expression, context := some (String.ofList context), index, key }

/-- What a branch binds: the text, if it is not blank. -/
def binding (text : List Char) : Option String :=
  let name := trim text
  if name.isEmpty then none else some (String.ofList name)

/-- The name and the parameters of a snippet. Type parameters between angle brackets may stand
between them. -/
def snippetSignature? (text : List Char) : Option (List Char × List Char) :=
  match text with
  | [] => none
  | c :: rest =>
    let name := c :: rest.takeWhile continuesIdentifier
    let after := trimStart (text.drop name.length)
    let after := match after with
      | '<' :: types =>
        match find? ['>'] types with
        | some length => trimStart (types.drop (length + 1))
        | none => after
      | _ => after
    match after with
    | '(' :: parameters =>
      if startsIdentifier c && parameters.getLast? == some ')' then
        some (name, parameters.dropLast)
      else none
    | _ => none

/-- The frame of a block with this first tag, up to the offset `stop`. -/
def openBlock (ctx : Context) (h : Header) (stop : Nat) : Outcome Frame := do
  let body := h.body ctx.source
  let frame (shape : Shape) (label : Label) (test : Option Expression) : Frame :=
    { shape, span := ⟨h.start, stop⟩, opening := { label, start := h.stop, tagStart := h.start, test } }
  match String.ofList h.keyword with
  | "if" =>
    let test ← ctx.read h.rest h.close
    return frame .ifBlock .consequent (some test)
  | "each" =>
    let header ← readEach ctx body h.rest h.start
    return frame (.eachBlock header) .body none
  | "await" =>
    match topLevel? Separator.settlement body 0 with
    | none =>
      let expression ← ctx.read h.rest h.close
      return frame (.awaitBlock expression none none) .pending none
    | some (before, after, settlement) =>
      let expression ← ctx.read h.rest (h.rest + before)
      let bound := binding (body.drop after)
      match settlement with
      | .fulfilled =>
        return frame (.awaitBlock expression bound none) (.settled .fulfilled) none
      | .rejected => return frame (.awaitBlock expression none bound) (.settled .rejected) none
  | "key" =>
    let expression ← ctx.read h.rest h.close
    return frame (.keyBlock expression) .content none
  | "snippet" =>
    if ctx.modern then
      match snippetSignature? (trim body) with
      | some (name, parameters) =>
        return frame (.snippetBlock (String.ofList name) (String.ofList (trim parameters))) .body none
      | none => ctx.reject .invalidSnippet h.start
    else ctx.reject (.unknownBlock false) h.start
  | _ => ctx.reject (.unknownBlock ctx.modern) h.start

/-- The branch that starts with the tag. -/
def Header.branch (h : Header) (label : Label) (test : Option Expression) : Branch :=
  { label, start := h.stop, tagStart := h.start, test }

/-- The frame with the branch that an `else` tag starts. -/
def continueElse (ctx : Context) (f : Frame) (h : Header) : Outcome Frame := do
  let body := h.body ctx.source
  match f.shape with
  | .ifBlock =>
    if f.labels.contains .alternate then ctx.reject .elseAfterElse h.start
    else match Separator.elseIf body with
      | some length =>
        let test ← ctx.read (h.rest + length) h.close
        return f.nextBranch (h.branch .elseIf (some test))
      | none =>
        if allBlank body then return f.nextBranch (h.branch .alternate none)
        else ctx.reject .invalidElse h.start
  | .eachBlock _ =>
    if (Separator.elseIf body).isSome then ctx.reject .elseIfInEach h.start
    else if f.labels.contains .fallback || !allBlank body then
      ctx.reject .invalidElseInEach h.start
    else return f.nextBranch (h.branch .fallback none)
  | _ => ctx.reject .elseOutside h.start

/-- The frame with the branch that a `then` or `catch` tag starts. -/
def continueAwait (ctx : Context) (f : Frame) (h : Header) (settlement : Settlement) :
    Outcome Frame :=
  match f.shape with
  | .awaitBlock expression value error =>
    let taken := f.labels.contains (.settled settlement) ||
      (settlement = .fulfilled && f.labels.contains (.settled .rejected))
    if taken then ctx.reject (.awaitBranchOutOfOrder settlement.keyword) h.start
    else
      let bound := binding (h.body ctx.source)
      let shape := match settlement with
        | .fulfilled => Shape.awaitBlock expression bound error
        | .rejected => Shape.awaitBlock expression value bound
      .ok ({ f with shape }.nextBranch (h.branch (.settled settlement) none))
  | _ => ctx.reject (.awaitBranchOutside settlement.keyword) h.start

/-- The frame with the branch that a continuation tag starts. -/
def continueBlock (ctx : Context) (f : Frame) (h : Header) : Outcome Frame :=
  match String.ofList h.keyword with
  | "else" => continueElse ctx f h
  | "then" => continueAwait ctx f h .fulfilled
  | "catch" => continueAwait ctx f h .rejected
  | _ => ctx.reject .unknownContinuation h.start

/-- The frame after a tag inside the block, which must be a continuation. -/
def addBranch (ctx : Context) (f : Frame) (h : Header) : Outcome Frame :=
  if h.sigil = some ':' then continueBlock ctx f h
  else if h.sigil = some '/' then ctx.reject (.wrongBlockEnd f.shape.keyword) h.start
  else ctx.reject (.strayBlockTag (String.ofList h.keyword)) h.start

/-- The frame ended by the last of the tags after the first one. -/
def closeBlock (ctx : Context) (f : Frame) (later : List Header) : Outcome Frame :=
  let keyword := f.shape.keyword
  match later.getLast? with
  | none => ctx.reject (.blockLeftOpen keyword) f.span.start
  | some closing =>
    if closing.sigil ≠ some '/' then ctx.reject (.blockLeftOpen keyword) f.span.start
    else if String.ofList closing.keyword ≠ keyword || !allBlank (closing.body ctx.source) then
      ctx.reject (.wrongBlockEnd keyword) closing.start
    else .ok (f.endBranch closing.start)

/-- The frame of a block with these tags. -/
def readBlock (ctx : Context) (span : Span) : List Header → Outcome Frame
  | [] => .error .headlessBlock
  | opening :: later => do
    if opening.sigil ≠ some '#' ∨ opening.start ≠ span.start then
      ctx.reject .notOpening span.start
    else
      let frame ← openBlock ctx opening span.stop
      let frame ← later.dropLast.foldlM (addBranch ctx) frame
      closeBlock ctx frame later

end RawHtmlLint.Template

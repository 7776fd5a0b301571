import RawHtmlLint.Proofs.Rule.DirectCall
import RawHtmlLint.Proofs.Text.Slice
import RawHtmlLint.Proofs.Text.Utf8

/-!
# Where an expression stands

A node of a tree for a parenthesized text tells its place in bytes of this text, and an expression
tells its own in characters of the source. Where the node starts and ends between characters, inside
the added parenthesis and line feed, nothing is lost on the way: the expression stands in the range
that was read, and its text is both what the source holds at its place and what the node's bytes
encode. The same holds of what a call calls, and of what this calls in turn.

Results:
* `decode_extract`: the bytes of a part of a text are read as this part;
* `charsWithin_byteLength`: the characters before a place between two characters;
* `placed_ofTree`: an expression stands where its node does;
* `read_placed`: all expressions of what is read stand where their nodes do.
-/

namespace RawHtmlLint

open Grammar Text

namespace Text

/-! ## Parts of a text -/

/-- **The characters before a place between two characters.** -/
theorem charsWithin_byteLength (before after : List Char) :
    Expression.charsWithin (Expression.bytesOf (before ++ after)) (byteLength before) =
      before.length := by
  rw [charsWithin_bytesOf, ownerOf_byteLength]

/-- **The bytes of a part of a text are read as this part.** -/
theorem decode_extract (before inside after : List Char) :
    Utf8.decode ((Expression.bytesOf (before ++ inside ++ after)).extract (byteLength before)
      (byteLength (before ++ inside))) = .ok inside := by
  have hbefore := size_utf8Encode before
  have hboth := size_utf8Encode (before ++ inside)
  rw [bytesOf_eq, List.utf8Encode_append, ← hboth, ByteArray.extract_append_size_left,
    List.utf8Encode_append,
    ByteArray.extract_append_eq_right hbefore.symm ByteArray.size_append, decode_utf8Encode]

end Text

namespace Expression

/-! ## One node -/

/-- The node's bytes are those of a part of the text that was put in parentheses. -/
def Aligned (text : List Char) (t : Tree) : Prop :=
  ∃ before inside after, text = before ++ inside ++ after ∧
    t.label.startByte = byteLength ('(' :: before) ∧
    t.label.stopByte = byteLength ('(' :: before ++ inside)

/-- The expression stands in the source between the two offsets: its text is what the source holds
at its place, and what the bytes of the node encode. -/
structure PlacedAs (s : Source) (start stop : Nat) (t : Tree) (e : Expression) : Prop where
  start_le : start ≤ e.start
  le : e.start ≤ e.stop
  le_stop : e.stop ≤ stop
  text_eq : e.text.toList = s.slice e.start.toNat e.stop.toNat
  decodes : Utf8.decode ((bytesOf (wrapped (s.slice start stop))).extract t.label.startByte
    t.label.stopByte) = .ok e.text.toList
  location_eq : e.location = s.location e.start e.stop
  name_eq : e.name = if e.kind = "identifier" then some e.text else none

/-- What an expression keeps of the place of its node. -/
theorem ofTree_place (s : Source) (bytes : ByteArray) (base : Nat) (t : Tree) :
    (ofTree s bytes base t).start = (base : Int) + charsWithin bytes t.label.startByte - 1 ∧
      (ofTree s bytes base t).stop = (base : Int) + charsWithin bytes t.label.stopByte - 1 ∧
      (ofTree s bytes base t).text = String.ofList (sliceFrom s.text
        (ofTree s bytes base t).start (ofTree s bytes base t).stop) ∧
      (ofTree s bytes base t).location =
        s.location (ofTree s bytes base t).start (ofTree s bytes base t).stop ∧
      (ofTree s bytes base t).name =
        if (ofTree s bytes base t).kind = "identifier" then some (ofTree s bytes base t).text
        else none := by
  rw [ofTree]
  dsimp only
  split
  · rename_i hkind
    exact ⟨rfl, rfl, rfl, rfl, rfl⟩
  · rename_i hkind
    split
    · split
      · exact ⟨rfl, rfl, rfl, rfl, rfl⟩
      · split
        · exact ⟨rfl, rfl, rfl, rfl, rfl⟩
        · split <;> exact ⟨rfl, rfl, rfl, rfl, (if_neg hkind).symm⟩
    · exact ⟨rfl, rfl, rfl, rfl, rfl⟩

/-- **An expression stands where its node does.** -/
theorem placed_ofTree {s : Source} {start stop : Nat} {t : Tree} (hle : start ≤ stop)
    (hstop : stop ≤ s.size) (h : Aligned (s.slice start stop) t) :
    PlacedAs s start stop t
      (ofTree s (bytesOf (wrapped (s.slice start stop))) start t) := by
  obtain ⟨before, inside, after, htext, hfirst, hlast⟩ := h
  have hwrapped : wrapped (s.slice start stop) =
      '(' :: before ++ inside ++ (after ++ ['\n', ')']) := by
    rw [htext, wrapped]
    simp only [List.cons_append, List.append_assoc]
  have hlength := congrArg List.length htext
  rw [Source.slice, length_slice, Nat.min_eq_left (show stop ≤ s.text.length from hstop),
    List.length_append, List.length_append] at hlength
  obtain ⟨hstart, hend, htexts, hlocation, hname⟩ :=
    ofTree_place s (bytesOf (wrapped (s.slice start stop))) start t
  have hbefore := charsWithin_byteLength ('(' :: before) (inside ++ (after ++ ['\n', ')']))
  have hinside := charsWithin_byteLength ('(' :: before ++ inside) (after ++ ['\n', ')'])
  rw [← List.append_assoc, ← hwrapped, ← hfirst, List.length_cons] at hbefore
  rw [← hwrapped, ← hlast, List.length_append, List.length_cons] at hinside
  rw [hbefore] at hstart
  rw [hinside] at hend
  generalize ofTree s (bytesOf (wrapped (s.slice start stop))) start t = e at *
  have hstart : e.start = (start + before.length : Nat) := by omega
  have hend : e.stop = (start + before.length + inside.length : Nat) := by omega
  have hpart := slice_part hle htext
  have htexts : e.text.toList = inside := by
    rw [htexts, String.toList_ofList, hstart, hend, sliceFrom, boundOf, boundOf,
      if_neg (Int.not_lt.mpr (Int.natCast_nonneg _)), if_neg (Int.not_lt.mpr (Int.natCast_nonneg _))]
    exact hpart
  constructor
  · omega
  · omega
  · omega
  · rw [htexts, hstart, hend]
    exact hpart.symm
  · rw [htexts, hwrapped, hfirst, hlast]
    exact decode_extract ('(' :: before) inside _
  · exact hlocation
  · exact hname

/-! ## What is called -/

/-- The node that a node calls, without the parentheses around it, if it calls one directly. -/
def called? (t : Tree) : Option Tree :=
  if t.kind = "call_expression" ∧ isTaggedTemplate t = false ∧ isOptionalCall t = false then
    (t.child? .function).map stripped
  else none

theorem size_lt_of_called? {t u : Tree} (h : called? t = some u) : u.size < t.size := by
  unfold called? at h
  split at h
  · obtain ⟨function, hfunction, rfl⟩ := Option.map_eq_some_iff.mp h
    exact size_lt_of_child? hfunction
  · cases h

/-- The node, the node it calls, the node that this calls, and so on. -/
def nodesOfCalls (t : Tree) : List Tree :=
  match _h : called? t with
  | some u => t :: nodesOfCalls u
  | none => [t]
termination_by t.size
decreasing_by exact size_lt_of_called? _h

/-- The expression, what it calls, what this calls, and so on. -/
def withCallees : Expression → List Expression
  | ⟨kind, text, location, start, stop, name, none⟩ =>
    [⟨kind, text, location, start, stop, name, none⟩]
  | ⟨kind, text, location, start, stop, name, some callee⟩ =>
    ⟨kind, text, location, start, stop, name, some callee⟩ :: withCallees callee

theorem withCallees_of_none {e : Expression} (h : e.callee = none) : e.withCallees = [e] := by
  obtain ⟨_, _, _, _, _, _, callee⟩ := e
  cases h
  rw [withCallees]

theorem withCallees_of_some {e c : Expression} (h : e.callee = some c) :
    e.withCallees = e :: c.withCallees := by
  obtain ⟨_, _, _, _, _, _, callee⟩ := e
  cases h
  rw [withCallees]

theorem callee_ofTree_eq (s : Source) (bytes : ByteArray) (base : Nat) (t : Tree) :
    (ofTree s bytes base t).callee = (called? t).map (ofTree s bytes base) := by
  unfold called?
  split
  · rename_i hcall
    obtain ⟨hkind, htagged, hoptional⟩ := hcall
    rw [callee_ofTree hkind htagged hoptional, Option.map_map]
    rfl
  · rename_i hcall
    rw [ofTree]
    dsimp only
    split
    · rfl
    · split
      · rename_i hkind
        split
        · rfl
        · rename_i htagged
          split
          · rfl
          · rename_i hoptional
            exact absurd ⟨hkind, Bool.eq_false_iff.mpr htagged, Bool.eq_false_iff.mpr hoptional⟩
              hcall
      · rfl

/-- **An expression and what it calls are the expressions of the node and what this calls.** -/
theorem withCallees_ofTree (s : Source) (bytes : ByteArray) (base : Nat) (t : Tree) :
    (ofTree s bytes base t).withCallees = (nodesOfCalls t).map (ofTree s bytes base) := by
  have hcallee := callee_ofTree_eq s bytes base t
  fun_induction nodesOfCalls t with
  | case1 t u hcalled ih =>
    rw [hcalled] at hcallee
    rw [withCallees_of_some hcallee, ih (callee_ofTree_eq s bytes base u), List.map_cons]
  | case2 t hcalled =>
    rw [hcalled] at hcallee
    rw [withCallees_of_none hcallee]
    rfl

/-- **All expressions of what is read stand where their nodes do**: in the range that was read, with
the text that the source holds there and that the node's bytes encode. -/
theorem read_placed {s : Source} {g : Grammars} {language : String} {start stop : Nat}
    {e : Expression} (hle : start ≤ stop) (hstop : stop ≤ s.size)
    (haligned : ∀ parse node, g.parse language (wrapped (s.slice start stop)) = .ok parse →
      IsExpressionOf parse (bytesOf (wrapped (s.slice start stop))).size node →
      ∀ u ∈ nodesOfCalls node, Aligned (s.slice start stop) u)
    (hok : read s g language start stop = .ok e) :
    ∃ parse node, g.parse language (wrapped (s.slice start stop)) = .ok parse ∧
      IsExpressionOf parse (bytesOf (wrapped (s.slice start stop))).size node ∧
      List.Forall₂ (PlacedAs s start stop) (nodesOfCalls node) e.withCallees := by
  obtain ⟨_, parse, hparse, node, hnode, rfl⟩ := read_eq_ok_iff.mp hok
  refine ⟨parse, node, hparse, hnode, ?_⟩
  rw [withCallees_ofTree, List.forall₂_map_right_iff, List.forall₂_same]
  exact fun u hu => placed_ofTree hle hstop (haligned parse node hparse hnode u hu)

/-! A call of a name that takes two bytes, after a character that takes two bytes as well. -/

/-- The source `ö{@html ñ(ö)}`. -/
def wideSource : Source := .ofText "Wide.svelte" "ö\x7b@html ñ(ö)\x7d".toList

/-- The tree of its text in parentheses. -/
def wideTree : Tree :=
  nestedNode "program" 0 9 [] [
    nestedNode "expression_statement" 0 9 [] [
      nestedNode "parenthesized_expression" 0 9 [] [
        nestedNode "call_expression" 1 7 [] [
          nestedNode "identifier" 1 3 [.function] [],
          nestedNode "arguments" 3 7 [.arguments] [nestedNode "identifier" 4 6 [] []]]]]]

/-- Grammars that take every text for this one. -/
def wideGrammars : Grammars where
  tree? _ _ := some ⟨wideTree, false⟩

theorem wideSource_aligned {parse : Parse} {node : Tree}
    (hparse : wideGrammars.parse "javascript" (wrapped (wideSource.slice 8 12)) = .ok parse)
    (hnode : IsExpressionOf parse (bytesOf (wrapped (wideSource.slice 8 12))).size node) :
    ∀ u ∈ nodesOfCalls node, Aligned (wideSource.slice 8 12) u := by
  have hspans : (single? ⟨wideTree, false⟩ 9).map (fun node =>
      (nodesOfCalls node).map fun u => (u.label.startByte, u.label.stopByte)) =
      some [(1, 7), (1, 3)] := by
    decide +kernel
  obtain rfl : (⟨wideTree, false⟩ : Parse) = parse := Except.ok.inj hparse
  have hsize : (bytesOf (wrapped (wideSource.slice 8 12))).size = 9 := by decide +kernel
  rw [hsize, ← single?_eq_some_iff] at hnode
  rw [hnode, Option.map_some] at hspans
  intro u hu
  have hmem := List.mem_map_of_mem (f := fun u : Tree => (u.label.startByte, u.label.stopByte)) hu
  rw [Option.some.inj hspans, List.mem_cons, List.mem_singleton] at hmem
  rcases hmem with hspan | hspan
  · exact ⟨[], "ñ(ö)".toList, [], rfl, congrArg Prod.fst hspan, congrArg Prod.snd hspan⟩
  · exact ⟨[], ['ñ'], "(ö)".toList, rfl, congrArg Prod.fst hspan, congrArg Prod.snd hspan⟩

theorem wideSource_placed : ∃ e node,
    read wideSource wideGrammars "javascript" 8 12 = .ok e ∧
      List.Forall₂ (PlacedAs wideSource 8 12) (nodesOfCalls node) e.withCallees ∧
      e.withCallees.map (·.name) = [none, some "ñ"] := by
  obtain ⟨e, hread, hnames⟩ := exists_ok_of_any
    (x := read wideSource wideGrammars "javascript" 8 12)
    (p := fun e => e.withCallees.map (·.name) == [none, some "ñ"]) (by decide +kernel)
  obtain ⟨_, node, _, _, hplaced⟩ := read_placed (by decide) (by decide)
    (fun _ _ => wideSource_aligned) hread
  exact ⟨e, node, hread, hplaced, beq_iff_eq.mp hnames⟩

end Expression

end RawHtmlLint

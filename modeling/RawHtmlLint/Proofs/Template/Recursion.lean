import Mathlib.Logic.Function.Iterate
import RawHtmlLint.Template.Conversion

/-!
# The conversion as a recursion

A part becomes an item: its own tag or tags are read, then its parts become items in document
order, then the node is built from them. `itemOf` says so by recursion on the tree, without a
stack and without frames that change: an element's items are laid out between its tags, those of
a block are given to its branches.

The stack of `convert` holds the same work: giving a frame some of its parts first, and then the
rest, is to turn these parts into items and to add all of them (`convert_append`). This holds
above any stack, and so for what the stack below the top one will do as well.

Results:
* `convert_append`: the parts that come first become items by recursion;
* `turns_eq_convert`: the loop of `convert` ends after as many turns as the stack weighs;
* `convertDocument_eq_documentOf`: the two conversions of a document are one.
-/

namespace RawHtmlLint.Template

open Grammar

/-! ## The recursion -/

mutual

/-- What a part becomes, and what is lifted after it; `topLevel` tells that it is found in the
document itself. -/
def itemOf (ctx : Context) (lifted : Lifted) (topLevel : Bool) :
    Part → Tree → Outcome (Item × Lifted)
  | .comment, t =>
    let span := ctx.source.span t
    return (⟨span, some (readComment ctx.source span)⟩, lifted)
  | .strayClosingTag, t =>
    let start := (ctx.source.span t).start
    ctx.reject (.strayClosingTag (String.ofList (closingTagName ctx.source start))) start
  | .tag, t => do
    let span := ctx.source.span t
    return (⟨span, some (← readTag ctx span)⟩, lifted)
  | .element, t => do
    let e ← ElementTag.read ctx t
    if t.kind ≠ "element" ∨ e.isRaw then
      if topLevel && e.isRaw then return (⟨e.span, none⟩, ← lift ctx e lifted)
      else return (⟨e.span, some (e.rawNode ctx.source)⟩, lifted)
    else
      let inner := parts ctx.source e.content.start e.content.stop t
      rejectHeaders ctx.source e.content.start e.content.stop inner
      let (items, lifted) ← itemsOf ctx lifted false inner
      let children ← fill ctx.source.text e.content.stop e.content.start items
      let node := Node.element e.kind e.span (String.ofList e.name) e.attributes
        (some ⟨e.content, children⟩)
      return (⟨e.span, some node⟩, lifted)
  | .block, t => do
    let span := ctx.source.span t
    let inner := parts ctx.source span.start span.stop t
    let frame ← readBlock ctx span (← headers ctx.source span.start span.stop inner)
    let (items, lifted) ← itemsOf ctx lifted false inner
    let node ← (items.foldl Frame.add frame).build ctx.source.text
    return (⟨frame.span, some node⟩, lifted)
termination_by _ t => 2 * t.size
decreasing_by
  · have := sizeOfParts_lt ctx.source e.content.start e.content.stop t
    omega
  · have := sizeOfParts_lt ctx.source (ctx.source.span t).start (ctx.source.span t).stop t
    omega

/-- What parts become, one after the other. -/
def itemsOf (ctx : Context) (lifted : Lifted) (topLevel : Bool) :
    List (Part × Tree) → Outcome (List Item × Lifted)
  | [] => return ([], lifted)
  | (part, t) :: ps => do
    let (item, lifted) ← itemOf ctx lifted topLevel part t
    let (items, lifted) ← itemsOf ctx lifted topLevel ps
    return (item :: items, lifted)
termination_by ps => 2 * sizeOfParts ps + 1
decreasing_by
  · simp only [sizeOfParts_cons]
    omega
  · simp only [sizeOfParts_cons, Tree.size_eq t]
    omega

end

/-- The fragment that a tree becomes, and what was lifted out of it. -/
def documentOf (ctx : Context) (root : Tree) : Outcome (Fragment Node × Lifted) := do
  let size := ctx.source.size
  let inner := parts ctx.source 0 size root
  rejectHeaders ctx.source 0 size inner
  let (items, lifted) ← itemsOf ctx {} true inner
  return (⟨⟨0, size⟩, ← fill ctx.source.text size 0 items⟩, lifted)

/-! ## One part -/

theorem span_add (f : Frame) (item : Item) : (f.add item).span = f.span := by
  unfold Frame.add
  split <;> rfl

theorem span_foldl_add : ∀ (items : List Item) (f : Frame),
    (items.foldl Frame.add f).span = f.span
  | [], _ => rfl
  | item :: items, f => by rw [List.foldl_cons, span_foldl_add items, span_add]

/-- A frame without further branches keeps all items in its first one. -/
theorem foldl_add_of_later_nil : ∀ (items : List Item) {f : Frame}, f.later = [] →
    items.foldl Frame.add f =
      { f with opening := { f.opening with items := items.reverse ++ f.opening.items } }
  | [], f, _ => by cases f; rfl
  | item :: items, f, h => by
    have hadd : f.add item = { f with opening := f.opening.add item } := by
      unfold Frame.add
      rw [h]
      rfl
    rw [List.foldl_cons, hadd,
      foldl_add_of_later_nil items (f := { f with opening := f.opening.add item }) h]
    simp only [Branch.add, List.reverse_cons, List.append_assoc, List.singleton_append]

/-- A part becomes what its visit makes of it: the item, or the node of the frame that is opened
once that has all its items. -/
theorem itemOf_eq_visit (ctx : Context) (lifted : Lifted) (topLevel : Bool) (part : Part)
    (t : Tree) : itemOf ctx lifted topLevel part t = (do
      match ← visit ctx lifted topLevel part t with
      | .item item lifted => return (item, lifted)
      | .opened inner =>
        let (items, lifted) ← itemsOf ctx lifted false inner.pending
        let node ← (items.foldl Frame.add inner.frame).build ctx.source.text
        return (⟨inner.frame.span, some node⟩, lifted)) := by
  cases part with
  | comment =>
    rw [itemOf]
    rfl
  | strayClosingTag =>
    rw [itemOf]
    rfl
  | tag =>
    rw [itemOf]
    unfold visit
    dsimp only
    cases h : readTag ctx (ctx.source.span t) with
    | error failure => rfl
    | ok node => rfl
  | element =>
    rw [itemOf]
    unfold visit
    dsimp only
    rw [visitElement]
    cases he : ElementTag.read ctx t with
    | error failure => rfl
    | ok e =>
      simp only [bind, Except.bind]
      split
      · split
        · cases lift ctx e lifted <;> rfl
        · rfl
      · cases rejectHeaders ctx.source e.content.start e.content.stop
            (parts ctx.source e.content.start e.content.stop t) with
        | error failure => rfl
        | ok _ =>
          simp only [pure, Except.pure]
          cases itemsOf ctx lifted false
              (parts ctx.source e.content.start e.content.stop t) with
          | error failure => rfl
          | ok answer =>
            obtain ⟨items, lifted⟩ := answer
            simp only
            rw [foldl_add_of_later_nil items rfl]
            simp only [Frame.build, Branch.freeze, List.append_nil, List.reverse_reverse, bind,
              Except.bind, pure, Except.pure]
            cases fill ctx.source.text e.content.stop e.content.start items <;> rfl
  | block =>
    rw [itemOf]
    unfold visit
    simp only [bind, Except.bind]
    cases headers ctx.source (ctx.source.span t).start (ctx.source.span t).stop
        (parts ctx.source (ctx.source.span t).start (ctx.source.span t).stop t) with
    | error failure => rfl
    | ok hs =>
      simp only
      cases readBlock ctx (ctx.source.span t) hs with
      | error failure => rfl
      | ok frame => rfl

/-! ## The stack -/

/-- **The parts that come first become items by recursion**, whatever comes after them and
whatever is below on the stack. -/
theorem convert_append (ctx : Context) (lifted : Lifted) (frame : Frame)
    (ps qs : List (Part × Tree)) (below : List Level) :
    convert ctx lifted ⟨frame, ps ++ qs⟩ below = (do
      let (items, lifted) ← itemsOf ctx lifted below.isEmpty ps
      convert ctx lifted ⟨items.foldl Frame.add frame, qs⟩ below) := by
  match ps with
  | [] =>
    rw [itemsOf]
    rfl
  | (part, t) :: ps =>
    rw [List.cons_append, convert, itemsOf, itemOf_eq_visit]
    cases hv : visit ctx lifted below.isEmpty part t with
    | error failure => rfl
    | ok v =>
      cases v with
      | item item lifted =>
        show convert ctx lifted ⟨frame.add item, ps ++ qs⟩ below = _
        rw [convert_append ctx lifted (frame.add item) ps qs below]
        simp only [bind, Except.bind, pure, Except.pure]
        cases itemsOf ctx lifted below.isEmpty ps <;> rfl
      | opened inner =>
        have hinner := convert_append ctx lifted inner.frame inner.pending []
          (⟨frame, ps ++ qs⟩ :: below)
        rw [List.append_nil] at hinner
        show convert ctx lifted ⟨inner.frame, inner.pending⟩ (⟨frame, ps ++ qs⟩ :: below) = _
        rw [hinner]
        simp only [List.isEmpty_cons, bind, Except.bind, pure, Except.pure]
        cases itemsOf ctx lifted false inner.pending with
        | error failure => rfl
        | ok answer =>
          obtain ⟨items, lifted⟩ := answer
          simp only
          rw [convert]
          simp only [bind, Except.bind]
          cases (items.foldl Frame.add inner.frame).build ctx.source.text with
          | error failure => rfl
          | ok node =>
            simp only [span_foldl_add]
            rw [convert_append ctx lifted (frame.add ⟨inner.frame.span, some node⟩) ps qs below]
            simp only [bind, Except.bind]
            cases itemsOf ctx lifted below.isEmpty ps <;> rfl
termination_by sizeOfParts ps
decreasing_by
  · simp only [sizeOfParts_cons, Tree.size_eq t]
    omega
  · have := inner.size_lt
    simp only [sizeOfParts_cons]
    omega
  · simp only [sizeOfParts_cons, Tree.size_eq t]
    omega

/-! ## The loop -/

/-- The loop between two turns: still running, with the top of its stack and what is below, or
ended with an answer. -/
inductive Stage where
  | running (lifted : Lifted) (top : Level) (below : List Level)
  | ended (answer : Outcome (Frame × Lifted))

/-- One turn of the loop. -/
def turn (ctx : Context) : Stage → Stage
  | .ended answer => .ended answer
  | .running lifted ⟨frame, []⟩ [] => .ended (.ok (frame, lifted))
  | .running lifted ⟨frame, []⟩ (outer :: below) =>
    match frame.build ctx.source.text with
    | .error failure => .ended (.error failure)
    | .ok node =>
      .running lifted { outer with frame := outer.frame.add ⟨frame.span, some node⟩ } below
  | .running lifted ⟨frame, (part, t) :: pending⟩ below =>
    match visit ctx lifted below.isEmpty part t with
    | .error failure => .ended (.error failure)
    | .ok (.item item lifted) => .running lifted ⟨frame.add item, pending⟩ below
    | .ok (.opened inner) =>
      .running lifted ⟨inner.frame, inner.pending⟩ (⟨frame, pending⟩ :: below)

theorem turns_ended (ctx : Context) (answer : Outcome (Frame × Lifted)) (n : Nat) :
    (turn ctx)^[n] (.ended answer) = .ended answer :=
  Function.iterate_fixed rfl n

/-- **The loop ends** after as many turns as its stack weighs, and `convert` is its answer. -/
theorem turns_eq_convert (ctx : Context) : ∀ (n : Nat) (lifted : Lifted) (top : Level)
    (below : List Level), weight (top :: below) ≤ n →
    (turn ctx)^[n] (.running lifted top below) = .ended (convert ctx lifted top below)
  | 0, lifted, top, below, h => by
    simp only [weight, Level.weight] at h
    omega
  | n + 1, lifted, ⟨frame, []⟩, [], h => by
    rw [Function.iterate_succ_apply, convert]
    exact turns_ended ctx _ n
  | n + 1, lifted, ⟨frame, []⟩, outer :: below, h => by
    simp only [weight, Level.weight] at h
    rw [Function.iterate_succ_apply, turn, convert]
    cases frame.build ctx.source.text with
    | error failure => exact turns_ended ctx _ n
    | ok node =>
      exact turns_eq_convert ctx n lifted _ below (by simp only [weight, Level.weight]; omega)
  | n + 1, lifted, ⟨frame, (part, t) :: pending⟩, below, h => by
    simp only [weight, Level.weight, sizeOfParts_cons] at h
    have hpos := Tree.size_eq t
    rw [Function.iterate_succ_apply, turn, convert]
    cases visit ctx lifted below.isEmpty part t with
    | error failure => exact turns_ended ctx _ n
    | ok v =>
      cases v with
      | item item lifted =>
        exact turns_eq_convert ctx n lifted _ below (by simp only [weight, Level.weight]; omega)
      | opened inner =>
        have hlt := inner.size_lt
        exact turns_eq_convert ctx n lifted _ _ (by simp only [weight, Level.weight]; omega)

/-- The frame of the document with all its parts, the bottom of the stack. -/
def bottom (ctx : Context) (root : Tree) : Level :=
  ⟨documentFrame ctx.source.size, parts ctx.source 0 ctx.source.size root⟩

/-- The conversion with a stack and the recursion agree, in what they make and how they fail. -/
theorem convertDocument_eq (ctx : Context) (root : Tree) :
    convertDocument ctx root = documentOf ctx root := by
  rw [convertDocument, documentOf]
  have hparts := convert_append ctx {} (documentFrame ctx.source.size)
    (parts ctx.source 0 ctx.source.size root) [] []
  rw [List.append_nil] at hparts
  simp only [hparts, List.isEmpty_nil, bind, Except.bind, pure, Except.pure]
  cases rejectHeaders ctx.source 0 ctx.source.size (parts ctx.source 0 ctx.source.size root) with
  | error failure => rfl
  | ok _ =>
    simp only
    cases itemsOf ctx {} true (parts ctx.source 0 ctx.source.size root) with
    | error failure => rfl
    | ok answer =>
      obtain ⟨items, lifted⟩ := answer
      simp only
      rw [foldl_add_of_later_nil items rfl, convert]
      simp only [Branch.freeze, documentFrame, List.append_nil, List.reverse_reverse, bind,
        Except.bind, pure, Except.pure]
      cases fill ctx.source.text ctx.source.size 0 items <;> rfl

theorem weight_bottom_le (ctx : Context) (root : Tree) :
    weight [bottom ctx root] ≤ 2 * root.size := by
  have hlt := sizeOfParts_lt ctx.source 0 ctx.source.size root
  simp only [weight, Level.weight, bottom]
  omega

/-- **The two conversions of a document are one**, with the same fragment and the same scripts
and styles lifted out of it, or with the same failure; and the loop ends after at most two turns
for each node of the tree. -/
theorem convertDocument_eq_documentOf (ctx : Context) (root : Tree) :
    convertDocument ctx root = documentOf ctx root ∧
      (turn ctx)^[2 * root.size] (.running {} (bottom ctx root) []) =
        .ended (convert ctx {} (bottom ctx root) []) :=
  ⟨convertDocument_eq ctx root, turns_eq_convert ctx _ {} _ [] (weight_bottom_le ctx root)⟩

end RawHtmlLint.Template

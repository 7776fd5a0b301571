import RawHtmlLint.Proofs.Template.Tiling

/-!
# The scripts of a component

The scripts that are lifted out of a component are the script elements among the parts at its top,
and each was checked in the language that its attribute `lang` names. Nothing is lifted further
down.

Results:
* `readAttributes_eq`: the attributes of an opening tag, as they are written;
* `liftScript_eq`: a script is checked in its language, and then lifted;
* `itemsOf_nested`: nothing is lifted below the top;
* `mem_scripts_documentOf`: which scripts are lifted.
-/

namespace RawHtmlLint.Template

open Grammar Text

variable {ctx : Context}

/-! ## Attributes -/

/-- The nodes of an opening tag that are attributes. -/
def attributeNodes (tag : Tree) : List Tree :=
  tag.namedChildren.filter fun c => !(["tag_name", "comment"].contains c.kind)

/-- Where the name of an attribute stands; without a name it is all of the attribute. -/
def nameSpan (s : Source) (c : Tree) : Span :=
  match c.childOfKind? ["attribute_name"] with
  | none => s.span c
  | some name => s.span name

/-- The value of an attribute as it is written. -/
def writtenValue? (s : Source) (c : Tree) : Option (List Char) :=
  match c.childOfKind? ["attribute_name"] with
  | none => none
  | some name => valueAfter? (s.slice (s.span name).stop (s.span c).stop)

/-- The attribute as it is written. -/
def attributeOf (s : Source) (c : Tree) : Attribute :=
  ⟨String.ofList (s.textOf (nameSpan s c)), (writtenValue? s c).map String.ofList, s.span c⟩

theorem readAttribute_eq {c : Tree} {a : Attribute} (hok : readAttribute ctx c = .ok a) :
    a = attributeOf ctx.source c := by
  unfold readAttribute at hok
  unfold attributeOf nameSpan writtenValue?
  dsimp only at hok
  cases hname : c.childOfKind? ["attribute_name"] with
  | none =>
    rw [hname] at hok
    obtain ⟨_, _, hok⟩ := bind_eq_ok.mp hok
    obtain rfl := pure_eq_ok.mp hok
    rfl
  | some name =>
    rw [hname] at hok
    obtain ⟨_, _, hok⟩ := bind_eq_ok.mp hok
    obtain rfl := pure_eq_ok.mp hok
    rfl

/-- The attributes of an opening tag are those of its nodes, in order. -/
theorem readAttributes_eq {tag : Tree} {attributes : List Attribute}
    (hok : readAttributes ctx tag = .ok attributes) :
    attributes = (attributeNodes tag).map (attributeOf ctx.source) := by
  have hmap : ∀ (cs : List Tree) (as : List Attribute), cs.mapM (readAttribute ctx) = .ok as →
      as = cs.map (attributeOf ctx.source) := by
    intro cs
    induction cs with
    | nil =>
      intro as has
      rw [List.mapM_nil] at has
      exact (pure_eq_ok.mp has).symm
    | cons c cs ih =>
      intro as has
      rw [List.mapM_cons] at has
      obtain ⟨a, ha, has⟩ := bind_eq_ok.mp has
      obtain ⟨bs, hbs, has⟩ := bind_eq_ok.mp has
      obtain rfl := pure_eq_ok.mp has
      rw [List.map_cons, readAttribute_eq ha, ih bs hbs]
  exact hmap _ _ hok

/-! ## Elements -/

/-- The name in an opening tag; nothing if the tag has none. -/
def tagName (s : Source) (t : Tree) : List Char :=
  match openingTag? t with
  | none => []
  | some tag =>
    match tag.childOfKind? ["tag_name"] with
    | some name => s.textOf (s.span name)
    | none => []

/-- The element is a script by its name. -/
def isScriptByName (s : Source) (t : Tree) : Bool :=
  String.ofList (lower (tagName s t)) == "script"

/-- The name and the attributes of an element are those of its opening tag. -/
theorem ElementTag.read_eq {t : Tree} {e : ElementTag} (hok : ElementTag.read ctx t = .ok e) :
    e.name = tagName ctx.source t ∧ ∃ tag, openingTag? t = some tag ∧
      e.attributes = (attributeNodes tag).map (attributeOf ctx.source) := by
  unfold ElementTag.read at hok
  unfold tagName
  dsimp only at hok
  cases htag : openingTag? t with
  | none =>
    rw [htag] at hok
    exact absurd hok reject_ne_ok
  | some tag =>
    rw [htag] at hok
    cases hname : tag.childOfKind? ["tag_name"]
    all_goals
      simp only [hname] at hok ⊢
      split at hok
      · exact absurd hok reject_ne_ok
      · obtain ⟨attributes, hattributes, hok⟩ := bind_eq_ok.mp hok
        obtain rfl := pure_eq_ok.mp hok
        exact ⟨rfl, tag, rfl, readAttributes_eq hattributes⟩

/-! ## Lifted scripts -/

/-- The scripts that were lifted. -/
def Lifted.scripts (l : Lifted) : List ScriptElement :=
  l.instanceScript.toList ++ l.moduleScript.toList

/-- The scripts of the component. -/
def Component.scripts (c : Component) : List ScriptElement := c.lifted.scripts

/-- The language in which a script is checked. -/
def ScriptElement.language (x : ScriptElement) : Language :=
  if ["ts", "typescript"].contains x.lang then .typescript else .javascript

/-- What a script says about its language. -/
def langOf (attributes : List Attribute) : String :=
  match valueOf? attributes "lang" with
  | some lang => if lang = "" then "js" else lang
  | none => "js"

/-- The script that an element is. -/
def scriptOf (s : Source) (e : ElementTag) : ScriptElement where
  isModule := valueOf? e.attributes "context" = some "module" ||
    (valueOf? e.attributes "module").isSome
  lang := langOf e.attributes
  content := String.ofList (s.textOf e.content)
  attributes := e.attributes
  span := e.span

/-- **A script is checked in its language, and then lifted**, unless there is one of its sort
already. -/
theorem liftScript_eq (e : ElementTag) (lifted : Lifted) :
    liftScript ctx e lifted =
      (let x := scriptOf ctx.source e
      if x.isModule && lifted.moduleScript.isSome then ctx.reject .secondModuleScript e.span.start
      else if !x.isModule && lifted.instanceScript.isSome then
        ctx.reject .secondInstanceScript e.span.start
      else do
        ctx.checkScript x.language e.content.start e.content.stop
        if x.isModule then return { lifted with moduleScript := some x }
        else return { lifted with instanceScript := some x }) := by
  unfold liftScript ScriptElement.language scriptOf langOf
  rfl

/-- The part is a script element that was checked in its language, and the script is what it
becomes. -/
def IsScript (ctx : Context) (p : Part × Tree) (x : ScriptElement) : Prop :=
  p.1 = .element ∧ isScriptByName ctx.source p.2 = true ∧
    ∃ e, ElementTag.read ctx p.2 = .ok e ∧ x = scriptOf ctx.source e ∧
      ctx.checkScript x.language e.content.start e.content.stop = .ok ()

theorem lowerName_eq_script_iff {t : Tree} {e : ElementTag} (hok : ElementTag.read ctx t = .ok e) :
    e.lowerName = "script" ↔ isScriptByName ctx.source t = true := by
  unfold isScriptByName ElementTag.lowerName
  rw [(ElementTag.read_eq hok).1, beq_iff_eq]

theorem mem_scripts_liftScript {e : ElementTag} {lifted lifted' : Lifted}
    (hok : liftScript ctx e lifted = .ok lifted') :
    ctx.checkScript (scriptOf ctx.source e).language e.content.start e.content.stop = .ok () ∧
      ∀ x, x ∈ lifted'.scripts ↔ x = scriptOf ctx.source e ∨ x ∈ lifted.scripts := by
  rw [liftScript_eq] at hok
  dsimp only at hok
  generalize scriptOf ctx.source e = y at hok ⊢
  split at hok
  · exact absurd hok reject_ne_ok
  · rename_i hmodule
    split at hok
    · exact absurd hok reject_ne_ok
    · rename_i hinstance
      obtain ⟨_, hcheck, hok⟩ := bind_eq_ok.mp hok
      refine ⟨hcheck, fun x => ?_⟩
      unfold Lifted.scripts
      split at hok
      · rename_i his
        rw [his, Bool.true_and, Bool.not_eq_true, Option.isSome_eq_false_iff,
          Option.isNone_iff_eq_none] at hmodule
        obtain rfl := pure_eq_ok.mp hok
        simp [hmodule, or_comm]
      · rename_i his
        rw [Bool.not_eq_true] at his
        rw [his, Bool.not_false, Bool.true_and, Bool.not_eq_true, Option.isSome_eq_false_iff,
          Option.isNone_iff_eq_none] at hinstance
        obtain rfl := pure_eq_ok.mp hok
        simp [hinstance]

/-- What is lifted after an element with raw text, if anything, is the script that it is. -/
theorem mem_scripts_lift {t : Tree} {e : ElementTag} {lifted lifted' : Lifted}
    (hread : ElementTag.read ctx t = .ok e) (hraw : e.isRaw = true)
    (hok : lift ctx e lifted = .ok lifted') (x : ScriptElement) :
    x ∈ lifted'.scripts ↔ IsScript ctx (.element, t) x ∨ x ∈ lifted.scripts := by
  have hname := lowerName_eq_script_iff hread
  unfold lift at hok
  split at hok
  · rename_i hstyle
    split at hok
    · exact absurd hok reject_ne_ok
    · cases hok
      have hnot : ¬ IsScript ctx (.element, t) x := fun h => by
        have hscript := hname.mpr h.2.1
        rw [hstyle] at hscript
        exact absurd hscript (by decide)
      rw [or_iff_right hnot]
      rfl
  · rename_i hstyle
    obtain ⟨hcheck, hmem⟩ := mem_scripts_liftScript hok
    rw [hmem]
    refine or_congr_left ⟨?_, ?_⟩
    · rintro rfl
      have hscript : e.lowerName = "script" := by
        have hraw := List.contains_iff_mem.mp hraw
        rcases List.mem_cons.mp hraw with hscript | hother
        · exact hscript
        · exact absurd (List.mem_singleton.mp hother) hstyle
      exact ⟨rfl, hname.mp hscript, e, hread, rfl, hcheck⟩
    · rintro ⟨_, _, e', hread', hx, _⟩
      cases hread.symm.trans hread'
      exact hx

/-- A script element with raw text is lifted as the script that it is. -/
theorem exists_isScript_of_lift {t : Tree} {e : ElementTag} {lifted lifted' : Lifted}
    (hread : ElementTag.read ctx t = .ok e) (hok : lift ctx e lifted = .ok lifted')
    (hname : isScriptByName ctx.source t = true) : ∃ x, IsScript ctx (.element, t) x := by
  have hscript := (lowerName_eq_script_iff hread).mpr hname
  unfold lift at hok
  rw [if_neg (by rw [hscript]; decide)] at hok
  exact ⟨scriptOf ctx.source e, rfl, hname, e, hread, rfl, (mem_scripts_liftScript hok).1⟩

/-! ## The recursion -/

mutual

/-- Nothing is lifted below the top. -/
theorem itemOf_nested {lifted lifted' : Lifted} {part : Part} {t : Tree} {item : Item}
    (hok : itemOf ctx lifted false part t = .ok (item, lifted')) : lifted' = lifted := by
  match part, hok with
  | .comment, hok =>
    rw [itemOf] at hok
    cases hok
    rfl
  | .strayClosingTag, hok =>
    rw [itemOf] at hok
    exact absurd hok reject_ne_ok
  | .tag, hok =>
    rw [itemOf] at hok
    obtain ⟨_, _, hok⟩ := bind_eq_ok.mp hok
    cases hok
    rfl
  | .element, hok =>
    rw [itemOf] at hok
    obtain ⟨e, _, hok⟩ := bind_eq_ok.mp hok
    split at hok
    · rw [Bool.false_and, if_neg Bool.false_ne_true] at hok
      cases hok
      rfl
    · obtain ⟨_, _, hok⟩ := bind_eq_ok.mp hok
      obtain ⟨⟨items, lifted₁⟩, hitems, hok⟩ := bind_eq_ok.mp hok
      obtain ⟨_, _, hok⟩ := bind_eq_ok.mp hok
      cases hok
      exact itemsOf_nested hitems
  | .block, hok =>
    rw [itemOf] at hok
    obtain ⟨_, _, hok⟩ := bind_eq_ok.mp hok
    obtain ⟨_, _, hok⟩ := bind_eq_ok.mp hok
    obtain ⟨⟨items, lifted₁⟩, hitems, hok⟩ := bind_eq_ok.mp hok
    obtain ⟨_, _, hok⟩ := bind_eq_ok.mp hok
    cases hok
    exact itemsOf_nested hitems
termination_by 2 * t.size
decreasing_by
  · have := sizeOfParts_lt ctx.source e.content.start e.content.stop t
    omega
  · have := sizeOfParts_lt ctx.source (ctx.source.span t).start (ctx.source.span t).stop t
    omega

theorem itemsOf_nested {lifted lifted' : Lifted} {ps : List (Part × Tree)} {items : List Item}
    (hok : itemsOf ctx lifted false ps = .ok (items, lifted')) : lifted' = lifted := by
  match ps, hok with
  | [], hok =>
    rw [itemsOf] at hok
    cases hok
    rfl
  | (part, t) :: ps, hok =>
    rw [itemsOf] at hok
    obtain ⟨⟨item, lifted₁⟩, hitem, hok⟩ := bind_eq_ok.mp hok
    obtain ⟨⟨items₁, lifted₂⟩, hitems, hok⟩ := bind_eq_ok.mp hok
    cases hok
    exact (itemsOf_nested hitems).trans (itemOf_nested hitem)
termination_by 2 * sizeOfParts ps + 1
decreasing_by
  · simp only [sizeOfParts_cons, Tree.size_eq t]
    omega
  · simp only [sizeOfParts_cons]
    omega

end

theorem isRaw_of_isScriptByName {t : Tree} {e : ElementTag}
    (hread : ElementTag.read ctx t = .ok e) (hname : isScriptByName ctx.source t = true) :
    e.isRaw = true := by
  refine List.contains_iff_mem.mpr ?_
  rw [(lowerName_eq_script_iff hread).mpr hname]
  exact List.mem_cons_self

/-- A script element at the top is lifted, or the component is rejected. -/
theorem exists_isScript_itemOf {lifted lifted' : Lifted} {t : Tree} {item : Item}
    (hok : itemOf ctx lifted true .element t = .ok (item, lifted'))
    (hname : isScriptByName ctx.source t = true) : ∃ x, IsScript ctx (.element, t) x := by
  rw [itemOf] at hok
  obtain ⟨e, hread, hok⟩ := bind_eq_ok.mp hok
  have hraw := isRaw_of_isScriptByName hread hname
  rw [if_pos (Or.inr hraw), hraw, Bool.true_and, if_pos rfl] at hok
  obtain ⟨lifted₁, hlift, _⟩ := bind_eq_ok.mp hok
  exact exists_isScript_of_lift hread hlift hname

/-- What a part at the top adds to the scripts, if anything, is the script that it is. -/
theorem mem_scripts_itemOf {lifted lifted' : Lifted} {part : Part} {t : Tree} {item : Item}
    (hok : itemOf ctx lifted true part t = .ok (item, lifted')) (x : ScriptElement) :
    x ∈ lifted'.scripts ↔ IsScript ctx (part, t) x ∨ x ∈ lifted.scripts := by
  cases part with
  | comment =>
    rw [itemOf] at hok
    cases hok
    exact (or_iff_right fun h => (nomatch h.1)).symm
  | strayClosingTag =>
    rw [itemOf] at hok
    exact absurd hok reject_ne_ok
  | tag =>
    rw [itemOf] at hok
    obtain ⟨_, _, hok⟩ := bind_eq_ok.mp hok
    cases hok
    exact (or_iff_right fun h => (nomatch h.1)).symm
  | element =>
    rw [itemOf] at hok
    obtain ⟨e, hread, hok⟩ := bind_eq_ok.mp hok
    have hnot : e.isRaw ≠ true → ¬ IsScript ctx (.element, t) x := fun hraw h =>
      hraw (isRaw_of_isScriptByName hread h.2.1)
    split at hok
    · rw [Bool.true_and] at hok
      split at hok
      · rename_i hraw
        obtain ⟨lifted₁, hlift, hok⟩ := bind_eq_ok.mp hok
        cases hok
        exact mem_scripts_lift hread hraw hlift x
      · rename_i hraw
        cases hok
        exact (or_iff_right (hnot hraw)).symm
    · rename_i hraw
      obtain ⟨_, _, hok⟩ := bind_eq_ok.mp hok
      obtain ⟨⟨items, lifted₁⟩, hitems, hok⟩ := bind_eq_ok.mp hok
      obtain ⟨_, _, hok⟩ := bind_eq_ok.mp hok
      cases hok
      rw [itemsOf_nested hitems, or_iff_right (hnot fun h => hraw (Or.inr h))]
  | block =>
    rw [itemOf] at hok
    obtain ⟨_, _, hok⟩ := bind_eq_ok.mp hok
    obtain ⟨_, _, hok⟩ := bind_eq_ok.mp hok
    obtain ⟨⟨items, lifted₁⟩, hitems, hok⟩ := bind_eq_ok.mp hok
    obtain ⟨_, _, hok⟩ := bind_eq_ok.mp hok
    cases hok
    rw [itemsOf_nested hitems]
    exact (or_iff_right fun h => (nomatch h.1)).symm

/-- What parts at the top add to the scripts; a script element among them adds one. -/
theorem mem_scripts_itemsOf : ∀ {ps : List (Part × Tree)} {lifted lifted' : Lifted}
    {items : List Item}, itemsOf ctx lifted true ps = .ok (items, lifted') →
    (∀ x, x ∈ lifted'.scripts ↔ (∃ p ∈ ps, IsScript ctx p x) ∨ x ∈ lifted.scripts) ∧
      ∀ t, (Part.element, t) ∈ ps → isScriptByName ctx.source t = true →
        ∃ x, IsScript ctx (.element, t) x
  | [], lifted, lifted', items, hok => by
    rw [itemsOf] at hok
    cases hok
    exact ⟨fun x => (or_iff_right fun ⟨p, hp, _⟩ => absurd hp List.not_mem_nil).symm,
      fun t ht => absurd ht List.not_mem_nil⟩
  | (part, u) :: ps, lifted, lifted', items, hok => by
    rw [itemsOf] at hok
    obtain ⟨⟨item, lifted₁⟩, hitem, hok⟩ := bind_eq_ok.mp hok
    obtain ⟨⟨items₁, lifted₂⟩, hitems, hok⟩ := bind_eq_ok.mp hok
    cases hok
    obtain ⟨hmem, hexists⟩ := mem_scripts_itemsOf hitems
    constructor
    · intro x
      rw [hmem, mem_scripts_itemOf hitem, List.exists_mem_cons_iff, or_left_comm, or_assoc]
    · intro t ht hname
      rcases List.mem_cons.mp ht with heq | ht
      · cases heq
        exact exists_isScript_itemOf hitem hname
      · exact hexists t ht hname

/-- **The scripts that are lifted** are what the script elements at the top become, each of them
checked in its language; and each script element at the top becomes one. -/
theorem mem_scripts_documentOf {root : Tree} {f : Fragment Node} {lifted : Lifted}
    (hok : documentOf ctx root = .ok (f, lifted)) :
    (∀ x, x ∈ lifted.scripts ↔
      ∃ p ∈ parts ctx.source 0 ctx.source.size root, IsScript ctx p x) ∧
      ∀ t, (Part.element, t) ∈ parts ctx.source 0 ctx.source.size root →
        isScriptByName ctx.source t = true → ∃ x, IsScript ctx (.element, t) x := by
  obtain ⟨_, _, hok⟩ := bind_eq_ok.mp hok
  obtain ⟨⟨items, lifted₁⟩, hitems, hok⟩ := bind_eq_ok.mp hok
  obtain ⟨children, _, hok⟩ := bind_eq_ok.mp hok
  cases hok
  obtain ⟨hmem, hexists⟩ := mem_scripts_itemsOf hitems
  refine ⟨fun x => ?_, hexists⟩
  rw [hmem]
  exact or_iff_left List.not_mem_nil

end RawHtmlLint.Template

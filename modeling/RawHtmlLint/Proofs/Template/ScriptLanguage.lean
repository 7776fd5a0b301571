import RawHtmlLint.Proofs.Template.LangAttribute
import RawHtmlLint.Proofs.Template.Scripts

/-!
# The language of a component

A component says twice that it is written in TypeScript. All its expressions are read in the
language that the text of the opening tags names. Each script is checked in the language that its
attributes name: the last one that is called `lang`, exactly so, has exactly one of two values.

The two agree for tags where `lang` stands for nothing but one attribute of that name with a plain
value. They do not agree for an attribute whose name only ends in `lang` after a hyphen.

Results:
* `PlainLang.names_iff`: the two readings of a plain tag agree;
* `parse_oneLanguage`: so do the language of the expressions and those of the scripts;
* `hyphenSource_twoLanguages`: an attribute `data-lang` sets one and not the other.
-/

namespace RawHtmlLint.Template

open Grammar Text

/-! ## Plain tags -/

/-- The span of each node lies inside that of its parent. -/
def Nested (s : Source) (t : Tree) : Prop :=
  ∀ u ∈ t.nodes, ∀ c ∈ u.children, (s.span c).Inside (s.span u)

instance (s : Source) (t : Tree) : Decidable (Nested s t) :=
  inferInstanceAs (Decidable (∀ u ∈ t.nodes, ∀ c ∈ u.children, (s.span c).Inside (s.span u)))

theorem Nested.child {s : Source} {t c : Tree} (h : Nested s t) (hc : c ∈ t.children) :
    Nested s c :=
  fun u hu => h u (Tree.mem_nodes_of_mem_children hc hu)

/-- The attribute is called `lang`. -/
def isLang (s : Source) (c : Tree) : Bool := s.textOf (nameSpan s c) == "lang".toList

/-- A value with its quotes closed, or without any, that does not merely start with a name of
TypeScript, or spell it otherwise. -/
def PlainValue (value : List Char) : Prop :=
  ∃ inner ∈ inQuotes? value, startsWithName inner = true →
    ["ts", "typescript"].contains (String.ofList inner) = true

instance (value : List Char) : Decidable (PlainValue value) :=
  inferInstanceAs (Decidable (∃ inner ∈ inQuotes? value, startsWithName inner = true →
    ["ts", "typescript"].contains (String.ofList inner) = true))

/-- Nothing in an opening tag but an attribute `lang` with a plain value reads as one. -/
structure PlainLang (s : Source) (tag : Tree) : Prop where
  /-- Where a word starts that is `lang` with a value, an attribute of that name starts. -/
  named : ∀ p < (s.span tag).stop, (s.span tag).start ≤ p → langAt s (s.span tag).stop p = true →
    ∃ c ∈ attributeNodes tag, isLang s c = true ∧ (nameSpan s c).start = p ∧
      (writtenValue? s c).isSome = true
  unique : ((attributeNodes tag).filter (isLang s)).length ≤ 1
  plain : ∀ c ∈ attributeNodes tag, isLang s c = true → ∀ value ∈ writtenValue? s c,
    PlainValue value
  /-- The name starts where a word may start, and no word goes on after the attribute. -/
  apart : ∀ c ∈ attributeNodes tag, isLang s c = true →
    s.startsWordAt (nameSpan s c).start = true ∧
      endsWord (s.slice (s.span c).stop (s.span tag).stop) = true

instance (s : Source) (tag : Tree) : Decidable (PlainLang s tag) :=
  decidable_of_iff
    ((∀ p < (s.span tag).stop, (s.span tag).start ≤ p → langAt s (s.span tag).stop p = true →
        ∃ c ∈ attributeNodes tag, isLang s c = true ∧ (nameSpan s c).start = p ∧
          (writtenValue? s c).isSome = true) ∧
      ((attributeNodes tag).filter (isLang s)).length ≤ 1 ∧
      (∀ c ∈ attributeNodes tag, isLang s c = true → ∀ value ∈ writtenValue? s c,
        PlainValue value) ∧
      ∀ c ∈ attributeNodes tag, isLang s c = true →
        s.startsWordAt (nameSpan s c).start = true ∧
          endsWord (s.slice (s.span c).stop (s.span tag).stop) = true)
    ⟨fun h => ⟨h.1, h.2.1, h.2.2.1, h.2.2.2⟩, fun h => ⟨h.1, h.2, h.3, h.4⟩⟩

section Tag

variable {s : Source} {tag c : Tree}

theorem attribute_inside (hnested : Nested s tag) (hc : c ∈ attributeNodes tag) :
    (s.span c).Inside (s.span tag) ∧ Nested s c := by
  have hmem : c ∈ tag.children := (List.mem_filter.mp (List.mem_filter.mp hc).1).1
  exact ⟨hnested tag (Tree.mem_nodes_self tag) c hmem, hnested.child hmem⟩

/-- In the text of a tag an attribute `lang` names TypeScript if what is in its quotes does. -/
theorem names_at_attribute (hnested : Nested s tag) (hc : c ∈ attributeNodes tag)
    (hlang : isLang s c = true) {value inner : List Char} (hvalue : writtenValue? s c = some value)
    (hinner : inQuotes? value = some inner)
    (hends : endsWord (s.slice (s.span c).stop (s.span tag).stop) = true) :
    (s.span tag).start ≤ (nameSpan s c).start ∧ (nameSpan s c).start < (s.span tag).stop ∧
      startsWithTypeScript (s.slice (nameSpan s c).start (s.span tag).stop) =
        startsWithName inner := by
  obtain ⟨⟨hlow, hhigh⟩, hnestedc⟩ := attribute_inside hnested hc
  unfold isLang at hlang
  unfold writtenValue? at hvalue
  unfold nameSpan at hlang ⊢
  split at hvalue
  · cases hvalue
  · rename_i name hname
    rw [hname] at hlang
    dsimp only at hlang ⊢
    obtain ⟨hnamelow, hnamehigh⟩ :=
      hnestedc c (Tree.mem_nodes_self c) name (List.mem_of_find?_eq_some hname)
    have hword : s.slice (s.span name).start (s.span name).stop = "lang".toList :=
      beq_iff_eq.mp hlang
    have hfour : (s.span name).stop = (s.span name).start + 4 :=
      stop_of_slice_eq hword (span_stop_le_size s name) (List.cons_ne_nil _ _)
    have htext : s.slice (s.span name).start (s.span tag).stop = "lang".toList ++
        (s.slice (s.span name).stop (s.span c).stop ++
          s.slice (s.span c).stop (s.span tag).stop) := by
      rw [← hword]
      unfold Source.slice
      rw [slice_append hnamehigh hhigh, slice_append (by omega) (by omega)]
    refine ⟨by omega, by omega, ?_⟩
    rw [htext]
    exact startsWithTypeScript_attribute hvalue hinner hends

theorem name_eq_lang_iff : (attributeOf s c).name = "lang" ↔ isLang s c = true := by
  unfold attributeOf isLang
  rw [beq_iff_eq]
  constructor
  · intro h
    have hlist := congrArg String.toList h
    dsimp only at hlist
    rw [String.toList_ofList] at hlist
    exact hlist
  · intro h
    rw [h]
    rfl

/-- An attribute has what is in its quotes as its value. -/
theorem unquoted_attributeOf {value inner : List Char} (hvalue : writtenValue? s c = some value)
    (hinner : inQuotes? value = some inner) :
    unquoted (attributeOf s c).value = String.ofList inner := by
  unfold attributeOf
  rw [hvalue]
  exact unquoted_of_inQuotes? hinner

/-- The value of `lang` is that of one of the attributes of this name. -/
theorem exists_of_valueOf? {value : String}
    (h : valueOf? ((attributeNodes tag).map (attributeOf s)) "lang" = some value) :
    ∃ c ∈ attributeNodes tag, isLang s c = true ∧ unquoted (attributeOf s c).value = value := by
  unfold valueOf? at h
  obtain ⟨a, ha, rfl⟩ := Option.map_eq_some_iff.mp h
  have hmem := List.mem_reverse.mp (List.mem_of_find?_eq_some ha)
  have hname := List.find?_some ha
  obtain ⟨c, hc, rfl⟩ := List.mem_map.mp hmem
  exact ⟨c, hc, name_eq_lang_iff.mp (of_decide_eq_true hname), rfl⟩

/-- If there is only one attribute `lang`, its value is the one. -/
theorem valueOf?_of_unique (hunique : ((attributeNodes tag).filter (isLang s)).length ≤ 1)
    (hc : c ∈ attributeNodes tag) (hlang : isLang s c = true) :
    valueOf? ((attributeNodes tag).map (attributeOf s)) "lang" =
      some (unquoted (attributeOf s c).value) := by
  cases hvalue : valueOf? ((attributeNodes tag).map (attributeOf s)) "lang" with
  | none =>
    unfold valueOf? at hvalue
    rw [Option.map_eq_none_iff, List.find?_eq_none] at hvalue
    have hmem := List.mem_reverse.mpr (List.mem_map_of_mem (f := attributeOf s) hc)
    exact absurd (decide_eq_true (name_eq_lang_iff.mpr hlang)) (hvalue _ hmem)
  | some value =>
    obtain ⟨d, hd, hdlang, rfl⟩ := exists_of_valueOf? hvalue
    have hboth : ∀ {cs : List Tree}, cs.length ≤ 1 → c ∈ cs → d ∈ cs → d = c := by
      intro cs hlength hcs hds
      match cs, hlength with
      | [u], _ => rw [List.mem_singleton.mp hcs, List.mem_singleton.mp hds]
    rw [hboth hunique (List.mem_filter.mpr ⟨hc, hlang⟩) (List.mem_filter.mpr ⟨hd, hdlang⟩)]

/-- The language that the attributes name is TypeScript if the value of `lang` is. -/
theorem langOf_typescript_iff {attributes : List Attribute} :
    ["ts", "typescript"].contains (langOf attributes) = true ↔
      ∃ value, valueOf? attributes "lang" = some value ∧
        ["ts", "typescript"].contains value = true := by
  unfold langOf
  cases valueOf? attributes "lang" with
  | none => simp
  | some value =>
    dsimp only
    split
    · rename_i hempty
      simp [hempty]
    · simp

/-- A plain attribute `lang` names TypeScript in the text of its tag exactly if its value is a name
of it. -/
theorem PlainLang.typeScriptAt_iff (h : PlainLang s tag) (hnested : Nested s tag)
    (hc : c ∈ attributeNodes tag) (hlang : isLang s c = true) {value : List Char}
    (hvalue : writtenValue? s c = some value) :
    (s.span tag).start ≤ (nameSpan s c).start ∧ (nameSpan s c).start < (s.span tag).stop ∧
      (typeScriptAt s (s.span tag).stop (nameSpan s c).start = true ↔
        ["ts", "typescript"].contains (unquoted (attributeOf s c).value) = true) := by
  obtain ⟨hstarts, hends⟩ := h.apart c hc hlang
  obtain ⟨inner, hinner, hplain⟩ := h.plain c hc hlang value hvalue
  obtain ⟨hge, hlt, hnames⟩ := names_at_attribute hnested hc hlang hvalue hinner hends
  refine ⟨hge, hlt, ?_⟩
  rw [typeScriptAt, hstarts, Bool.true_and, hnames, unquoted_attributeOf hvalue hinner]
  exact ⟨hplain, startsWithName_of_contains⟩

/-- **The two readings of a plain tag agree.** -/
theorem PlainLang.names_iff (h : PlainLang s tag) (hnested : Nested s tag) :
    (∃ p < (s.span tag).stop, (s.span tag).start ≤ p ∧ typeScriptAt s (s.span tag).stop p = true) ↔
      ["ts", "typescript"].contains (langOf ((attributeNodes tag).map (attributeOf s))) = true := by
  rw [langOf_typescript_iff]
  constructor
  · rintro ⟨p, hlt, hge, hnames⟩
    obtain ⟨c, hc, hlang, rfl, hsome⟩ := h.named p hlt hge (langAt_of_typeScriptAt hnames)
    obtain ⟨value, hvalue⟩ := Option.isSome_iff_exists.mp hsome
    exact ⟨_, valueOf?_of_unique h.unique hc hlang,
      (h.typeScriptAt_iff hnested hc hlang hvalue).2.2.mp hnames⟩
  · rintro ⟨_, hvalueOf, hname⟩
    obtain ⟨c, hc, hlang, rfl⟩ := exists_of_valueOf? hvalueOf
    cases hvalue : writtenValue? s c with
    | none =>
      -- without a value the attribute has the empty one
      have hempty : unquoted (attributeOf s c).value = "" := by
        unfold attributeOf
        rw [hvalue]
        rfl
      rw [hempty] at hname
      exact absurd hname (by decide)
    | some value =>
      obtain ⟨hge, hlt, hiff⟩ := h.typeScriptAt_iff hnested hc hlang hvalue
      exact ⟨_, hlt, hge, hiff.mpr hname⟩

end Tag

/-! ## Components -/

/-- The scripts at the top of a component are the script elements among the children of the
root. -/
structure ScriptsAtRoot (s : Source) (root : Tree) : Prop where
  child : ∀ p ∈ parts s 0 s.size root, p.1 = .element → isScriptByName s p.2 = true →
    p.2 ∈ root.children ∧ p.2.kind = "script_element"
  named : ∀ t ∈ root.children, t.kind = "script_element" → isScriptByName s t = true

section Component

variable {g : Grammars} {modern : Bool} {s : Source} {parsed : Parsed} {tree : Parse}

/-- The language of the expressions is the one that the tags of the script elements name. -/
theorem parse_language (htree : g.parse Language.svelte.name (Markup.adapt s.text) = .ok tree)
    (hok : parse g modern s = .ok parsed) : parsed.language = scriptLanguage s tree.root := by
  obtain ⟨tree', htree', hok⟩ := bind_eq_ok.mp hok
  cases htree.symm.trans htree'
  split at hok
  · exact absurd hok reject_ne_ok
  · obtain ⟨⟨fragment, lifted⟩, _, hok⟩ := bind_eq_ok.mp hok
    obtain rfl := pure_eq_ok.mp hok
    rfl

/-- A node that is a part is found. -/
theorem mem_partsAmong_of_role {low high : Nat} {todo : List Tree} {t : Tree} {part : Part}
    (ht : t ∈ todo) (hrole : role s t = .part part) (hin : (s.span t).within low high = true) :
    (part, t) ∈ partsAmong s low high todo := by
  fun_induction partsAmong s low high todo with
  | case1 => exact absurd ht List.not_mem_nil
  | case2 u todo hskip ih =>
    rcases List.mem_cons.mp ht with rfl | ht
    · cases hrole.symm.trans hskip
    · exact ih ht
  | case3 u todo hdescend ih =>
    rcases List.mem_cons.mp ht with rfl | ht
    · cases hrole.symm.trans hdescend
    · exact ih (List.mem_append_right _ ht)
  | case4 u todo found hfound hwithin ih =>
    rcases List.mem_cons.mp ht with rfl | ht
    · cases hrole.symm.trans hfound
      exact List.mem_cons_self
    · exact List.mem_cons_of_mem _ (ih ht)
  | case5 u todo found hfound hwithin ih =>
    rcases List.mem_cons.mp ht with rfl | ht
    · exact absurd hin hwithin
    · exact ih ht

/-- Where no node only holds parts, the parts are among the nodes themselves. -/
theorem mem_of_mem_partsAmong {low high : Nat} {todo : List Tree} {p : Part × Tree}
    (hflat : ∀ t ∈ todo, role s t ≠ .descend) (hp : p ∈ partsAmong s low high todo) :
    p.2 ∈ todo := by
  fun_induction partsAmong s low high todo with
  | case1 => exact absurd hp List.not_mem_nil
  | case2 u todo _ ih | case5 u todo _ _ _ ih =>
    exact List.mem_cons_of_mem _ (ih (fun t ht => hflat t (List.mem_cons_of_mem _ ht)) hp)
  | case3 u todo hdescend => exact absurd hdescend (hflat u List.mem_cons_self)
  | case4 u todo _ _ _ ih =>
    rcases List.mem_cons.mp hp with rfl | hp
    · exact List.mem_cons_self
    · exact List.mem_cons_of_mem _ (ih (fun t ht => hflat t (List.mem_cons_of_mem _ ht)) hp)

/-- A script element among the children of a node is one of its parts. -/
theorem scriptElement_mem_parts {root t : Tree} (ht : t ∈ root.children)
    (hkind : t.kind = "script_element") : (Part.element, t) ∈ parts s 0 s.size root := by
  have hrole : role s t = .part .element := by
    unfold role
    rw [hkind]
    rfl
  exact mem_partsAmong_of_role ht hrole
    (Span.within_iff.mpr ⟨Nat.zero_le _, span_stop_le_size s t⟩)

theorem scriptLanguage_eq_typescript_iff {root : Tree} :
    scriptLanguage s root = .typescript ↔
      ∃ t ∈ root.children, isTypeScriptElement s t = true := by
  unfold scriptLanguage
  rw [← List.any_eq_true]
  split
  · rename_i hany
    exact ⟨fun _ => hany, fun _ => rfl⟩
  · rename_i hany
    exact ⟨fun h => (nomatch h), fun h => absurd h hany⟩

theorem ScriptElement.language_eq_typescript_iff {x : ScriptElement} :
    x.language = .typescript ↔ ["ts", "typescript"].contains x.lang = true := by
  unfold ScriptElement.language
  split
  · rename_i hlang
    exact ⟨fun _ => hlang, fun _ => rfl⟩
  · rename_i hlang
    exact ⟨fun h => (nomatch h), fun h => absurd h hlang⟩

/-- **One script language for a component.** Each script that is lifted was checked in its
language, and the expressions are read as TypeScript exactly if one of these languages is
TypeScript. -/
theorem parse_oneLanguage (hnested : Nested s tree.root) (hroot : ScriptsAtRoot s tree.root)
    (hplain : ∀ t ∈ tree.root.children, t.kind = "script_element" → ∀ tag ∈ openingTag? t,
      PlainLang s tag)
    (htree : g.parse Language.svelte.name (Markup.adapt s.text) = .ok tree)
    (hok : parse g modern s = .ok parsed) :
    (∀ x ∈ parsed.component.scripts, ∃ range : Span, x.content = String.ofList (s.textOf range) ∧
      Script.check s g x.language.name range.start range.stop = .ok ()) ∧
      (parsed.language = .typescript ↔
        ∃ x ∈ parsed.component.scripts, x.language = .typescript) := by
  obtain ⟨hmem, hexists⟩ := mem_scripts_documentOf (parse_ok htree hok)
  -- both readings of the tag of a script element at the root
  have hnames : ∀ {t : Tree} {x : ScriptElement}, t ∈ tree.root.children →
      t.kind = "script_element" → IsScript (contextFor g s modern parsed.language) (.element, t) x →
      (isTypeScriptElement s t = true ↔ x.language = .typescript) := by
    rintro t x ht hkind ⟨_, _, e, hread, rfl, _⟩
    obtain ⟨_, tag, htag, hattributes⟩ := ElementTag.read_eq hread
    have htagNested : Nested s tag := (hnested.child ht).child (List.mem_of_find?_eq_some htag)
    rw [ScriptElement.language_eq_typescript_iff, isTypeScriptElement_iff]
    show _ ↔ ["ts", "typescript"].contains (langOf e.attributes) = true
    rw [hattributes, and_iff_right hkind]
    refine .trans ?_ ((hplain t ht hkind tag htag).names_iff htagNested)
    constructor
    · rintro ⟨_, h, hnames⟩
      cases htag.symm.trans h
      exact hnames
    · exact fun hnames => ⟨tag, htag, hnames⟩
  refine ⟨fun x hx => ?_, ?_⟩
  · obtain ⟨p, _, _, _, e, _, rfl, hcheck⟩ := (hmem x).mp hx
    exact ⟨e.content, rfl, hcheck⟩
  · rw [parse_language htree hok, scriptLanguage_eq_typescript_iff]
    constructor
    · rintro ⟨t, ht, hlang⟩
      have hkind := (isTypeScriptElement_iff.mp hlang).1
      have hpart := scriptElement_mem_parts (s := s) ht hkind
      obtain ⟨x, hx⟩ := hexists t hpart (hroot.named t ht hkind)
      exact ⟨x, (hmem x).mpr ⟨_, hpart, hx⟩, (hnames ht hkind hx).mp hlang⟩
    · rintro ⟨x, hx, hlang⟩
      obtain ⟨⟨part, t⟩, hp, hscript⟩ := (hmem x).mp hx
      obtain rfl : part = .element := hscript.1
      obtain ⟨ht, hkind⟩ := hroot.child _ hp rfl hscript.2.1
      exact ⟨t, ht, (hnames ht hkind hscript).mpr hlang⟩

end Component

/-! A script in TypeScript, and one with an attribute whose name only ends in `lang`. -/

/-- A script with one attribute, and a tag that shows a name. -/
def attributeSource (written : String) : Source :=
  .ofText "Script.svelte" ("<script " ++ written ++ ">1</script>\x7bx\x7d").toList

/-- The tree of it: `name` is the end of the attribute's name, `stop` that of the attribute. -/
def attributeTree (name stop : Nat) : Tree :=
  sampleNode "document" 0 (stop + 14) [
    sampleNode "script_element" 0 (stop + 11) [
      sampleNode "start_tag" 0 (stop + 1) [
        sampleNode "tag_name" 1 7 [],
        sampleNode "attribute" 8 stop [
          sampleNode "attribute_name" 8 name [],
          sampleNode "quoted_attribute_value" (name + 1) stop []]],
      sampleNode "raw_text" (stop + 1) (stop + 2) [],
      sampleNode "end_tag" (stop + 2) (stop + 11) []],
    sampleNode "expression" (stop + 11) (stop + 14) []]

theorem scriptsAtRoot_of_flat {s : Source} {root : Tree}
    (hflat : ∀ t ∈ root.children, role s t ≠ .descend)
    (hkind : ∀ p ∈ parts s 0 s.size root, p.1 = .element → isScriptByName s p.2 = true →
      p.2.kind = "script_element")
    (hname : ∀ t ∈ root.children, t.kind = "script_element" → isScriptByName s t = true) :
    ScriptsAtRoot s root where
  child p hp hpart hscript := ⟨mem_of_mem_partsAmong hflat hp, hkind p hp hpart hscript⟩
  named := hname

def typedSource : Source := attributeSource "lang=\"ts\""

theorem typedSource_oneLanguage :
    ∃ parsed, parse (grammarsOf (attributeTree 12 17)) false typedSource = .ok parsed ∧
      parsed.language = .typescript ∧
      ∃ x ∈ parsed.component.scripts, x.language = .typescript := by
  obtain ⟨parsed, hok, hlanguage⟩ := exists_ok_of_any
    (x := parse (grammarsOf (attributeTree 12 17)) false typedSource)
    (p := fun parsed => parsed.language == .typescript) (by decide +kernel)
  have htree : (grammarsOf (attributeTree 12 17)).parse Language.svelte.name
      (Markup.adapt typedSource.text) = .ok ⟨attributeTree 12 17, false⟩ := rfl
  have hone := parse_oneLanguage (by decide +kernel)
    (scriptsAtRoot_of_flat (by decide +kernel) (by decide +kernel) (by decide +kernel))
    (by decide +kernel) htree hok
  exact ⟨parsed, hok, beq_iff_eq.mp hlanguage, hone.2.mp (beq_iff_eq.mp hlanguage)⟩

def hyphenSource : Source := attributeSource "data-lang=\"ts\""

/-- **An attribute `data-lang` sets the language of the expressions, and not that of the
script.** -/
theorem hyphenSource_twoLanguages :
    WellFormed hyphenSource (attributeTree 17 22) ∧
      ScriptsAtRoot hyphenSource (attributeTree 17 22) ∧
      ∃ parsed, parse (grammarsOf (attributeTree 17 22)) false hyphenSource = .ok parsed ∧
        parsed.language = .typescript ∧
        parsed.component.scripts.map ScriptElement.language = [.javascript] := by
  obtain ⟨parsed, hok, htest⟩ := exists_ok_of_any
    (x := parse (grammarsOf (attributeTree 17 22)) false hyphenSource)
    (p := fun parsed => parsed.language == .typescript &&
      parsed.component.scripts.map ScriptElement.language == [.javascript]) (by decide +kernel)
  rw [Bool.and_eq_true, beq_iff_eq, beq_iff_eq] at htest
  exact ⟨by decide +kernel,
    scriptsAtRoot_of_flat (by decide +kernel) (by decide +kernel) (by decide +kernel), parsed, hok,
    htest⟩

end RawHtmlLint.Template

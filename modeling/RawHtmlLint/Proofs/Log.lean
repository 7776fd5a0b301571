import Mathlib.Data.List.Forall2
import RawHtmlLint.Proofs.Analysis
import RawHtmlLint.Proofs.Lookup
import RawHtmlLint.Proofs.Process

/-!
# The log of an analysis

An analysis tells of what it finds twice: in its report, and event by event in the log. The events
come from the parser, the rule and the operation around both, whose data is changed while it runs
and told when it ends. Both tell the same story.

The first analysis of a process also makes the registry of grammars, which logs a line for each
language before the parser's own event. These are no events of the analysis: a later one has none of
them.

Results:
* `lookup_merge`: what data says that was changed;
* `value?_failed`: what the events of failures say;
* `loading_tells`: the events of the making of the registry;
* `analyze_log`: the log of an analysis, by its report.
-/

namespace RawHtmlLint

open Grammar

/-! ## Data that is changed -/

theorem lookup_replace (name key : String) (value : Json) (members : List (String × Json)) :
    (members.map fun m => if m.1 == name then (m.1, value) else m).lookup key =
      if key = name then (members.lookup key).map fun _ => value else members.lookup key := by
  induction members with
  | nil => simp
  | cons m members ih =>
    rw [List.map_cons, lookup_cons_eq, lookup_cons_eq, ih]
    by_cases hname : m.1 = name
    · subst hname
      by_cases hkey : key = m.1 <;> simp [hkey]
    · by_cases hkey : key = m.1
      · subst hkey
        simp [hname]
      · simp [hname, hkey]

/-- One member more, or with a new value. -/
theorem lookup_put (members : List (String × Json)) (m : String × Json) (key : String) :
    (if members.any (·.1 == m.1) then
      members.map fun n => if n.1 == m.1 then (n.1, m.2) else n
    else members ++ [m]).lookup key = if key = m.1 then some m.2 else members.lookup key := by
  have hknown : members.any (·.1 == m.1) = true ↔ members.lookup m.1 ≠ none := by
    rw [Ne, lookup_eq_none_iff_not_mem, not_not, List.any_eq_true, List.mem_map]
    simp only [beq_iff_eq]
  split
  · rename_i hany
    obtain ⟨old, hold⟩ := Option.ne_none_iff_exists'.mp (hknown.mp hany)
    rw [lookup_replace]
    by_cases hkey : key = m.1
    · simp [hkey, hold]
    · simp [hkey]
  · rename_i hany
    rw [List.lookup_append, lookup_cons_eq, List.lookup_nil]
    by_cases hkey : key = m.1
    · have hnone : members.lookup m.1 = none := not_not.mp (mt hknown.mpr hany)
      simp [hkey, hnone]
    · simp [hkey]

/-- **What data says that was changed**: the last new value of a name counts, then the old one. -/
theorem lookup_merge (key : String) (new old : List (String × Json)) :
    (Json.merge old new).lookup key = (new.reverse.lookup key).or (old.lookup key) := by
  induction new generalizing old with
  | nil => rfl
  | cons m new ih =>
    -- the new values are put in from first to last
    have hput := ih (if old.any (·.1 == m.1) then
      old.map fun n => if n.1 == m.1 then (n.1, m.2) else n
    else old ++ [m])
    rw [lookup_put] at hput
    refine hput.trans ?_
    rw [List.reverse_cons, List.lookup_append, Option.or_assoc, lookup_cons_eq]
    by_cases hkey : key = m.1
    · simp [hkey]
    · simp [hkey]

namespace Event

/-- What the data of an event says under a name. -/
def value? (e : Event) (name : String) : Option Json := e.data.lookup name

/-- **A failure** tells of its error, and of what was known before. -/
theorem value?_failed (name : String) (error : ErrorInfo) (data : List (String × Json))
    (key : String) : (failed name (some error) data).value? key =
      ([("error_message", Json.str error.text), ("error_type", .str error.kind)].lookup key).or
        (data.lookup key) :=
  lookup_merge key _ data

/-- The event reports the finding: its path, and where it starts. -/
structure Reports (e : Event) (f : Finding) : Prop where
  name : e.name = "unsafe_html_detected"
  path : e.value? "filename" = some (.str f.path)
  line : e.value? "line" = some (.int f.location.start.line)
  column : e.value? "column" = some (.int f.location.start.column)

end Event

/-- The log tells what the report says. If the component could be parsed, the log says so, then has
one event for each finding in the order of the findings, and ends with their number. If not, it says
why, with the code and the text of the diagnostic, and its end says that nothing was parsed and has
no number. -/
inductive Tells : List Event → Report → Prop
  | checked {path : String} {findings : List Finding} {first last : Event} {events : List Event}
      (parsed : first.name = "template_parsed")
      (detected : List.Forall₂ Event.Reports events findings)
      (ended : last.name = "analysis_complete")
      (count : last.value? "warnings" = some (.int findings.length)) :
      Tells (first :: events ++ [last]) (.checked path findings)
  | malformed {path : String} {d : Diagnostic} {first last : Event}
      (failed : first.name = "template_parse_failed")
      (code : first.value? "code" = some (.str d.code))
      (text : first.value? "error_message" = some (.str d.text))
      (ended : last.name = "analysis_complete")
      (unparsed : last.value? "parsed" = some (.bool false))
      (uncounted : last.value? "warnings" = none) :
      Tells [first, last] (.malformed path d)

/-- The event tells whether the grammar of the language was loaded. -/
structure Event.TellsLoading (loads : Language → Bool) (e : Event) (l : Language) : Prop where
  name : e.name = if loads l then "grammar_loaded" else "grammar_load_failed"
  language : e.value? "language" = some (.str l.name)

/-! ## What the events say -/

theorem detectedEvent_reports (s : Source) (i : Rule.Insertion) :
    (detectedEvent s i).Reports (Finding.ofInsertion s.path i) where
  name := rfl
  path := rfl
  line := rfl
  column := rfl

theorem malformedEvent_value? (s : Source) (d : Diagnostic) (name : String) :
    (malformedEvent s d).value? name =
      ([("error_message", Json.str d.text), ("error_type", .str "TemplateParseError")].lookup
        name).or ([("filename", Json.str s.path), ("code", .str d.code)].lookup name) :=
  Event.value?_failed _ _ _ _

/-- What was noted while the analysis ran counts, and then what it started with. -/
theorem endedEvent_value? (s : Source) (late : List (String × Json)) (duration : Nat)
    (name : String) : (endedEvent s late duration).value? name =
      (late.reverse.lookup name).or ([("filename", Json.str s.path)].lookup name) :=
  lookup_merge name late _

theorem tells_malformed (s : Source) (d : Diagnostic) (duration : Nat) :
    Tells ([malformedEvent s d] ++ [endedEvent s [("parsed", .bool false)] duration])
      (.malformed s.path d) :=
  .malformed rfl (malformedEvent_value? s d "code") (malformedEvent_value? s d "error_message") rfl
    (endedEvent_value? s _ _ "parsed") (endedEvent_value? s _ _ "warnings")

theorem tells_checked (s : Source) (parsed : Template.Parsed) (found : List Rule.Insertion)
    (duration : Nat) :
    Tells (parsedEvent s parsed :: found.map (detectedEvent s) ++
        [endedEvent s [("warnings", .int (found.map (Finding.ofInsertion s.path)).length)]
          duration])
      (.checked s.path (found.map (Finding.ofInsertion s.path))) := by
  refine .checked rfl ?_ rfl (endedEvent_value? s _ _ "warnings")
  rw [List.forall₂_map_left_iff, List.forall₂_map_right_iff, List.forall₂_same]
  exact fun i _ => detectedEvent_reports s i

theorem register_tells (loads : Language → Bool) (r : Registry) (l : Language) :
    (Registry.register loads r l).2.TellsLoading loads l := by
  unfold Registry.register
  split
  · rename_i h
    exact ⟨(if_pos h).symm, rfl⟩
  · rename_i h
    exact ⟨(if_neg h).symm, rfl⟩

/-- **The making of the registry** is told language by language; a process that has a registry has
nothing to tell. -/
theorem loading_tells (p : Process) (loads : Language → Bool) :
    (p.registry.isSome = true → p.loading loads = []) ∧
      (p.registry = none →
        List.Forall₂ (Event.TellsLoading loads) (p.loading loads) Language.all) := by
  refine ⟨fun h => if_pos h, fun h => ?_⟩
  have hloading : p.loading loads = (Registry.new loads).2 := by
    unfold Process.loading
    rw [h]
    rfl
  rw [hloading]
  exact .cons (register_tells _ _ _) (.cons (register_tells _ _ _)
    (.cons (register_tells _ _ _) .nil))

/-! ## The log -/

section

variable {tools : Tools} {options : Options} {s : Source}

/-- What an analysis has written that has a report: the events of the registry, and the story. -/
theorem exists_story {p q : Process} {report : Report}
    (h : (analysisTask tools options s).run p = (.ok report, q)) :
    ∃ story, q.log = p.log ++ p.loading tools.loads ++ story ∧ Tells story report ∧
      (∀ e ∈ story, e.value? "filename" = some (.str report.path)) ∧
      q.registry = some (p.registryFor tools.loads) := by
  have hrun := run_analysisTask tools options s p
  split at hrun
  · rename_i d _
    cases h.symm.trans hrun
    refine ⟨_, List.append_assoc _ _ _, tells_malformed s d _, fun e he => ?_, rfl⟩
    rcases List.mem_cons.mp he with rfl | he
    · exact malformedEvent_value? s d "filename"
    · obtain rfl := List.mem_singleton.mp he
      exact endedEvent_value? s _ _ "filename"
  · obtain ⟨_, hrun⟩ := hrun
    cases h.symm.trans hrun
  · rename_i parsed _
    split at hrun
    · obtain ⟨_, hrun⟩ := hrun
      cases h.symm.trans hrun
    · rename_i found _
      cases h.symm.trans hrun
      refine ⟨_, List.append_assoc _ _ _, tells_checked s parsed found _, fun e he => ?_, rfl⟩
      rcases List.mem_append.mp he with he | he
      · rcases List.mem_cons.mp he with rfl | he
        · rfl
        · obtain ⟨i, _, rfl⟩ := List.mem_map.mp he
          rfl
      · obtain rfl := List.mem_singleton.mp he
        exact endedEvent_value? s _ _ "filename"

/-- **The log and the report tell the same story**, and of the same component. An analysis that has
a report has written exactly the events of the story, whatever the process did before. Only where
the process had no registry, and now has one, the events of its making come first, one for each
language. -/
theorem analyze_log {p q : Process} {report : Report}
    (h : (analysisTask tools options s).run p = (.ok report, q)) :
    ∃ loading story, q.log = p.log ++ loading ++ story ∧ Tells story report ∧
      (∀ e ∈ story, e.value? "filename" = some (.str report.path)) ∧
      q.registry.isSome = true ∧ (p.registry.isSome = true → loading = []) ∧
      (p.registry = none →
        List.Forall₂ (Event.TellsLoading tools.loads) loading Language.all) := by
  obtain ⟨story, hlog, htells, hpath, hregistry⟩ := exists_story h
  exact ⟨_, story, hlog, htells, hpath, Option.isSome_of_mem hregistry, loading_tells p tools.loads⟩

/-- The log of an analysis with grammars at hand is the story alone. -/
theorem analyze_tells {g : Grammars} {a : Analysis} (h : analyze g options s = .ok a) :
    Tells a.log a.report := by
  unfold analyze at h
  rcases hrun : (analysisTask { tree? := g.tree? } options s).run { registry := g.registry } with
    ⟨result, q⟩
  rw [hrun] at h
  cases result with
  | error failure => cases h
  | ok report =>
    cases h
    obtain ⟨story, hlog, htells, _⟩ := exists_story hrun
    have hstory : q.log = story := hlog
    rwa [hstory]

end

/-! Both ends of an analysis, one after the other in one process: two insertions that are reported,
and one that cannot be read. -/

/-- The trees of the sample row, for a process that has no registry yet. -/
def rowTools : Tools where
  tree? := rowGrammars.tree?

def blankTools : Tools where
  tree? := blankGrammars.tree?

/-- A task has a value if a test of it, which can be run, says so. -/
theorem Task.exists_ok_of_run {α : Type} {x : Task Failure α} {p : Process} {t : α → Bool}
    (h : (x.run p).1.toOption.any t = true) :
    ∃ a, x.run p = (.ok a, (x.run p).2) ∧ t a = true := by
  obtain ⟨a, ha, ht⟩ := exists_ok_of_any h
  exact ⟨a, Prod.ext ha rfl, ht⟩

theorem analyze_log_samples : ∃ first p second q loading story story',
    (analysisTask rowTools ⟨[], true⟩ rowSource).run {} = (.ok first, p) ∧
    (analysisTask blankTools {} blankInsertion).run p = (.ok second, q) ∧
    first.findings.length = 2 ∧ second.isParsed = false ∧
    p.log = loading ++ story ∧ loading.length = 3 ∧ Tells story first ∧
    q.log = p.log ++ story' ∧ Tells story' second := by
  obtain ⟨first, hfirst, hcount⟩ := Task.exists_ok_of_run (p := {})
    (x := analysisTask rowTools ⟨[], true⟩ rowSource)
    (t := (·.findings.length == 2)) (by decide +kernel)
  obtain ⟨second, hsecond, hparsed⟩ := Task.exists_ok_of_run
    (x := analysisTask blankTools {} blankInsertion)
    (p := ((analysisTask rowTools ⟨[], true⟩ rowSource).run {}).2)
    (t := (!·.isParsed)) (by decide +kernel)
  obtain ⟨loading, story, hlog, htells, _, hregistry, _, hloading⟩ := analyze_log hfirst
  obtain ⟨none', story', hlog', htells', _, _, hnone, _⟩ := analyze_log hsecond
  rw [hnone hregistry, List.append_nil] at hlog'
  exact ⟨first, _, second, _, loading, story, story', hfirst, hsecond, beq_iff_eq.mp hcount,
    (Bool.not_eq_true' _).mp hparsed, hlog, (hloading rfl).length_eq, htells, hlog', htells'⟩

end RawHtmlLint

import RawHtmlLint.Analysis
import RawHtmlLint.Proofs.Outcome
import RawHtmlLint.Proofs.Rule.Walk

/-!
# What a process does when it analyses

A task is run step by step: each step changes the process, and a step that fails ends the task. An
analysis asks for the registry first, so the events of its making come before all others. The walk
over the template writes one event for each insertion that it meets, until one cannot be reported.
Whatever happens, the end of the analysis is the last event.

Results:
* `run_bind`, `run_timed_ok`: two steps in sequence, and a step that is timed;
* `run_reports`: what the walk writes;
* `run_analysisTask`: what comes of an analysis, and what it leaves behind;
* `analyze_eq`: the report and the log of an analysis in a process that has its registry.
-/

namespace RawHtmlLint

open Grammar Template

/-! ## Tasks -/

namespace Task

variable {ε α β : Type}

theorem run_pure (a : α) (p : Process) : (pure a : Task ε α).run p = (.ok a, p) := rfl

theorem run_attempt (x : Task ε α) (p : Process) :
    (attempt x).run p = (.ok (x.run p).1, (x.run p).2) := rfl

theorem run_get (p : Process) : (get : Task ε Process).run p = (.ok p, p) := rfl

theorem run_modify (f : Process → Process) (p : Process) :
    (modify f : Task ε PUnit).run p = (.ok ⟨⟩, f p) := rfl

theorem run_time (p : Process) : (time : Task ε Nat).run p =
    (.ok (p.clock.headD 0), { p with clock := p.clock.tail }) := rfl

/-- **Two steps in sequence**: the second one goes on from where the first one has left the
process, if that does not fail. -/
theorem run_bind (x : Task ε α) (f : α → Task ε β) (p : Process) : (x >>= f).run p =
    match x.run p with
    | (.ok a, q) => (f a).run q
    | (.error e, q) => (.error e, q) := by
  unfold run
  rw [ExceptT.run_bind, StateT.run_bind]
  rcases StateT.run (m := Id) (ExceptT.run x) p with ⟨_ | _, q⟩ <;> rfl

theorem run_bind_ok {x : Task ε α} {a : α} {p q : Process} (hx : x.run p = (.ok a, q))
    (f : α → Task ε β) : (x >>= f).run p = (f a).run q := by
  rw [run_bind, hx]

theorem run_bind_error {x : Task ε α} {e : ε} {p q : Process} (hx : x.run p = (.error e, q))
    (f : α → Task ε β) : (x >>= f).run p = (.error e, q) := by
  rw [run_bind, hx]

section

variable (describe : ε → ErrorInfo) (operation : String) (data : List (String × Json))
  {body : Task ε α} {p q : Process}

/-- **A step that is timed** ends as it would otherwise, and its end is logged with the data it has
then. -/
theorem run_timed_ok {a : α}
    (hbody : body.run { p with extra := data, clock := p.clock.tail } = (.ok a, q)) :
    (timed describe operation data body).run p = (.ok a, { q with
      clock := q.clock.tail, extra := p.extra
      log := q.log ++ [.ended operation q.extra (q.clock.headD 0 - p.clock.headD 0) none] }) := by
  unfold timed
  simp only [run_bind, run_get, run_modify, run_time, run_attempt, hbody]
  rfl

theorem run_timed_error {e : ε}
    (hbody : body.run { p with extra := data, clock := p.clock.tail } = (.error e, q)) :
    (timed describe operation data body).run p = (.error e, { q with
      clock := q.clock.tail, extra := p.extra
      log := q.log ++
        [.ended operation q.extra (q.clock.headD 0 - p.clock.headD 0) (describe e)] }) := by
  unfold timed
  simp only [run_bind, run_get, run_modify, run_time, run_attempt, hbody]
  rfl

end

end Task

/-! ## The registry of a process -/

namespace Process

/-- The registry that a process has when it is asked for it. -/
def registryFor (p : Process) (loads : Language → Bool) : Registry :=
  p.registry.getD (Registry.new loads).1

/-- The events of the making of the registry; none if it was made before. -/
def loading (p : Process) (loads : Language → Bool) : List Event :=
  if p.registry.isSome then [] else (Registry.new loads).2

/-- The process once it was asked for its registry. -/
def equipped (p : Process) (loads : Language → Bool) : Process :=
  { p with registry := some (p.registryFor loads), log := p.log ++ p.loading loads }

/-- The grammars of a process. -/
def grammars (p : Process) (tools : Tools) : Grammars where
  registry := p.registryFor tools.loads
  tree? := tools.tree?

end Process

theorem Task.run_registry {ε : Type} (loads : Language → Bool) (p : Process) :
    (Task.registry loads : Task ε Registry).run p =
      (.ok (p.registryFor loads), p.equipped loads) := by
  obtain ⟨_ | r, clock, extra, log⟩ := p
  · rfl
  · show (Except.ok r, Process.mk (some r) clock extra log) =
      (Except.ok r, ⟨some r, clock, extra, log ++ []⟩)
    rw [List.append_nil]

/-! ## Parsing and reporting -/

section

variable {tools : Tools} {modern : Bool} {s : Source} {p : Process}

theorem run_parseTask_error {failure : Failure}
    (h : Template.parse (p.grammars tools) modern s = .error failure) :
    (parseTask tools modern s).run p = (.error failure, p.equipped tools.loads) := by
  unfold parseTask
  rw [Task.run_bind_ok (Task.run_registry _ _)]
  exact Task.run_bind_error (congrArg (·, p.equipped tools.loads) h) _

/-- A component that was parsed is logged after the registry was asked for. -/
theorem run_parseTask_ok {parsed : Parsed}
    (h : Template.parse (p.grammars tools) modern s = .ok parsed) :
    (parseTask tools modern s).run p = (.ok parsed, { p.equipped tools.loads with
      log := (p.equipped tools.loads).log ++ [parsedEvent s parsed] }) := by
  unfold parseTask
  rw [Task.run_bind_ok (Task.run_registry _ _)]
  exact Task.run_bind_ok (congrArg (·, p.equipped tools.loads) h) _

theorem run_reportTask {span : Span} {expression : Option Expression} {i : Rule.Insertion}
    (h : Rule.report span expression = .ok i) (p : Process) :
    (reportTask s span expression).run p =
      (.ok (.ofInsertion s.path i), { p with log := p.log ++ [detectedEvent s i] }) := by
  unfold reportTask
  rw [h]
  rfl

theorem run_reportTask_error {span : Span} {expression : Option Expression} {failure : Failure}
    (h : Rule.report span expression = .error failure) (p : Process) :
    (reportTask s span expression).run p = (.error failure, p) := by
  unfold reportTask
  rw [h]
  rfl

/-- **What the walk writes**: an event for each insertion, one after the other. -/
theorem run_reports : ∀ {is : List (Span × Option Expression)} {found : List Rule.Insertion},
    (is.mapM fun i => Rule.report i.1 i.2) = .ok found → ∀ p : Process,
      (is.mapM fun i => reportTask s i.1 i.2).run p = (.ok (found.map (.ofInsertion s.path)),
        { p with log := p.log ++ found.map (detectedEvent s) })
  | [], found, h, p => by
    cases h
    show (Except.ok [], p) = (Except.ok [], { p with log := p.log ++ [] })
    rw [List.append_nil]
  | (span, expression) :: is, found, h, p => by
    rw [List.mapM_cons] at h ⊢
    obtain ⟨i, hreport, h⟩ := bind_eq_ok.mp h
    obtain ⟨rest, hrest, h⟩ := bind_eq_ok.mp h
    cases h
    rw [Task.run_bind_ok (run_reportTask hreport p), Task.run_bind_ok (run_reports hrest _),
      Task.run_pure, List.append_assoc]
    rfl

/-- An insertion that cannot be reported ends the walk. -/
theorem run_reports_error : ∀ {is : List (Span × Option Expression)} {failure : Failure},
    (is.mapM fun i => Rule.report i.1 i.2) = .error failure → ∀ p : Process,
      ∃ q, (is.mapM fun i => reportTask s i.1 i.2).run p = (.error failure, q)
  | [], failure, h, p => (nomatch h)
  | (span, expression) :: is, failure, h, p => by
    rw [List.mapM_cons] at h ⊢
    cases hreport : Rule.report span expression with
    | error failure' =>
      rw [hreport] at h
      cases h
      exact ⟨_, Task.run_bind_error (run_reportTask_error hreport p) _⟩
    | ok i =>
      rw [hreport] at h
      rw [Task.run_bind_ok (run_reportTask hreport p)]
      cases hrest : is.mapM fun i => Rule.report i.1 i.2 with
      | error failure' =>
        have heq : (Except.error failure' : Outcome (List Rule.Insertion)) = .error failure := by
          rw [← h]
          show _ = is.mapM (fun i => Rule.report i.1 i.2) >>= _
          rw [hrest]
          rfl
        cases heq
        obtain ⟨q, hq⟩ := run_reports_error hrest { p with log := p.log ++ [detectedEvent s i] }
        exact ⟨q, Task.run_bind_error hq _⟩
      | ok rest =>
        change is.mapM (fun i => Rule.report i.1 i.2) >>= _ = _ at h
        rw [hrest] at h
        cases h

end

/-! ## Analysing -/

/-- The event of the end of an analysis that has noted `late`. -/
def endedEvent (s : Source) (late : List (String × Json)) (duration : Nat) : Event :=
  .ended "analysis" (Json.merge [("filename", .str s.path)] late) duration none

/-- The process after an analysis that has written the events and noted `late`. -/
def Process.analysed (p : Process) (tools : Tools) (s : Source) (events : List Event)
    (late : List (String × Json)) : Process where
  registry := some (p.registryFor tools.loads)
  clock := p.clock.tail.tail
  extra := p.extra
  log := p.log ++ p.loading tools.loads ++ events ++
    [endedEvent s late (p.clock.tail.headD 0 - p.clock.headD 0)]

/-- The process once it has its registry, has written the events and noted `late`. -/
def Process.told (p : Process) (tools : Tools) (events : List Event)
    (late : List (String × Json)) : Process :=
  { p.equipped tools.loads with
    extra := Json.merge p.extra late, log := (p.equipped tools.loads).log ++ events }

section

variable {tools : Tools} {options : Options} {s : Source} {p : Process}

theorem run_analysisSteps_malformed {d : Diagnostic}
    (h : Template.parse (p.grammars tools) options.modern s = .error (.malformed d)) :
    (analysisSteps tools options s).run p = (.ok (.malformed s.path d),
      p.told tools [malformedEvent s d] [("parsed", .bool false)]) := by
  unfold analysisSteps
  rw [Task.run_bind_ok (Task.run_attempt _ _), run_parseTask_error h]
  rfl

theorem run_analysisSteps_checked {parsed : Parsed} {found : List Rule.Insertion}
    (h : Template.parse (p.grammars tools) options.modern s = .ok parsed)
    (hfound : Rule.detect options.sanitizers (.fragment parsed.component.fragment) = .ok found) :
    (analysisSteps tools options s).run p =
      (.ok (.checked s.path (found.map (.ofInsertion s.path))),
        p.told tools (parsedEvent s parsed :: found.map (detectedEvent s))
          [("warnings", .int (found.map (Finding.ofInsertion s.path)).length)]) := by
  rw [Rule.detect_eq_mapM] at hfound
  unfold analysisSteps
  rw [Task.run_bind_ok (Task.run_attempt _ _), run_parseTask_ok h]
  dsimp only
  rw [Rule.detectWith_eq_mapM, Task.run_bind_ok (run_reports hfound _)]
  unfold Process.told
  rw [List.append_cons _ (parsedEvent s parsed) (found.map (detectedEvent s))]
  rfl

theorem run_analysisSteps_unparsed {failure : Failure}
    (h : Template.parse (p.grammars tools) options.modern s = .error failure)
    (hfailure : ∀ d, failure ≠ .malformed d) :
    (analysisSteps tools options s).run p = (.error failure, p.equipped tools.loads) := by
  unfold analysisSteps
  rw [Task.run_bind_ok (Task.run_attempt _ _), run_parseTask_error h]
  dsimp only
  split
  · rename_i d heq
    cases heq
    exact absurd rfl (hfailure d)
  · rename_i heq
    cases heq
    rfl
  · rename_i heq
    cases heq

theorem run_analysisSteps_undetected {parsed : Parsed} {failure : Failure}
    (h : Template.parse (p.grammars tools) options.modern s = .ok parsed)
    (hfailure : Rule.detect options.sanitizers (.fragment parsed.component.fragment) =
      .error failure) :
    ∃ q, (analysisSteps tools options s).run p = (.error failure, q) := by
  rw [Rule.detect_eq_mapM] at hfailure
  unfold analysisSteps
  rw [Task.run_bind_ok (Task.run_attempt _ _), run_parseTask_ok h]
  dsimp only
  rw [Rule.detectWith_eq_mapM]
  obtain ⟨q, hq⟩ := run_reports_error hfailure _
  exact ⟨q, Task.run_bind_error hq _⟩

/-- What an analysis leaves behind that has a report. -/
theorem run_analysisTask_ok {report : Report} {events : List Event} {late : List (String × Json)}
    (h : ∀ p' : Process, p'.grammars tools = p.grammars tools →
      (analysisSteps tools options s).run p' = (.ok report, p'.told tools events late)) :
    (analysisTask tools options s).run p = (.ok report, p.analysed tools s events late) :=
  Task.run_timed_ok _ _ _ (h _ rfl)

theorem run_analysisTask_error {failure : Failure}
    (h : ∀ p' : Process, p'.grammars tools = p.grammars tools →
      ∃ q, (analysisSteps tools options s).run p' = (.error failure, q)) :
    ∃ q, (analysisTask tools options s).run p = (.error failure, q) := by
  obtain ⟨q, hq⟩ := h { p with extra := [("filename", .str s.path)], clock := p.clock.tail } rfl
  exact ⟨_, Task.run_timed_error _ _ _ hq⟩

/-- **What comes of an analysis**, and the process after it: the events of the registry, those of
the analysis, and its end. -/
theorem run_analysisTask (tools : Tools) (options : Options) (s : Source) (p : Process) :
    match Template.parse (p.grammars tools) options.modern s with
    | .error (.malformed d) => (analysisTask tools options s).run p =
        (.ok (.malformed s.path d),
          p.analysed tools s [malformedEvent s d] [("parsed", .bool false)])
    | .error failure => ∃ q, (analysisTask tools options s).run p = (.error failure, q)
    | .ok parsed =>
      match Rule.detect options.sanitizers (.fragment parsed.component.fragment) with
      | .error failure => ∃ q, (analysisTask tools options s).run p = (.error failure, q)
      | .ok found => (analysisTask tools options s).run p =
          (.ok (.checked s.path (found.map (.ofInsertion s.path))),
            p.analysed tools s (parsedEvent s parsed :: found.map (detectedEvent s))
              [("warnings", .int (found.map (Finding.ofInsertion s.path)).length)]) := by
  split
  · rename_i d h
    exact run_analysisTask_ok fun p' hp' => run_analysisSteps_malformed (hp' ▸ h)
  · rename_i failure hfailure h
    exact run_analysisTask_error fun p' hp' =>
      ⟨_, run_analysisSteps_unparsed (hp' ▸ h) hfailure⟩
  · rename_i parsed h
    split
    · rename_i failure hdetect
      exact run_analysisTask_error fun p' hp' =>
        run_analysisSteps_undetected (hp' ▸ h) hdetect
    · rename_i found hdetect
      exact run_analysisTask_ok fun p' hp' => run_analysisSteps_checked (hp' ▸ h) hdetect

end

/-- **The report and the log of an analysis** in a process that has its registry: nothing is logged
before the parser's event. -/
theorem analyze_eq (g : Grammars) (options : Options) (s : Source) : analyze g options s =
    match Template.parse g options.modern s with
    | .error (.malformed d) => .ok ⟨.malformed s.path d,
        [malformedEvent s d, endedEvent s [("parsed", .bool false)] 0]⟩
    | .error failure => .error failure
    | .ok parsed => do
      let found ← Rule.detect options.sanitizers (.fragment parsed.component.fragment)
      let findings := found.map (Finding.ofInsertion s.path)
      return ⟨.checked s.path findings, parsedEvent s parsed :: found.map (detectedEvent s) ++
        [endedEvent s [("warnings", .int findings.length)] 0]⟩ := by
  have hrun := run_analysisTask { tree? := g.tree? } options s { registry := g.registry }
  have hgrammars : Process.grammars { registry := g.registry } { tree? := g.tree? } = g := rfl
  rw [hgrammars] at hrun
  unfold analyze
  split at hrun
  · rw [hrun]
    rfl
  · obtain ⟨q, hq⟩ := hrun
    rw [hq]
    rfl
  · split at hrun
    · rename_i hdetect
      obtain ⟨q, hq⟩ := hrun
      rw [hq, hdetect]
      rfl
    · rename_i hdetect
      rw [hrun, hdetect]
      rfl

end RawHtmlLint

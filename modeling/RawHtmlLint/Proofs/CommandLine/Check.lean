import RawHtmlLint.CommandLine
import RawHtmlLint.Proofs.FileTree
import RawHtmlLint.Proofs.Rule.Trust
import RawHtmlLint.Proofs.Text.Utf8

/-!
# Checking many files

The files of a run are checked one after the other. What comes of a file does not depend on the
files around it: it has a report, the one of its analysis alone, or a complaint that it cannot be
read. Reports and complaints are kept in the order of the files, and the exit code is made of both
at the end, whatever the format of the reports.

One thing breaks a run off: a file that can be read, but whose analysis has no report. Then
nothing is written, not even the reports of the files before it; only the complaints about those
have been made already.

Results:
* `file_cases`: what can come of one file;
* `foldlM_checkFile`: what comes of all of them;
* `run_check`: what a run over many files tells, from its arguments on;
* `run_longArguments`: a run that is broken off.
-/

namespace RawHtmlLint

open Grammar Template Text

/-- The bytes of a text can be read; only the ends of its lines may look different. -/
theorem FileTree.read_bytesOf {t : FileTree} {path : Path} {name : String} {text : List Char}
    (hfind : t.find path = .ok (.file name (Expression.bytesOf text))) :
    t.read path = .ok (unifiedLines text) := by
  unfold FileTree.read
  rw [hfind, bytesOf_eq]
  simp only [bind, Except.bind, decode_utf8Encode]
  rfl

theorem unifiedLines_eq_self : ∀ {text : List Char}, '\r' ∉ text → unifiedLines text = text
  | [], _ => rfl
  | c :: rest, h => by
    have hc : c ≠ '\r' := fun hc => h (hc ▸ List.mem_cons_self)
    rw [unifiedLines.eq_3 _ _ fun _ hc' => absurd hc' hc, if_neg hc,
      unifiedLines_eq_self fun hmem => h (List.mem_cons_of_mem _ hmem)]

/-- An analysis fails only for a reason that is no fault of the component. -/
theorem excused_of_analyze {g : Grammars} {options : Options} {s : Source} {failure : Failure}
    (h : analyze g options s = .error failure) : Excused g s failure := by
  have hmeets := parse_meets g options.modern s
  cases hparse : Template.parse g options.modern s with
  | ok parsed =>
    obtain ⟨found, hfound⟩ := detect_ok (hmeets.of_ok hparse) options.sanitizers
    obtain ⟨log, hok⟩ := analyze_of_detect hparse hfound
    cases hok.symm.trans h
  | error cause =>
    rw [analyze_eq, hparse] at h
    cases hmeets.of_error hparse with
    | rejected => cases h
    | excused hexcused =>
      obtain rfl : cause = failure := by cases hexcused <;> exact Except.error.inj h
      exact hexcused

namespace CommandLine

/-! ## One file -/

/-- The file can be read. -/
def readable (files : FileTree) (path : Path) : Bool := (files.read path).isOk

/-- The complaint about a file that cannot be read. -/
def complaintOn? (files : FileTree) (path : Path) : Option (List Char) :=
  match files.read path with
  | .ok _ => none
  | .error fault => some (unreadableFile path fault)

/-- The file can be read, and this is the report of its analysis alone. -/
def ReportOn (s : Surroundings) (options : Options) (path : Path) (r : Report) : Prop :=
  ∃ text a, s.files.read path = .ok text ∧
    analyze s.grammars options (.ofText path.text text) = .ok a ∧ a.report = r

/-- The reports are those on the files that can be read, one on each and in their order. -/
def ReportsOn (s : Surroundings) (options : Options) (files : List Path)
    (reports : List Report) : Prop :=
  List.Forall₂ (ReportOn s options) (files.filter (readable s.files)) reports

/-- The file can be read, but its analysis fails. -/
def BreaksOff (s : Surroundings) (options : Options) (path : Path) (failure : Failure) : Prop :=
  ∃ text, s.files.read path = .ok text ∧
    analyze s.grammars options (.ofText path.text text) = .error failure

section

variable {s : Surroundings} {options : Options}

theorem readable_iff {files : FileTree} {path : Path} :
    readable files path = true ↔ ∃ text, files.read path = .ok text := by
  unfold readable
  cases files.read path with
  | ok text => exact ⟨fun _ => ⟨text, rfl⟩, fun _ => rfl⟩
  | error fault => exact ⟨fun h => (nomatch h), fun ⟨_, h⟩ => (nomatch h)⟩

theorem not_readable_iff {files : FileTree} {path : Path} :
    readable files path = false ↔ ∃ fault, files.read path = .error fault := by
  unfold readable
  cases files.read path with
  | ok text => exact ⟨fun h => (nomatch h), fun ⟨_, h⟩ => (nomatch h)⟩
  | error fault => exact ⟨fun _ => ⟨fault, rfl⟩, fun _ => rfl⟩

theorem checkFile_of_unreadable {path : Path} {fault : ReadFault}
    (hread : s.files.read path = .error fault) (p : Progress) :
    checkFile s options p path =
      .ok { p with complaints := unreadableFile path fault :: p.complaints } := by
  unfold checkFile
  rw [hread]

theorem checkFile_of_reportOn {path : Path} {r : Report} (hr : ReportOn s options path r)
    (p : Progress) : checkFile s options p path = .ok { p with reports := r :: p.reports } := by
  obtain ⟨text, a, hread, hanalyze, rfl⟩ := hr
  unfold checkFile
  rw [hread]
  dsimp only
  rw [hanalyze]

theorem checkFile_of_breaksOff {path : Path} {failure : Failure}
    (h : BreaksOff s options path failure) (p : Progress) :
    checkFile s options p path = .error (.analysis failure, p.complaints) := by
  obtain ⟨text, hread, hanalyze⟩ := h
  unfold checkFile
  rw [hread]
  dsimp only
  rw [hanalyze]

/-- A file cannot be read, has a report, or breaks the run off. -/
theorem file_cases (s : Surroundings) (options : Options) (path : Path) :
    (∃ fault, s.files.read path = .error fault) ∨ (∃ r, ReportOn s options path r) ∨
      ∃ failure, BreaksOff s options path failure := by
  cases hread : s.files.read path with
  | error fault => exact Or.inl ⟨fault, rfl⟩
  | ok text =>
    right
    cases hanalyze : analyze s.grammars options (.ofText path.text text) with
    | ok a => exact Or.inl ⟨a.report, text, a, hread, hanalyze, rfl⟩
    | error failure => exact Or.inr ⟨failure, text, hread, hanalyze⟩

/-! ## All files -/

theorem ReportsOn.cons_unreadable {path : Path} {files : List Path} {reports : List Report}
    {fault : ReadFault} (hread : s.files.read path = .error fault)
    (h : ReportsOn s options files reports) : ReportsOn s options (path :: files) reports := by
  unfold ReportsOn
  rw [List.filter_cons_of_neg]
  · exact h
  · rw [not_readable_iff.mpr ⟨fault, hread⟩]
    exact Bool.false_ne_true

theorem ReportsOn.cons {path : Path} {files : List Path} {r : Report} {reports : List Report}
    (hr : ReportOn s options path r) (h : ReportsOn s options files reports) :
    ReportsOn s options (path :: files) (r :: reports) := by
  obtain ⟨text, a, hread, _⟩ := id hr
  unfold ReportsOn
  rw [List.filter_cons_of_pos (readable_iff.mpr ⟨text, hread⟩)]
  exact .cons hr h

theorem complaints_cons_unreadable {path : Path} {fault : ReadFault}
    (hread : s.files.read path = .error fault) (files : List Path) :
    (path :: files).filterMap (complaintOn? s.files) =
      unreadableFile path fault :: files.filterMap (complaintOn? s.files) :=
  List.filterMap_cons_some (by unfold complaintOn?; rw [hread])

theorem complaints_cons_readable {path : Path} {text : List Char}
    (hread : s.files.read path = .ok text) (files : List Path) :
    (path :: files).filterMap (complaintOn? s.files) =
      files.filterMap (complaintOn? s.files) :=
  List.filterMap_cons_none (by unfold complaintOn?; rw [hread])

theorem ReportsOn.of_cons {path : Path} {files : List Path} {reports : List Report}
    (h : ReportsOn s options (path :: files) reports) :
    (∃ fault, s.files.read path = .error fault ∧ ReportsOn s options files reports) ∨
      ∃ r rest, reports = r :: rest ∧ ReportOn s options path r ∧
        ReportsOn s options files rest := by
  unfold ReportsOn at h
  cases hreadable : readable s.files path with
  | true =>
    rw [List.filter_cons_of_pos hreadable] at h
    obtain ⟨r, rest, hr, hrest, rfl⟩ := List.forall₂_cons_left_iff.mp h
    exact Or.inr ⟨r, rest, rfl, hr, hrest⟩
  | false =>
    rw [List.filter_cons_of_neg (by simp [hreadable])] at h
    obtain ⟨fault, hread⟩ := not_readable_iff.mp hreadable
    exact Or.inl ⟨fault, hread, h⟩

/-- All files have what there is to tell of them, or there is a first one that breaks the run
off. -/
theorem files_cases (s : Surroundings) (options : Options) : ∀ files : List Path,
    (∃ reports, ReportsOn s options files reports) ∨
    ∃ before path after reports failure, files = before ++ path :: after ∧
      ReportsOn s options before reports ∧ BreaksOff s options path failure
  | [] => Or.inl ⟨[], .nil⟩
  | path :: files => by
    rcases file_cases s options path with ⟨fault, hread⟩ | ⟨r, hr⟩ | ⟨failure, hbreaks⟩
    · rcases files_cases s options files with ⟨reports, hreports⟩ |
        ⟨before, last, after, reports, failure, rfl, hreports, hbreaks⟩
      · exact Or.inl ⟨reports, hreports.cons_unreadable hread⟩
      · exact Or.inr ⟨path :: before, last, after, reports, failure, rfl,
          hreports.cons_unreadable hread, hbreaks⟩
    · rcases files_cases s options files with ⟨reports, hreports⟩ |
        ⟨before, last, after, reports, failure, rfl, hreports, hbreaks⟩
      · exact Or.inl ⟨r :: reports, hreports.cons hr⟩
      · exact Or.inr ⟨path :: before, last, after, r :: reports, failure, rfl,
          hreports.cons hr, hbreaks⟩
    · exact Or.inr ⟨[], path, files, [], failure, rfl, .nil, hbreaks⟩

/-- **What comes of all files**: their reports and complaints, in the order of the files. -/
theorem foldlM_checkFile : ∀ {files : List Path} {reports : List Report} (p : Progress),
    ReportsOn s options files reports → files.foldlM (checkFile s options) p =
      .ok ⟨reports.reverse ++ p.reports,
        (files.filterMap (complaintOn? s.files)).reverse ++ p.complaints⟩
  | [], reports, p, h => by
    cases h
    rfl
  | path :: files, reports, p, h => by
    rw [List.foldlM_cons]
    rcases h.of_cons with ⟨fault, hread, hrest⟩ | ⟨r, rest, rfl, hr, hrest⟩
    · rw [checkFile_of_unreadable hread, complaints_cons_unreadable hread, List.reverse_cons,
        List.append_assoc]
      exact foldlM_checkFile _ hrest
    · obtain ⟨text, a, hread, _⟩ := id hr
      rw [checkFile_of_reportOn hr, complaints_cons_readable hread, List.reverse_cons,
        List.append_assoc]
      exact foldlM_checkFile _ hrest

/-- A file that breaks the run off leaves the complaints about the files before it. -/
theorem foldlM_checkFile_of_breaksOff {before : List Path} {path : Path} {reports : List Report}
    {failure : Failure} (after : List Path) (hreports : ReportsOn s options before reports)
    (hbreaks : BreaksOff s options path failure) :
    (before ++ path :: after).foldlM (checkFile s options) {} =
      .error (.analysis failure, (before.filterMap (complaintOn? s.files)).reverse) := by
  rw [List.foldlM_append, foldlM_checkFile {} hreports, List.append_nil, List.append_nil]
  show (path :: after).foldlM (checkFile s options) _ = _
  rw [List.foldlM_cons, checkFile_of_breaksOff hbreaks]
  rfl

/-! ## The run -/

theorem complaints_eq_nil_iff {files : List Path} :
    files.filterMap (complaintOn? s.files) = [] ↔ ∀ path ∈ files, readable s.files path = true := by
  rw [List.filterMap_eq_nil_iff]
  refine forall₂_congr fun path _ => ?_
  unfold complaintOn? readable
  cases s.files.read path with
  | ok text => exact ⟨fun _ => rfl, fun _ => rfl⟩
  | error fault => exact ⟨fun h => (nomatch h), fun h => (nomatch h)⟩

/-- What the run tells of the files: the reports in the format, the complaints, and the exit code
with which it ends, which is made of both. A file that cannot be read adds its complaint, and the
reports are those there would be without it. -/
structure Told (s : Surroundings) (options : Options) (format : ReportFormat)
    (files : List Path) (reports : List Report) (t : Transcript) : Prop where
  alone : ReportsOn s options files reports
  output : t.output = written format reports
  complaints : t.complaints = files.filterMap (complaintOn? s.files)
  apart : ∀ before path after fault, files = before ++ path :: after →
    s.files.read path = .error fault → ReportsOn s options (before ++ after) reports ∧
      t.complaints = before.filterMap (complaintOn? s.files) ++
        unreadableFile path fault :: after.filterMap (complaintOn? s.files)
  ending : t.ending = .exit (
    if files.any (!readable s.files ·) || reports.any (!·.isParsed) then 2
    else if reports.any (!·.findings.isEmpty) then 1
    else 0)

/-- The files before this one have their reports, and the complaints about them are made; this one
breaks the run off, for a reason that is no fault of the component, and nothing is written. -/
structure Stopped (s : Surroundings) (options : Options) (before : List Path) (path : Path)
    (t : Transcript) : Prop where
  alone : ∃ reports, ReportsOn s options before reports
  here : ∃ text failure, s.files.read path = .ok text ∧
    analyze s.grammars options (.ofText path.text text) = .error failure ∧
    Excused s.grammars (.ofText path.text text) failure ∧
    t.ending = .brokenOff (.analysis failure)
  output : t.output = []
  complaints : t.complaints = before.filterMap (complaintOn? s.files)

/-- The exit code of a run that tells of all files. -/
theorem exitCode_eq (files : List Path) (reports : List Report) :
    (if (files.filterMap (complaintOn? s.files)).isEmpty then exitCode (Report.verdict reports)
      else unreadable) =
    if files.any (!readable s.files ·) || reports.any (!·.isParsed) then 2
    else if reports.any (!·.findings.isEmpty) then 1
    else 0 := by
  by_cases hall : ∀ path ∈ files, readable s.files path = true
  · have hany : files.any (!readable s.files ·) = false := by
      rw [List.any_eq_false]
      exact fun path hpath => by simp [hall path hpath]
    -- only the reports are left to decide: one that was not parsed goes before any finding
    rw [complaints_eq_nil_iff.mpr hall, hany, Bool.false_or, List.isEmpty_nil, if_pos rfl]
    unfold Report.verdict
    split
    · rfl
    · split <;> rfl
  · have hany : files.any (!readable s.files ·) = true := by
      simpa using hall
    have hsome : (files.filterMap (complaintOn? s.files)).isEmpty = false := by
      rw [List.isEmpty_eq_false_iff]
      exact fun hnil => hall (complaints_eq_nil_iff.mp hnil)
    rw [hsome, hany, Bool.true_or, if_pos rfl]
    rfl

/-- The reports are those there would be without a file that cannot be read. -/
theorem ReportsOn.without {before after : List Path} {path : Path} {fault : ReadFault}
    {reports : List Report} (h : ReportsOn s options (before ++ path :: after) reports)
    (hread : s.files.read path = .error fault) :
    ReportsOn s options (before ++ after) reports := by
  unfold ReportsOn at h ⊢
  rw [List.filter_append, List.filter_cons_of_neg] at h
  · rwa [List.filter_append]
  · rw [not_readable_iff.mpr ⟨fault, hread⟩]
    exact Bool.false_ne_true

variable {settings : Settings} {paths files : List Path} {sanitizers : List String}
  {modern : Bool}

/-- **Files that are all told of.** -/
theorem check_of_reportsOn {reports : List Report} (format : ReportFormat)
    (hoptions : checkFile s options =
      checkFile s ⟨settings.sanitizers ++ sanitizers, modern || settings.modern⟩)
    (hfiles : s.files.collect settings.extensions paths = files)
    (hreports : ReportsOn s options files reports) :
    Told s options format files reports
      (check s settings paths sanitizers modern format) := by
  have hcheck : check s settings paths sanitizers modern format =
      { ending := .exit (if (files.filterMap (complaintOn? s.files)).isEmpty
          then exitCode (Report.verdict reports) else unreadable)
        output := written format reports
        complaints := files.filterMap (complaintOn? s.files) } := by
    unfold check
    dsimp only
    rw [hfiles, ← hoptions, foldlM_checkFile {} hreports]
    simp
  rw [hcheck]
  refine ⟨hreports, rfl, rfl, ?_, congrArg Ending.exit (exitCode_eq files reports)⟩
  rintro before path after fault rfl hread
  refine ⟨hreports.without hread, ?_⟩
  dsimp only
  rw [List.filterMap_append, complaints_cons_unreadable hread]

/-- **Files of which one breaks the run off.** -/
theorem check_eq_of_breaksOff {before after : List Path} {path : Path} {reports : List Report}
    {failure : Failure} (format : ReportFormat)
    (hoptions : checkFile s options =
      checkFile s ⟨settings.sanitizers ++ sanitizers, modern || settings.modern⟩)
    (hfiles : s.files.collect settings.extensions paths = before ++ path :: after)
    (hreports : ReportsOn s options before reports)
    (hbreaks : BreaksOff s options path failure) :
    check s settings paths sanitizers modern format =
      { ending := .brokenOff (.analysis failure)
        complaints := before.filterMap (complaintOn? s.files) } := by
  unfold check
  dsimp only
  rw [hfiles, ← hoptions, foldlM_checkFile_of_breaksOff after hreports hbreaks]
  dsimp only
  rw [List.reverse_reverse]

theorem check_of_breaksOff {before after : List Path} {path : Path} {reports : List Report}
    {failure : Failure} (format : ReportFormat)
    (hoptions : checkFile s options =
      checkFile s ⟨settings.sanitizers ++ sanitizers, modern || settings.modern⟩)
    (hfiles : s.files.collect settings.extensions paths = before ++ path :: after)
    (hreports : ReportsOn s options before reports)
    (hbreaks : BreaksOff s options path failure) :
    Stopped s options before path (check s settings paths sanitizers modern format) := by
  rw [check_eq_of_breaksOff format hoptions hfiles hreports hbreaks]
  obtain ⟨text, hread, hfails⟩ := hbreaks
  exact ⟨⟨reports, hreports⟩, ⟨text, failure, hread, hfails, excused_of_analyze hfails, rfl⟩, rfl,
    rfl⟩

end

/-- A run that checks files does so with the names trusted by its settings and by its
arguments. -/
theorem run_of_check {s : Surroundings} {arguments paths sanitizers : List String} {modern : Bool}
    {format : ReportFormat} {logLevel : Option String} {settings : Settings}
    (hcommand : Command.ofArguments? arguments =
      some (.check paths sanitizers modern format logLevel))
    (hpaths : ∀ path ∈ paths, ∃ n, s.files.find (.ofText path) = .ok n)
    (hsettings : Settings.load s.files s.environment = .ok settings)
    (hlevel : logLevel.bind levelBreach? = none) :
    run s arguments = check s settings (paths.map .ofText) sanitizers modern format := by
  have hall : ((paths.map Path.ofText).all fun path => (s.files.find path).isOk) = true := by
    rw [List.all_map, List.all_eq_true]
    intro path hpath
    obtain ⟨n, hn⟩ := hpaths path hpath
    rw [Function.comp_apply, hn]
    rfl
  unfold run
  rw [hcommand]
  unfold runCommand withSettings
  dsimp only
  rw [hall, if_neg (by decide), hsettings]
  dsimp only
  rw [hlevel]

/-- Checking files depends on the list of trusted names only as a set. -/
theorem checkFile_congr (s : Surroundings) (modern : Bool) {S T : List String} (hST : S ⊆ T)
    (hTS : T ⊆ S) : checkFile s ⟨S, modern⟩ = checkFile s ⟨T, modern⟩ := by
  funext p path
  unfold checkFile
  simp only [analyze_congr s.grammars modern _ hST hTS]

/-- **A run over many files** tells of each of them what there is to tell of it alone, or one of
them breaks it off. Arguments and settings are as they have to be; which names are trusted matters
only as a set. -/
theorem run_check {s : Surroundings} {arguments paths sanitizers trusted : List String}
    {modern : Bool} {format : ReportFormat} {logLevel : Option String} {settings : Settings}
    (hcommand : Command.ofArguments? arguments =
      some (.check paths sanitizers modern format logLevel))
    (hpaths : ∀ path ∈ paths, ∃ n, s.files.find (.ofText path) = .ok n)
    (hsettings : Settings.load s.files s.environment = .ok settings)
    (hlevel : logLevel.bind levelBreach? = none)
    (htrusted : ∀ name, name ∈ trusted ↔ name ∈ settings.sanitizers ∨ name ∈ sanitizers) :
    (∃ reports, Told s ⟨trusted, modern || settings.modern⟩ format
      (s.files.collect settings.extensions (paths.map .ofText)) reports (run s arguments)) ∨
    ∃ before path after,
      s.files.collect settings.extensions (paths.map .ofText) = before ++ path :: after ∧
      Stopped s ⟨trusted, modern || settings.modern⟩ before path (run s arguments) := by
  have hset : ∀ name, name ∈ settings.sanitizers ++ sanitizers ↔ name ∈ trusted := fun name => by
    rw [List.mem_append, htrusted]
  have hoptions := checkFile_congr s (modern || settings.modern) (fun name => (hset name).mpr)
    (fun name => (hset name).mp)
  rw [run_of_check hcommand hpaths hsettings hlevel]
  rcases files_cases s ⟨trusted, modern || settings.modern⟩
    (s.files.collect settings.extensions (paths.map .ofText)) with
    ⟨reports, hreports⟩ | ⟨before, path, after, reports, _, hfiles, hreports, hbreaks⟩
  · exact Or.inl ⟨reports, check_of_reportsOn format hoptions rfl hreports⟩
  · exact Or.inr ⟨before, path, after, hfiles,
      check_of_breaksOff format hoptions hfiles hreports hbreaks⟩

/-! ## Files of each kind

One of three files is not UTF-8, one is a component without findings, and one has a decimal
reference with too many digits. -/

def mixedFiles : FileTree := .ofList [("Bytes.svelte", .file ⟨#[0xFF]⟩),
  ("Long.svelte", .file (Expression.bytesOf oversizedSource.text)),
  ("Plain.svelte", .file (Expression.bytesOf "ok".toList))]

/-- Each file is text to the grammar. -/
def mixed : Surroundings where
  files := mixedFiles
  environment := []
  grammars := { tree? := fun _ text => some ⟨sampleNode "document" 0 text.length [], false⟩ }

theorem load_mixed : Settings.load mixed.files mixed.environment = .ok {} := by rfl

theorem find_bytes :
    mixed.files.find (.ofText "Bytes.svelte") = .ok (.file "Bytes.svelte" ⟨#[0xFF]⟩) := by rfl

theorem find_plain : mixed.files.find (.ofText "Plain.svelte") =
    .ok (.file "Plain.svelte" (Expression.bytesOf "ok".toList)) := by rfl

theorem find_long : mixed.files.find (.ofText "Long.svelte") =
    .ok (.file "Long.svelte" (Expression.bytesOf oversizedSource.text)) := by rfl

/-- The first file cannot be read, the second one is a component. -/
def mixedArguments : List String :=
  ["check", "Bytes.svelte", "Plain.svelte", "-s", "clean", "-f", "json"]

theorem run_mixedArguments : ∃ reports,
    Command.ofArguments? mixedArguments =
      some (.check ["Bytes.svelte", "Plain.svelte"] ["clean"] false .json none) ∧
    Told mixed ⟨["clean"], false⟩ .json [.ofText "Bytes.svelte", .ofText "Plain.svelte"] reports
      (run mixed mixedArguments) ∧
    reports.length = 1 ∧ (run mixed mixedArguments).ending.exitCode? = some 2 := by
  have hcommand : Command.ofArguments? mixedArguments =
      some (.check ["Bytes.svelte", "Plain.svelte"] ["clean"] false .json none) := by
    decide +kernel
  have hpaths : ∀ path ∈ ["Bytes.svelte", "Plain.svelte"],
      ∃ n, mixed.files.find (.ofText path) = .ok n :=
    List.forall_mem_cons.mpr ⟨⟨_, find_bytes⟩, List.forall_mem_singleton.mpr ⟨_, find_plain⟩⟩
  have htrusted : ∀ name, name ∈ ["clean"] ↔
      name ∈ ({} : Settings).sanitizers ∨ name ∈ ["clean"] := fun name =>
    (or_iff_right List.not_mem_nil).symm
  have hcode : (run mixed mixedArguments).ending.exitCode? = some 2 := by decide +kernel
  rcases run_check hcommand hpaths load_mixed rfl htrusted with
    ⟨reports, htold⟩ | ⟨_, _, _, _, hstopped⟩
  · have hlength : reports.length = 1 := htold.alone.length_eq.symm.trans (by decide +kernel)
    exact ⟨reports, hcommand, htold, hlength, hcode⟩
  · obtain ⟨_, _, _, _, _, hending⟩ := hstopped.here
    rw [hending] at hcode
    cases hcode

theorem reportOn_plain :
    ReportOn mixed {} (.ofText "Plain.svelte") (.checked "Plain.svelte" []) := by
  obtain ⟨a, ha, hreport⟩ := exists_ok_of_any
    (x := analyze mixed.grammars {} (.ofText "Plain.svelte" "ok".toList))
    (p := (·.report == .checked "Plain.svelte" [])) (by decide +kernel)
  exact ⟨_, a, FileTree.read_bytesOf find_plain, ha, beq_iff_eq.mp hreport⟩

theorem mem_oversizedSource {c : Char} (hc : c ∈ oversizedSource.text) :
    c = '&' ∨ c = '#' ∨ c = '1' := by
  rcases List.mem_cons.mp hc with rfl | hc
  · exact Or.inl rfl
  · rcases List.mem_cons.mp hc with rfl | hc
    · exact Or.inr (Or.inl rfl)
    · exact Or.inr (Or.inr (List.eq_of_mem_replicate hc))

theorem read_long : mixed.files.read (.ofText "Long.svelte") = .ok oversizedSource.text := by
  have hlines : '\r' ∉ oversizedSource.text := fun h => by
    rcases mem_oversizedSource h with h | h | h <;> exact absurd h (by decide)
  rw [FileTree.read_bytesOf find_long, unifiedLines_eq_self hlines]

theorem breaksOff_long (options : Options) :
    BreaksOff mixed options (.ofText "Long.svelte") .oversizedReference := by
  refine ⟨_, read_long, analyze_of_oversized options rfl (fun h => ?_) ?_⟩
  · rcases mem_oversizedSource h with h | h | h <;> exact absurd h (by decide)
  · refine ⟨List.replicate (maxDecimalDigits + 1) '1', List.infix_rfl, fun d hd => ?_, ?_⟩
    · rw [List.eq_of_mem_replicate hd]
      rfl
    · rw [List.length_replicate]
      exact Nat.lt_succ_self _

/-- The first file is a component, the second one has too long a reference. -/
def longArguments : List String := ["check", "Plain.svelte", "Long.svelte", "--format", "json"]

/-- **A run that is broken off**, though both files can be read and the first one has a report of
its own. -/
theorem run_longArguments :
    Command.ofArguments? longArguments =
      some (.check ["Plain.svelte", "Long.svelte"] [] false .json none) ∧
    Settings.load mixed.files mixed.environment = .ok {} ∧
    mixed.files.collect [".svelte"] [.ofText "Plain.svelte", .ofText "Long.svelte"] =
      [.ofText "Plain.svelte", .ofText "Long.svelte"] ∧
    readable mixed.files (.ofText "Plain.svelte") = true ∧
    readable mixed.files (.ofText "Long.svelte") = true ∧
    ReportOn mixed {} (.ofText "Plain.svelte") (.checked "Plain.svelte" []) ∧
    run mixed longArguments = { ending := .brokenOff (.analysis .oversizedReference) } ∧
    ∀ reports, (run mixed longArguments).output ≠ written .json reports := by
  have hcommand : Command.ofArguments? longArguments =
      some (.check ["Plain.svelte", "Long.svelte"] [] false .json none) := by decide +kernel
  have hpaths : ∀ path ∈ ["Plain.svelte", "Long.svelte"],
      ∃ n, mixed.files.find (.ofText path) = .ok n :=
    List.forall_mem_cons.mpr ⟨⟨_, find_plain⟩, List.forall_mem_singleton.mpr ⟨_, find_long⟩⟩
  have hcollect : mixed.files.collect [".svelte"] [.ofText "Plain.svelte", .ofText "Long.svelte"] =
    [.ofText "Plain.svelte", .ofText "Long.svelte"] := by rfl
  obtain ⟨ok, a, hok, ha, hreport⟩ := reportOn_plain
  have hrun : run mixed longArguments =
      { ending := .brokenOff (.analysis .oversizedReference) } := by
    have hreports : ReportsOn mixed {} [.ofText "Plain.svelte"] _ := .cons reportOn_plain .nil
    have hsplit : mixed.files.collect ({} : Settings).extensions
        (["Plain.svelte", "Long.svelte"].map .ofText) =
      [.ofText "Plain.svelte"] ++ .ofText "Long.svelte" :: [] := hcollect
    have hcheck : check mixed {} (["Plain.svelte", "Long.svelte"].map .ofText) [] false .json = _ :=
      check_eq_of_breaksOff .json rfl hsplit hreports (breaksOff_long {})
    rw [run_of_check hcommand hpaths load_mixed rfl, hcheck, complaints_cons_readable hok]
    rfl
  refine ⟨hcommand, load_mixed, hcollect, readable_iff.mpr ⟨_, hok⟩,
    readable_iff.mpr ⟨_, read_long⟩, ⟨ok, a, hok, ha, hreport⟩, hrun, fun reports => ?_⟩
  rw [hrun]
  exact (List.append_ne_nil_of_right_ne_nil _ (List.cons_ne_nil _ _)).symm

end CommandLine

end RawHtmlLint

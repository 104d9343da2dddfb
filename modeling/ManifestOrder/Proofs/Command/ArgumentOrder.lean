import ManifestOrder.Proofs.Command.Apart
import ManifestOrder.Proofs.Command.Failures
import ManifestOrder.Proofs.Path

/-!
# The order of the arguments

The files that a run of the linter is told to visit may be named in any order. If no two of them are
the same file, each visit comes to what it comes to alone (`visitAll_each`), and the writes of
different visits do not get in each other's way (`visits_perm`). A visit reports one thing at most,
under the path of its file (`visit_settles`), so the order of the listing has no ties and the reports
are listed alike. `argument_order_irrelevant` says so of two lists of arguments: the files, the
reports, the totals and the exit code are the same, and only the notes follow the order of the
arguments.
-/

namespace ManifestOrder.Command

open Lint (Issue Report)

variable {settings : LintSettings} {patterns : List String} {fs : FileSystem} {p : Path}

/-! ## What a visit reports -/

/-- Built-in rules are enabled, or none, and the patterns are texts. -/
structure LintSettings.Builtin (settings : LintSettings) (patterns : List String) : Prop where
  rules : settings.rules = [] ∨ settings.rules = Lint.builtinRules
  patterns : settings.patterns = patterns.map .string

/-- At most one report, under the given path. -/
def SingleReport (p : Path) (reports : List Report) : Prop :=
  reports = [] ∨ ∃ report, reports = [report] ∧ report.path = toString p

/-- The visit does not break the run off, and reports at most one thing. -/
def Visit.Settles (p : Path) (v : Visit) : Prop :=
  ∃ verdict, v.verdict = .ok verdict ∧ SingleReport p (reportsOfVerdict p verdict)

/-- Nothing is found, or one list that is out of order. -/
def OrderIssues (p : Path) (issues : List Issue) : Prop :=
  issues = [] ∨ ∃ list, issues = Lint.checkOrder .standard p list

theorem singleReport_orderReports (p : Path) (list : Dependency.DependencyList) :
    SingleReport p (orderReports p list) := by
  unfold orderReports Lint.checkOrder
  split
  · exact .inl rfl
  · rename_i index _
    cases made : Report.ofIssue? (Lint.unsortedIssue p list index) with
    | none => exact .inl (by simp [made])
    | some report =>
      refine .inr ⟨report, by simp [made], ?_⟩
      obtain ⟨severity, -, rfl⟩ := Option.map_eq_some_iff.1 made
      rfl

theorem linted_settles {issues : List Issue} (order : OrderIssues p issues) (notes : List String)
    (fs : FileSystem) : (Visit.linted notes fs issues).Settles p := by
  obtain rfl | ⟨list, rfl⟩ := order
  · exact ⟨.linted [], rfl, .inl rfl⟩
  · rw [linted_checkOrder]
    exact ⟨_, rfl, singleReport_orderReports p list⟩

theorem failed_settles {failure : FileFailure}
    (handled : (∃ cause, failure = .unreadable cause) ∨ failure = .fix .malformed)
    (notes : List String) (fs : FileSystem) (p : Path) :
    (Visit.failed notes fs p failure).Settles p := by
  obtain ⟨cause, rfl⟩ | rfl := handled
  · exact ⟨.unreadable, rfl, .inl rfl⟩
  · exact ⟨.malformed, rfl, .inr ⟨_, rfl, rfl⟩⟩

/-- What the analysis of a manifest comes to, whichever rules are enabled. -/
theorem analyze_builtin_cases (builtin : settings.Builtin patterns)
    (named : isNamed patterns p = true) :
    ∃ find : Dependency.DependencyList → List Issue, (∀ list, OrderIssues p (find list)) ∧
      ∀ fs, analyze settings fs p = (Manifest.extract fs p).map find := by
  have asked : isManifest settings.patterns p = .ok true := by
    rw [builtin.patterns, isManifest_texts, named]
  obtain none | all := builtin.rules
  · refine ⟨fun _ => [], fun _ => .inl rfl, ?_⟩
    intro fs
    unfold analyze Lint.Engine.analyzeFile Manifest.extract
    simp only [none, asked]
    cases Manifest.read fs p with
    | error failure => rfl
    | ok text =>
      cases accepted : Dependency.extract? text with
      | none => simp [Lint.Engine.analyzeText, accepted, Except.map]
      | some list =>
        simp [Lint.Engine.analyzeText, accepted, Except.map, Lint.runRules, Lint.byLine]
  · exact ⟨Lint.checkOrder .standard p, fun list => .inr ⟨list, rfl⟩,
      fun fs => analyze_builtin all asked⟩

theorem extract_failure {failure : FileFailure} (decodable : ¬ Undecodable patterns fs p)
    (named : isNamed patterns p = true) (refused : Manifest.extract fs p = .error failure) :
    (∃ cause, failure = .unreadable cause) ∨ failure = .fix .malformed := by
  obtain cause | malformed | ⟨-, undecodable⟩ :=
    failure?_cases (failure?_eq_some_iff.2 ⟨named, refused⟩)
  · exact .inl cause
  · exact .inr malformed
  · exact absurd undecodable decodable

theorem visit_settles (builtin : settings.Builtin patterns)
    (decodable : ¬ Undecodable patterns fs p) : (visit settings fs p).Settles p := by
  by_cases named : isNamed patterns p = true
  · obtain ⟨find, order, found⟩ := analyze_builtin_cases builtin named
    have asked : isManifest settings.patterns p = .ok true := by
      rw [builtin.patterns, isManifest_texts, named]
    rw [visit_manifest asked, visitManifest, found]
    cases accepted : Manifest.extract fs p with
    | error failure => exact failed_settles (extract_failure decodable named accepted) _ _ _
    | ok list =>
      simp only [Except.map]
      split
      · rename_i fixing
        rw [Bool.and_eq_true_iff, Bool.not_eq_true'] at fixing
        obtain ⟨cause, failed⟩ | ⟨after, text, done, revised, -⟩ :=
          sortFile_accepted accepted (any_canFix fixing.2)
        · rw [failed]
          exact failed_settles (.inl ⟨cause, rfl⟩) _ _ _
        · simp only [done, found]
          cases again : Manifest.extract after p with
          | error failure =>
            have still := mt (undecodable_revised revised).1 decodable
            exact failed_settles (extract_failure still named again) _ _ _
          | ok list => exact linted_settles (order list) _ _
      · exact linted_settles (order list) _ _
  · rw [Bool.not_eq_true] at named
    unfold visit
    simp only [builtin.patterns, isManifest_texts, named]
    exact ⟨.skipped, rfl, .inl rfl⟩

/-! ## Each visit comes to what it comes to alone -/

/-- The verdict of a visit that does not break the run off. -/
def Visit.result (v : Visit) : Verdict :=
  v.verdict.toOption.getD .skipped

/-- The files after visits to all the given ones. -/
def visits (settings : LintSettings) (fs : FileSystem) (files : List Path) : FileSystem :=
  files.foldl (fun fs p => (visit settings fs p).fileSystem) fs

/-- A run over files that has come to what visits to each of them come to, all of them made to the
files as they are at the start. -/
structure EachAlone (settings : LintSettings) (files : List Path) (start last : Progress) :
    Prop where
  crash : last.crash = start.crash
  fileSystem : last.fileSystem = visits settings start.fileSystem files
  lines : last.lines =
    start.lines ++ files.flatMap fun p => (visit settings start.fileSystem p).notes
  verdicts : last.verdicts =
    start.verdicts ++ files.map fun p => (p, (visit settings start.fileSystem p).result)

theorem Visit.Settles.after {q : Path} (apart : Apart fs p q)
    (settles : (visit settings fs q).Settles q) :
    (visit settings (visit settings fs p).fileSystem q).Settles q := by
  obtain ⟨verdict, settled, single⟩ := settles
  exact ⟨verdict, (visit_after apart).2.trans settled, single⟩

/-- After a visit the other files are apart, as they were before. -/
theorem pairwise_apart_after {files : List Path} (p : Path) (apart : files.Pairwise (Apart fs)) :
    files.Pairwise (Apart (visit settings fs p).fileSystem) :=
  apart.imp (apart_layout (visit_layout settings fs p)).2

theorem visitAll_each {files : List Path} {progress : Progress}
    (settles : ∀ p ∈ files, (visit settings progress.fileSystem p).Settles p)
    (apart : files.Pairwise (Apart progress.fileSystem)) :
    EachAlone settings files progress (visitAll settings progress files) := by
  induction files generalizing progress with
  | nil => exact ⟨rfl, rfl, by simp [visitAll], by simp [visitAll]⟩
  | cons p files ih =>
    obtain ⟨⟨verdict, settled, -⟩, later⟩ := List.forall_mem_cons.1 settles
    obtain ⟨others, rest⟩ := List.pairwise_cons.1 apart
    generalize visited : visit settings progress.fileSystem p = v at settled
    obtain ⟨notes, after, _⟩ := v
    obtain rfl : _ = Except.ok verdict := settled
    have written : (visit settings progress.fileSystem p).fileSystem = after := by rw [visited]
    have ends := @ih (progress.record p notes after verdict)
      (fun q member => written ▸ (later q member).after (others q member))
      (written ▸ pairwise_apart_after p rest)
    -- What the other files come to is not changed by this one.
    have unchanged : ∀ q ∈ files,
        (visit settings after q).notes = (visit settings progress.fileSystem q).notes ∧
          (visit settings after q).verdict = (visit settings progress.fileSystem q).verdict :=
      fun q member => written ▸ visit_after (others q member)
    rw [visitAll_cons visited]
    refine ⟨ends.crash, ?_, ?_, ?_⟩
    · rw [ends.fileSystem, visits, visits, List.foldl_cons, written]
      rfl
    · rw [ends.lines, List.flatMap_cons, visited, List.flatMap_def, List.flatMap_def,
        ← List.map_congr_left fun q member => (unchanged q member).1]
      exact List.append_assoc _ _ _
    · have results : ∀ q ∈ files, (visit settings progress.fileSystem q).result =
          (visit settings after q).result := by
        intro q member
        rw [Visit.result, Visit.result, (unchanged q member).2]
      rw [ends.verdicts, List.map_cons, visited,
        List.map_congr_left fun q member => congrArg (Prod.mk q) (results q member)]
      exact List.append_assoc _ [_] _

/-- The files after visits do not depend on the order of the visits. -/
theorem visits_perm {files files' : List Path} (permuted : files.Perm files')
    (apart : files.Pairwise (Apart fs)) : visits settings fs files = visits settings fs files' := by
  induction permuted generalizing fs with
  | nil => rfl
  | cons p _ ih => exact ih (pairwise_apart_after p (List.pairwise_cons.1 apart).2)
  | swap p q files =>
    have first : Apart fs q p := (List.pairwise_cons.1 apart).1 p List.mem_cons_self
    exact congrArg (visits settings · files) (visit_visit first)
  | trans first _ ih ih' =>
    exact (ih apart).trans (ih' ((first.pairwise_iff Apart.symm).1 apart))

/-! ## The end of the run -/

theorem Visit.Settles.single {v : Visit} (settles : v.Settles p) :
    SingleReport p (reportsOfVerdict p v.result) := by
  obtain ⟨verdict, settled, single⟩ := settles
  rw [Visit.result, settled]
  exact single

theorem SingleReport.eq_of_mem {reports : List Report} (single : SingleReport p reports)
    {report : Report} (member : report ∈ reports) :
    reports = [report] ∧ report.path = toString p := by
  obtain rfl | ⟨only, rfl, path⟩ := single
  · cases member
  · obtain rfl := List.mem_singleton.1 member
    exact ⟨rfl, path⟩

/-- Reports of a run under the same path are one and the same. -/
theorem eq_of_path {files : List Path} (settles : ∀ p ∈ files, (visit settings fs p).Settles p)
    (read : ∀ p ∈ files, p.IsRead) {a b : Report}
    (a_mem : a ∈ files.flatMap fun p => reportsOfVerdict p (visit settings fs p).result)
    (b_mem : b ∈ files.flatMap fun p => reportsOfVerdict p (visit settings fs p).result)
    (same : a.path = b.path) : a = b := by
  obtain ⟨p, p_mem, a_mem⟩ := List.mem_flatMap.1 a_mem
  obtain ⟨q, q_mem, b_mem⟩ := List.mem_flatMap.1 b_mem
  obtain ⟨only, here⟩ := (settles p p_mem).single.eq_of_mem a_mem
  obtain ⟨-, there⟩ := (settles q q_mem).single.eq_of_mem b_mem
  obtain rfl : p = q :=
    Path.toString_injective (read p p_mem) (read q q_mem) (here.symm.trans (same.trans there))
  rw [only] at b_mem
  exact (List.mem_singleton.1 b_mem).symm

theorem listed_eq_of_perm {first second : Progress} (same : first.reports.Perm second.reports)
    (untied : ∀ a ∈ first.reports, ∀ b ∈ first.reports, a.path = b.path → a = b)
    (severity : String) : first.listed severity = second.listed severity := by
  have sorted : Dependency.stableSort reportOrder first.reports =
      Dependency.stableSort reportOrder second.reports := by
    refine Dependency.stableSort_eq_of_perm same ?_
    intro a a_mem b b_mem tied
    rw [reportOrder, Ordering.then_eq_eq, Std.compare_eq_iff_eq] at tied
    exact untied a a_mem b b_mem tied.1
  rw [Progress.listed, Progress.listed, sorted]

/-- The outcomes of two runs that were given their files in different orders. What they print while
the files are visited goes file by file, and then they list the same. Runs that do not come to the
files print the same. -/
structure AlikeButNotes (files files' : List Path) (first second : Outcome) : Prop where
  fileSystem : second.fileSystem = first.fileSystem
  exitCode : second.exitCode = first.exitCode
  crash : second.crash = first.crash
  lines : second.lines = first.lines ∨
    ∃ (notes : Path → List String) (issues : List Report) (total : Nat),
      first.lines = files.flatMap notes ++ issues.map Report.shown ++
        ["", totalLine total issues.length] ∧
      second.lines = files'.flatMap notes ++ issues.map Report.shown ++
        ["", totalLine total issues.length]

theorem AlikeButNotes.refl (files files' : List Path) (o : Outcome) :
    AlikeButNotes files files' o o :=
  ⟨rfl, rfl, rfl, .inl rfl⟩

theorem lintFiles_alike (builtin : settings.Builtin patterns) {files files' : List Path}
    (permuted : files'.Perm files) (read : ∀ p ∈ files, p.IsRead)
    (apart : files.Pairwise (Apart fs)) (decodable : ∀ p ∈ files, ¬ Undecodable patterns fs p)
    (severity : String) :
    AlikeButNotes files files' (lintFiles settings severity [] fs files)
      (lintFiles settings severity [] fs files') ∧
    (lintFiles settings severity [] fs files).crash = none := by
  by_cases some : files = []
  · subst some
    rw [permuted.eq_nil]
    exact ⟨.refl _ _ _, rfl⟩
  have some' : files' ≠ [] := by
    rintro rfl
    exact some permuted.symm.eq_nil
  have settles : ∀ p ∈ files, (visit settings fs p).Settles p :=
    fun p member => visit_settles builtin (decodable p member)
  have first : EachAlone settings files ⟨[], fs, [], none⟩ _ := visitAll_each settles apart
  have second : EachAlone settings files' ⟨[], fs, [], none⟩ _ :=
    visitAll_each (fun p member => settles p (permuted.mem_iff.1 member))
      ((permuted.pairwise_iff Apart.symm).2 apart)
  rw [lintFiles_of_ne_nil some, lintFiles_of_ne_nil some']
  generalize visitAll settings ⟨[], fs, [], none⟩ files = run at first
  generalize visitAll settings ⟨[], fs, [], none⟩ files' = run' at second
  have verdicts : run'.verdicts.Perm run.verdicts := by
    rw [first.verdicts, second.verdicts]
    exact permuted.map _
  have reports : run.reports = files.flatMap fun p =>
      reportsOfVerdict p (visit settings fs p).result := by
    rw [Progress.reports, first.verdicts, List.nil_append, List.flatMap_map]
  have perm : run.reports.Perm run'.reports := verdicts.symm.flatMap_right _
  have listed : run.listed severity = run'.listed severity := by
    refine listed_eq_of_perm perm ?_ severity
    rw [reports]
    exact fun a a_mem b b_mem => eq_of_path settles read a_mem b_mem
  refine ⟨⟨?_, ?_, ?_, .inr ⟨fun p => (visit settings fs p).notes, run.listed severity,
    run.reports.length, ?_, ?_⟩⟩, ?_⟩
  · rw [finish_fileSystem, finish_fileSystem, first.fileSystem, second.fileSystem]
    exact (visits_perm permuted.symm apart).symm
  · rw [finish_exitCode first.crash, finish_exitCode second.crash, listed, Progress.hasFailure,
      verdicts.any_eq]
    rfl
  · rw [finish_crash, finish_crash, first.crash, second.crash]
  · rw [finish_lines first.crash, first.lines]
    rfl
  · rw [finish_lines second.crash, second.lines, listed, perm.length_eq]
    rfl
  · rw [finish_crash, first.crash]

/-! ## The command -/

theorem enabled_builtin {select ignore : Toml.Value} {rules : List Lint.Rule}
    (found : enabled select ignore Lint.Rule.id Lint.builtinRules = .ok rules) :
    rules = [] ∨ rules = Lint.builtinRules := by
  unfold enabled Lint.builtinRules filterOrFail filterOrFail at found
  split at found
  · cases found
  · rename_i enabled _
    obtain rfl := Except.ok.inj found
    cases enabled with
    | false => exact .inl rfl
    | true => exact .inr rfl

/-- If the configuration can be loaded, its patterns are these texts. -/
def HasPatterns (fs : FileSystem) (configFile : Path) (patterns : List String) : Prop :=
  ∀ loaded, Config.load fs configFile = .ok loaded →
    parts loaded.config.patterns = .ok (patterns.map .string)

theorem lintSettings_builtin {config : Config} {fix : Bool}
    (texts : parts config.patterns = .ok (patterns.map .string))
    (set : lintSettings config fix = .ok settings) : settings.Builtin patterns := by
  unfold lintSettings at set
  rw [texts] at set
  simp only at set
  split at set
  · cases set
  · rename_i rules found
    obtain rfl := Except.ok.inj set
    exact ⟨enabled_builtin found, rfl⟩

/-- Files are named, the configuration can be loaded, and the settings in it can be used. -/
def VisitsNamed (fs : FileSystem) (options : LintOptions) : Prop :=
  options.project = false ∧ ∃ loaded settings, Config.load fs options.configFile = .ok loaded ∧
    lintSettings loaded.config options.fix = .ok settings

theorem lint_alike {options : LintOptions} {files : List Path} (permuted : files.Perm options.files)
    (read : ∀ p ∈ options.files, p.IsRead) (texts : HasPatterns fs options.configFile patterns)
    (apart : options.files.Pairwise (Apart fs))
    (decodable : ∀ p ∈ options.files, ¬ Undecodable patterns fs p) :
    AlikeButNotes options.files files (lint fs options) (lint fs { options with files }) ∧
      (VisitsNamed fs options → (lint fs options).crash = none) := by
  unfold lint VisitsNamed
  cases config : Config.load fs options.configFile with
  | error e => exact ⟨.refl _ _ _, by simp⟩
  | ok loaded =>
    simp only
    cases set : lintSettings loaded.config options.fix with
    | error e => exact ⟨.refl _ _ _, by simp [set]⟩
    | ok settings =>
      simp only
      split
      · rename_i project
        exact ⟨.refl _ _ _, fun named => absurd project (by simp [named.1])⟩
      · obtain ⟨alike, finished⟩ := lintFiles_alike (lintSettings_builtin (texts loaded config) set)
          permuted read apart decodable options.severity
        exact ⟨alike, fun _ => finished⟩

/-! ## Arguments -/

theorem parseCommand?_lint {arguments : List String} {options : LintOptions}
    (understood : parseCommand? arguments = some (.lint options)) :
    ∀ p ∈ options.files, p.IsRead := by
  unfold parseCommand? at understood
  split at understood
  · obtain ⟨⟨_, paths⟩, -, same⟩ := Option.map_eq_some_iff.1 understood
    obtain rfl := Request.lint.inj same
    intro p member
    obtain ⟨text, -, rfl⟩ := List.mem_map.1 member
    exact Path.ofString_isRead text
  · unfold parseSort? at understood
    split at understood
    · cases Option.some.inj understood
    · cases understood
  · cases understood

theorem parseRequest?_lint {arguments : List String} {options : LintOptions}
    (understood : parseRequest? arguments = some (.lint options)) :
    ∀ p ∈ options.files, p.IsRead := by
  induction arguments with
  | nil => cases understood
  | cons argument rest ih =>
    unfold parseRequest? at understood
    split at understood
    · exact ih understood
    · split at understood
      · exact parseCommand?_lint understood
      · exact parseCommand?_lint understood

/-- The files that arguments name are read from texts without a NUL. -/
theorem parse?_lint {arguments : List String} {options : LintOptions}
    (understood : parse? arguments = some (.lint options)) :
    ∀ p ∈ options.files, p.IsRead ∧ p.hasNul = false := by
  obtain ⟨request, plain⟩ := Option.filter_eq_some_iff.1 understood
  have free : options.files.any Path.hasNul = false := by
    rw [Bool.not_eq_true', Request.hasNul, Request.paths, List.any_cons, Bool.or_eq_false_iff]
      at plain
    exact plain.2
  intro p member
  exact ⟨parseRequest?_lint request p member, Bool.eq_false_iff.2 (List.any_eq_false.1 free p member)⟩

/-- What is read at a path is text. -/
theorem decodable_of_text (plain : p.hasNul = false)
    (text : isNamed patterns p = true → ∀ content, fs.read p = .ok content →
      Manifest.decode? content ≠ none) : ¬ Undecodable patterns fs p := by
  rintro ⟨named, broken⟩
  unfold Manifest.read at broken
  rw [plain] at broken
  cases held : fs.read p with
  | error e => simp [held] at broken
  | ok content =>
    obtain ⟨letters, decoded⟩ := Option.ne_none_iff_exists'.1 (text named content held)
    simp [held, decoded] at broken

/-- The files that are to be linted may be named in any order, if no two of them are the same and
the manifests among them hold text. The files are written alike, the same reports are listed in the
same order, the same totals are counted, and the run ends with the same exit code. It does not break
off on any of the files. -/
theorem argument_order_irrelevant {fs : FileSystem} {arguments arguments' : List String}
    {options : LintOptions} {files : List Path} {patterns : List String}
    (understood : parse? arguments = some (.lint options))
    (understood' : parse? arguments' = some (.lint { options with files }))
    (permuted : files.Perm options.files) (texts : HasPatterns fs options.configFile patterns)
    (apart : options.files.Pairwise (Apart fs))
    (readable : ∀ p ∈ options.files, isNamed patterns p = true → ∀ content,
      fs.read p = .ok content → Manifest.decode? content ≠ none) :
    AlikeButNotes options.files files (runArguments fs arguments) (runArguments fs arguments') ∧
      (VisitsNamed fs options → (runArguments fs arguments).crash = none) := by
  unfold runArguments
  rw [understood, understood']
  exact lint_alike permuted (fun p member => (parse?_lint understood p member).1) texts apart
    fun p member => decodable_of_text (parse?_lint understood p member).2 (readable p member)

/-! ### A malformed manifest and one that is out of order -/

def twoOptions : LintOptions where
  files := [brokenManifest, goodManifest]
  fix := true

theorem twoFiles_plain {files : List Path} (among : files ⊆ [brokenManifest, goodManifest]) :
    (!(Request.lint { twoOptions with files }).hasNul) = true := by
  have config : Path.ofString defaultConfigFile = ⟨.here, [defaultConfigFile]⟩ := by decide
  have named : twoOptions.configFile.hasNul = false := by
    rw [twoOptions, config]
    simp [Path.hasNul, defaultConfigFile]
  have plain : ∀ p ∈ [brokenManifest, goodManifest], p.hasNul = false := by
    simp [Path.hasNul, brokenManifest, goodManifest]
  rw [Bool.not_eq_true', Request.hasNul, Request.paths, List.any_cons, named, Bool.false_or,
    List.any_eq_false]
  exact fun p member => Bool.eq_false_iff.1 (plain p (among member))

theorem argument_order_irrelevant_two :
    AlikeButNotes [brokenManifest, goodManifest] [goodManifest, brokenManifest]
      (runArguments twoManifests ["lint", "--fix", "broken/pom.xml", "pom.xml"])
      (runArguments twoManifests ["lint", "pom.xml", "--fix", "broken/pom.xml"]) ∧
    (runArguments twoManifests ["lint", "--fix", "broken/pom.xml", "pom.xml"]).crash = none := by
  have understood : parse? ["lint", "--fix", "broken/pom.xml", "pom.xml"] =
      some (.lint twoOptions) :=
    Option.filter_eq_some_iff.2 ⟨by decide +kernel, twoFiles_plain (List.Subset.refl _)⟩
  have understood' : parse? ["lint", "pom.xml", "--fix", "broken/pom.xml"] =
      some (.lint { twoOptions with files := [goodManifest, brokenManifest] }) :=
    Option.filter_eq_some_iff.2 ⟨by decide +kernel, twoFiles_plain (by simp)⟩
  have defaults : Config.load twoManifests twoOptions.configFile = .ok ⟨{}, false⟩ := rfl
  have texts : HasPatterns twoManifests twoOptions.configFile defaultPatterns := by
    intro loaded config
    obtain rfl := Except.ok.inj (defaults.symm.trans config)
    rfl
  have broken : twoManifests.read brokenManifest = .ok (Manifest.encode ['<']) := rfl
  have good : twoManifests.read goodManifest = .ok (Manifest.encode Dependency.swapped) := rfl
  have visited : VisitsNamed twoManifests twoOptions :=
    ⟨rfl, _, _, defaults, lintSettings_default true⟩
  have apart : [brokenManifest, goodManifest].Pairwise (Apart twoManifests) := by
    refine List.pairwise_pair.2 ?_
    intro location leads same
    have here : twoManifests.resolve brokenManifest = .ok ["broken", "pom.xml"] := rfl
    have there : twoManifests.resolve goodManifest = .ok ["pom.xml"] := rfl
    have joined := Except.ok.inj ((here.symm.trans leads).trans (same.symm.trans there))
    exact absurd joined (by decide)
  have readable : ∀ p ∈ twoOptions.files, isNamed defaultPatterns p = true → ∀ content,
      twoManifests.read p = .ok content → Manifest.decode? content ≠ none := by
    intro p member _ content found
    simp only [twoOptions, List.mem_cons, List.not_mem_nil, or_false] at member
    obtain rfl | rfl := member
    · obtain rfl := Except.ok.inj (broken.symm.trans found)
      rw [Manifest.decode?_encode]
      exact Option.some_ne_none _
    · obtain rfl := Except.ok.inj (good.symm.trans found)
      rw [Manifest.decode?_encode]
      exact Option.some_ne_none _
  obtain ⟨alike, finished⟩ := argument_order_irrelevant understood understood'
    (List.Perm.swap _ _ _) texts apart readable
  exact ⟨alike, finished visited⟩

end ManifestOrder.Command

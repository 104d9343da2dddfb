import ManifestOrder.Proofs.Command.Rearrangement

/-!
# The two commands on one file

Where unsorted dependencies are an issue, linting a file and sorting it come to the same, although
the linter decides by the ids of neighbours and the sort by the texts of all entries. Fixing the file
leaves what sorting it leaves, and a check ends in the same way with both: what the end is can be read
off the file (`checkEnding`). The main result is `commands_agree`.
-/

namespace ManifestOrder.Command

open Dependency (Comparator Fixed firstViolation)
open Lint (Report Severity)

variable {settings : LintSettings} {fs : FileSystem} {p : Path}

/-- The configuration is one under which unsorted dependencies are an issue. -/
structure ReportsUnsorted (fs : FileSystem) (configFile : Path) (loaded : LoadedConfig) : Prop where
  config : Config.load fs configFile = .ok loaded
  enabled : isEnabled loaded.config.select loaded.config.ignore Lint.unsortedId = .ok true

/-- How a run ends that fails on its only file. -/
def endingOfFailure : FileFailure → Nat × Option Crash
  | .unreadable _ => (2, none)
  | .fix .malformed => (2, none)
  | .notPath => (1, some .notPath)
  | .notText => (1, some .notText)
  | .wrongType => (1, some .wrongType)
  | .fix (.edit _) => (1, some .edit)

/-- How the check of a manifest ends. -/
def manifestEnding (fs : FileSystem) (p : Path) : Nat × Option Crash :=
  match Manifest.extract fs p with
  | .error failure => endingOfFailure failure
  | .ok list =>
    (if (firstViolation Comparator.standard list.records).isSome then 1 else 0, none)

/-- How the check of a file ends. -/
def checkEnding (patterns : Toml.Value) (fs : FileSystem) (p : Path) : Nat × Option Crash :=
  match isManifestBySetting patterns p with
  | .error _ => (1, some .wrongType)
  | .ok false => (0, none)
  | .ok true => manifestEnding fs p

/-! ## The sort command -/

theorem sortFailed_ending (fs : FileSystem) (p : Path) (failure : FileFailure) :
    (sortFailed fs p failure).ending = endingOfFailure failure := by
  cases failure with
  | fix cause => cases cause <;> rfl
  | unreadable | notPath | notText | wrongType => rfl

theorem sortManifest_ending (fs : FileSystem) (p : Path) :
    (sortManifest fs p true).ending = manifestEnding fs p := by
  unfold manifestEnding
  cases accepted : Manifest.extract fs p with
  | error failure =>
    simp only [sortManifest, sortedManifest_failed accepted]
    exact sortFailed_ending fs p failure
  | ok list =>
    obtain ⟨fixed, sorted, modified⟩ := sortedManifest_accepted accepted
    cases violation : firstViolation Comparator.standard list.records with
    | none => simp [sortManifest, sorted, modified, violation, Outcome.ending]
    | some index => simp [sortManifest, sorted, modified, violation, Outcome.ending]

theorem sort_check_ending {options : SortOptions} {loaded : LoadedConfig}
    (config : Config.load fs options.configFile = .ok loaded) (checking : options.check = true) :
    (sort fs options).ending = checkEnding loaded.config.patterns fs options.file := by
  unfold checkEnding
  cases named : isManifestBySetting loaded.config.patterns options.file with
  | error e => simp [sort, config, named, Outcome.crashed, Outcome.ending]
  | ok isManifest =>
    cases isManifest with
    | false => simp [sort, config, named, Outcome.ending]
    | true =>
      rw [sort_manifest config named, checking]
      exact sortManifest_ending fs options.file

/-! ## The linter on one file -/

theorem lintFiles_single_fileSystem (settings : LintSettings) (severity : String)
    (lines : List String) (fs : FileSystem) (p : Path) :
    (lintFiles settings severity lines fs [p]).fileSystem = (visit settings fs p).fileSystem := by
  rw [lintFiles_of_ne_nil (List.cons_ne_nil p []), finish_fileSystem, visitAll]
  split <;> rfl

theorem lintFiles_single_crash {crash : Crash} {notes : List String} {after : FileSystem}
    (visited : visit settings fs p = ⟨notes, after, .error crash⟩) (severity : String)
    (lines : List String) :
    (lintFiles settings severity lines fs [p]).ending = (1, some crash) := by
  have broken : (visitAll settings ⟨lines, fs, [], none⟩ [p]).crash = some crash :=
    visitAll_cons_error visited []
  rw [lintFiles_of_ne_nil (List.cons_ne_nil p []), Progress.finish, broken]
  rfl

theorem lintFiles_single_verdict {verdict : Verdict} {notes : List String} {after : FileSystem}
    (visited : visit settings fs p = ⟨notes, after, .ok verdict⟩) (severity : String)
    (lines : List String) :
    (lintFiles settings severity lines fs [p]).ending =
      (lintExitCode verdict.isFailure ((reportsOfVerdict p verdict).filter fun report =>
        decide (leastRank severity ≤ report.severity.rank)).length, none) := by
  rw [lintFiles_of_ne_nil (List.cons_ne_nil p []), visitAll_cons visited, visitAll, Outcome.ending,
    finish_crash, finish_exitCode rfl, Progress.record_hasFailure, Progress.listed,
    Progress.record_reports]
  have sorted := (Dependency.stableSort_perm reportOrder (reportsOfVerdict p verdict)).filter
    fun report => decide (leastRank severity ≤ report.severity.rank)
  rw [← sorted.length_eq]
  rfl

theorem lintFiles_single_failed {failure : FileFailure}
    (visited : visit settings fs p = .failed [] fs p failure) (severity : String)
    (lines : List String) :
    (lintFiles settings severity lines fs [p]).ending = endingOfFailure failure := by
  cases failure with
  | unreadable cause => exact lintFiles_single_verdict visited severity lines
  | notPath | notText | wrongType => exact lintFiles_single_crash visited severity lines
  | fix cause =>
    cases cause with
    | malformed => exact lintFiles_single_verdict visited severity lines
    | edit cause => exact lintFiles_single_crash visited severity lines

/-- A list that is out of order has one report, which is listed where warnings are. -/
theorem listed_orderReports {severity : String}
    (threshold : leastRank severity ≤ Severity.warning.rank) (p : Path)
    (list : Dependency.DependencyList) :
    ((orderReports p list).filter fun report =>
        decide (leastRank severity ≤ report.severity.rank)).length =
      if (firstViolation Comparator.standard list.records).isSome then 1 else 0 := by
  cases violation : firstViolation Comparator.standard list.records with
  | none => simp [orderReports_sorted violation]
  | some index =>
    have violated : (firstViolation Comparator.standard list.records).isSome = true := by
      rw [violation, Option.isSome_some]
    obtain ⟨report, only, warns⟩ := orderReports_unsorted p violated
    simp [only, warns, threshold]

theorem lintFiles_manifest_ending (rules : settings.rules = Lint.builtinRules)
    (checking : settings.fix = false) (named : isManifest settings.patterns p = .ok true)
    {severity : String} (threshold : leastRank severity ≤ Severity.warning.rank)
    (lines : List String) :
    (lintFiles settings severity lines fs [p]).ending = manifestEnding fs p := by
  have visited : visit settings fs p = visitManifest settings fs p := visit_manifest named
  have found : analyze settings fs p = _ := analyze_builtin rules named
  unfold manifestEnding
  cases accepted : Manifest.extract fs p with
  | error failure =>
    rw [accepted] at found
    refine lintFiles_single_failed (visited.trans ?_) severity lines
    rw [visitManifest, found]
    rfl
  | ok list =>
    rw [accepted] at found
    have linted : visit settings fs p = ⟨[], fs, .ok (.linted (orderReports p list))⟩ := by
      rw [visited, visitManifest, found, ← linted_checkOrder]
      simp only [Except.map, checking, Bool.false_and, Bool.false_eq_true, if_false]
    rw [lintFiles_single_verdict linted, reportsOfVerdict, listed_orderReports threshold]
    cases violation : firstViolation Comparator.standard list.records with
    | none => simp [violation, lintExitCode, Verdict.isFailure]
    | some index => simp [violation, lintExitCode, Verdict.isFailure]

theorem isFixable_checkOrder (cmp : Comparator) (p : Path) (list : Dependency.DependencyList) :
    (Lint.checkOrder cmp p list).filter isFixable = Lint.checkOrder cmp p list := by
  rw [List.filter_eq_self]
  intro issue found
  unfold Lint.checkOrder at found
  split at found
  · cases found
  · obtain rfl := List.mem_singleton.1 found
    simp [isFixable, Lint.unsortedIssue, Lint.canFix]

theorem asksForSort_iff (rules : settings.rules = Lint.builtinRules) (fixing : settings.fix = true)
    (named : isManifest settings.patterns p = .ok true) {list : Dependency.DependencyList}
    (accepted : Manifest.extract fs p = .ok list) :
    AsksForSort settings fs p ↔
      (firstViolation Comparator.standard list.records).isSome = true := by
  have found : analyze settings fs p = .ok (Lint.checkOrder .standard p list) := by
    rw [analyze_builtin rules named, accepted]
    rfl
  rw [Option.isSome_iff_ne_none, Ne, ← Lint.checkOrder_eq_nil_iff (p := p), AsksForSort,
    and_iff_right fixing]
  constructor
  · rintro ⟨issues, same, some⟩
    obtain rfl := Except.ok.inj (found.symm.trans same)
    rwa [isFixable_checkOrder, List.isEmpty_eq_false_iff] at some
  · intro some
    refine ⟨_, found, ?_⟩
    rwa [isFixable_checkOrder, List.isEmpty_eq_false_iff]

/-- What is written is what the sort command writes. -/
theorem visitManifest_sortManifest (rules : settings.rules = Lint.builtinRules)
    (fixing : settings.fix = true) (named : isManifest settings.patterns p = .ok true) :
    (visitManifest settings fs p).fileSystem = (sortManifest fs p false).fileSystem := by
  cases accepted : Manifest.extract fs p with
  | error failure =>
    have quiet : ¬ AsksForSort settings fs p := by
      rintro ⟨-, issues, found, -⟩
      rw [analyze_builtin rules named, accepted] at found
      cases found
    rw [visitManifest_keeps quiet]
    simp only [sortManifest, sortedManifest_failed accepted]
    exact (sortFailed_quiet fs p failure).1.symm
  | ok list =>
    obtain ⟨fixed, sorted, modified⟩ := sortedManifest_accepted accepted
    have asks := asksForSort_iff rules fixing named accepted
    rw [← modified] at asks
    cases moved : fixed.modified with
    | false =>
      rw [visitManifest_keeps (by rw [asks, moved]; exact Bool.false_ne_true)]
      simp [sortManifest, sorted, moved]
    | true => rw [visitManifest_writes (asks.2 moved) sorted, sortManifest_writes sorted moved]

/-! ## Agreement -/

theorem lintSettings_enabled {config : Config}
    (enabled : isEnabled config.select config.ignore Lint.unsortedId = .ok true) (fix : Bool) :
    lintSettings config fix =
      (parts config.patterns).map fun patterns => ⟨Lint.builtinRules, patterns, fix⟩ := by
  have rules : ManifestOrder.enabled config.select config.ignore Lint.Rule.id Lint.builtinRules =
      .ok Lint.builtinRules := by
    simp [ManifestOrder.enabled, filterOrFail, Lint.builtinRules, Lint.unsortedRule, enabled]
  unfold lintSettings
  cases parts config.patterns with
  | error e => rfl
  | ok patterns =>
    simp only [rules]
    rfl

theorem lint_sort_fileSystem {configFile : Path} {loaded : LoadedConfig}
    (reports : ReportsUnsorted fs configFile loaded) (p : Path) (severity : String) :
    (lint fs { files := [p], fix := true, configFile, severity }).fileSystem =
      (sort fs { file := p, configFile }).fileSystem := by
  unfold lint sort
  simp only [reports.config, lintSettings_enabled reports.enabled, isManifestBySetting]
  cases parts loaded.config.patterns with
  | error e => rfl
  | ok patterns =>
    simp only [Except.map, Bool.false_eq_true, if_false]
    rw [lintFiles_single_fileSystem]
    cases named : isManifest patterns p with
    | error e => simp [visit, named, Outcome.crashed]
    | ok isManifest =>
      cases isManifest with
      | false => simp [visit, named]
      | true =>
        rw [visit_manifest named]
        exact visitManifest_sortManifest rfl rfl named

theorem lint_check_ending {configFile : Path} {loaded : LoadedConfig}
    (reports : ReportsUnsorted fs configFile loaded) (p : Path) {severity : String}
    (threshold : leastRank severity ≤ Severity.warning.rank) :
    (lint fs { files := [p], configFile, severity }).ending =
      checkEnding loaded.config.patterns fs p := by
  unfold lint checkEnding
  simp only [reports.config, lintSettings_enabled reports.enabled, isManifestBySetting]
  cases parts loaded.config.patterns with
  | error e => rfl
  | ok patterns =>
    simp only [Except.map, Bool.false_eq_true, if_false]
    cases named : isManifest patterns p with
    | error e =>
      have visited : visit ⟨Lint.builtinRules, patterns, false⟩ fs p =
          ⟨[], fs, .error .wrongType⟩ := by
        simp only [visit, named]
      exact lintFiles_single_crash visited severity []
    | ok isManifest =>
      cases isManifest with
      | false =>
        have visited : visit ⟨Lint.builtinRules, patterns, false⟩ fs p =
            ⟨[skipNote p], fs, .ok .skipped⟩ := by
          simp only [visit, named]
        exact lintFiles_single_verdict visited severity []
      | true => exact lintFiles_manifest_ending rfl rfl named threshold []

/-- Where unsorted dependencies are an issue, fixing a file with the linter and sorting it leave all
files alike. Where warnings are listed, too, linting it and checking it end alike, in the way that
the file calls for. -/
theorem commands_agree {fs : FileSystem} {configFile : Path} {loaded : LoadedConfig}
    (reports : ReportsUnsorted fs configFile loaded) (p : Path) (severity : String) :
    (lint fs { files := [p], fix := true, configFile, severity }).fileSystem =
      (sort fs { file := p, configFile }).fileSystem ∧
    (leastRank severity ≤ Severity.warning.rank →
      (lint fs { files := [p], configFile, severity }).ending =
        (sort fs { file := p, check := true, configFile }).ending ∧
      (sort fs { file := p, check := true, configFile }).ending =
        checkEnding loaded.config.patterns fs p) := by
  refine ⟨lint_sort_fileSystem reports p severity, ?_⟩
  intro threshold
  have checked : (sort fs { file := p, check := true, configFile }).ending =
      checkEnding loaded.config.patterns fs p := sort_check_ending reports.config rfl
  exact ⟨(lint_check_ending reports p threshold).trans checked.symm, checked⟩

theorem commands_agree_unsorted :
    (lint oneManifest { files := [pom], fix := true }).fileSystem =
      (sort oneManifest { file := pom }).fileSystem ∧
    (lint oneManifest { files := [pom] }).ending = (1, none) ∧
    (sort oneManifest { file := pom, check := true }).ending = (1, none) := by
  obtain ⟨list, read, violation⟩ := Dependency.swapped_violation
  have reports : ReportsUnsorted oneManifest (Path.ofString defaultConfigFile) ⟨{}, false⟩ :=
    ⟨rfl, rfl⟩
  have accepted : Manifest.extract oneManifest pom = .ok list :=
    Manifest.extract_eq_ok_iff.2 ⟨_, read_pom, read⟩
  have unsorted : checkEnding ({} : Config).patterns oneManifest pom = (1, none) := by
    rw [checkEnding, isManifestBySetting_default, isNamed_pom rfl, manifestEnding, accepted]
    exact congrArg (·, none) (if_pos (Option.isSome_iff_ne_none.2 violation))
  obtain ⟨files, endings⟩ := commands_agree reports pom "STYLE"
  obtain ⟨same, checked⟩ := endings (by decide)
  exact ⟨files, (same.trans checked).trans unsorted, checked.trans unsorted⟩

end ManifestOrder.Command

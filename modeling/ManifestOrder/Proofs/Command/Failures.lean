import ManifestOrder.Proofs.Command.Run
import ManifestOrder.Proofs.Command.Sort
import ManifestOrder.Proofs.Manifest.Search

/-!
# Files that fail

Under the standard settings a manifest that cannot be opened or is no document does not keep the
linter from the other files, and is left as it is by both commands. One that is no text stops them.
`bad_files_survived_iff` says of both when they go on and how they end then, and `lint_breaks_off`
is a file that stops them.
-/

namespace ManifestOrder.Command

open Lint (Report)

variable {settings : LintSettings} {patterns : List String} {fs : FileSystem} {p : Path}

/-! ## The commands -/

/-- The files that a run visits. -/
def visitedFiles (patterns : List String) (fs : FileSystem) (options : LintOptions) : List Path :=
  if options.project then
    (((fs.filesBelow fs.workingFolder).filter fun location =>
      isNamed patterns ⟨.here, location⟩).mergeSort fun a b => (compare a b).isLE).map
        fs.workingPath.below
  else options.files

/-- The lines that a run starts with. -/
def startLines (fs : FileSystem) (options : LintOptions) : List String :=
  if options.project then [scanningLine fs.workingPath] else []

theorem lint_usual {options : LintOptions} {loaded : LoadedConfig}
    (config : Config.load fs options.configFile = .ok loaded)
    (set : lintSettings loaded.config options.fix = .ok settings)
    (usual : settings.Usual patterns) :
    lint fs options = lintFiles settings options.severity (startLines fs options) fs
      (visitedFiles patterns fs options) := by
  unfold lint startLines visitedFiles
  simp only [config, set]
  split
  · simp only [usual.patterns, find_texts]
    rfl
  · rfl

/-- The settings are the standard ones. -/
def UsesDefaults (fs : FileSystem) (configFile : Path) : Prop :=
  ∃ warned, Config.load fs configFile = .ok ⟨{}, warned⟩

def defaultSettings (fix : Bool) : LintSettings where
  rules := Lint.builtinRules
  patterns := defaultPatterns.map .string
  fix := fix

theorem defaultSettings_usual (fix : Bool) : (defaultSettings fix).Usual defaultPatterns :=
  ⟨rfl, rfl⟩

theorem lintSettings_default (fix : Bool) : lintSettings {} fix = .ok (defaultSettings fix) :=
  rfl

theorem lint_default {options : LintOptions} (defaults : UsesDefaults fs options.configFile) :
    lint fs options = lintFiles (defaultSettings options.fix) options.severity
      (startLines fs options) fs (visitedFiles defaultPatterns fs options) := by
  obtain ⟨warned, config⟩ := defaults
  exact lint_usual config (lintSettings_default options.fix) (defaultSettings_usual options.fix)

/-- The run on those of its files that do not fail. -/
def lintOthers (fs : FileSystem) (options : LintOptions) : Outcome :=
  (visitAll (defaultSettings options.fix) ⟨startLines fs options, fs, [], none⟩
    (others defaultPatterns fs (visitedFiles defaultPatterns fs options))).finish options.severity

/-- Where files are named, the others can be named alone. -/
theorem lint_others {options : LintOptions} (defaults : UsesDefaults fs options.configFile)
    (named : options.project = false) (some : others defaultPatterns fs options.files ≠ []) :
    lint fs { options with files := others defaultPatterns fs options.files } =
      lintOthers fs options := by
  have alone : lint fs { options with files := others defaultPatterns fs options.files } = _ :=
    lint_default defaults
  rw [alone, lintOthers]
  unfold visitedFiles startLines
  simp only [named, if_neg Bool.false_ne_true]
  exact lintFiles_of_ne_nil some _ _

theorem lint_besides {options : LintOptions} (defaults : UsesDefaults fs options.configFile)
    (some : visitedFiles defaultPatterns fs options ≠ [])
    (decodable : ∀ p ∈ visitedFiles defaultPatterns fs options,
      ¬ Undecodable defaultPatterns fs p) :
    (lint fs options).crash = none ∧
      Unharmed (failures defaultPatterns fs (visitedFiles defaultPatterns fs options))
        (lint fs options) (lintOthers fs options) := by
  have start : Besides [] ⟨startLines fs options, fs, [], none⟩
      ⟨startLines fs options, fs, [], none⟩ :=
    ⟨rfl, ⟨rfl, rfl⟩, .nothing _, .nothing _, rfl⟩
  have ends := visitAll_besides (defaultSettings_usual options.fix) decodable start (.refl fs)
  rw [lint_default defaults, lintFiles_of_ne_nil some, finish_crash]
  exact ⟨ends.crash.1, ends.finish options.severity⟩

theorem sort_failed {options : SortOptions} (defaults : UsesDefaults fs options.configFile)
    {failure : FileFailure} (failed : failure? defaultPatterns fs options.file = some failure) :
    sort fs options = sortFailed fs options.file failure := by
  obtain ⟨warned, config⟩ := defaults
  obtain ⟨named, refused⟩ := failure?_eq_some_iff.1 failed
  have setting : isManifestBySetting ({} : Config).patterns options.file = .ok true := by
    rw [isManifestBySetting_default, named]
  rw [sort_manifest config setting, sortManifest]
  simp only [sortedManifest_failed refused]

/-- Under the standard settings a run of the linter breaks off exactly when one of its manifests
cannot be decoded. Otherwise each failing manifest is counted, and the others are linted and
reported as they would be without it. Sorting a failing manifest leaves all files as they are, and
breaks off in the same case. -/
theorem bad_files_survived_iff {fs : FileSystem} {configFile : Path}
    (defaults : UsesDefaults fs configFile) :
    (∀ options : LintOptions, options.configFile = configFile →
      ((lint fs options).crash = none ↔
        ∀ p ∈ visitedFiles defaultPatterns fs options, ¬ Undecodable defaultPatterns fs p) ∧
      ((lint fs options).crash = none → visitedFiles defaultPatterns fs options ≠ [] →
        Unharmed (failures defaultPatterns fs (visitedFiles defaultPatterns fs options))
          (lint fs options) (lintOthers fs options)) ∧
      (options.project = false → others defaultPatterns fs options.files ≠ [] →
        lint fs { options with files := others defaultPatterns fs options.files } =
          lintOthers fs options)) ∧
    ∀ options : SortOptions, options.configFile = configFile →
      failure? defaultPatterns fs options.file ≠ none →
      (sort fs options).fileSystem = fs ∧
        ((sort fs options).crash = none ↔ ¬ Undecodable defaultPatterns fs options.file) ∧
        ((sort fs options).crash = none → (sort fs options).exitCode = 2) := by
  constructor
  · rintro options rfl
    have whole : (lint fs options).crash = none ↔
        ∀ p ∈ visitedFiles defaultPatterns fs options, ¬ Undecodable defaultPatterns fs p := by
      by_cases empty : visitedFiles defaultPatterns fs options = []
      · rw [lint_default defaults, empty]
        exact ⟨fun _ p member => (List.not_mem_nil member).elim, fun _ => rfl⟩
      · constructor
        · intro finished p member undecodable
          rw [lint_default defaults, lintFiles_of_ne_nil empty, finish_crash] at finished
          exact visitAll_breaks_off (defaultSettings_usual options.fix) (.refl fs)
            ⟨p, member, undecodable⟩ finished
        · intro decodable
          exact (lint_besides defaults empty decodable).1
    refine ⟨whole, ?_, lint_others defaults⟩
    intro finished some
    exact (lint_besides defaults some (whole.1 finished)).2
  · rintro options rfl fails
    obtain ⟨failure, failed⟩ := Option.ne_none_iff_exists'.1 fails
    have broken : Undecodable defaultPatterns fs options.file ↔ _ := undecodable_iff
    rw [failed] at broken
    rw [sort_failed defaults failed, broken]
    obtain ⟨cause, rfl⟩ | rfl | ⟨rfl | rfl, -⟩ := failure?_cases failed
    all_goals simp [sortFailed, Outcome.crashed]

/-! ### Three manifests, of which two fail -/

def missingManifest : Path := ⟨.here, ["missing", "pom.xml"]⟩

def brokenManifest : Path := ⟨.here, ["broken", "pom.xml"]⟩

def goodManifest : Path := ⟨.here, ["pom.xml"]⟩

/-- A malformed manifest, and one that is out of order. -/
def twoManifests : FileSystem where
  files := [(brokenManifest.components, Manifest.encode ['<']),
    (goodManifest.components, Manifest.encode Dependency.swapped)]

def threeOptions : LintOptions where
  files := [missingManifest, brokenManifest, goodManifest]
  fix := true

theorem missing_failure :
    failure? defaultPatterns twoManifests missingManifest = some (.unreadable .missing) := by
  have plain : missingManifest.hasNul = false := by simp [Path.hasNul, missingManifest]
  have absent : twoManifests.read missingManifest = .error .missing := rfl
  have unread : Manifest.read twoManifests missingManifest = .error (.unreadable .missing) := by
    rw [Manifest.read, plain, absent, if_neg Bool.false_ne_true]
  exact failure?_eq_some_iff.2 ⟨isNamed_pom rfl, Manifest.extract_eq_error_iff.2 (.inl unread)⟩

theorem broken_failure :
    failure? defaultPatterns twoManifests brokenManifest = some (.fix .malformed) := by
  have read : Manifest.read twoManifests brokenManifest = .ok ['<'] :=
    Manifest.read_eq_ok_iff.2
      ⟨by simp [Path.hasNul, brokenManifest], _, rfl, Manifest.decode?_encode _⟩
  have refused : Dependency.extract? ['<'] = none := by decide +kernel
  exact failure?_eq_some_iff.2
    ⟨isNamed_pom rfl, Manifest.extract_eq_error_iff.2 (.inr ⟨rfl, _, read, refused⟩)⟩

theorem good_failure : failure? defaultPatterns twoManifests goodManifest = none := by
  obtain ⟨list, accepted, -⟩ := Dependency.swapped_violation
  have read : Manifest.read twoManifests goodManifest = .ok Dependency.swapped :=
    Manifest.read_eq_ok_iff.2
      ⟨by simp [Path.hasNul, goodManifest], _, rfl, Manifest.decode?_encode _⟩
  have found := Manifest.extract_eq_ok_iff.2 ⟨_, read, accepted⟩
  unfold failure?
  rw [found, ite_self]

theorem bad_files_survived_iff_two : ∃ alone : Outcome,
    alone = lint twoManifests { threeOptions with files := [goodManifest] } ∧
    (lint twoManifests threeOptions).crash = none ∧
    (lint twoManifests threeOptions).exitCode = 2 ∧
    (lint twoManifests threeOptions).fileSystem = alone.fileSystem ∧
    Inserted alone.body
      [unreadableNote missingManifest .missing,
        (malformedReport brokenManifest).shown]
      (lint twoManifests threeOptions).body ∧
    (sort twoManifests { file := brokenManifest }).exitCode = 2 := by
  have defaults : UsesDefaults twoManifests threeOptions.configFile := ⟨false, rfl⟩
  obtain ⟨linted, sorted⟩ := bad_files_survived_iff defaults
  obtain ⟨whole, unharmed, named⟩ := linted threeOptions rfl
  have files : visitedFiles defaultPatterns twoManifests threeOptions =
      [missingManifest, brokenManifest, goodManifest] := rfl
  have kept : others defaultPatterns twoManifests threeOptions.files = [goodManifest] := by
    simp [others, threeOptions, missing_failure, broken_failure, good_failure]
  have failed : failures defaultPatterns twoManifests
      [missingManifest, brokenManifest, goodManifest] =
        [(missingManifest, .unreadable .missing), (brokenManifest, .fix .malformed)] := by
    simp [failures, missing_failure, broken_failure, good_failure]
  have finished : (lint twoManifests threeOptions).crash = none := by
    rw [whole, files]
    simp [undecodable_iff, missing_failure, broken_failure, good_failure]
  have same := named rfl (by simp [kept])
  rw [kept] at same
  have ends := unharmed finished (by simp [files])
  rw [files, failed, ← same] at ends
  obtain ⟨-, survives, counted⟩ := sorted { file := brokenManifest } rfl
    (by simp [broken_failure])
  refine ⟨_, rfl, finished, ends.exitCode, ends.fileSystem, ends.body, counted (survives.2 ?_)⟩
  simp [undecodable_iff, broken_failure]

/-! ### A manifest that is no text -/

/-- The file is one byte, which begins no character. -/
def noText : FileSystem where
  files := [(goodManifest.components, ⟨#[0xff]⟩)]

theorem noText_failure : failure? defaultPatterns noText goodManifest = some .notText := by
  have plain : goodManifest.hasNul = false := by simp [Path.hasNul, goodManifest]
  have found : noText.read goodManifest = .ok ⟨#[0xff]⟩ := rfl
  have broken : Manifest.decode? ⟨#[0xff]⟩ = none := by decide
  have unread : Manifest.read noText goodManifest = .error .notText := by
    rw [Manifest.read, plain, found, if_neg Bool.false_ne_true]
    simp only [broken]
  exact failure?_eq_some_iff.2 ⟨isNamed_pom rfl, Manifest.extract_eq_error_iff.2 (.inl unread)⟩

/-- Neither command survives the file. -/
theorem lint_breaks_off :
    lint noText { files := [goodManifest] } = .crashed .notText [] noText ∧
      sort noText { file := goodManifest } = .crashed .notText [] noText ∧
      (Outcome.crashed .notText [] noText).exitCode = 1 := by
  have defaults : UsesDefaults noText (Path.ofString defaultConfigFile) := ⟨false, rfl⟩
  have visited : visit (defaultSettings false) noText goodManifest =
      ⟨[], noText, .error .notText⟩ :=
    visit_failed (defaultSettings_usual false) noText_failure
  have sorting : sort noText { file := goodManifest } = sortFailed noText goodManifest .notText :=
    sort_failed defaults noText_failure
  refine ⟨?_, sorting, rfl⟩
  rw [lint_default defaults]
  simp [lintFiles, visitedFiles, startLines, visitAll, visited, Progress.finish]

end ManifestOrder.Command

import ManifestOrder.Proofs.Command.Run
import ManifestOrder.Proofs.Command.Sort

/-!
# What a run may write

A visit sorts the file that it visits, or writes nothing (`visit_sorts`), and a run makes one visit
after the other (`visitAll_sorts`). So whatever the arguments and the configuration are, and however a
run ends, it has sorted some of the files it was told to sort, and done nothing else
(`run_rearranges`).
-/

namespace ManifestOrder.Command

open Dependency (Fixed firstViolation)
open Lint (Issue)

variable {settings : LintSettings} {fs : FileSystem} {p : Path}

/-! ## What a visit writes -/

theorem sortedManifest_accepted {list : Dependency.DependencyList}
    (accepted : Manifest.extract fs p = .ok list) :
    ∃ fixed, sortedManifest fs p = .ok fixed ∧
      fixed.modified = (firstViolation Dependency.Comparator.standard list.records).isSome := by
  obtain ⟨text, found, read⟩ := Manifest.extract_eq_ok_iff.1 accepted
  obtain ⟨fixed, done, modified⟩ := Lint.fixText_modified_iff read .standard
  refine ⟨fixed, sortedManifest_eq_ok_iff.2 ⟨text, found, done⟩, ?_⟩
  rw [Bool.eq_iff_iff, modified, Option.isSome_iff_ne_none,
    Dependency.violation_iff_plan Dependency.Comparator.standard_looksAtIds read]

/-- Whatever the rules are, only documents get through the analysis. -/
theorem analyze_accepted {issues : List Issue} (named : isManifest settings.patterns p = .ok true)
    (found : analyze settings fs p = .ok issues) : ∃ list, Manifest.extract fs p = .ok list := by
  cases read : Manifest.extract fs p with
  | ok list => exact ⟨list, rfl⟩
  | error failure =>
    have refused : analyze settings fs p = .error failure := by
      unfold analyze Lint.Engine.analyzeFile
      simp only [named]
      obtain unread | ⟨rfl, text, unread, malformed⟩ := Manifest.extract_eq_error_iff.1 read
      · rw [unread]
        rfl
      · simp only [unread, Lint.Engine.analyzeText, malformed]
        rfl
    cases found.symm.trans refused

theorem Visit.failed_fileSystem (notes : List String) (fs : FileSystem) (p : Path)
    (failure : FileFailure) : (Visit.failed notes fs p failure).fileSystem = fs := by
  cases failure with
  | fix cause => cases cause <;> rfl
  | unreadable | notPath | notText | wrongType => rfl

theorem Visit.linted_fileSystem (notes : List String) (fs : FileSystem) (issues : List Issue) :
    (Visit.linted notes fs issues).fileSystem = fs := by
  unfold Visit.linted
  split <;> rfl

/-- An issue was found that sorting mends, and it is to be mended. -/
def AsksForSort (settings : LintSettings) (fs : FileSystem) (p : Path) : Prop :=
  settings.fix = true ∧
    ∃ issues, analyze settings fs p = .ok issues ∧ (issues.filter isFixable).isEmpty = false

theorem visitManifest_keeps (quiet : ¬ AsksForSort settings fs p) :
    (visitManifest settings fs p).fileSystem = fs := by
  unfold visitManifest
  split
  · exact Visit.failed_fileSystem _ _ _ _
  · rename_i issues found
    rw [if_neg]
    · exact Visit.linted_fileSystem _ _ _
    · rw [Bool.and_eq_true_iff, Bool.not_eq_true']
      rintro ⟨fixing, some⟩
      exact quiet ⟨fixing, issues, found, some⟩

/-- The fixed text is written, whatever the second analysis says then. -/
theorem visitManifest_writes {fixed : Fixed} (asks : AsksForSort settings fs p)
    (sorted : sortedManifest fs p = .ok fixed) :
    (visitManifest settings fs p).fileSystem = afterWriting fs p fixed.source := by
  obtain ⟨fixing, issues, found, some⟩ := asks
  obtain ⟨text, read, done⟩ := sortedManifest_eq_ok_iff.1 sorted
  unfold visitManifest afterWriting
  simp only [found, fixing, some, Bool.not_false, Bool.and_true, if_true,
    sortFile_eq read done (any_canFix some), Manifest.write]
  cases fs.writePath p (Manifest.encode fixed.source) with
  | error cause => exact Visit.failed_fileSystem _ _ _ _
  | ok after =>
    simp only
    split
    · exact Visit.failed_fileSystem _ _ _ _
    · exact Visit.linted_fileSystem _ _ _

theorem visit_sorts (settings : LintSettings) (fs : FileSystem) (p : Path) :
    (visit settings fs p).fileSystem = fs ∨
      settings.fix = true ∧ isManifest settings.patterns p = .ok true ∧
        ∃ location, fs.resolve p = .ok location ∧
          SortsFile fs location (visit settings fs p).fileSystem := by
  unfold visit
  split
  · exact .inl rfl
  · exact .inl rfl
  · rename_i named
    by_cases asks : AsksForSort settings fs p
    · have ⟨fixing, issues, found, _⟩ := asks
      obtain ⟨list, accepted⟩ := analyze_accepted named found
      obtain ⟨fixed, sorted, -⟩ := sortedManifest_accepted accepted
      rw [visitManifest_writes asks sorted]
      exact (afterWriting_sorts sorted).imp_right fun sorts => ⟨fixing, named, sorts⟩
    · exact .inl (visitManifest_keeps asks)

/-! ## What a run writes -/

theorem visitAll_sorts {meant : Location → Prop} {files : List Path} {progress : Progress}
    (told : settings.fix = true → ∀ p ∈ files, isManifest settings.patterns p = .ok true →
      ∀ location, fs.resolve p = .ok location → meant location)
    (sorted : SortedInPlace meant fs progress.fileSystem) :
    SortedInPlace meant fs (visitAll settings progress files).fileSystem := by
  induction files generalizing progress with
  | nil => exact sorted
  | cons p files ih =>
    have step : SortedInPlace meant fs (visit settings progress.fileSystem p).fileSystem := by
      obtain same | ⟨fixing, named, location, leads, sorts⟩ :=
        visit_sorts settings progress.fileSystem p
      · rwa [same]
      · -- Writing moves no file, so the path leads to where it led at the start.
        rw [sorted.rearranged.revised.layout.resolve] at leads
        exact .sort sorted (told fixing p List.mem_cons_self named location leads) sorts
    rw [visitAll]
    split
    · exact step
    · exact ih (fun fixing p member => told fixing p (List.mem_cons_of_mem _ member)) step

theorem lintFiles_sorts {meant : Location → Prop} {files : List Path}
    (told : settings.fix = true → ∀ p ∈ files, isManifest settings.patterns p = .ok true →
      ∀ location, fs.resolve p = .ok location → meant location)
    (severity : String) (lines : List String) :
    SortedInPlace meant fs (lintFiles settings severity lines fs files).fileSystem := by
  unfold lintFiles
  split
  · exact .nothing
  · rw [finish_fileSystem]
    exact visitAll_sorts told .nothing

/-! ## What a request asks for -/

namespace Request

def configFile : Request → Path
  | .lint options => options.configFile
  | .sort options => options.configFile

/-- The request is not for a check only. -/
def writes : Request → Bool
  | .lint options => options.fix
  | .sort options => !options.check

/-- The files that a request is about: the named ones, or those found for a whole project. -/
def subjects (fs : FileSystem) (patterns : List Toml.Value) : Request → List Path
  | .lint options =>
    if options.project then
      match Manifest.find fs fs.workingFolder patterns with
      | .error _ => []
      | .ok found => found.map fs.workingPath.below
    else options.files
  | .sort options => [options.file]

/-- The request is to sort the file at a location: it writes, and one of the files that it is about
is a manifest by the configuration and lies there. -/
structure Targets (request : Request) (fs : FileSystem) (location : Location) : Prop where
  writes : request.writes = true
  subject : ∃ loaded patterns p, Config.load fs request.configFile = .ok loaded ∧
    parts loaded.config.patterns = .ok patterns ∧ p ∈ request.subjects fs patterns ∧
    isManifest patterns p = .ok true ∧ fs.resolve p = .ok location

end Request

theorem lintSettings_eq_ok {config : Config} {fix : Bool}
    (set : lintSettings config fix = .ok settings) :
    parts config.patterns = .ok settings.patterns ∧ settings.fix = fix := by
  unfold lintSettings at set
  split at set
  · cases set
  · rename_i patterns listed
    split at set
    · cases set
    · obtain rfl := Except.ok.inj set
      exact ⟨listed, rfl⟩

theorem lint_sorts (fs : FileSystem) (options : LintOptions) :
    SortedInPlace ((Request.lint options).Targets fs) fs (lint fs options).fileSystem := by
  unfold lint
  split
  · exact .nothing
  · rename_i loaded config
    split
    · exact .nothing
    · rename_i settings set
      obtain ⟨listed, fix⟩ := lintSettings_eq_ok set
      have told : ∀ files, (Request.lint options).subjects fs settings.patterns = files →
          settings.fix = true → ∀ p ∈ files, isManifest settings.patterns p = .ok true →
            ∀ location, fs.resolve p = .ok location →
              (Request.lint options).Targets fs location := by
        rintro files rfl fixing p member named location leads
        exact ⟨fix.symm.trans fixing, loaded, settings.patterns, p, config, listed, member, named,
          leads⟩
      split
      · rename_i project
        split
        · exact .nothing
        · rename_i found search
          refine lintFiles_sorts (told _ ?_) _ _
          simp only [Request.subjects, project, if_true, search]
      · rename_i named
        refine lintFiles_sorts (told _ ?_) _ _
        rw [Request.subjects, if_neg named]

theorem isManifestBySetting_eq_ok {setting : Toml.Value} {named : Bool}
    (tested : isManifestBySetting setting p = .ok named) :
    ∃ patterns, parts setting = .ok patterns ∧ isManifest patterns p = .ok named := by
  unfold isManifestBySetting at tested
  split at tested
  · cases tested
  · rename_i patterns listed
    exact ⟨patterns, listed, tested⟩

theorem sort_sorts (fs : FileSystem) (options : SortOptions) :
    SortedInPlace ((Request.sort options).Targets fs) fs (sort fs options).fileSystem := by
  by_cases unsorted : ∃ fixed, Unsorted fs options.configFile options.file fixed
  · obtain ⟨fixed, unsorted⟩ := unsorted
    cases checking : options.check with
    | true =>
      rw [sort_check unsorted checking]
      exact .nothing
    | false =>
      rw [sort_writes unsorted checking]
      obtain same | ⟨location, leads, sorts⟩ := afterWriting_sorts unsorted.sorted
      · rw [same]
        exact .nothing
      · obtain ⟨loaded, config, setting⟩ := unsorted.named
        obtain ⟨patterns, listed, named⟩ := isManifestBySetting_eq_ok setting
        refine .sort .nothing ⟨?_, ?_⟩ sorts
        · rw [Request.writes, checking, Bool.not_false]
        · exact ⟨loaded, patterns, options.file, config, listed, List.mem_singleton_self _, named,
            leads⟩
  · rw [(sort_quiet (not_exists.1 unsorted)).1]
    exact .nothing

/-! ## Arguments -/

/-- The arguments are those of a request to sort the file at a location. -/
def AsksToSort (fs : FileSystem) (arguments : List String) (location : Location) : Prop :=
  ∃ request, parse? arguments = some request ∧ request.Targets fs location

theorem runArguments_sorts (fs : FileSystem) (arguments : List String) :
    SortedInPlace (AsksToSort fs arguments) fs (runArguments fs arguments).fileSystem := by
  unfold runArguments
  split
  · exact .nothing
  · rename_i request understood
    have asks : ∀ location, request.Targets fs location → AsksToSort fs arguments location :=
      fun location targets => ⟨request, understood, targets⟩
    cases request with
    | lint options => exact (lint_sorts fs options).weaken asks
    | sort options => exact (sort_sorts fs options).weaken asks

/-- A run only sorts manifests in place, and only those it was told to sort: a run that is only to
check changes nothing, other files stay as they are, and no file comes into being, is lost, or holds
other bytes than it held before. A file that is to be sorted and is out of order does get its fixed
text. -/
theorem run_rearranges (fs : FileSystem) (arguments : List String) :
    SortedInPlace (AsksToSort fs arguments) fs (runArguments fs arguments).fileSystem ∧
    ((∀ request, parse? arguments = some request → request.writes = false) →
      (runArguments fs arguments).fileSystem = fs) ∧
    (∀ options fixed, parse? arguments = some (.sort options) → options.check = false →
      Unsorted fs options.configFile options.file fixed →
      (runArguments fs arguments).fileSystem = afterWriting fs options.file fixed.source) ∧
    ∀ location,
      (¬ AsksToSort fs arguments location →
        (runArguments fs arguments).fileSystem.file? location = fs.file? location) ∧
      (fs.file? location = none →
        (runArguments fs arguments).fileSystem.file? location = none) ∧
      ∀ content, fs.file? location = some content →
        (∃ other, (runArguments fs arguments).fileSystem.file? location = some other ∧
          other.data.toList.Perm content.data.toList) ∧
        (Manifest.recordsIn? content = none →
          (runArguments fs arguments).fileSystem.file? location = some content) := by
  have sorted := runArguments_sorts fs arguments
  refine ⟨sorted, ?_, ?_, ?_⟩
  · intro checks
    refine sorted.eq_of_spared ?_
    rintro location ⟨request, understood, targets⟩
    cases targets.writes.symm.trans (checks request understood)
  · intro options fixed understood writing unsorted
    unfold runArguments
    rw [understood]
    exact sort_writes unsorted writing
  · intro location
    refine ⟨sorted.elsewhere, sorted.rearranged.absent, ?_⟩
    intro content held
    exact ⟨sorted.rearranged.bytes held, sorted.rearranged.revised.broken held⟩

end ManifestOrder.Command

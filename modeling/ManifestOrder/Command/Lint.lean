import ManifestOrder.Command.Arguments
import ManifestOrder.Command.Outcome
import ManifestOrder.Config
import ManifestOrder.Lint.Engine

/-!
# The lint command

Every manifest is analysed, and with `--fix` sorted and analysed again. A file that cannot be read
or is no document is counted as failed and does not stop the run. Then the reports are listed by
path and line, those below the asked severity being counted only.

The exit code is 2 when a file failed, else 1 when anything was listed, else 0.
-/

namespace ManifestOrder.Command

open Lint (Issue Report Rule Severity)
open Toml (Value)

structure LintSettings where
  rules : List Rule
  patterns : List Value
  fix : Bool

/-- What became of a file. -/
inductive Verdict where
  | skipped
  | linted (reports : List Report)
  | malformed
  | unreadable
deriving DecidableEq, Repr

def Verdict.isFailure : Verdict → Bool
  | .malformed => true
  | .unreadable => true
  | _ => false

/-- The visit of a file: what was printed meanwhile, the files after it, and the verdict. -/
structure Visit where
  notes : List String := []
  fileSystem : FileSystem
  verdict : Except Crash Verdict

/-! ## One file -/

def skipNote (p : Path) : String :=
  s!"Skipping {p}: not a Maven manifest"

def unreadableNote (p : Path) (cause : FileError) : String :=
  s!"Error: cannot read {p}: {cause.message p}"

def sortingNote (p : Path) : String :=
  s!"  🔧 Sorting dependencies in {p.name}..."

/-- The crash or the verdict that a failure on a file leads to. -/
def Visit.failed (notes : List String) (fs : FileSystem) (p : Path) : FileFailure → Visit
  | .unreadable cause => ⟨notes ++ [unreadableNote p cause], fs, .ok .unreadable⟩
  | .fix .malformed => ⟨notes, fs, .ok .malformed⟩
  | .notPath => ⟨notes, fs, .error .notPath⟩
  | .notText => ⟨notes, fs, .error .notText⟩
  | .wrongType => ⟨notes, fs, .error .wrongType⟩
  | .fix (.edit _) => ⟨notes, fs, .error .edit⟩

/-- The reports of issues, if each has a known severity. -/
def reportsOf? : List Issue → Option (List Report)
  | [] => some []
  | issue :: rest =>
    match Report.ofIssue? issue, reportsOf? rest with
    | some report, some reports => some (report :: reports)
    | _, _ => none

def Visit.linted (notes : List String) (fs : FileSystem) (issues : List Issue) : Visit :=
  match reportsOf? issues with
  | some reports => ⟨notes, fs, .ok (.linted reports)⟩
  | none => ⟨notes, fs, .error .unknownSeverity⟩

def analyze (settings : LintSettings) (fs : FileSystem) (p : Path) :
    Except FileFailure (List Issue) :=
  (Lint.Engine.analyzeFile { patterns := settings.patterns } settings.rules fs p).map Prod.fst

def isFixable (issue : Issue) : Bool :=
  issue.autoFixable && Lint.canFix issue.rule

/-- Sorts a file and writes it back. -/
def sortFile (fs : FileSystem) (p : Path) (rules : List String) : Except FileFailure FileSystem :=
  match Lint.fixedText Dependency.Comparator.standard fs p rules with
  | .error failure => .error failure
  | .ok text => Manifest.write fs p text

def visitManifest (settings : LintSettings) (fs : FileSystem) (p : Path) : Visit :=
  match analyze settings fs p with
  | .error failure => .failed [] fs p failure
  | .ok issues =>
    let fixable := issues.filter isFixable
    if settings.fix && !fixable.isEmpty then
      let notes := [sortingNote p]
      match sortFile fs p (fixable.map Issue.rule) with
      | .error failure => .failed notes fs p failure
      | .ok sorted =>
        match analyze settings sorted p with
        | .error failure => .failed notes sorted p failure
        | .ok issues => .linted notes sorted issues
    else .linted [] fs issues

def visit (settings : LintSettings) (fs : FileSystem) (p : Path) : Visit :=
  match isManifest settings.patterns p with
  | .error _ => ⟨[], fs, .error .wrongType⟩
  | .ok false => ⟨[skipNote p], fs, .ok .skipped⟩
  | .ok true => visitManifest settings fs p

/-! ## All files -/

/-- What a run has come to: its lines so far, its files, and the verdicts in order. -/
structure Progress where
  lines : List String
  fileSystem : FileSystem
  verdicts : List (Path × Verdict) := []
  crash : Option Crash := none

def visitAll (settings : LintSettings) (progress : Progress) : List Path → Progress
  | [] => progress
  | p :: rest =>
    let visited := visit settings progress.fileSystem p
    let lines := progress.lines ++ visited.notes
    match visited.verdict with
    | .error crash =>
      { progress with lines, fileSystem := visited.fileSystem, crash := some crash }
    | .ok verdict =>
      visitAll settings
        { progress with
          lines
          fileSystem := visited.fileSystem
          verdicts := progress.verdicts ++ [(p, verdict)] }
        rest

/-! ## Reports -/

/-- The syntax errors listed in the report of a malformed manifest. A parser finds them by going on
behind an error. Here reading breaks off at the first one and keeps none, so the list is left empty
and the message of the report ends where they would follow. -/
def malformedDetails : List String := []

/-- The report of a manifest that is no document. -/
def malformedReport (p : Path) : Report :=
  .ofParseError p Dependency.malformedMessage malformedDetails

@[simp] theorem malformedReport_severity (p : Path) : (malformedReport p).severity = .error := rfl

def reportsOfVerdict (p : Path) : Verdict → List Report
  | .linted reports => reports
  | .malformed => [malformedReport p]
  | _ => []

/-- The order of the listing: by path, then by line. -/
def listedBefore (a b : Report) : Bool :=
  ((compare a.path b.path).then (compare a.line b.line)).isLE

/-- The least rank that is listed. A word that names no severity counts as style. -/
def leastRank (word : String) : Nat :=
  ((Severity.ofWord? word).getD .style).rank

def totalLine (total listed : Nat) : String :=
  s!"Total issues found: {total} ({listed} reported)"

def lintExitCode (failed : Bool) (listed : Nat) : Nat :=
  if failed then 2 else if listed = 0 then 0 else 1

def Progress.finish (progress : Progress) (severity : String) : Outcome :=
  match progress.crash with
  | some crash => .crashed crash progress.lines progress.fileSystem
  | none =>
    let reports := progress.verdicts.flatMap fun (p, verdict) => reportsOfVerdict p verdict
    let listed := (reports.mergeSort listedBefore).filter fun report =>
      decide (leastRank severity ≤ report.severity.rank)
    { exitCode := lintExitCode (progress.verdicts.any fun entry => entry.2.isFailure) listed.length
      lines := progress.lines ++ listed.map Report.shown ++
        ["", totalLine reports.length listed.length]
      fileSystem := progress.fileSystem }

/-! ## The command -/

def noFilesLine : String := "Error: Provide files or use --project"

def scanningLine (folder : Path) : String :=
  s!"Scanning project at {folder}..."

def lintFiles (settings : LintSettings) (severity : String) (lines : List String)
    (fs : FileSystem) (files : List Path) : Outcome :=
  if files.isEmpty then { exitCode := 1, lines := lines ++ [noFilesLine], fileSystem := fs }
  else (visitAll settings ⟨lines, fs, [], none⟩ files).finish severity

/-- The settings of a run: the patterns of the configuration, and the rules it enables. -/
def lintSettings (config : Config) (fix : Bool) : Except WrongType LintSettings :=
  match parts config.patterns with
  | .error e => .error e
  | .ok patterns =>
    match enabled config.select config.ignore Rule.id Lint.builtinRules with
    | .error e => .error e
    | .ok rules => .ok { rules, patterns, fix }

def crashOfConfig : ConfigError → Crash
  | .file cause => .file cause
  | .notText => .notText
  | .numberTooLong => .numberTooLong
  | .notTable => .notTable

def lint (fs : FileSystem) (options : LintOptions) : Outcome :=
  match Config.load fs options.configFile with
  | .error e => .crashed (crashOfConfig e) [] fs
  | .ok loaded =>
    match lintSettings loaded.config options.fix with
    | .error _ => .crashed .wrongType [] fs
    | .ok settings =>
      if options.project then
        let lines := [scanningLine fs.workingPath]
        match Manifest.find fs fs.workingFolder settings.patterns with
        | .error _ => .crashed .wrongType lines fs
        | .ok found =>
          lintFiles settings options.severity lines fs (found.map fs.workingPath.below)
      else lintFiles settings options.severity [] fs options.files

end ManifestOrder.Command

import ManifestOrder.Command.Lint

/-!
# The sort command

Sorts one manifest in place, or with `--check` says whether that would change it. The exit code is 2
when the file cannot be read or is no document, and 1 when a check finds it unsorted.
-/

namespace ManifestOrder.Command

open Dependency (Fixed)

def alreadySortedLine (p : Path) : String :=
  s!"{p}: dependencies already sorted"

def wouldSortLine (p : Path) (count : Nat) : String :=
  s!"{p}: dependencies would be reordered ({count} entries)"

def sortedLine (p : Path) (count : Nat) : String :=
  s!"{p}: sorted dependencies ({count} entries moved)"

def malformedLine (p : Path) : String :=
  s!"ERROR: {p}: {Dependency.malformedMessage}"

/-- The end of a run on a file that cannot be sorted. -/
def sortFailed (fs : FileSystem) (p : Path) : FileFailure → Outcome
  | .unreadable cause => { exitCode := 2, lines := [unreadableNote p cause], fileSystem := fs }
  | .fix .malformed => { exitCode := 2, lines := [malformedLine p], fileSystem := fs }
  | .notPath => .crashed .notPath [] fs
  | .notText => .crashed .notText [] fs
  | .wrongType => .crashed .wrongType [] fs
  | .fix (.edit _) => .crashed .edit [] fs

/-- The sorted text of a file. -/
def sortedManifest (fs : FileSystem) (p : Path) : Except FileFailure Fixed :=
  match Manifest.read fs p with
  | .error failure => .error failure
  | .ok text =>
    match Dependency.fixText Dependency.Comparator.standard text with
    | .error e => .error (.fix e)
    | .ok fixed => .ok fixed

def sortManifest (fs : FileSystem) (p : Path) (check : Bool) : Outcome :=
  match sortedManifest fs p with
  | .error failure => sortFailed fs p failure
  | .ok fixed =>
    if !fixed.modified then { exitCode := 0, lines := [alreadySortedLine p], fileSystem := fs }
    else if check then
      { exitCode := 1, lines := [wouldSortLine p fixed.replacements], fileSystem := fs }
    else
      match fs.writePath p (Manifest.encode fixed.source) with
      | .error cause => .crashed (.file cause) [] fs
      | .ok written =>
        { exitCode := 0, lines := [sortedLine p fixed.replacements], fileSystem := written }

/-- Whether a file is a manifest by a setting of any kind. -/
def isManifestBySetting (patterns : Toml.Value) (p : Path) : Except WrongType Bool :=
  match parts patterns with
  | .error e => .error e
  | .ok patterns => isManifest patterns p

def sort (fs : FileSystem) (options : SortOptions) : Outcome :=
  match Config.load fs options.configFile with
  | .error e => .crashed (crashOfConfig e) [] fs
  | .ok loaded =>
    match isManifestBySetting loaded.config.patterns options.file with
    | .error _ => .crashed .wrongType [] fs
    | .ok false => { exitCode := 0, lines := [skipNote options.file], fileSystem := fs }
    | .ok true => sortManifest fs options.file options.check

/-- Runs a request on files. -/
def run (fs : FileSystem) : Request → Outcome
  | .lint options => lint fs options
  | .sort options => sort fs options

/-- Runs a list of arguments. One that cannot be understood changes and prints nothing. -/
def runArguments (fs : FileSystem) (arguments : List String) : Outcome :=
  match parse? arguments with
  | none => { exitCode := 2, fileSystem := fs }
  | some request => run fs request

end ManifestOrder.Command

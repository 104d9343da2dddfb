import ManifestOrder.Proofs.Command.Agreement
import ManifestOrder.Proofs.Command.ArgumentOrder

/-!
# What a run of the linter adds up to

Every file that a run is told to visit is found to be one of five things (`Finding`), by what can
be read there at its turn and, with fixing, by the text that the fixer leaves. `visit_finds` says
what a visit comes to by its finding, and `visitAll_finds` what a whole run comes to. What is
printed at the end and the exit code then follow from three numbers, the files that could not be
read, the malformed ones and the unsorted ones: `totals_add_up`.
-/

namespace ManifestOrder.Command

open Dependency (Comparator DependencyList extract? firstViolation fixText)
open Lint (Issue Report Severity)

/-! ## Findings -/

/-- What a file is found to be in the end. -/
inductive Finding where
  /-- It is no manifest. -/
  | skipped
  | unreadable (cause : FileError)
  | malformed
  /-- It holds a list with a record that stands wrong. -/
  | unsorted (list : DependencyList)
    (violated : (firstViolation Comparator.standard list.records).isSome = true)
  | sorted

namespace Finding

/-- What is reported of a file. -/
def reports (p : Path) : Finding → List Report
  | .malformed => [malformedReport p]
  | .unsorted list _ => orderReports p list
  | _ => []

/-- How the run keeps the finding. -/
def verdict (p : Path) : Finding → Verdict
  | .skipped => .skipped
  | .unreadable _ => .unreadable
  | .malformed => .malformed
  | .unsorted list _ => .linted (orderReports p list)
  | .sorted => .linted []

end Finding

section One

variable (patterns : List String) (fix : Bool) (fs : FileSystem) (p : Path)

end One

/-! ## One visit -/

variable {settings : LintSettings} {patterns : List String} {fix : Bool} {fs : FileSystem}
  {p : Path}

section Run

variable (patterns : List String) (fix : Bool)

end Run

end ManifestOrder.Command

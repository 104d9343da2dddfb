import ManifestOrder.Dependency.Order
import ManifestOrder.Lint.Issue

/-!
# Rules

A rule checks the dependency records of a file. The one built-in rule finds a list that is not in
order, and names the first entry that stands behind one it belongs before.
-/

namespace ManifestOrder.Lint

open Dependency (Comparator DependencyList Record)

structure Rule where
  id : String
  name : String
  severity : Severity
  autoFixable : Bool := false
  description : String := ""
  messageKey : Option String := none
  check : Path → DependencyList → List Issue

def unsortedId : String := "unsorted-dependencies"

def unsortedKey : String := "inspection.unsorted.dependencies.name"

def unsortedMessage (previous current : Record) : String :=
  s!"Dependencies are not sorted: '{current.coordinates}' (line {current.line}) " ++
    s!"should come before '{previous.coordinates}'"

/-- The issue about the entry at an index, which is out of order. -/
def unsortedIssue (p : Path) (list : DependencyList) (index : Nat) : Issue where
  path := p
  line := list.containerLine
  rule := unsortedId
  message := unsortedMessage (list.records.getD (index - 1) {}) (list.records.getD index {})
  severity := Severity.warning.word
  autoFixable := true
  context := some (toString index)
  messageKey := some unsortedKey

def checkOrder (cmp : Comparator) (p : Path) (list : DependencyList) : List Issue :=
  match Dependency.firstViolation cmp list.records with
  | none => []
  | some index => [unsortedIssue p list index]

def unsortedRule (cmp : Comparator) : Rule where
  id := unsortedId
  name := "Unsorted dependencies"
  severity := .warning
  autoFixable := true
  description := "Dependencies should be declared in order of groupId, then artifactId."
  messageKey := some unsortedKey
  check := checkOrder cmp

/-- The rules that are there from the start. -/
def builtinRules : List Rule := [unsortedRule Comparator.standard]

end ManifestOrder.Lint

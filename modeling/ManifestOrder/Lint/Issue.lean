import ManifestOrder.Path
import ManifestOrder.Text.Character

/-!
# Issues and reports

An issue is what a rule finds in a file. A report is an issue as it is shown to the user: its
severity is one of four, and it says what can be done about it.
-/

namespace ManifestOrder.Lint

inductive Severity where
  | error
  | warning
  | style
  | info
deriving DecidableEq, Repr

namespace Severity

/-- How rules write a severity. -/
def word : Severity → String
  | .error => "error"
  | .warning => "warning"
  | .style => "style"
  | .info => "info"

/-- How reports write a severity. -/
def label : Severity → String
  | .error => "ERROR"
  | .warning => "WARNING"
  | .style => "STYLE"
  | .info => "INFO"

def all : List Severity := [.error, .warning, .style, .info]

/-- The severity that a word names, in any case. -/
def ofWord? (word : String) : Option Severity :=
  all.find? fun severity => severity.label = Text.capitals word

def rank : Severity → Nat
  | .error => 3
  | .warning => 2
  | .style => 1
  | .info => 0

end Severity

structure Issue where
  path : Path
  line : Int
  rule : String
  message : String
  severity : String
  autoFixable : Bool
  context : Option String := none
  messageKey : Option String := none
deriving DecidableEq, Repr

structure Report where
  severity : Severity
  path : String
  line : Int
  /-- Reports name no column. -/
  column : Int := 0
  rule : String
  message : String
  messageKey : Option String := none
  suggestion : Option String := none
  autoFixable : Bool := false
deriving DecidableEq, Repr

namespace Report

def fixSuggestion : String := "Run with --fix to sort dependencies"

def parseErrorRule : String := "parse-error"

/-- The report of an issue; `none` when its severity is not one of the four. -/
def ofIssue? (issue : Issue) : Option Report :=
  (Severity.ofWord? issue.severity).map fun severity =>
    { severity
      path := toString issue.path
      line := issue.line
      rule := issue.rule
      message := issue.message
      messageKey := issue.messageKey
      suggestion := if issue.autoFixable then some fixSuggestion else none
      autoFixable := issue.autoFixable }

/-- How many details of a parse error are shown. -/
def shownDetails : Nat := 3

/-- The report of a text that is no document. -/
def ofParseError (p : Path) (message : String) (details : List String) : Report :=
  let detail := "; ".intercalate (details.take shownDetails)
  { severity := .error
    path := toString p
    line := 0
    rule := parseErrorRule
    message := if detail = "" then message else message ++ ": " ++ detail }

/-- The line printed for a report. -/
def shown (r : Report) : String :=
  s!"{r.severity.label}: {r.path}:{r.line} [{r.rule}] - {r.message}"

end Report

end ManifestOrder.Lint

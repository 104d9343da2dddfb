import ManifestOrder.Lint.Rule
import ManifestOrder.Config
import ManifestOrder.Manifest

/-!
# Analysing manifests

Rules are run on a manifest one after the other. What they find is listed by line; issues of one
line stay in the order of their rules. The engine remembers what was found last, in the order in
which it was found, and forgets it only when a further text has been analysed.
-/

namespace ManifestOrder.Lint

open Dependency (DependencyList)

def byLine (issues : List Issue) : List Issue :=
  issues.mergeSort fun a b => decide (a.line ≤ b.line)

def runRules (rules : List Rule) (p : Path) (list : DependencyList) : List Issue :=
  rules.flatMap fun rule => rule.check p list

structure Engine where
  rules : List Rule := builtinRules
  patterns : List Toml.Value := defaultPatterns.map .string
  issues : List Issue := []

namespace Engine

/-- Runs rules on a text. What they find is remembered. -/
def analyzeText (e : Engine) (rules : List Rule) (p : Path) (text : List Char) :
    Except FileFailure (List Issue × Engine) :=
  match Dependency.extract? text with
  | none => .error (.fix .malformed)
  | some list =>
    let issues := runRules rules p list
    .ok (byLine issues, { e with issues })

/-- Runs rules on a file. Nothing is found in a file that is no manifest. -/
def analyzeFile (e : Engine) (rules : List Rule) (fs : FileSystem) (p : Path) :
    Except FileFailure (List Issue × Engine) :=
  match isManifest e.patterns p with
  | .error _ => .error .wrongType
  | .ok false => .ok ([], e)
  | .ok true =>
    match Manifest.read fs p with
    | .error failure => .error failure
    | .ok text => e.analyzeText rules p text

end Engine

/-! ## Fixing -/

/-- The rule has issues that sorting mends. -/
def canFix (rule : String) : Bool :=
  rule == unsortedId

/-- The text of a file, sorted if one of the rules with issues asks for it. -/
def fixedText (cmp : Dependency.Comparator) (fs : FileSystem) (p : Path) (rules : List String) :
    Except FileFailure (List Char) :=
  match Manifest.read fs p with
  | .error failure => .error failure
  | .ok text =>
    if rules.any canFix then
      match Dependency.fixText cmp text with
      | .error e => .error (.fix e)
      | .ok fixed => .ok fixed.source
    else .ok text

end ManifestOrder.Lint

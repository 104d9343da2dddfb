import ManifestOrder.Proofs.Lint.Agreement
import ManifestOrder.Proofs.Manifest
import ManifestOrder.Command.Lint

/-!
# Visiting a file

Under usual settings a visit to a file that is no manifest, or to one that holds a document, ends
with a verdict, and if the file is written at all, then with text (`visit_decodable`). A manifest
that holds no document fails and is left as it is (`visit_failed`). The failure is handled unless
it is one in decoding: then the run breaks off (`visit_undecodable`).
-/

namespace ManifestOrder

open Lint (Issue Report checkOrder)

theorem isNamed_pom (named : p.name = "pom.xml") : isNamed defaultPatterns p = true := by
  simp [isNamed, defaultPatterns, named, Glob.accepts, Glob.items, Glob.itemsMatch_single_cons,
    Glob.Item.admits]

namespace Command

/-! ## Reports -/

theorem reportsOf?_known {issues : List Issue}
    (known : ∀ issue ∈ issues, (Lint.Severity.ofWord? issue.severity).isSome = true) :
    reportsOf? issues = some (issues.filterMap Report.ofIssue?) := by
  induction issues with
  | nil => rfl
  | cons issue issues ih =>
    obtain ⟨first, others⟩ := List.forall_mem_cons.1 known
    obtain ⟨severity, named⟩ := Option.isSome_iff_exists.1 first
    have shown : ∃ report, Report.ofIssue? issue = some report := by
      rw [Report.ofIssue?, named]
      exact ⟨_, rfl⟩
    obtain ⟨report, made⟩ := shown
    simp [reportsOf?, made, ih others]

/-- What is reported of a list. -/
def orderReports (p : Path) (list : Dependency.DependencyList) : List Report :=
  (checkOrder .standard p list).filterMap Report.ofIssue?

theorem orderReports_sorted {p : Path} {list : Dependency.DependencyList}
    (sorted : Dependency.firstViolation Dependency.Comparator.standard list.records = none) :
    orderReports p list = [] := by
  rw [orderReports, Lint.checkOrder_eq_nil_iff.2 sorted, List.filterMap_nil]

/-- A list that is out of order has one report, a warning. -/
theorem orderReports_unsorted (p : Path) {list : Dependency.DependencyList}
    (violated :
      (Dependency.firstViolation Dependency.Comparator.standard list.records).isSome = true) :
    ∃ report, orderReports p list = [report] ∧ report.severity = .warning := by
  obtain ⟨index, violation⟩ := Option.isSome_iff_exists.1 violated
  have warns : Lint.Severity.ofWord? (Lint.unsortedIssue p list index).severity =
      some .warning := by
    show Lint.Severity.ofWord? Lint.Severity.warning.word = some .warning
    decide
  simp [orderReports, checkOrder, violation, Report.ofIssue?, warns]

theorem linted_checkOrder (notes : List String) (fs : FileSystem) (p : Path)
    (list : Dependency.DependencyList) :
    Visit.linted notes fs (checkOrder .standard p list) =
      ⟨notes, fs, .ok (.linted (orderReports p list))⟩ := by
  have known : ∀ issue ∈ checkOrder .standard p list,
      (Lint.Severity.ofWord? issue.severity).isSome = true := by
    intro issue found
    unfold checkOrder at found
    split at found
    · cases found
    · obtain rfl := List.mem_singleton.1 found
      show (Lint.Severity.ofWord? Lint.Severity.warning.word).isSome = true
      decide
  unfold Visit.linted
  simp only [reportsOf?_known known, orderReports]

/-! ## Usual settings -/

/-- The patterns are texts, and the rules are those that are there from the start. -/
structure LintSettings.Usual (settings : LintSettings) (patterns : List String) : Prop where
  rules : settings.rules = Lint.builtinRules
  patterns : settings.patterns = patterns.map .string

variable {settings : LintSettings} {patterns : List String} {fs : FileSystem} {p : Path}

/-- What the built-in rules find in a manifest, whatever the patterns are that it matches. -/
theorem analyze_builtin (rules : settings.rules = Lint.builtinRules)
    (named : isManifest settings.patterns p = .ok true) :
    analyze settings fs p = (Manifest.extract fs p).map (checkOrder .standard p) := by
  unfold analyze Lint.Engine.analyzeFile Manifest.extract
  simp only [rules, named]
  cases Manifest.read fs p with
  | error failure => rfl
  | ok text =>
    cases accepted : Dependency.extract? text with
    | none => simp [Lint.Engine.analyzeText, accepted, Except.map]
    | some list => simp [Lint.analyzeText_builtin accepted, accepted, Except.map]

theorem analyze_usual (usual : settings.Usual patterns) (named : isNamed patterns p = true) :
    analyze settings fs p = (Manifest.extract fs p).map (checkOrder .standard p) := by
  refine analyze_builtin usual.rules ?_
  rw [usual.patterns, isManifest_texts, named]

theorem any_canFix {issues : List Issue} (some : (issues.filter isFixable).isEmpty = false) :
    ((issues.filter isFixable).map Issue.rule).any Lint.canFix = true := by
  obtain ⟨issue, member⟩ := List.exists_mem_of_ne_nil _ (List.isEmpty_eq_false_iff.1 some)
  have fixable : isFixable issue = true := (List.mem_filter.1 member).2
  exact List.any_eq_true.2
    ⟨issue.rule, List.mem_map_of_mem member, (Bool.and_eq_true_iff.1 fixable).2⟩

theorem sortFile_eq {rules : List String} {text : List Char} {fixed : Dependency.Fixed}
    (found : Manifest.read fs p = .ok text) (done : Dependency.fixText .standard text = .ok fixed)
    (asked : rules.any Lint.canFix = true) :
    sortFile fs p rules = Manifest.write fs p fixed.source := by
  unfold sortFile Lint.fixedText
  simp only [found, asked, if_true, done]

/-- Sorting a file that holds a document fails only if it cannot be opened for writing. -/
theorem sortFile_accepted {rules : List String} {list : Dependency.DependencyList}
    (accepted : Manifest.extract fs p = .ok list) (asked : rules.any Lint.canFix = true) :
    (∃ cause, sortFile fs p rules = .error (.unreadable cause)) ∨
      ∃ after text, sortFile fs p rules = .ok after ∧ Revised fs after ∧
        Manifest.read after p = .ok text := by
  obtain ⟨text, found, read⟩ := Manifest.extract_eq_ok_iff.1 accepted
  obtain ⟨fixed, done, -⟩ := Lint.fixText_modified_iff read .standard
  rw [sortFile_eq found done asked]
  cases written : Manifest.write fs p fixed.source with
  | error failure =>
    left
    unfold Manifest.write at written
    split at written
    · rename_i cause _
      exact ⟨cause, by rw [Except.error.inj written]⟩
    · cases written
  | ok after =>
    obtain ⟨revised, reread⟩ := Revised.write found read written
    exact .inr ⟨after, fixed.source, rfl, revised, reread⟩

/-! ## Files that fail -/

/-- Why a manifest cannot be linted, if it cannot. -/
def failure? (patterns : List String) (fs : FileSystem) (p : Path) : Option FileFailure :=
  if isNamed patterns p then
    match Manifest.extract fs p with
    | .error failure => some failure
    | .ok _ => none
  else none

/-- What the manifest holds is no text, or its path cannot be asked for. -/
def Undecodable (patterns : List String) (fs : FileSystem) (p : Path) : Prop :=
  isNamed patterns p = true ∧
    (Manifest.read fs p = .error .notText ∨ Manifest.read fs p = .error .notPath)

theorem failure?_eq_some_iff {failure : FileFailure} :
    failure? patterns fs p = some failure ↔
      isNamed patterns p = true ∧ Manifest.extract fs p = .error failure := by
  unfold failure?
  split
  · rename_i named
    split
    · rename_i e refused
      simp [named, refused]
    · rename_i list accepted
      simp [accepted]
  · rename_i other
    simp [other]

/-- A failure that no visit handles is one in decoding. -/
theorem failure?_cases {failure : FileFailure} (failed : failure? patterns fs p = some failure) :
    (∃ cause, failure = .unreadable cause) ∨ failure = .fix .malformed ∨
      (failure = .notText ∨ failure = .notPath) ∧ Undecodable patterns fs p := by
  obtain ⟨named, refused⟩ := failure?_eq_some_iff.1 failed
  obtain unread | ⟨malformed, -⟩ := Manifest.extract_eq_error_iff.1 refused
  · obtain cause | rfl | rfl := Manifest.read_error unread
    · exact .inl cause
    · exact .inr (.inr ⟨.inr rfl, named, .inr unread⟩)
    · exact .inr (.inr ⟨.inl rfl, named, .inl unread⟩)
  · exact .inr (.inl malformed)

theorem undecodable_iff : Undecodable patterns fs p ↔
    failure? patterns fs p = some .notText ∨ failure? patterns fs p = some .notPath := by
  have kept : ∀ {failure : FileFailure}, failure ≠ .fix .malformed →
      (Manifest.extract fs p = .error failure ↔ Manifest.read fs p = .error failure) := by
    intro failure other
    rw [Manifest.extract_eq_error_iff]
    simp [other]
  rw [failure?_eq_some_iff, failure?_eq_some_iff, kept (by simp), kept (by simp), ← and_or_left,
    Undecodable]

theorem failure?_revised {after : FileSystem} (revised : Revised fs after) {failure : FileFailure}
    (failed : failure? patterns fs p = some failure) :
    failure? patterns after p = some failure := by
  rw [failure?_eq_some_iff] at failed ⊢
  exact failed.imp_right revised.extract_error

theorem undecodable_revised {after : FileSystem} (revised : Revised fs after) :
    Undecodable patterns after p ↔ Undecodable patterns fs p := by
  unfold Undecodable
  rw [revised.read_error, revised.read_error]

/-! ## The outcome of a visit -/

theorem visit_manifest (named : isManifest settings.patterns p = .ok true) :
    visit settings fs p = visitManifest settings fs p := by
  unfold visit
  simp only [named]

theorem visit_named (usual : settings.Usual patterns) (named : isNamed patterns p = true) :
    visit settings fs p = visitManifest settings fs p := by
  refine visit_manifest ?_
  rw [usual.patterns, isManifest_texts, named]

theorem visit_failed (usual : settings.Usual patterns) {failure : FileFailure}
    (failed : failure? patterns fs p = some failure) :
    visit settings fs p = .failed [] fs p failure := by
  obtain ⟨named, refused⟩ := failure?_eq_some_iff.1 failed
  rw [visit_named usual named, visitManifest, analyze_usual usual named, refused]
  rfl

/-- A manifest that holds a document gets a verdict. -/
theorem visit_accepted (usual : settings.Usual patterns) (named : isNamed patterns p = true)
    {list : Dependency.DependencyList} (accepted : Manifest.extract fs p = .ok list) :
    ∃ notes after verdict, visit settings fs p = ⟨notes, after, .ok verdict⟩ ∧
      Revised fs after := by
  rw [visit_named usual named, visitManifest, analyze_usual usual named, accepted]
  simp only [Except.map]
  split
  · rename_i fixing
    rw [Bool.and_eq_true_iff, Bool.not_eq_true'] at fixing
    obtain ⟨cause, failed⟩ | ⟨after, text, done, revised, found⟩ :=
      sortFile_accepted accepted (any_canFix fixing.2)
    · rw [failed]
      exact ⟨_, _, _, rfl, .refl fs⟩
    · rw [done]
      simp only [analyze_usual usual named]
      cases again : Manifest.extract after p with
      | ok list =>
        simp only [Except.map, linted_checkOrder]
        exact ⟨_, _, _, rfl, revised⟩
      | error failure =>
        -- What was written is text, so all that can be wrong with it is its form.
        obtain unread | ⟨rfl, -⟩ := Manifest.extract_eq_error_iff.1 again
        · cases found.symm.trans unread
        · exact ⟨_, _, _, rfl, revised⟩
  · rw [linted_checkOrder]
    exact ⟨_, _, _, rfl, .refl fs⟩

theorem visit_decodable (usual : settings.Usual patterns)
    (decodable : ¬ Undecodable patterns fs p) :
    ∃ notes after verdict, visit settings fs p = ⟨notes, after, .ok verdict⟩ ∧
      Revised fs after := by
  by_cases named : isNamed patterns p = true
  · cases read : Manifest.extract fs p with
    | ok list => exact visit_accepted usual named read
    | error failure =>
      have failed := failure?_eq_some_iff.2 ⟨named, read⟩
      rw [visit_failed usual failed]
      obtain ⟨cause, rfl⟩ | rfl | ⟨-, undecodable⟩ := failure?_cases failed
      · exact ⟨_, _, _, rfl, .refl fs⟩
      · exact ⟨_, _, _, rfl, .refl fs⟩
      · exact absurd undecodable decodable
  · rw [Bool.not_eq_true] at named
    unfold visit
    simp only [usual.patterns, isManifest_texts, named]
    exact ⟨_, _, _, rfl, .refl fs⟩

theorem visit_undecodable (usual : settings.Usual patterns)
    (undecodable : Undecodable patterns fs p) :
    ∃ crash, visit settings fs p = ⟨[], fs, .error crash⟩ := by
  obtain failed | failed := undecodable_iff.1 undecodable
  · exact ⟨.notText, visit_failed usual failed⟩
  · exact ⟨.notPath, visit_failed usual failed⟩

end Command

end ManifestOrder

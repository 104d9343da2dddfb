import ManifestOrder.Proofs.Command.Visit

/-!
# Runs of the linter

A run is compared with the run on those files that do not fail (`visitAll_besides`). A file that
fails writes nothing, so every other file is found as it would be without it. What a failing file
adds is one line of its own and the exit code 2 (`Besides.finish`). Only a manifest that cannot be
decoded breaks a run off, wherever it stands (`visitAll_breaks_off`).
-/

namespace ManifestOrder

/-! ## Entries put in -/

/-- `whole` is `part` with `more` put in, at any places and in any order. -/
structure Inserted {α : Type} (part more whole : List α) : Prop where
  sublist : part.Sublist whole
  perm : whole.Perm (part ++ more)

namespace Inserted
variable {α β : Type} {part more whole part' more' whole' : List α}

theorem nothing (entries : List α) : Inserted entries [] entries :=
  ⟨List.Sublist.refl _, by rw [List.append_nil]⟩

theorem atEnd (part more : List α) : Inserted part more (part ++ more) :=
  ⟨List.sublist_append_left _ _, .refl _⟩

theorem perm_more (inserted : Inserted part more whole) (same : more.Perm more') :
    Inserted part more' whole :=
  ⟨inserted.sublist, inserted.perm.trans (same.append_left part)⟩

theorem append (first : Inserted part more whole) (second : Inserted part' more' whole') :
    Inserted (part ++ part') (more ++ more') (whole ++ whole') := by
  refine ⟨first.sublist.append second.sublist, (first.perm.append second.perm).trans ?_⟩
  rw [List.append_assoc, List.append_assoc]
  refine List.Perm.append_left part ?_
  rw [← List.append_assoc, ← List.append_assoc]
  exact List.perm_append_comm.append_right more'

theorem map (inserted : Inserted part more whole) (f : α → β) :
    Inserted (part.map f) (more.map f) (whole.map f) :=
  ⟨inserted.sublist.map f, by rw [← List.map_append]; exact inserted.perm.map f⟩

theorem filter (inserted : Inserted part more whole) (p : α → Bool) :
    Inserted (part.filter p) (more.filter p) (whole.filter p) :=
  ⟨inserted.sublist.filter p, by rw [← List.filter_append]; exact inserted.perm.filter p⟩

theorem stableSort (inserted : Inserted part more whole) (cmp : α → α → Ordering)
    [Std.TransCmp cmp] :
    Inserted (Dependency.stableSort cmp part) more (Dependency.stableSort cmp whole) := by
  refine ⟨Dependency.stableSort_sublist inserted.sublist, ?_⟩
  have sorted := Dependency.stableSort_perm cmp part
  exact (Dependency.stableSort_perm cmp whole).trans
    (inserted.perm.trans (sorted.symm.append_right more))

end Inserted

namespace Command

open Lint (Report Severity)

variable {settings : LintSettings} {patterns : List String} {fs : FileSystem} {p : Path}

/-! ## What failing files add to a run -/

/-- The files that fail, and why. -/
def failures (patterns : List String) (fs : FileSystem) (files : List Path) :
    List (Path × FileFailure) :=
  files.filterMap fun p => (failure? patterns fs p).map fun failure => (p, failure)

/-- The files that do not fail. -/
def others (patterns : List String) (fs : FileSystem) (files : List Path) : List Path :=
  files.filter fun p => (failure? patterns fs p).isNone

def failureNotes : Path × FileFailure → List String
  | (p, .unreadable cause) => [unreadableNote p cause]
  | _ => []

def failureReports : Path × FileFailure → List Report
  | (_, .unreadable _) => []
  | (p, _) => [malformedReport p]

/-- The line printed about a file that fails. -/
def failureLine : Path × FileFailure → String
  | (p, .unreadable cause) => unreadableNote p cause
  | (p, _) => (malformedReport p).shown

theorem failureLines_perm (failed : List (Path × FileFailure)) :
    (failed.flatMap failureNotes ++ (failed.flatMap failureReports).map Report.shown).Perm
      (failed.map failureLine) := by
  induction failed with
  | nil => exact .nil
  | cons entry failed ih =>
    obtain ⟨p, failure⟩ := entry
    rw [List.flatMap_cons, List.flatMap_cons, List.map_cons, List.map_append, List.append_assoc]
    cases failure with
    | unreadable cause => exact ih.cons _
    | notPath | notText | wrongType | fix => exact List.perm_middle.trans (ih.cons _)

theorem visit_failing (usual : settings.Usual patterns) (decodable : ¬ Undecodable patterns fs p)
    {failure : FileFailure} (failed : failure? patterns fs p = some failure) :
    ∃ verdict, visit settings fs p = ⟨failureNotes (p, failure), fs, .ok verdict⟩ ∧
      verdict.isFailure = true ∧ reportsOfVerdict p verdict = failureReports (p, failure) := by
  rw [visit_failed usual failed]
  obtain ⟨cause, rfl⟩ | rfl | ⟨-, undecodable⟩ := failure?_cases failed
  · exact ⟨.unreadable, rfl, rfl, rfl⟩
  · exact ⟨.malformed, rfl, rfl, rfl⟩
  · exact absurd undecodable decodable

/-! ## Visiting all files -/

def Progress.reports (progress : Progress) : List Report :=
  progress.verdicts.flatMap fun (p, verdict) => reportsOfVerdict p verdict

def Progress.hasFailure (progress : Progress) : Bool :=
  progress.verdicts.any fun entry => entry.2.isFailure

/-- What the run has come to after one more file. -/
def Progress.record (progress : Progress) (p : Path) (notes : List String) (after : FileSystem)
    (verdict : Verdict) : Progress :=
  { progress with
    lines := progress.lines ++ notes
    fileSystem := after
    verdicts := progress.verdicts ++ [(p, verdict)] }

theorem Progress.record_reports (progress : Progress) (p : Path) (notes : List String)
    (after : FileSystem) (verdict : Verdict) :
    (progress.record p notes after verdict).reports =
      progress.reports ++ reportsOfVerdict p verdict := by
  rw [reports, record, List.flatMap_append, List.flatMap_singleton]
  rfl

theorem Progress.record_hasFailure (progress : Progress) (p : Path) (notes : List String)
    (after : FileSystem) (verdict : Verdict) :
    (progress.record p notes after verdict).hasFailure =
      (progress.hasFailure || verdict.isFailure) := by
  simp [hasFailure, record]

theorem visitAll_cons {progress : Progress} {notes : List String} {after : FileSystem}
    {verdict : Verdict}
    (visited : visit settings progress.fileSystem p = ⟨notes, after, .ok verdict⟩)
    (rest : List Path) :
    visitAll settings progress (p :: rest) =
      visitAll settings (progress.record p notes after verdict) rest := by
  rw [visitAll, visited]
  rfl

theorem visitAll_cons_error {progress : Progress} {notes : List String} {after : FileSystem}
    {crash : Crash}
    (visited : visit settings progress.fileSystem p = ⟨notes, after, .error crash⟩)
    (rest : List Path) :
    (visitAll settings progress (p :: rest)).crash = some crash := by
  rw [visitAll, visited]

/-- A manifest that cannot be decoded breaks the run off, wherever it stands. -/
theorem visitAll_breaks_off (usual : settings.Usual patterns) {files : List Path}
    {progress : Progress} (revised : Revised fs progress.fileSystem)
    (present : ∃ p ∈ files, Undecodable patterns fs p) :
    (visitAll settings progress files).crash ≠ none := by
  induction files generalizing progress with
  | nil =>
    obtain ⟨p, member, -⟩ := present
    cases member
  | cons first rest ih =>
    by_cases undecodable : Undecodable patterns fs first
    · obtain ⟨crash, visited⟩ :=
        visit_undecodable usual ((undecodable_revised revised).2 undecodable)
      rw [visitAll_cons_error visited]
      simp
    · obtain ⟨notes, after, verdict, visited, written⟩ := visit_decodable usual
        (mt (undecodable_revised revised).1 undecodable)
      rw [visitAll_cons visited]
      refine ih (revised.trans written) ?_
      obtain ⟨p, member, bad⟩ := present
      rcases List.mem_cons.1 member with rfl | later
      · exact absurd bad undecodable
      · exact ⟨p, later, bad⟩

/-- A run that has met failed files, and the run that has met the other files only. -/
structure Besides (failed : List (Path × FileFailure)) (full rest : Progress) : Prop where
  fileSystem : full.fileSystem = rest.fileSystem
  crash : full.crash = none ∧ rest.crash = none
  lines : Inserted rest.lines (failed.flatMap failureNotes) full.lines
  reports : Inserted rest.reports (failed.flatMap failureReports) full.reports
  hasFailure : full.hasFailure = (!failed.isEmpty || rest.hasFailure)

namespace Besides
variable {failed : List (Path × FileFailure)} {full rest : Progress}

/-- Both runs visit a file. -/
theorem record (besides : Besides failed full rest) (p : Path) (notes : List String)
    (after : FileSystem) (verdict : Verdict) :
    Besides failed (full.record p notes after verdict) (rest.record p notes after verdict) where
  fileSystem := rfl
  crash := besides.crash
  lines := (besides.lines.append (.nothing notes)).perm_more (by rw [List.append_nil])
  reports := by
    rw [Progress.record_reports, Progress.record_reports]
    exact (besides.reports.append (.nothing _)).perm_more (by rw [List.append_nil])
  hasFailure := by
    rw [Progress.record_hasFailure, Progress.record_hasFailure, besides.hasFailure, Bool.or_assoc]

/-- One run visits a file that fails. -/
theorem fail (besides : Besides failed full rest) {p : Path} {failure : FileFailure}
    {verdict : Verdict} (counted : verdict.isFailure = true)
    (reported : reportsOfVerdict p verdict = failureReports (p, failure)) :
    Besides (failed ++ [(p, failure)])
      (full.record p (failureNotes (p, failure)) full.fileSystem verdict) rest where
  fileSystem := besides.fileSystem
  crash := besides.crash
  lines := by
    rw [List.flatMap_append, List.flatMap_singleton, ← List.append_nil rest.lines]
    exact besides.lines.append (.atEnd [] _)
  reports := by
    rw [Progress.record_reports, List.flatMap_append, List.flatMap_singleton, reported,
      ← List.append_nil rest.reports]
    exact besides.reports.append (.atEnd [] _)
  hasFailure := by
    rw [Progress.record_hasFailure, counted, Bool.or_true]
    simp

end Besides

theorem visitAll_besides (usual : settings.Usual patterns) {files : List Path}
    (decodable : ∀ p ∈ files, ¬ Undecodable patterns fs p)
    {failed : List (Path × FileFailure)} {full rest : Progress}
    (besides : Besides failed full rest) (revised : Revised fs full.fileSystem) :
    Besides (failed ++ failures patterns fs files) (visitAll settings full files)
      (visitAll settings rest (others patterns fs files)) := by
  induction files generalizing failed full rest with
  | nil => rwa [failures, List.filterMap_nil, List.append_nil]
  | cons p files ih =>
    obtain ⟨first, later⟩ := List.forall_mem_cons.1 decodable
    have here : ¬ Undecodable patterns full.fileSystem p := mt (undecodable_revised revised).1 first
    cases outcome : failure? patterns fs p with
    | some failure =>
      obtain ⟨verdict, visited, counted, reported⟩ :=
        visit_failing usual here (failure?_revised revised outcome)
      have list : failures patterns fs (p :: files) =
          (p, failure) :: failures patterns fs files := by
        simp [failures, outcome]
      have same : others patterns fs (p :: files) = others patterns fs files := by
        simp [others, outcome]
      rw [visitAll_cons visited, list, same, List.append_cons]
      exact ih later (besides.fail counted reported) revised
    | none =>
      obtain ⟨notes, after, verdict, visited, written⟩ := visit_decodable usual here
      have list : failures patterns fs (p :: files) = failures patterns fs files := by
        simp [failures, outcome]
      have kept : others patterns fs (p :: files) = p :: others patterns fs files := by
        simp [others, outcome]
      rw [visitAll_cons visited, list, kept, visitAll_cons (besides.fileSystem ▸ visited)]
      exact ih later (besides.record p notes after verdict) (revised.trans written)

/-! ## The end of a run -/

def reportOrder (a b : Report) : Ordering :=
  (compare a.path b.path).then (compare a.line b.line)

instance : Std.TransCmp reportOrder :=
  inferInstanceAs (Std.TransCmp (compareLex (compareOn Report.path) (compareOn Report.line)))

/-- The reports that are listed, in their order. -/
def Progress.listed (progress : Progress) (severity : String) : List Report :=
  (Dependency.stableSort reportOrder progress.reports).filter fun report =>
    decide (leastRank severity ≤ report.severity.rank)

/-- All lines but the last, which holds the totals. -/
def Outcome.body (o : Outcome) : List String :=
  o.lines.dropLast

theorem lintFiles_of_ne_nil {files : List Path} (some : files ≠ []) (severity : String)
    (lines : List String) :
    lintFiles settings severity lines fs files =
      (visitAll settings ⟨lines, fs, [], none⟩ files).finish severity := by
  rw [lintFiles, if_neg (by simpa using some)]

theorem finish_crash (progress : Progress) (severity : String) :
    (progress.finish severity).crash = progress.crash := by
  unfold Progress.finish
  split
  · rename_i crash broken
    exact broken.symm
  · rename_i finished
    exact finished.symm

theorem finish_fileSystem (progress : Progress) (severity : String) :
    (progress.finish severity).fileSystem = progress.fileSystem := by
  unfold Progress.finish
  split <;> rfl

theorem finish_exitCode {progress : Progress} (finished : progress.crash = none)
    (severity : String) :
    (progress.finish severity).exitCode =
      lintExitCode progress.hasFailure (progress.listed severity).length := by
  unfold Progress.finish
  rw [finished]
  rfl

theorem finish_lines {progress : Progress} (finished : progress.crash = none)
    (severity : String) :
    (progress.finish severity).lines =
      progress.lines ++ (progress.listed severity).map Report.shown ++
        ["", totalLine progress.reports.length (progress.listed severity).length] := by
  unfold Progress.finish
  rw [finished]
  rfl

theorem finish_body {progress : Progress} (finished : progress.crash = none)
    (severity : String) :
    (progress.finish severity).body =
      progress.lines ++ (progress.listed severity).map Report.shown ++ [""] := by
  rw [Outcome.body, finish_lines finished, List.dropLast_append_of_ne_nil (by simp)]
  rfl

theorem finish_totals {progress : Progress} (finished : progress.crash = none)
    (severity : String) :
    (progress.finish severity).lines = (progress.finish severity).body ++
      [totalLine progress.reports.length (progress.listed severity).length] := by
  rw [finish_body finished, finish_lines finished, List.append_assoc _ [""]]
  rfl

/-- Errors are listed whatever is asked for. -/
theorem leastRank_le_error (word : String) : leastRank word ≤ Severity.error.rank := by
  unfold leastRank
  cases (Severity.ofWord? word).getD .style <;> decide

theorem failureReports_severity (failed : List (Path × FileFailure)) :
    ∀ report ∈ failed.flatMap failureReports, report.severity = .error := by
  intro report member
  obtain ⟨⟨p, failure⟩, -, made⟩ := List.mem_flatMap.1 member
  cases failure with
  | unreadable cause => cases made
  | notPath | notText | wrongType | fix =>
    obtain rfl := List.mem_singleton.1 made
    exact malformedReport_severity p

/-- What a run that met failed files shares with the run on the other files. -/
structure Unharmed (failed : List (Path × FileFailure)) (full rest : Outcome) : Prop where
  fileSystem : full.fileSystem = rest.fileSystem
  exitCode : full.exitCode = if failed.isEmpty then rest.exitCode else 2
  body : Inserted rest.body (failed.map failureLine) full.body
  /-- What is no document is counted among the issues, found and reported. -/
  totals : ∃ found reported, rest.lines = rest.body ++ [totalLine found reported] ∧
    full.lines = full.body ++ [totalLine (found + (failed.flatMap failureReports).length)
      (reported + (failed.flatMap failureReports).length)]

theorem Besides.listed {failed : List (Path × FileFailure)} {full rest : Progress}
    (besides : Besides failed full rest) (severity : String) :
    Inserted (rest.listed severity) (failed.flatMap failureReports) (full.listed severity) := by
  have shown : (failed.flatMap failureReports).filter
      (fun report => decide (leastRank severity ≤ report.severity.rank)) =
        failed.flatMap failureReports := by
    rw [List.filter_eq_self]
    intro report member
    rw [failureReports_severity failed report member]
    exact decide_eq_true (leastRank_le_error severity)
  have put := (besides.reports.stableSort reportOrder).filter fun report =>
    decide (leastRank severity ≤ report.severity.rank)
  rwa [shown] at put

theorem Besides.finish {failed : List (Path × FileFailure)} {full rest : Progress}
    (besides : Besides failed full rest) (severity : String) :
    Unharmed failed (full.finish severity) (rest.finish severity) := by
  obtain ⟨finished, finishedRest⟩ := besides.crash
  have listed := besides.listed severity
  refine ⟨?_, ?_, ?_, _, _, finish_totals finishedRest severity, ?_⟩
  · rw [finish_fileSystem, finish_fileSystem, besides.fileSystem]
  · rw [finish_exitCode finished, finish_exitCode finishedRest, besides.hasFailure]
    cases failed with
    | nil =>
      have same := listed.perm.length_eq
      rw [List.flatMap_nil, List.append_nil] at same
      rw [same]
      rfl
    | cons entry failed => rfl
  · rw [finish_body finished, finish_body finishedRest]
    have body := (besides.lines.append (listed.map Report.shown)).append (.nothing [""])
    exact body.perm_more (by rw [List.append_nil]; exact failureLines_perm failed)
  · rw [finish_totals finished, besides.reports.perm.length_eq, listed.perm.length_eq,
      List.length_append, List.length_append]

end Command

end ManifestOrder

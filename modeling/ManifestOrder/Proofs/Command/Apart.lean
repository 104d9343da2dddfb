import ManifestOrder.Proofs.Command.Rearrangement

/-!
# Visits to different files

A visit reads and writes one file. A write to another file neither changes what the visit comes to
nor is it lost by it (`visit_elsewhere`), so of two visits to different files each comes to what it
comes to alone (`visit_after`), and their order does not show in the files (`visit_visit`).
-/

namespace ManifestOrder

variable {fs : FileSystem} {p : Path} {location : Location}

/-! ## Reading and writing manifests -/

namespace Manifest

theorem read_elsewhere (present : (fs.file? location).isSome = true)
    (elsewhere : fs.resolve p ≠ .ok location) (content : ByteArray) :
    read (fs.write location content) p = read fs p := by
  unfold read
  rw [FileSystem.read_write_elsewhere present elsewhere]

theorem write_elsewhere (present : (fs.file? location).isSome = true)
    (elsewhere : fs.resolve p ≠ .ok location) (content : ByteArray) (text : List Char) :
    write (fs.write location content) p text =
      (write fs p text).map fun after => after.write location content := by
  unfold write
  rw [FileSystem.writePath_write_elsewhere present elsewhere]
  cases fs.writePath p (encode text) <;> rfl

/-- Writing to a file that was read moves no file. -/
theorem write_layout {after : FileSystem} {text other : List Char} (found : read fs p = .ok text)
    (written : write fs p other = .ok after) : FileSystem.SameLayout fs after := by
  obtain ⟨-, content, held, -⟩ := read_eq_ok_iff.1 found
  obtain ⟨place, leads, there⟩ := FileSystem.read_eq_ok_iff.1 held
  obtain ⟨location, here, rfl⟩ := write_eq_ok written
  obtain rfl : place = location := Except.ok.inj (leads.symm.trans here)
  exact .write (by rw [there, Option.isSome_some]) _

end Manifest

namespace Command

variable {settings : LintSettings}

/-! ## One visit, and a write elsewhere -/

/-- The visit with one more file written. -/
def Visit.writing (v : Visit) (location : Location) (content : ByteArray) : Visit :=
  { v with fileSystem := v.fileSystem.write location content }

theorem Visit.failed_writing (notes : List String) (fs : FileSystem) (p : Path)
    (failure : FileFailure) (location : Location) (content : ByteArray) :
    Visit.failed notes (fs.write location content) p failure =
      (Visit.failed notes fs p failure).writing location content := by
  cases failure with
  | fix cause => cases cause <;> rfl
  | unreadable | notPath | notText | wrongType => rfl

theorem Visit.linted_writing (notes : List String) (fs : FileSystem) (issues : List Lint.Issue)
    (location : Location) (content : ByteArray) :
    Visit.linted notes (fs.write location content) issues =
      (Visit.linted notes fs issues).writing location content := by
  unfold Visit.linted
  cases reportsOf? issues <;> rfl

theorem analyze_elsewhere (present : (fs.file? location).isSome = true)
    (elsewhere : fs.resolve p ≠ .ok location) (content : ByteArray) :
    analyze settings (fs.write location content) p = analyze settings fs p := by
  unfold analyze Lint.Engine.analyzeFile
  rw [Manifest.read_elsewhere present elsewhere]

theorem sortFile_elsewhere (present : (fs.file? location).isSome = true)
    (elsewhere : fs.resolve p ≠ .ok location) (content : ByteArray) (rules : List String) :
    sortFile (fs.write location content) p rules =
      (sortFile fs p rules).map fun after => after.write location content := by
  unfold sortFile Lint.fixedText
  rw [Manifest.read_elsewhere present elsewhere]
  split
  · rfl
  · exact Manifest.write_elsewhere present elsewhere content _

/-- Sorting a file moves no file. -/
theorem sortFile_layout {after : FileSystem} {rules : List String}
    (sorted : sortFile fs p rules = .ok after) : FileSystem.SameLayout fs after := by
  unfold sortFile Lint.fixedText at sorted
  cases found : Manifest.read fs p with
  | error failure => simp [found] at sorted
  | ok text =>
    simp only [found] at sorted
    split at sorted
    · cases sorted
    · exact Manifest.write_layout found sorted

theorem visitManifest_elsewhere (present : (fs.file? location).isSome = true)
    (elsewhere : fs.resolve p ≠ .ok location) (content : ByteArray) :
    visitManifest settings (fs.write location content) p =
      (visitManifest settings fs p).writing location content := by
  unfold visitManifest
  rw [analyze_elsewhere present elsewhere]
  cases analyze settings fs p with
  | error failure => exact Visit.failed_writing _ _ _ _ _ _
  | ok issues =>
    simp only
    split
    · rw [sortFile_elsewhere present elsewhere]
      cases sorted : sortFile fs p ((issues.filter isFixable).map Lint.Issue.rule) with
      | error failure => exact Visit.failed_writing _ _ _ _ _ _
      | ok after =>
        -- The second analysis is of the sorted file, and the other file is still there.
        have layout := sortFile_layout sorted
        have again : analyze settings (after.write location content) p = analyze settings after p :=
          analyze_elsewhere ((layout.file?_isSome location).trans present)
            (by rwa [layout.resolve]) content
        simp only [Except.map, again]
        cases analyze settings after p with
        | error failure => exact Visit.failed_writing _ _ _ _ _ _
        | ok issues => exact Visit.linted_writing _ _ _ _ _
    · exact Visit.linted_writing _ _ _ _ _

theorem visit_elsewhere (present : (fs.file? location).isSome = true)
    (elsewhere : fs.resolve p ≠ .ok location) (content : ByteArray) :
    visit settings (fs.write location content) p =
      (visit settings fs p).writing location content := by
  unfold visit
  split
  · rfl
  · rfl
  · exact visitManifest_elsewhere present elsewhere content

/-! ## Two visits -/

/-- The paths do not lead to the same place. -/
def Apart (fs : FileSystem) (p q : Path) : Prop :=
  ∀ location, fs.resolve p = .ok location → fs.resolve q ≠ .ok location

theorem Apart.symm {q : Path} (apart : Apart fs p q) : Apart fs q p := by
  intro location leads same
  exact apart location same leads

theorem apart_layout {after : FileSystem} (layout : FileSystem.SameLayout fs after) {q : Path} :
    Apart after p q ↔ Apart fs p q := by
  unfold Apart
  rw [layout.resolve, layout.resolve]

/-- A visit writes nothing, or one file that was there. -/
theorem visit_writes (settings : LintSettings) (fs : FileSystem) (p : Path) :
    (visit settings fs p).fileSystem = fs ∨
      ∃ location content, fs.resolve p = .ok location ∧ (fs.file? location).isSome = true ∧
        (visit settings fs p).fileSystem = fs.write location content := by
  obtain same | ⟨-, -, location, leads, sorts⟩ := visit_sorts settings fs p
  · exact .inl same
  · right
    generalize (visit settings fs p).fileSystem = after at sorts
    cases sorts with
    | mk held _ _ => exact ⟨location, _, leads, by rw [held, Option.isSome_some], rfl⟩

theorem visit_layout (settings : LintSettings) (fs : FileSystem) (p : Path) :
    FileSystem.SameLayout fs (visit settings fs p).fileSystem := by
  obtain same | ⟨location, content, -, present, written⟩ := visit_writes settings fs p
  · rw [same]
    exact .refl fs
  · rw [written]
    exact .write present content

variable {q : Path}

/-- A visit to another file changes neither the notes nor the verdict. -/
theorem visit_after (apart : Apart fs p q) :
    (visit settings (visit settings fs p).fileSystem q).notes = (visit settings fs q).notes ∧
      (visit settings (visit settings fs p).fileSystem q).verdict =
        (visit settings fs q).verdict := by
  obtain same | ⟨location, content, leads, present, written⟩ := visit_writes settings fs p
  · rw [same]
    exact ⟨rfl, rfl⟩
  · rw [written, visit_elsewhere present (apart location leads)]
    exact ⟨rfl, rfl⟩

/-- The order of visits to different files does not show in the files. -/
theorem visit_visit (apart : Apart fs p q) :
    (visit settings (visit settings fs p).fileSystem q).fileSystem =
      (visit settings (visit settings fs q).fileSystem p).fileSystem := by
  obtain same | ⟨location, content, leads, present, written⟩ := visit_writes settings fs p
  · obtain other | ⟨place, new, there, held, changed⟩ := visit_writes settings fs q
    · rw [same, other, same]
    · rw [same, changed, visit_elsewhere held (apart.symm place there), Visit.writing, same]
  · rw [written, visit_elsewhere present (apart location leads), Visit.writing]
    obtain other | ⟨place, new, there, held, changed⟩ := visit_writes settings fs q
    · rw [other, written]
    · have differ : place ≠ location := by
        rintro rfl
        exact apart place leads there
      rw [changed, visit_elsewhere held (apart.symm place there), Visit.writing, written,
        FileSystem.write_write differ held]

end Command

end ManifestOrder

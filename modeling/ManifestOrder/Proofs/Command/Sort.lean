import ManifestOrder.Proofs.Command.Visit
import ManifestOrder.Proofs.Dependency.Change
import ManifestOrder.Proofs.SortedInPlace
import ManifestOrder.Command.Sort

/-!
# Sorting one file

The sort command does something about a file only if that is a manifest whose entries are out of
order (`Unsorted`): then a check ends with the exit code 1, and a run without one writes the fixed
text. In every other case the files stay as they are, and no check ends like that (`sort_quiet`).

`change_is_told`: where no empty section stands in a text, the fixer, a buffer that is fixed and the
check all tell truly whether sorting changes anything.
-/

namespace ManifestOrder.Command

open Dependency (Fixed extract? fixBuffer fixText)

variable {fs : FileSystem} {p : Path}

/-- How a run ends: its exit code, and the failure that nothing handled. -/
def Outcome.ending (o : Outcome) : Nat × Option Crash :=
  (o.exitCode, o.crash)

/-! ## The sorted text of a file -/

theorem sortedManifest_eq_ok_iff {fixed : Fixed} :
    sortedManifest fs p = .ok fixed ↔
      ∃ text, Manifest.read fs p = .ok text ∧ fixText .standard text = .ok fixed := by
  unfold sortedManifest
  cases Manifest.read fs p with
  | error failure => simp
  | ok text => cases done : fixText .standard text <;> simp [done]

theorem sortedManifest_failed {failure : FileFailure}
    (refused : Manifest.extract fs p = .error failure) :
    sortedManifest fs p = .error failure := by
  unfold sortedManifest
  obtain unread | ⟨rfl, text, found, malformed⟩ := Manifest.extract_eq_error_iff.1 refused
  · rw [unread]
  · simp only [found, Dependency.fixText_malformed malformed]

/-- The files after an attempt to write a text to a path. -/
def afterWriting (fs : FileSystem) (p : Path) (text : List Char) : FileSystem :=
  match fs.writePath p (Manifest.encode text) with
  | .error _ => fs
  | .ok after => after

/-- Writing the fixed text of a file sorts it in place, if the file can be written at all. -/
theorem afterWriting_sorts {fixed : Fixed} (sorted : sortedManifest fs p = .ok fixed) :
    afterWriting fs p fixed.source = fs ∨ ∃ location, fs.resolve p = .ok location ∧
      SortsFile fs location (afterWriting fs p fixed.source) := by
  obtain ⟨text, found, done⟩ := sortedManifest_eq_ok_iff.1 sorted
  unfold afterWriting
  cases written : fs.writePath p (Manifest.encode fixed.source) with
  | error cause => exact .inl rfl
  | ok after =>
    obtain ⟨-, content, read, decoded⟩ := Manifest.read_eq_ok_iff.1 found
    obtain ⟨location, leads, holds⟩ := FileSystem.read_eq_ok_iff.1 read
    obtain ⟨place, same, rfl⟩ := FileSystem.writePath_eq_ok written
    obtain rfl : location = place := Except.ok.inj (leads.symm.trans same)
    exact .inr ⟨location, leads, .mk holds decoded done⟩

/-! ## Outcomes of the command -/

theorem sortManifest_writes {fixed : Fixed} (sorted : sortedManifest fs p = .ok fixed)
    (modified : fixed.modified = true) :
    (sortManifest fs p false).fileSystem = afterWriting fs p fixed.source := by
  simp only [sortManifest, sorted, modified, Bool.not_true, Bool.false_eq_true, if_false,
    afterWriting]
  cases fs.writePath p (Manifest.encode fixed.source) <;> rfl

theorem isManifestBySetting_default (p : Path) :
    isManifestBySetting ({} : Config).patterns p = .ok (isNamed defaultPatterns p) :=
  isManifest_texts defaultPatterns p

/-- The file is a manifest by the configuration, and its entries are out of order. -/
structure Unsorted (fs : FileSystem) (configFile p : Path) (fixed : Fixed) : Prop where
  named : ∃ loaded, Config.load fs configFile = .ok loaded ∧
    isManifestBySetting loaded.config.patterns p = .ok true
  sorted : sortedManifest fs p = .ok fixed
  modified : fixed.modified = true

theorem sort_manifest {options : SortOptions} {loaded : LoadedConfig}
    (config : Config.load fs options.configFile = .ok loaded)
    (named : isManifestBySetting loaded.config.patterns options.file = .ok true) :
    sort fs options = sortManifest fs options.file options.check := by
  unfold sort
  simp only [config, named]

theorem sort_check {options : SortOptions} {fixed : Fixed}
    (unsorted : Unsorted fs options.configFile options.file fixed) (checking : options.check = true) :
    sort fs options =
      { exitCode := 1, lines := [wouldSortLine options.file fixed.replacements], fileSystem := fs } := by
  obtain ⟨⟨loaded, config, named⟩, sorted, modified⟩ := unsorted
  rw [sort_manifest config named, checking]
  simp [sortManifest, sorted, modified]

theorem sort_writes {options : SortOptions} {fixed : Fixed}
    (unsorted : Unsorted fs options.configFile options.file fixed) (checking : options.check = false) :
    (sort fs options).fileSystem = afterWriting fs options.file fixed.source := by
  obtain ⟨⟨loaded, config, named⟩, sorted, modified⟩ := unsorted
  rw [sort_manifest config named, checking]
  exact sortManifest_writes sorted modified

theorem sortFailed_quiet (fs : FileSystem) (p : Path) (failure : FileFailure) :
    (sortFailed fs p failure).fileSystem = fs ∧ (sortFailed fs p failure).ending ≠ (1, none) := by
  cases failure with
  | fix cause => cases cause <;> simp [sortFailed, Outcome.ending, Outcome.crashed]
  | unreadable | notPath | notText | wrongType =>
    simp [sortFailed, Outcome.ending, Outcome.crashed]

/-- Any other file is left alone, with the check and without. -/
theorem sort_quiet {options : SortOptions}
    (quiet : ∀ fixed, ¬ Unsorted fs options.configFile options.file fixed) :
    (sort fs options).fileSystem = fs ∧ (sort fs options).ending ≠ (1, none) := by
  cases config : Config.load fs options.configFile with
  | error e => simp [sort, config, Outcome.crashed, Outcome.ending]
  | ok loaded =>
    cases named : isManifestBySetting loaded.config.patterns options.file with
    | error e => simp [sort, config, named, Outcome.crashed, Outcome.ending]
    | ok isManifest =>
      cases isManifest with
      | false => simp [sort, config, named, Outcome.ending]
      | true =>
        rw [sort_manifest config named, sortManifest]
        cases sorted : sortedManifest fs options.file with
        | error failure => exact sortFailed_quiet fs options.file failure
        | ok fixed =>
          have still : fixed.modified = false := by
            rw [← Bool.not_eq_true]
            exact fun modified => quiet fixed ⟨⟨loaded, config, named⟩, sorted, modified⟩
          simp [still, Outcome.ending]

/-! ## Changes that are told -/

/-- Writing the fixed text of a file changes its bytes if the text is another one. -/
theorem read_afterWriting {text other : List Char} (consistent : fs.Consistent)
    (found : Manifest.read fs p = .ok text) :
    (afterWriting fs p other).read p ≠ fs.read p ↔ other ≠ text := by
  obtain ⟨-, content, read, decoded⟩ := Manifest.read_eq_ok_iff.1 found
  obtain ⟨location, leads, holds⟩ := FileSystem.read_eq_ok_iff.1 read
  obtain ⟨place, same, written⟩ :=
    FileSystem.writePath_of_read consistent read (Manifest.encode other)
  obtain rfl : location = place := Except.ok.inj (leads.symm.trans same)
  have present : (fs.file? location).isSome = true := by rw [holds, Option.isSome_some]
  simp only [afterWriting, written]
  rw [FileSystem.read_write present leads, read, ← Manifest.encode_of_decode? decoded, Ne,
    Except.ok.injEq]
  exact not_congr ⟨Manifest.encode_injective, congrArg Manifest.encode⟩

/-- Without empty sections nobody is told a change that is none: the fixer says that it changed the
text, a buffer records the action, and a check asks for a sort, exactly when sorting gives another
text. -/
theorem change_is_told {text : List Char} {list : Dependency.DependencyList}
    (read : extract? text = some list) (free : ¬ "<![CDATA[]]>".toList <:+: text) :
    (∀ cmp, ∃ fixed, fixText cmp text = .ok fixed ∧
      (fixed.modified = true ↔ fixed.source ≠ text)) ∧
    (∀ (cmp : Dependency.Comparator) (b : Edit.Buffer), b.text = text → b.inTransaction = false →
      ∃ edited count, fixBuffer cmp b = .ok (edited, count) ∧
        (0 < count ↔ edited.history = (some Edit.sortActionName, text) :: b.history) ∧
        (count = 0 ↔ edited.history = b.history)) ∧
    ∀ (fs : FileSystem) (options : SortOptions), fs.Consistent →
      Manifest.read fs options.file = .ok text →
      ((sort fs { options with check := true }).ending = (1, none) ↔
        (sort fs { options with check := false }).fileSystem.read options.file ≠
          fs.read options.file) := by
  refine ⟨Dependency.fixText_source_eq_iff read free, ?_, ?_⟩
  · rintro cmp b rfl closed
    obtain ⟨edited, count, done, history⟩ := Dependency.fixBuffer_history closed read free cmp
    refine ⟨edited, count, done, ?_⟩
    rw [history]
    by_cases none : count = 0
    · simp [none]
    · simp [none, Nat.pos_iff_ne_zero]
  · intro fs options consistent found
    obtain ⟨fixed, done, told⟩ := Dependency.fixText_source_eq_iff read free .standard
    have sorted := sortedManifest_eq_ok_iff.2 ⟨text, found, done⟩
    by_cases unsorted : Unsorted fs options.configFile options.file fixed
    · rw [@sort_check fs { options with check := true } _ unsorted rfl,
        @sort_writes fs { options with check := false } _ unsorted rfl,
        read_afterWriting consistent found]
      exact iff_of_true rfl (told.1 unsorted.modified)
    · have quiet : ∀ other, ¬ Unsorted fs options.configFile options.file other := by
        intro other found
        obtain rfl : fixed = other := Except.ok.inj (sorted.symm.trans found.sorted)
        exact unsorted found
      have checked := (@sort_quiet fs { options with check := true } quiet).2
      have kept := (@sort_quiet fs { options with check := false } quiet).1
      rw [kept]
      exact iff_of_false checked (not_not_intro rfl)

/-- A file system with one manifest, which is out of order. -/
def oneManifest : FileSystem where
  files := [(["pom.xml"], Manifest.encode Dependency.swapped)]

def pom : Path := ⟨.here, ["pom.xml"]⟩

theorem oneManifest_consistent : oneManifest.Consistent := by
  intro location present
  have here : location = ["pom.xml"] := by
    by_cases same : location = ["pom.xml"]
    · exact same
    · simp [oneManifest, FileSystem.file?, List.lookup_cons, beq_false_of_ne same] at present
  rw [here]
  rfl

theorem read_pom : Manifest.read oneManifest pom = .ok Dependency.swapped :=
  Manifest.read_eq_ok_iff.2 ⟨by simp [Path.hasNul, pom], _, rfl, Manifest.decode?_encode _⟩

theorem change_is_told_swapped : ∃ fixed,
    fixText .standard Dependency.swapped = .ok fixed ∧ fixed.source ≠ Dependency.swapped ∧
    (sort oneManifest { file := pom, check := true }).ending = (1, none) ∧
    (sort oneManifest { file := pom }).fileSystem.read pom ≠ oneManifest.read pom := by
  obtain ⟨list, read, violation⟩ := Dependency.swapped_violation
  obtain ⟨fixes, -, checks⟩ := change_is_told read Dependency.swapped_free
  obtain ⟨fixed, done, told⟩ := fixes .standard
  obtain ⟨again, same, moves⟩ := Lint.fixText_modified_iff read .standard
  obtain rfl : fixed = again := Except.ok.inj (done.symm.trans same)
  have modified : fixed.modified = true :=
    moves.2 ((Dependency.violation_iff_plan Dependency.Comparator.standard_looksAtIds read).1
      violation)
  have named : isManifestBySetting ({} : Config).patterns pom = .ok true := by
    rw [isManifestBySetting_default, isNamed_pom rfl]
  have unsorted : Unsorted oneManifest (Path.ofString defaultConfigFile) pom fixed :=
    ⟨⟨⟨{}, false⟩, rfl, named⟩, sortedManifest_eq_ok_iff.2 ⟨_, read_pom, done⟩, modified⟩
  have checked : (sort oneManifest { file := pom, check := true }).ending = (1, none) := by
    rw [@sort_check oneManifest { file := pom, check := true } fixed unsorted rfl]
    rfl
  refine ⟨fixed, done, told.1 modified, checked, ?_⟩
  exact (checks oneManifest { file := pom } oneManifest_consistent read_pom).1 checked

end ManifestOrder.Command

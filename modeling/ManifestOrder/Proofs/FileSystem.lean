import ManifestOrder.FileSystem

/-!
# Writing files

A write changes the content of one file and nothing else (`file?_write`). If the file was there
before, no folder and no other file comes into being (`SameLayout.write`), so every path leads to
where it led before (`SameLayout.resolve`). Paths that lead elsewhere do not see the write, and
writes to different files can be made in either order (`write_write`). Files that are listed once
are listed once after a write (`Distinct.write`).
-/

namespace ManifestOrder.FileSystem

theorem lookup_overwrite (files : List (Location × ByteArray)) (location : Location)
    (content : ByteArray) (other : Location) :
    (files.map fun entry => if entry.1 = location then (location, content) else entry).lookup other =
      if other = location then (files.lookup other).map fun _ => content
      else files.lookup other := by
  induction files with
  | nil => simp
  | cons entry files ih =>
    obtain ⟨place, old⟩ := entry
    rw [List.map_cons]
    by_cases here : place = location
    · rw [if_pos here, List.lookup_cons, List.lookup_cons, ih, here]
      by_cases same : other = location
      · simp [same]
      · simp [same, beq_false_of_ne same]
    · rw [if_neg here, List.lookup_cons, List.lookup_cons, ih]
      by_cases same : other = location
      · have differ : (location == place) = false := beq_false_of_ne (Ne.symm here)
        simp [same, differ]
      · simp [same]

theorem file?_write (fs : FileSystem) (location : Location) (content : ByteArray)
    (other : Location) :
    (fs.write location content).file? other =
      if other = location then some content else fs.file? other := by
  unfold file? write
  split
  · rename_i present
    rw [lookup_overwrite]
    by_cases same : other = location
    · rw [if_pos same, if_pos same, same]
      obtain ⟨old, found⟩ := Option.isSome_iff_exists.1 present
      rw [file?] at found
      rw [found, Option.map_some]
    · rw [if_neg same, if_neg same]
  · rename_i absent
    rw [List.lookup_append]
    by_cases same : other = location
    · have none : fs.files.lookup location = none := Option.not_isSome_iff_eq_none.1 absent
      simp [same, none]
    · simp [same, List.lookup_cons, beq_false_of_ne same]

theorem file?_isSome_iff {fs : FileSystem} {location : Location} :
    (fs.file? location).isSome = true ↔ location ∈ fs.files.map Prod.fst := by
  rw [file?, List.lookup_isSome_iff, List.mem_map]
  constructor
  · rintro ⟨entry, member, here⟩
    exact ⟨entry, member, (beq_iff_eq.1 here).symm⟩
  · rintro ⟨entry, member, here⟩
    exact ⟨entry, member, beq_iff_eq.2 here.symm⟩

/-! ## The same files and folders -/

/-- The same files and folders, whatever the files hold. -/
structure SameLayout (fs after : FileSystem) : Prop where
  locations : after.files.map Prod.fst = fs.files.map Prod.fst
  folders : after.folders = fs.folders
  workingFolder : after.workingFolder = fs.workingFolder

namespace SameLayout
variable {fs after last : FileSystem}

theorem refl (fs : FileSystem) : SameLayout fs fs := ⟨rfl, rfl, rfl⟩

theorem trans (first : SameLayout fs after) (second : SameLayout after last) :
    SameLayout fs last :=
  ⟨second.locations.trans first.locations, second.folders.trans first.folders,
    second.workingFolder.trans first.workingFolder⟩

/-- A file that is there may be written. -/
theorem write {location : Location} (present : (fs.file? location).isSome = true)
    (content : ByteArray) : SameLayout fs (fs.write location content) := by
  refine ⟨?_, rfl, rfl⟩
  rw [FileSystem.write, if_pos present, List.map_map]
  refine List.map_congr_left ?_
  intro entry _
  show (if entry.1 = location then (location, content) else entry).1 = entry.1
  split
  · rename_i here
    exact here.symm
  · rfl

theorem file?_isSome (same : SameLayout fs after) (location : Location) :
    (after.file? location).isSome = (fs.file? location).isSome := by
  rw [Bool.eq_iff_iff, file?_isSome_iff, file?_isSome_iff, same.locations]

theorem isFolder (same : SameLayout fs after) (location : Location) :
    after.isFolder location = fs.isFolder location := by
  have below : ∀ files : List (Location × ByteArray),
      (files.any fun entry => location.isPrefixOf entry.1 && entry.1 != location) =
        (files.map Prod.fst).any fun place => location.isPrefixOf place && place != location := by
    intro files
    rw [List.any_map]
    rfl
  simp only [FileSystem.isFolder, below, same.locations, same.folders, same.workingFolder]

theorem follow (same : SameLayout fs after) (location : Location) (components : List String) :
    after.follow location components = fs.follow location components := by
  induction components generalizing location with
  | nil => rfl
  | cons component rest ih =>
    simp only [FileSystem.follow, same.file?_isSome, same.isFolder, ih]

theorem resolve (same : SameLayout fs after) (p : Path) : after.resolve p = fs.resolve p := by
  simp only [FileSystem.resolve, same.follow, same.workingFolder]

end SameLayout

/-! ## Reading and writing paths -/

theorem read_eq_ok_iff {fs : FileSystem} {p : Path} {content : ByteArray} :
    fs.read p = .ok content ↔
      ∃ location, fs.resolve p = .ok location ∧ fs.file? location = some content := by
  unfold read
  cases fs.resolve p with
  | error e => simp
  | ok location =>
    cases found : fs.file? location with
    | some other => simp [found]
    | none =>
      simp only [Except.ok.injEq, exists_eq_left', found]
      split <;> simp

theorem writePath_eq_ok {fs after : FileSystem} {p : Path} {content : ByteArray}
    (written : fs.writePath p content = .ok after) :
    ∃ location, fs.resolve p = .ok location ∧ after = fs.write location content := by
  unfold writePath at written
  split at written
  · simp at written
  · rename_i location found
    split at written
    · simp at written
    · exact ⟨location, found, (Except.ok.inj written).symm⟩

/-- No file stands where a folder is. -/
def Consistent (fs : FileSystem) : Prop :=
  ∀ location, (fs.file? location).isSome = true → fs.isFolder location = false

theorem SameLayout.consistent {fs after : FileSystem} (same : SameLayout fs after)
    (consistent : fs.Consistent) : after.Consistent := by
  intro location present
  rw [same.file?_isSome] at present
  rw [same.isFolder]
  exact consistent location present

/-- No file is listed twice. -/
def Distinct (fs : FileSystem) : Prop :=
  (fs.files.map Prod.fst).Nodup

instance (fs : FileSystem) : Decidable fs.Distinct :=
  inferInstanceAs (Decidable (List.Nodup _))

theorem Distinct.write {fs : FileSystem} (distinct : fs.Distinct) (location : Location)
    (content : ByteArray) : (fs.write location content).Distinct := by
  cases present : (fs.file? location).isSome with
  | true =>
    rw [Distinct, (SameLayout.write present content).locations]
    exact distinct
  | false =>
    have absent : location ∉ fs.files.map Prod.fst := by
      simp [← file?_isSome_iff, present]
    rw [Distinct, FileSystem.write, present, if_neg Bool.false_ne_true, List.map_append,
      List.nodup_append]
    refine ⟨distinct, List.nodup_cons.2 ⟨List.not_mem_nil, List.nodup_nil⟩, ?_⟩
    rintro place member _ last rfl
    obtain rfl : place = location := List.mem_singleton.1 last
    exact absent member

/-- A file that can be read can be written, too, since there are no permissions and no disk that is
full. So where a file is written after it was read, the write does not fail. -/
theorem writePath_of_read {fs : FileSystem} {p : Path} {content : ByteArray}
    (consistent : fs.Consistent) (found : fs.read p = .ok content) (new : ByteArray) :
    ∃ location, fs.resolve p = .ok location ∧
      fs.writePath p new = .ok (fs.write location new) := by
  obtain ⟨location, leads, holds⟩ := read_eq_ok_iff.1 found
  refine ⟨location, leads, ?_⟩
  have file : (fs.file? location).isSome = true := by rw [holds, Option.isSome_some]
  unfold writePath
  simp only [leads, consistent location file, Bool.false_eq_true, if_false]

/-- What was written to a file that was there is read at every path to it. -/
theorem read_write {fs : FileSystem} {p : Path} {location : Location}
    (present : (fs.file? location).isSome = true) (leads : fs.resolve p = .ok location)
    (content : ByteArray) : (fs.write location content).read p = .ok content := by
  refine read_eq_ok_iff.2 ⟨location, ((SameLayout.write present content).resolve p).trans leads, ?_⟩
  rw [file?_write, if_pos rfl]

/-! ## Writes to different files -/

section
variable {fs : FileSystem} {p : Path} {location : Location}

/-- Writes to different files can be made in either order, if one of the files is there. -/
theorem write_write {other : Location} (differ : location ≠ other)
    (present : (fs.file? location).isSome = true) (first second : ByteArray) :
    (fs.write location first).write other second =
      (fs.write other second).write location first := by
  have here : ((fs.write other second).file? location).isSome = true := by
    rwa [file?_write, if_neg differ]
  have there : ((fs.write location first).file? other).isSome = (fs.file? other).isSome := by
    rw [file?_write, if_neg (Ne.symm differ)]
  rw [write, there, write, if_pos present]
  conv => rhs; rw [write, if_pos here, write]
  congr 1
  split
  · rw [List.map_map, List.map_map]
    refine List.map_congr_left ?_
    intro entry _
    by_cases mine : entry.1 = location
    · simp [mine, differ]
    · by_cases yours : entry.1 = other
      · simp [yours, Ne.symm differ]
      · simp [mine, yours]
  · rw [List.map_append, List.map_singleton, if_neg (Ne.symm differ)]

/-- A path that leads elsewhere is read as before. -/
theorem read_write_elsewhere (present : (fs.file? location).isSome = true)
    (elsewhere : fs.resolve p ≠ .ok location) (content : ByteArray) :
    (fs.write location content).read p = fs.read p := by
  have layout := SameLayout.write present content
  unfold read
  rw [layout.resolve]
  cases leads : fs.resolve p with
  | error e => rfl
  | ok place =>
    have differ : place ≠ location := by
      rintro rfl
      exact elsewhere leads
    simp only [file?_write, if_neg differ, layout.isFolder]

/-- A path that leads elsewhere is written as before. -/
theorem writePath_write_elsewhere (present : (fs.file? location).isSome = true)
    (elsewhere : fs.resolve p ≠ .ok location) (content new : ByteArray) :
    (fs.write location content).writePath p new =
      (fs.writePath p new).map fun after => after.write location content := by
  have layout := SameLayout.write present content
  unfold writePath
  rw [layout.resolve]
  cases leads : fs.resolve p with
  | error e => rfl
  | ok place =>
    have differ : location ≠ place := by
      rintro rfl
      exact elsewhere leads
    simp only [layout.isFolder]
    split
    · rfl
    · rw [write_write differ present]
      rfl

end

end ManifestOrder.FileSystem

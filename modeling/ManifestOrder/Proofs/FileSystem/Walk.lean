import Mathlib.Data.List.Dedup
import ManifestOrder.Proofs.FileSystem

/-!
# Walking through a folder

A walk lists what stands in a folder, and walks on through the folders among it (`Walk`). In which
order the entries of a folder are listed is left open, and so is when the walk goes into one of
them. Whatever the order, a walk comes by every file and every folder below the one it started from
exactly once, and by nothing else (`Walk.mem_iff`, `Walk.nodup`). Every folder can be walked through
(`exists_walk`).
-/

namespace ManifestOrder.FileSystem

variable {fs : FileSystem} {folder location : Location}

/-! ## What stands at a location -/

/-- A file or a folder stands at the location. -/
def stands (fs : FileSystem) (location : Location) : Bool :=
  (fs.file? location).isSome || fs.isFolder location

/-- The locations that a file system is given by. All folders are found on the way to them. -/
def places (fs : FileSystem) : List Location :=
  fs.workingFolder :: fs.folders ++ fs.files.map Prod.fst

theorem isFolder_iff :
    fs.isFolder location = true ↔ location <+: fs.workingFolder ∨
      (∃ place ∈ fs.folders, location <+: place) ∨
      ∃ place ∈ fs.files.map Prod.fst, location <+: place ∧ place ≠ location := by
  simp only [isFolder, Bool.or_eq_true, List.any_eq_true, Bool.and_eq_true, bne_iff_ne,
    List.isPrefixOf_iff_prefix, or_assoc, List.mem_map, exists_exists_and_eq_and]

theorem stands_iff : fs.stands location = true ↔ ∃ place ∈ fs.places, location <+: place := by
  rw [stands, Bool.or_eq_true, file?_isSome_iff, isFolder_iff]
  simp only [places, List.cons_append, List.mem_cons, List.mem_append]
  constructor
  · rintro (file | working | ⟨place, member, inside⟩ | ⟨place, member, inside, -⟩)
    · exact ⟨location, .inr (.inr file), List.prefix_refl location⟩
    · exact ⟨fs.workingFolder, .inl rfl, working⟩
    · exact ⟨place, .inr (.inl member), inside⟩
    · exact ⟨place, .inr (.inr member), inside⟩
  · rintro ⟨place, rfl | folder | file, inside⟩
    · exact .inr (.inl inside)
    · exact .inr (.inr (.inl ⟨place, folder, inside⟩))
    · by_cases here : place = location
      · exact .inl (here ▸ file)
      · exact .inr (.inr (.inr ⟨place, file, inside, here⟩))

/-- What leads on to something is a folder. -/
theorem isFolder_of_stands {name : String} {rest : Location}
    (below : fs.stands (location ++ name :: rest) = true) : fs.isFolder location = true := by
  obtain ⟨place, member, inside⟩ := stands_iff.1 below
  have onTheWay : location <+: place := (List.prefix_append location _).trans inside
  have further : place ≠ location := by
    rintro rfl
    have shorter := inside.length_le
    simp only [List.length_append, List.length_cons] at shorter
    omega
  simp only [places, List.cons_append, List.mem_cons, List.mem_append] at member
  rw [isFolder_iff]
  rcases member with rfl | folder | file
  · exact .inl onTheWay
  · exact .inr (.inl ⟨place, folder, onTheWay⟩)
  · exact .inr (.inr ⟨place, file, onTheWay, further⟩)

/-! ## Walks -/

/-- A walk through a folder lists each name in it, and what a walk through the folder of that name
lists, in any order. What is listed is given by its location from the folder on. -/
inductive Walk (fs : FileSystem) : Location → List Location → Prop
  | through {folder : Location} {names : List String} {inner : String → List Location}
      {walk : List Location} (once : names.Nodup)
      (listed : ∀ name, name ∈ names ↔ fs.stands (folder ++ [name]) = true)
      (folders : ∀ name ∈ names, fs.isFolder (folder ++ [name]) = true →
        Walk fs (folder ++ [name]) (inner name))
      (files : ∀ name ∈ names, fs.isFolder (folder ++ [name]) = false → inner name = [])
      (order : walk.Perm
        (names.map (fun name => [name]) ++
          names.flatMap fun name => (inner name).map (name :: ·))) :
      Walk fs folder walk

theorem Walk.mem_iff {walk : List Location} (walked : fs.Walk folder walk) :
    location ∈ walk ↔ location ≠ [] ∧ fs.stands (folder ++ location) = true := by
  induction walked generalizing location with
  | @through folder names inner walk once listed folders files order ih =>
    rw [order.mem_iff]
    simp only [List.mem_append, List.mem_map, List.mem_flatMap]
    constructor
    · rintro (⟨name, member, rfl⟩ | ⟨name, member, rest, inside, rfl⟩)
      · exact ⟨List.cons_ne_nil _ _, (listed name).1 member⟩
      · refine ⟨List.cons_ne_nil _ _, ?_⟩
        cases isFolder : fs.isFolder (folder ++ [name]) with
        | false => simp [files name member isFolder] at inside
        | true =>
          have below := ((ih name member isFolder).1 inside).2
          rwa [List.append_assoc, List.singleton_append] at below
    · rintro ⟨some, present⟩
      cases location with
      | nil => exact absurd rfl some
      | cons name rest =>
        cases rest with
        | nil => exact .inl ⟨name, (listed name).2 present, rfl⟩
        | cons next rest =>
          -- The name is that of a folder, since something stands below it.
          rw [List.append_cons] at present
          have isFolder := isFolder_of_stands present
          have member : name ∈ names := by
            rw [listed, stands, isFolder, Bool.or_true]
          exact .inr ⟨name, member, next :: rest,
            (ih name member isFolder).2 ⟨List.cons_ne_nil _ _, present⟩, rfl⟩

theorem Walk.nodup {walk : List Location} (walked : fs.Walk folder walk) : walk.Nodup := by
  induction walked with
  | @through folder names inner walk once listed folders files order ih =>
    have within : ∀ name ∈ names, (inner name).Nodup ∧ [] ∉ inner name := by
      intro name member
      cases isFolder : fs.isFolder (folder ++ [name]) with
      | false => simp [files name member isFolder]
      | true =>
        refine ⟨ih name member isFolder, fun empty => ?_⟩
        exact ((folders name member isFolder).mem_iff.1 empty).1 rfl
    rw [order.nodup_iff, List.nodup_append]
    refine ⟨once.map fun _ _ same => (List.cons.inj same).1, ?_, ?_⟩
    · refine List.nodup_flatMap.2 ⟨?_, once.imp ?_⟩
      · intro name member
        exact (within name member).1.map (List.cons_injective)
      · intro name other differ location here there
        obtain ⟨_, -, rfl⟩ := List.mem_map.1 here
        obtain ⟨_, -, same⟩ := List.mem_map.1 there
        exact differ (List.cons.inj same).1.symm
    · -- A name alone is no location below a folder of that name.
      intro single is_name deeper is_deeper same
      obtain ⟨name, -, rfl⟩ := List.mem_map.1 is_name
      obtain ⟨other, member, inside⟩ := List.mem_flatMap.1 is_deeper
      obtain ⟨rest, found, rfl⟩ := List.mem_map.1 inside
      obtain rfl := (List.cons.inj same).2
      exact (within other member).2 found

/-! ## Every folder can be walked through -/

/-- The names of what stands in a folder. -/
def namesIn (fs : FileSystem) (folder : Location) : List String :=
  (fs.places.filterMap fun place => (place.drop folder.length).head?).dedup.filter fun name =>
    fs.stands (folder ++ [name])

theorem mem_namesIn {name : String} :
    name ∈ fs.namesIn folder ↔ fs.stands (folder ++ [name]) = true := by
  rw [namesIn, List.mem_filter, List.mem_dedup, List.mem_filterMap, and_iff_right_iff_imp,
    stands_iff]
  rintro ⟨place, member, rest, rfl⟩
  refine ⟨_, member, ?_⟩
  rw [List.append_assoc, List.drop_left]
  rfl

/-- The most names in a location where something stands. -/
def longest (fs : FileSystem) : Nat :=
  (fs.places.map List.length).max (List.cons_ne_nil _ _)

theorem length_le_longest (present : fs.stands location = true) : location.length ≤ fs.longest := by
  obtain ⟨place, member, inside⟩ := stands_iff.1 present
  exact Nat.le_trans inside.length_le (List.le_max_of_mem (List.mem_map_of_mem member))

theorem exists_walk (fs : FileSystem) (folder : Location) : ∃ walk, fs.Walk folder walk := by
  have within : ∀ name, ∃ inner,
      (name ∈ fs.namesIn folder → fs.isFolder (folder ++ [name]) = true →
        fs.Walk (folder ++ [name]) inner) ∧
      (name ∈ fs.namesIn folder → fs.isFolder (folder ++ [name]) = false → inner = []) := by
    intro name
    by_cases walks : name ∈ fs.namesIn folder ∧ fs.isFolder (folder ++ [name]) = true
    · have deeper : folder.length < fs.longest := by
        have within := length_le_longest (mem_namesIn.1 walks.1)
        rwa [List.length_append, List.length_singleton] at within
      obtain ⟨inner, walked⟩ := exists_walk fs (folder ++ [name])
      exact ⟨inner, fun _ _ => walked, fun _ file => by simp [walks.2] at file⟩
    · exact ⟨[], fun member isFolder => absurd ⟨member, isFolder⟩ walks, fun _ _ => rfl⟩
  choose inner folders files using within
  exact ⟨_, .through ((List.nodup_dedup _).filter _) (fun _ => mem_namesIn) folders files (.refl _)⟩
termination_by fs.longest - folder.length
decreasing_by
  rw [List.length_append, List.length_singleton]
  omega

end ManifestOrder.FileSystem

import ManifestOrder.Manifest
import ManifestOrder.Proofs.Dependency.Order
import ManifestOrder.Proofs.FileSystem.Walk

/-!
# Searching a folder for manifests

A search finds the files below a folder whose names match a pattern, each of them once, in the order
of their components (`FoundBelow`). There is one such list, so it does not matter in which order a
walk through the folder comes by the files, in which order the files are kept, or how often and in
which order the patterns are given: `find_lists_manifests`.
-/

namespace ManifestOrder

open Dependency (stableSort stableSort_perm stableSort_sorted stableSort_of_sorted
  stableSort_eq_of_perm)

/-! ## The order of locations -/

/-- The names of a location, each by the code points of its characters. -/
def codePoints (location : Location) : List (List Nat) :=
  location.map fun name => name.toList.map Char.toNat

theorem map_lt_map_iff {α β : Type} [LT α] [LT β] {f : α → β}
    (less : ∀ a b, f a < f b ↔ a < b) (injective : ∀ a b, f a = f b ↔ a = b) (s t : List α) :
    s.map f < t.map f ↔ s < t := by
  induction s generalizing t with
  | nil => cases t <;> simp
  | cons a s ih =>
    cases t with
    | nil => simp
    | cons b t =>
      rw [List.map_cons, List.map_cons, List.cons_lt_cons_iff, List.cons_lt_cons_iff, less,
        injective, ih]

theorem compare_names_eq_lt_iff {a b : String} :
    compare a b = .lt ↔ a.toList.map Char.toNat < b.toList.map Char.toNat := by
  have letters : a.toList.map Char.toNat < b.toList.map Char.toNat ↔ a.toList < b.toList :=
    map_lt_map_iff (f := Char.toNat) (fun _ _ => Iff.rfl) (fun _ _ => Char.toNat_inj) _ _
  rw [letters]
  exact compareOfLessAndEq_eq_lt

theorem names_eq_iff {a b : String} :
    a.toList.map Char.toNat = b.toList.map Char.toNat ↔ a = b := by
  rw [List.map_inj_right fun _ _ => Char.toNat_inj.1, String.toList_inj]

/-- Locations are compared name by name, and names by the code points in them. -/
theorem compare_eq_lt_iff {a b : Location} :
    compare a b = .lt ↔ codePoints a < codePoints b := by
  unfold codePoints
  induction a generalizing b with
  | nil => cases b <;> simp
  | cons x a ih =>
    cases b with
    | nil => simp
    | cons y b =>
      rw [List.compare_cons_cons, Ordering.then_eq_lt, ih, compare_names_eq_lt_iff,
        Std.compare_eq_iff_eq, List.map_cons, List.map_cons, List.cons_lt_cons_iff, names_eq_iff]

/-! ## Sorted locations -/

theorem stableSort_increasing {locations : List Location} (once : locations.Nodup) :
    (stableSort compare locations).Pairwise fun a b => compare a b = .lt := by
  have sorted : (stableSort compare locations).Pairwise fun a b : Location =>
      (compare a b).isLE = true := stableSort_sorted locations
  have distinct := (stableSort_perm compare locations).nodup_iff.2 once
  refine (sorted.and distinct).imp ?_
  rintro a b ⟨before, differ⟩
  rcases Ordering.isLE_iff_eq_lt_or_eq_eq.1 before with less | tied
  · exact less
  · exact absurd (Std.LawfulEqOrd.eq_of_compare tied) differ

/-- Sorting makes one list of the same locations, each of them given once. -/
theorem stableSort_eq_of_mem_iff {locations others : List Location} (once : locations.Nodup)
    (once' : others.Nodup) (same : ∀ location, location ∈ locations ↔ location ∈ others) :
    stableSort compare locations = stableSort compare others :=
  stableSort_eq_of_perm ((List.perm_ext_iff_of_nodup once once').2 same)
    fun _ _ _ _ tied => Std.LawfulEqOrd.eq_of_compare tied

/-! ## The files below a folder -/

variable {fs : FileSystem} {folder location : Location} {patterns : List String}

theorem filesBelow_eq (fs : FileSystem) (folder : Location) :
    fs.filesBelow folder = fs.files.filterMap fun entry =>
      (folder.isPrefixOf? entry.1).filter fun location => !location.isEmpty := by
  refine List.filterMap_congr ?_
  intro entry _
  cases folder.isPrefixOf? entry.1 with
  | none => rfl
  | some location => cases location <;> rfl

theorem below_eq_some_iff {place : Location} :
    ((folder.isPrefixOf? place).filter fun location => !location.isEmpty) = some location ↔
      location ≠ [] ∧ folder ++ location = place := by
  simp [Option.filter_eq_some_iff, List.isPrefixOf?_eq_some_iff_append_eq, and_comm]

theorem mem_filesBelow :
    location ∈ fs.filesBelow folder ↔
      location ≠ [] ∧ (fs.file? (folder ++ location)).isSome = true := by
  rw [FileSystem.file?_isSome_iff, filesBelow_eq, List.mem_filterMap, List.mem_map]
  simp only [below_eq_some_iff]
  constructor
  · rintro ⟨entry, member, some, place⟩
    exact ⟨some, entry, member, place.symm⟩
  · rintro ⟨some, entry, member, place⟩
    exact ⟨entry, member, some, place.symm⟩

theorem filesBelow_nodup (distinct : fs.Distinct) (folder : Location) :
    (fs.filesBelow folder).Nodup := by
  rw [FileSystem.Distinct, List.Nodup, List.pairwise_map] at distinct
  rw [filesBelow_eq, List.Nodup, List.pairwise_filterMap]
  refine distinct.imp ?_
  intro entry other differ location here location' there same
  obtain ⟨-, place⟩ := below_eq_some_iff.1 here
  obtain ⟨-, place'⟩ := below_eq_some_iff.1 there
  exact differ (by rw [← place, ← place', same])

/-! ## The search -/

/-- The entry of a folder is a manifest: a file whose name matches a pattern. -/
def isManifestBelow (fs : FileSystem) (folder : Location) (patterns : List String)
    (location : Location) : Bool :=
  (fs.file? (folder ++ location)).isSome && isNamed patterns ⟨.here, location⟩

/-- The manifests below a folder, in the order in which the files are kept. -/
def manifestsBelow (fs : FileSystem) (folder : Location) (patterns : List String) :
    List Location :=
  (fs.filesBelow folder).filter fun location => isNamed patterns ⟨.here, location⟩

/-- What a search below a folder is to find, each file by its location from there. -/
structure FoundBelow (fs : FileSystem) (folder : Location) (patterns : List String)
    (found : List Location) : Prop where
  /-- The files below the folder whose last component matches one of the patterns. -/
  mem_iff : ∀ location, location ∈ found ↔ (fs.file? (folder ++ location)).isSome = true ∧
    ∃ name, location.getLast? = some name ∧ ∃ pattern ∈ patterns, Glob.accepts pattern name = true
  once : found.Nodup
  noFolder : ∀ location ∈ found, fs.isFolder (folder ++ location) = false
  /-- In whatever way the folder is written in front of them. -/
  increasing : ∀ front : List String,
    found.Pairwise fun a b => codePoints (front ++ a) < codePoints (front ++ b)

theorem find_texts (fs : FileSystem) (folder : Location) (patterns : List String) :
    Manifest.find fs folder (patterns.map .string) =
      .ok (stableSort compare (manifestsBelow fs folder patterns)) := by
  simp only [Manifest.find, isManifest_texts, filterOrFail_ok]
  rfl

theorem isNamed_congr {others : List String}
    (same : ∀ pattern, pattern ∈ others ↔ pattern ∈ patterns) (p : Path) :
    isNamed others p = isNamed patterns p := by
  rw [Bool.eq_iff_iff, isNamed, isNamed, List.any_eq_true, List.any_eq_true]
  simp only [same]

theorem isNamed_here (named : location ≠ []) :
    isNamed patterns ⟨.here, location⟩ = true ↔ ∃ name, location.getLast? = some name ∧
      ∃ pattern ∈ patterns, Glob.accepts pattern name = true := by
  rw [isNamed, List.any_eq_true, Path.name, List.getLast?_eq_some_getLast named]
  simp

theorem mem_manifestsBelow :
    location ∈ manifestsBelow fs folder patterns ↔
      location ≠ [] ∧ isManifestBelow fs folder patterns location = true := by
  rw [manifestsBelow, List.mem_filter, mem_filesBelow, isManifestBelow, Bool.and_eq_true,
    and_assoc]

theorem manifestsBelow_nodup (distinct : fs.Distinct) :
    (manifestsBelow fs folder patterns).Nodup :=
  (filesBelow_nodup distinct folder).filter _

theorem foundBelow_stableSort (distinct : fs.Distinct) (consistent : fs.Consistent) :
    FoundBelow fs folder patterns (stableSort compare (manifestsBelow fs folder patterns)) := by
  have found : ∀ {location}, location ∈ stableSort compare (manifestsBelow fs folder patterns) ↔
      location ≠ [] ∧ isManifestBelow fs folder patterns location = true :=
    (stableSort_perm _ _).mem_iff.trans mem_manifestsBelow
  simp only [isManifestBelow, Bool.and_eq_true] at found
  refine ⟨?_, (stableSort_perm _ _).nodup_iff.2 (manifestsBelow_nodup distinct), ?_, ?_⟩
  · intro location
    rw [found]
    constructor
    · rintro ⟨named, file, accepted⟩
      exact ⟨file, (isNamed_here named).1 accepted⟩
    · rintro ⟨file, name, last, accepted⟩
      have named : location ≠ [] := List.getLast?_isSome.1 (by rw [last, Option.isSome_some])
      exact ⟨named, file, (isNamed_here named).2 ⟨name, last, accepted⟩⟩
  · intro location member
    exact consistent _ (found.1 member).2.1
  · intro front
    refine (stableSort_increasing (manifestsBelow_nodup distinct)).imp ?_
    intro a b less
    rw [codePoints, codePoints, List.map_append, List.map_append]
    exact List.append_left_lt (compare_eq_lt_iff.1 less)

/-- The manifests that a walk comes by are sorted to what is found, and so are those of another file
system with the same files below the folder, by patterns that are given otherwise. -/
theorem find_lists_manifests (distinct : fs.Distinct) (consistent : fs.Consistent)
    (folder : Location) (patterns : List String) :
    ∃ found, Manifest.find fs folder (patterns.map .string) = .ok found ∧
      FoundBelow fs folder patterns found ∧
      (∀ walk, fs.Walk folder walk →
        stableSort compare (walk.filter (isManifestBelow fs folder patterns)) = found) ∧
      ∀ (other : FileSystem) (others : List String), other.Distinct →
        (∀ location, (other.file? (folder ++ location)).isSome =
          (fs.file? (folder ++ location)).isSome) →
        (∀ pattern, pattern ∈ others ↔ pattern ∈ patterns) →
        Manifest.find other folder (others.map .string) = .ok found := by
  refine ⟨_, find_texts fs folder patterns, foundBelow_stableSort distinct consistent, ?_, ?_⟩
  · intro walk walked
    refine stableSort_eq_of_mem_iff (walked.nodup.filter _) (manifestsBelow_nodup distinct) ?_
    intro location
    rw [List.mem_filter, walked.mem_iff, mem_manifestsBelow, and_assoc, and_congr_right_iff]
    intro _
    rw [and_iff_right_iff_imp]
    intro manifest
    rw [FileSystem.stands, (Bool.and_eq_true_iff.1 manifest).1, Bool.true_or]
  · intro other others distinct' sameFiles samePatterns
    rw [find_texts]
    congr 1
    refine stableSort_eq_of_mem_iff (manifestsBelow_nodup distinct')
      (manifestsBelow_nodup distinct) ?_
    intro location
    rw [mem_manifestsBelow, mem_manifestsBelow, isManifestBelow, isManifestBelow, sameFiles,
      isNamed_congr samePatterns]

/-- Two modules, one of them with the other's name in front of its own, and a folder that is called
like a manifest. -/
def twoModules : FileSystem where
  files := [(["w", "lib-core", "pom.xml"], .empty), (["w", "parent.pom"], .empty),
    (["w", "lib", "pom.xml"], .empty), (["w", "old.pom", "notes"], .empty)]

theorem twoModules_consistent : twoModules.Consistent := by
  intro location file
  rw [FileSystem.file?_isSome_iff] at file
  simp only [twoModules, List.map_cons, List.map_nil, List.mem_cons, List.not_mem_nil, or_false]
    at file
  rcases file with rfl | rfl | rfl | rfl <;> decide

theorem find_twoModules :
    Manifest.find twoModules ["w"] (["pom.xml", "*.pom", "pom.*"].map .string) =
      .ok [["lib", "pom.xml"], ["lib-core", "pom.xml"], ["parent.pom"]] := by
  have kept : manifestsBelow twoModules ["w"] ["pom.xml", "*.pom", "pom.*"] =
      [["lib-core", "pom.xml"], ["parent.pom"], ["lib", "pom.xml"]] := by
    decide +kernel
  have sorted : Dependency.Sorted compare
      ([["lib", "pom.xml"], ["lib-core", "pom.xml"], ["parent.pom"]] : List Location) := by
    rw [Dependency.Sorted]
    decide
  rw [find_texts, kept, ← stableSort_of_sorted sorted]
  congr 1
  refine stableSort_eq_of_mem_iff (by decide) (by decide) ?_
  grind

theorem find_lists_twoModules :
    twoModules.Distinct ∧ twoModules.Consistent ∧
    FoundBelow twoModules ["w"] ["pom.xml", "*.pom", "pom.*"]
      [["lib", "pom.xml"], ["lib-core", "pom.xml"], ["parent.pom"]] ∧
    (∃ walk, twoModules.Walk ["w"] walk ∧
      stableSort compare
          (walk.filter (isManifestBelow twoModules ["w"] ["pom.xml", "*.pom", "pom.*"])) =
        [["lib", "pom.xml"], ["lib-core", "pom.xml"], ["parent.pom"]]) ∧
    Manifest.find { twoModules with files := twoModules.files.reverse } ["w"]
        (["pom.*", "pom.*", "*.pom", "pom.xml"].map .string) =
      .ok [["lib", "pom.xml"], ["lib-core", "pom.xml"], ["parent.pom"]] := by
  have distinct : twoModules.Distinct := by decide
  obtain ⟨found, listed, below, walks, others⟩ :=
    find_lists_manifests distinct twoModules_consistent ["w"] ["pom.xml", "*.pom", "pom.*"]
  obtain rfl := Except.ok.inj (find_twoModules.symm.trans listed)
  obtain ⟨walk, walked⟩ := twoModules.exists_walk ["w"]
  refine ⟨distinct, twoModules_consistent, below, ⟨walk, walked, walks walk walked⟩,
    others _ _ (by decide) ?_ (by grind)⟩
  intro location
  rw [Bool.eq_iff_iff, FileSystem.file?_isSome_iff, FileSystem.file?_isSome_iff, List.map_reverse,
    List.mem_reverse]

end ManifestOrder

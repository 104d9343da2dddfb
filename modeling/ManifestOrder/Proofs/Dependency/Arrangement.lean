import ManifestOrder.Proofs.Dependency.Fix

/-!
# Entries in another arrangement

Two manifests with the same gaps and the same entries, in whatever arrangement, are fixed to the same
text if no two entries have the same ids (`fix_arrangement_independent`). Entries with the same text
have the same ids, in whichever manifest they stand. So the ids order the texts of the entries
(`BelongsBefore`), and there is one way to put texts into an order without ties.
-/

namespace ManifestOrder.Dependency

open Text (weave)
open Xml (Document)

section
variable {cmp : Comparator} {records others : List Record}

/-- The entries with these two texts belong in this order. -/
def BelongsBefore (cmp : Comparator) (records : List Record) (x y : List Char) : Prop :=
  ∀ a ∈ records, ∀ b ∈ records, a.text = x → b.text = y → (cmp a b).isLE = true

/-- Sorted records show the order of the texts, be they these records or others that say the
same. -/
theorem Sorted.texts (looks : cmp.LooksAtIds) (sorted : Sorted cmp others)
    (alike : ∀ a ∈ records, ∀ o ∈ others, a.text = o.text → a.ids = o.ids) :
    (others.map Record.text).Pairwise (BelongsBefore cmp records) := by
  rw [List.pairwise_map]
  refine List.Pairwise.imp_of_mem ?_ sorted
  intro o p o_mem p_mem before a a_mem b b_mem first second
  rw [looks (alike a a_mem o o_mem first) (alike b b_mem p p_mem second)]
  exact before

/-- Texts without ties are put into order in one way. -/
theorem stableSort_texts_unique [Std.TransCmp cmp] (looks : cmp.LooksAtIds)
    (same : (records.map Record.text).Perm (others.map Record.text))
    (alike : ∀ a ∈ records, ∀ b ∈ records, a.text = b.text → a.ids = b.ids)
    (alike' : ∀ a ∈ records, ∀ o ∈ others, a.text = o.text → a.ids = o.ids)
    (untied : ∀ a ∈ records, ∀ b ∈ records, cmp a b = .eq → a.text = b.text) :
    (stableSort cmp records).map Record.text = (stableSort cmp others).map Record.text := by
  have here := stableSort_perm cmp records
  have there := stableSort_perm cmp others
  have first : ((stableSort cmp records).map Record.text).Pairwise (BelongsBefore cmp records) :=
    (stableSort_sorted records).texts looks fun a a_mem o o_mem =>
      alike a a_mem o (here.mem_iff.1 o_mem)
  have second : ((stableSort cmp others).map Record.text).Pairwise (BelongsBefore cmp records) :=
    (stableSort_sorted others).texts looks fun a a_mem o o_mem =>
      alike' a a_mem o (there.mem_iff.1 o_mem)
  have texts := (here.map Record.text).trans (same.trans (there.map Record.text).symm)
  refine texts.eq_of_pairwise ?_ first second
  intro x y x_mem y_mem before behind
  obtain ⟨a, a_mem, rfl⟩ := List.mem_map.1 x_mem
  obtain ⟨b, b_mem, rfl⟩ := List.mem_map.1 (texts.mem_iff.2 y_mem)
  rw [here.mem_iff] at a_mem b_mem
  have tied : cmp a b = .eq :=
    Std.OrientedCmp.isLE_antisymm (before a a_mem b b_mem rfl rfl) (behind b b_mem a a_mem rfl rfl)
  exact untied a a_mem b b_mem tied

end

/-! ## The standard order of the records of a manifest -/

/-- Records that were read lack no id. -/
theorem extract?_ids {text : List Char} {list : DependencyList}
    (read : extract? text = some list) :
    ∀ r ∈ list.records, ∃ group artifact, r.ids = (some group, some artifact) := by
  obtain ⟨d, document, rfl⟩ := extract?_eq_some read
  intro r member
  obtain ⟨e, -, rfl⟩ := exists_element (Document.ofText?_sound document).2 r member
  exact ⟨_, _, rfl⟩

/-- The standard order ties records only if they have the same ids. -/
theorem ids_eq_of_standard_eq {a b : Record} {group artifact group' artifact' : String}
    (first : a.ids = (some group, some artifact)) (second : b.ids = (some group', some artifact'))
    (tied : Comparator.standard a b = .eq) : a.ids = b.ids := by
  simp only [Record.ids, Prod.mk.injEq] at first second
  simp only [Comparator.standard, Comparator.andThen, Comparator.byGroup, Comparator.byArtifact,
    first, second, Option.getD_some, Ordering.then_eq_eq, Std.compare_eq_iff_eq] at tied
  simp only [Record.ids, first, second, tied]

/-- Records of different ids are one and the same if their ids are. -/
theorem eq_of_ids_eq {records : List Record}
    (distinct : records.Pairwise fun a b => a.ids ≠ b.ids) {a b : Record} (a_mem : a ∈ records)
    (b_mem : b ∈ records) (same : a.ids = b.ids) : a = b := by
  refine List.Pairwise.forall_of_forall_of_flip (R := fun a b => a.ids = b.ids → a = b)
    (fun _ _ _ => rfl) ?_ ?_ a_mem b_mem same
  · exact distinct.imp fun differ same => absurd same differ
  · exact distinct.imp fun differ same => absurd same.symm differ

/-- The fixed text does not depend on the arrangement in which the entries were written. -/
theorem fix_arrangement_independent {text other : List Char} {list list' : DependencyList}
    (read : extract? text = some list) (read' : extract? other = some list')
    {gaps : List (List Char)} (laid : Laid gaps text list.records)
    (laid' : Laid gaps other list'.records)
    (same : (list.records.map Record.text).Perm (list'.records.map Record.text))
    (distinct : list.records.Pairwise fun a b =>
      (a.groupId, a.artifactId) ≠ (b.groupId, b.artifactId)) :
    ∃ fixed fixed', fixText .standard text = .ok fixed ∧ fixText .standard other = .ok fixed' ∧
      fixed.source = fixed'.source := by
  refine ⟨_, _, fixText_laid read laid _, fixText_laid read' laid' _, ?_⟩
  have alike : ∀ {m : DependencyList} {u : List Char}, extract? u = some m →
      ∀ a ∈ list.records, ∀ o ∈ m.records, a.text = o.text → a.ids = o.ids := by
    intro m u found a a_mem o o_mem equal
    exact congrArg Prod.snd (extract?_entry_eq read found a_mem o_mem equal)
  have untied : ∀ a ∈ list.records, ∀ b ∈ list.records,
      Comparator.standard a b = .eq → a.text = b.text := by
    intro a a_mem b b_mem tied
    obtain ⟨_, _, first⟩ := extract?_ids read a a_mem
    obtain ⟨_, _, second⟩ := extract?_ids read b b_mem
    rw [eq_of_ids_eq distinct a_mem b_mem (ids_eq_of_standard_eq first second tied)]
  exact congrArg (weave gaps) (stableSort_texts_unique Comparator.standard_looksAtIds same
    (alike read) (alike read') untied)

/-! ### Three entries -/

def threeGaps : List (List Char) :=
  ["<project><dependencies>".toList, " ".toList, "\n".toList, "</dependencies></project>".toList]

def entryA : List Char := "<dependency><groupId>a</groupId></dependency>".toList

def entryB : List Char := "<dependency><groupId>b</groupId></dependency>".toList

/-- An entry without a group, which belongs first. -/
def entryC : List Char := "<dependency><artifactId>c</artifactId></dependency>".toList

def recordAt (start line : Int) (text : List Char) (group artifact : String) : Record where
  span := ⟨start, start + text.length⟩
  text := text
  groupId := some group
  artifactId := some artifact
  line := line

/-- The records of the arrangement b, c, a. -/
def listBCA : DependencyList where
  records := [recordAt 23 1 entryB "b" "", recordAt 69 1 entryC "" "c", recordAt 121 2 entryA "a" ""]
  container := some ⟨9, 181⟩
  containerLine := 1

/-- The records of the arrangement a, b, c. -/
def listABC : DependencyList where
  records := [recordAt 23 1 entryA "a" "", recordAt 69 1 entryB "b" "", recordAt 115 2 entryC "" "c"]
  container := some ⟨9, 181⟩
  containerLine := 1

theorem fix_arrangement_independent_three : ∃ fixed fixed',
    extract? (weave threeGaps [entryB, entryC, entryA]) = some listBCA ∧
    extract? (weave threeGaps [entryA, entryB, entryC]) = some listABC ∧
    fixText .standard (weave threeGaps [entryB, entryC, entryA]) = .ok fixed ∧
    fixText .standard (weave threeGaps [entryA, entryB, entryC]) = .ok fixed' ∧
    fixed.source = fixed'.source := by
  have read : extract? (weave threeGaps [entryB, entryC, entryA]) = some listBCA := by
    decide +kernel
  have read' : extract? (weave threeGaps [entryA, entryB, entryC]) = some listABC := by
    decide +kernel
  have laid : Laid threeGaps (weave threeGaps [entryB, entryC, entryA]) listBCA.records :=
    ⟨rfl, rfl, by decide⟩
  have laid' : Laid threeGaps (weave threeGaps [entryA, entryB, entryC]) listABC.records :=
    ⟨rfl, rfl, by decide⟩
  have same : [entryB, entryC, entryA].Perm [entryA, entryB, entryC] := by decide
  have distinct : listBCA.records.Pairwise fun a b =>
      (a.groupId, a.artifactId) ≠ (b.groupId, b.artifactId) := by decide
  obtain ⟨fixed, fixed', done, done', equal⟩ :=
    fix_arrangement_independent read read' laid laid' same distinct
  exact ⟨fixed, fixed', read, read', done, done', equal⟩

end ManifestOrder.Dependency

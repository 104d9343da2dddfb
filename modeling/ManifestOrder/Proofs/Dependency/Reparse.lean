import ManifestOrder.Proofs.Dependency.Fix

/-!
# Reading a fixed manifest

A manifest whose records are in order is left as it is (`fixText_of_sorted`), and no other one is:
entries with the same text have the same ids, so a plan that moves nothing shows that the records
are in order (`violation_iff_plan`).

The text of a fixed manifest has the same records in their sorted order, in the same slots, and is
in order itself (`fix_reparse`). An empty section could spoil this, as the text behind it decides
where it ends; so there must be none.
-/

namespace ManifestOrder.Dependency

open Text (weave)
open Xml (Document)

/-! ## Manifests in order -/

theorem misplaced_of_sorted {cmp : Comparator} {records : List Record}
    (sorted : Sorted cmp records) : misplaced cmp records = 0 :=
  misplaced_eq_zero_iff.2 (by rw [stableSort_of_sorted sorted])

theorem fixText_of_sorted {cmp : Comparator} {text : List Char} {list : DependencyList}
    (read : extract? text = some list) (sorted : Sorted cmp list.records) :
    fixText cmp text = .ok ⟨text, 0⟩ := by
  obtain ⟨gaps, laid⟩ := extract?_laid read
  rw [fixText_laid read laid, misplaced_of_sorted sorted, stableSort_of_sorted sorted,
    ← laid.source]

/-- Records whose texts agree one by one, and which say the same where their texts agree. -/
theorem map_entry_of_text {first second : List Record}
    (alike : ∀ a ∈ first, ∀ b ∈ second, a.text = b.text → a.entry = b.entry)
    (texts : first.map Record.text = second.map Record.text) :
    first.map Record.entry = second.map Record.entry := by
  induction first generalizing second with
  | nil =>
    obtain rfl : second = [] := List.map_eq_nil_iff.1 texts.symm
    rfl
  | cons a first ih =>
    obtain ⟨b, second, rfl, head, tail⟩ := List.map_eq_cons_iff.1 texts.symm
    have others := ih (fun c c_mem d d_mem =>
      alike c (List.mem_cons_of_mem a c_mem) d (List.mem_cons_of_mem b d_mem)) tail.symm
    rw [List.map_cons, List.map_cons, others,
      alike a List.mem_cons_self b List.mem_cons_self head.symm]

section
variable {cmp : Comparator} [Std.TransCmp cmp] {text : List Char} {list : DependencyList}

/-- A plan that moves nothing is one for records in order. -/
theorem sorted_of_plan_eq_nil (looks : cmp.LooksAtIds) (read : extract? text = some list)
    (none : plan cmp list.records = []) : Sorted cmp list.records := by
  obtain ⟨gaps, laid⟩ := extract?_laid read
  rw [← List.length_eq_zero_iff, plan_length laid] at none
  have texts := misplaced_eq_zero_iff.1 none
  -- The texts of the sorted records are those of the records, so what they say is the same, too.
  have alike : ∀ a ∈ stableSort cmp list.records, ∀ b ∈ list.records, a.text = b.text →
      a.entry = b.entry := by
    intro a a_mem b b_mem
    exact extract?_entry_eq read read ((stableSort_perm cmp list.records).mem_iff.1 a_mem) b_mem
  have entries := map_entry_of_text alike texts
  exact sorted_congr looks (Record.map_ids_of_entry entries) (stableSort_sorted list.records)

theorem plan_eq_nil_iff (looks : cmp.LooksAtIds) (read : extract? text = some list) :
    plan cmp list.records = [] ↔ Sorted cmp list.records := by
  constructor
  · exact sorted_of_plan_eq_nil looks read
  · intro sorted
    obtain ⟨gaps, laid⟩ := extract?_laid read
    rw [← List.length_eq_zero_iff, plan_length laid, misplaced_of_sorted sorted]

/-- The scan finds a violation exactly when the plan moves something. -/
theorem violation_iff_plan (looks : cmp.LooksAtIds) (read : extract? text = some list) :
    firstViolation cmp list.records ≠ none ↔ plan cmp list.records ≠ [] := by
  rw [Ne, Ne, firstViolation_eq_none_iff, plan_eq_nil_iff looks read]

/-! ## Reading a fixed manifest again -/

/-- The records of a sorted document are in order. -/
theorem sortedDocument_sorted (looks : cmp.LooksAtIds) (d : Document) :
    Sorted cmp (DependencyList.ofDocument (sortedDocument cmp d)).records :=
  sorted_congr looks (Record.map_ids_of_entry (sorted_entries cmp d)).symm (stableSort_sorted _)

/-- A fixed manifest without empty sections has the records of the old one, in order, between the
gaps of the old one, and is left as it is by a second fix. -/
theorem fix_reparse (looks : cmp.LooksAtIds) (read : extract? text = some list)
    (free : ¬ "<![CDATA[]]>".toList <:+: text) :
    ∃ fixed list' gaps, fixText cmp text = .ok fixed ∧ extract? fixed.source = some list' ∧
      list'.records.length = list.records.length ∧
      (list'.records.map fun r => (r.text, r.groupId, r.artifactId)) =
        ((stableSort cmp list.records).map fun r => (r.text, r.groupId, r.artifactId)) ∧
      Laid gaps text list.records ∧ Laid gaps fixed.source list'.records ∧
      list'.container = list.container ∧ list'.containerLine = list.containerLine ∧
      firstViolation cmp list'.records = none ∧
      ∃ again, fixText cmp fixed.source = .ok again ∧ again.source = fixed.source ∧
        again.modified = false := by
  obtain ⟨d, document, rfl⟩ := extract?_eq_some read
  obtain ⟨rfl, -⟩ := Document.ofText?_sound document
  obtain ⟨gaps, before, after⟩ := sorted_laid cmp d
  obtain ⟨container, line⟩ := sorted_container cmp d
  have entries := sorted_entries cmp d
  have sorted := sortedDocument_sorted looks d
  have again := extract?_of_document
    ((ofText?_sorted_iff document).2 (sorted_settled free cmp d.trailing))
  have count := congrArg List.length entries
  rw [List.length_map, List.length_map, stableSort_length] at count
  exact ⟨_, _, gaps, fixText_document document cmp, again, count, entries, before, after,
    container, line, firstViolation_eq_none_iff.2 sorted, _, fixText_of_sorted again sorted, rfl,
    rfl⟩

end

/-- A manifest with two entries that stand the wrong way round. -/
def swapped : List Char :=
  ("<project><dependencies><dependency><groupId>b</groupId></dependency> " ++
    "<dependency><groupId>a</groupId></dependency></dependencies></project>").toList

theorem swapped_free : ¬ Xml.emptySection.text <:+: swapped := by
  decide +kernel

theorem swapped_violation : ∃ list, extract? swapped = some list ∧
    firstViolation Comparator.standard list.records ≠ none := by
  have found : ((extract? swapped).map fun list =>
      firstViolation Comparator.standard list.records) = some (some 1) := by
    decide +kernel
  obtain ⟨list, read, violation⟩ := Option.map_eq_some_iff.1 found
  exact ⟨list, read, by simp [violation]⟩

theorem fix_reparse_swapped : ∃ list fixed list', extract? swapped = some list ∧
    firstViolation Comparator.standard list.records ≠ none ∧
    fixText .standard swapped = .ok fixed ∧ extract? fixed.source = some list' ∧
    firstViolation Comparator.standard list'.records = none := by
  obtain ⟨list, read, violation⟩ := swapped_violation
  obtain ⟨fixed, list', gaps, ok, again, -, -, -, -, -, -, sorted, -⟩ :=
    fix_reparse Comparator.standard_looksAtIds read swapped_free
  exact ⟨list, fixed, list', read, violation, ok, again, sorted⟩

end ManifestOrder.Dependency

import ManifestOrder.Proofs.Dependency.Fix

/-!
# Fixes that change the text

The fixer counts the entries it moves. Where no empty section stands in a text, the count is zero
exactly when the text stays as it is (`fixText_source_eq_iff`). For no entry begins another one
(`extract?_prefixFree`): an element is read to its end whatever stands behind it. So the first entry
that is exchanged for another one shows in the text, however many are moved. A fix of a buffer is
recorded in the same case (`fixBuffer_history`).
-/

namespace ManifestOrder.Dependency

open Edit (Buffer)
open Text (PrefixFree weave)
open Xml (Document emptySection)

variable {text : List Char} {list : DependencyList}

/-- Each record is read from an element that would be read in front of any text. -/
theorem exists_settled_element (read : extract? text = some list)
    (free : ¬ emptySection.text <:+: text) :
    ∀ r ∈ list.records, ∃ e : Xml.Element, e.source = r.text ∧ e.StandsBefore [] ∧
      ∀ next, e.isSettled next = true := by
  obtain ⟨gaps, laid⟩ := extract?_laid read
  obtain ⟨d, document, rfl⟩ := extract?_eq_some read
  intro r member
  obtain ⟨e, stands, rfl⟩ := exists_element (Document.ofText?_sound document).2 r member
  have inside : e.source <:+: text := by
    rw [laid.source]
    exact Text.infix_weave laid.texts_count e.source (List.mem_map_of_mem member)
  refine ⟨e.element, rfl, stands, fun next => Xml.Element.isSettled_of_leaves ?_ next⟩
  intro empty
  exact free ((Xml.Element.infix_of_mem_leaves empty).trans inside)

/-- Without empty sections no entry begins another one. -/
theorem extract?_prefixFree (read : extract? text = some list)
    (free : ¬ emptySection.text <:+: text) : PrefixFree (list.records.map Record.text) := by
  intro a a_mem b b_mem begins
  obtain ⟨r, r_mem, rfl⟩ := List.mem_map.1 a_mem
  obtain ⟨s, s_mem, rfl⟩ := List.mem_map.1 b_mem
  obtain ⟨e, e_text, here, settled⟩ := exists_settled_element read free r r_mem
  obtain ⟨e', e'_text, there, -⟩ := exists_settled_element read free s s_mem
  rw [← e_text, ← e'_text] at begins ⊢
  rw [here.eq_of_prefix settled there begins]

/-- The sorted entries give the text itself exactly when none of them is misplaced. -/
theorem weave_sorted_eq_iff (read : extract? text = some list)
    (free : ¬ emptySection.text <:+: text) {gaps : List (List Char)}
    (laid : Laid gaps text list.records) (cmp : Comparator) :
    weave gaps ((stableSort cmp list.records).map Record.text) = text ↔
      misplaced cmp list.records = 0 := by
  rw [misplaced_eq_zero_iff]
  constructor
  · intro same
    rw [laid.source] at same
    have sorted := (stableSort_perm cmp list.records).map Record.text
    have room := sorted.length_eq
    exact (extract?_prefixFree read free).weave_injective (room ▸ laid.texts_count) room.symm
      sorted.subset (List.Subset.refl _) same
  · intro same
    rw [same, ← laid.source]

/-- The fixer says that it changed the text exactly when it did. -/
theorem fixText_source_eq_iff (read : extract? text = some list)
    (free : ¬ emptySection.text <:+: text) (cmp : Comparator) :
    ∃ fixed, fixText cmp text = .ok fixed ∧ (fixed.modified = true ↔ fixed.source ≠ text) := by
  obtain ⟨gaps, laid⟩ := extract?_laid read
  refine ⟨_, fixText_laid read laid cmp, ?_⟩
  rw [Fixed.modified, decide_eq_true_iff, Nat.pos_iff_ne_zero, Ne,
    ← weave_sorted_eq_iff read free laid cmp]

/-- A fix of a buffer is recorded exactly when it makes edits. -/
theorem fixBuffer_history {b : Buffer} (closed : b.inTransaction = false)
    (read : extract? b.text = some list) (free : ¬ emptySection.text <:+: b.text)
    (cmp : Comparator) :
    ∃ edited count, fixBuffer cmp b = .ok (edited, count) ∧
      edited.history =
        if count = 0 then b.history else (some Edit.sortActionName, b.text) :: b.history := by
  obtain ⟨gaps, laid⟩ := extract?_laid read
  refine ⟨_, _, fixBuffer_laid closed read laid cmp, ?_⟩
  simp only [Buffer.commit, weave_sorted_eq_iff read free laid cmp]

end ManifestOrder.Dependency

import ManifestOrder.Proofs.Dependency.SortedDocument
import ManifestOrder.Dependency.Fix

/-!
# Fixing a manifest

The plan for the records of a text is a list of edits of slots (`plan_eq_edits`), so it is never
refused. What comes out is the text of the sorted document (`fixText_document`): the gaps stay, and
each slot holds the entry that belongs there (`fix_nondestructive`).
-/

namespace ManifestOrder.Dependency

open Edit (Buffer Replacement edits slots)
open Text (weave)
open Xml (Document)

/-! ## Planning -/

theorem filterMap_eq_edits {offset : Nat} {gaps : List (List Char)} {records news : List Record}
    (count : gaps.length = records.length + 1) (same : news.length = records.length)
    (spans : records.map Record.span = slots offset gaps (records.map Record.text)) :
    ((records.zip news).filterMap fun (old, new) =>
      if old.text = new.text then none else some (Replacement.mk old.span new.text)) =
      edits offset gaps (records.map Record.text) (news.map Record.text) := by
  induction records generalizing offset gaps news with
  | nil =>
    obtain rfl : news = [] := List.length_eq_zero_iff.1 same
    cases gaps <;> rfl
  | cons old records ih =>
    obtain ⟨gap, gaps, rfl⟩ := List.exists_cons_of_length_eq_add_one count
    obtain ⟨new, news, rfl⟩ := List.exists_cons_of_length_eq_add_one same
    simp only [List.map_cons, slots, List.cons.injEq] at spans
    have others := ih (by simpa using count) (by simpa using same) spans.2
    rw [List.zip_cons_cons, List.filterMap_cons, others]
    simp only [List.map_cons, edits, spans.1]
    by_cases equal : old.text = new.text
    · rw [if_pos equal, if_pos equal]
    · rw [if_neg equal, if_neg equal]

theorem plan_eq_edits {gaps : List (List Char)} {text : List Char} {records : List Record}
    (laid : Laid gaps text records) (cmp : Comparator) :
    plan cmp records = edits 0 gaps (records.map Record.text)
      ((stableSort cmp records).map Record.text) :=
  filterMap_eq_edits laid.count (stableSort_length cmp records) laid.spans

/-- The number of entries that do not stand where they belong. -/
def misplaced (cmp : Comparator) (records : List Record) : Nat :=
  (records.zip (stableSort cmp records)).countP fun (old, new) => decide (old.text ≠ new.text)

theorem plan_length {gaps : List (List Char)} {text : List Char} {records : List Record}
    (laid : Laid gaps text records) (cmp : Comparator) :
    (plan cmp records).length = misplaced cmp records := by
  rw [plan_eq_edits laid, Edit.edits_length laid.texts_count, List.zip_map, List.countP_map]
  rfl

theorem countP_text_ne_eq_zero_iff {olds news : List Record} (same : news.length = olds.length) :
    ((olds.zip news).countP fun (old, new) => decide (old.text ≠ new.text)) = 0 ↔
      news.map Record.text = olds.map Record.text := by
  induction olds generalizing news with
  | nil =>
    obtain rfl : news = [] := List.length_eq_zero_iff.1 same
    simp
  | cons old olds ih =>
    obtain ⟨new, news, rfl⟩ := List.exists_cons_of_length_eq_add_one same
    have others := ih (by simpa using same)
    rw [List.zip_cons_cons, List.countP_cons, Nat.add_eq_zero_iff, others, List.map_cons,
      List.map_cons, List.cons.injEq]
    by_cases equal : old.text = new.text
    · simp [equal]
    · simp [equal, Ne.symm equal]

/-- Nothing is misplaced when each slot holds the text that belongs there. -/
theorem misplaced_eq_zero_iff {cmp : Comparator} {records : List Record} :
    misplaced cmp records = 0 ↔
      (stableSort cmp records).map Record.text = records.map Record.text :=
  countP_text_ne_eq_zero_iff (stableSort_length cmp records)

/-! ## Fixing -/

theorem fixText_malformed {text : List Char} (malformed : extract? text = none)
    (cmp : Comparator) : fixText cmp text = .error .malformed := by
  unfold fixText fixBuffer planText
  rw [malformed]

/-- The slots of a text receive the entries that belong there. -/
theorem fixBuffer_laid {b : Buffer} (closed : b.inTransaction = false) {list : DependencyList}
    {gaps : List (List Char)} (read : extract? b.text = some list)
    (laid : Laid gaps b.text list.records) (cmp : Comparator) :
    fixBuffer cmp b = .ok (
      ({ b with text := weave gaps ((stableSort cmp list.records).map Record.text) } : Buffer).commit
        (some Edit.sortActionName) b.text, misplaced cmp list.records) := by
  have same : ((stableSort cmp list.records).map Record.text).length =
      (list.records.map Record.text).length := by
    rw [List.length_map, List.length_map, stableSort_length]
  have filled : ∀ old ∈ list.records.map Record.text, old ≠ [] := by
    intro old member
    obtain ⟨r, inside, rfl⟩ := List.mem_map.1 member
    exact extract?_filled read r inside
  have applied := Edit.apply_edits closed laid.source laid.texts_count same filled
    (some Edit.sortActionName)
  rw [← plan_eq_edits laid] at applied
  unfold fixBuffer planText
  simp only [read, applied, plan_length laid]

theorem fixText_laid {text : List Char} {list : DependencyList} {gaps : List (List Char)}
    (read : extract? text = some list) (laid : Laid gaps text list.records) (cmp : Comparator) :
    fixText cmp text = .ok ⟨weave gaps ((stableSort cmp list.records).map Record.text),
      misplaced cmp list.records⟩ := by
  have fixed := @fixBuffer_laid { text } rfl list gaps read laid cmp
  unfold fixText
  rw [fixed]
  rfl

/-- What can be fixed is a document, and is fixed to its own characters in another order. -/
theorem fixText_eq_ok {cmp : Comparator} {text : List Char} {fixed : Fixed}
    (done : fixText cmp text = .ok fixed) :
    ∃ list, extract? text = some list ∧ fixed.source.Perm text := by
  cases read : extract? text with
  | none =>
    rw [fixText_malformed read] at done
    cases done
  | some list =>
    obtain ⟨gaps, laid⟩ := extract?_laid read
    rw [fixText_laid read laid] at done
    obtain rfl := Except.ok.inj done
    refine ⟨list, rfl, ?_⟩
    conv => rhs; rw [laid.source]
    exact Text.weave_perm_perm laid.texts_count ((stableSort_perm cmp _).map Record.text)

/-- What comes out is the text of the sorted document. -/
theorem fixText_document {text : List Char} {d : Document}
    (read : Document.ofText? text = some d) (cmp : Comparator) :
    fixText cmp text = .ok ⟨(sortedDocument cmp d).source,
      misplaced cmp (DependencyList.ofDocument d).records⟩ := by
  obtain ⟨gaps, before, after⟩ := sorted_laid cmp d
  rw [← (Document.ofText?_sound read).1] at before
  rw [fixText_laid (extract?_of_document read) before, after.source,
    Record.map_text_of_entry (sorted_entries cmp d)]

/-- A manifest is refused only when it is malformed. In any other one each slot receives the entry
that belongs there, and everything else stays as it is. -/
theorem fix_nondestructive (cmp : Comparator) (text : List Char) :
    match extract? text with
    | none => fixText cmp text = .error .malformed
    | some list => ∃ gaps fixed, Laid gaps text list.records ∧ fixText cmp text = .ok fixed ∧
        fixed.source = weave gaps ((stableSort cmp list.records).map Record.text) ∧
        (stableSort cmp list.records).Perm list.records ∧
        fixed.source.length = text.length ∧
        (∀ span, list.container = some span →
          fixed.source.take span.start.toNat = text.take span.start.toNat ∧
          fixed.source.drop span.stop.toNat = text.drop span.stop.toNat) ∧
        fixed.replacements = (list.records.zip (stableSort cmp list.records)).countP
          fun (old, new) => decide (old.text ≠ new.text) := by
  cases read : extract? text with
  | none => exact fixText_malformed read cmp
  | some list =>
    obtain ⟨gaps, laid⟩ := extract?_laid read
    have sorted := stableSort_perm cmp list.records
    refine ⟨gaps, _, laid, fixText_laid read laid cmp, rfl, sorted, ?_, ?_, rfl⟩
    · conv => rhs; rw [laid.source]
      exact Text.weave_length_perm laid.texts_count (sorted.map Record.text)
    · -- the woven text is that of the sorted document, which keeps what is around its list
      intro span contained
      obtain ⟨d, document, rfl⟩ := extract?_eq_some read
      have whole := fixText_document document cmp
      rw [fixText_laid read laid, Except.ok.injEq, Fixed.mk.injEq] at whole
      obtain ⟨rfl, -⟩ := Document.ofText?_sound document
      rw [whole.1]
      exact sorted_outside cmp contained

end ManifestOrder.Dependency

import ManifestOrder.Proofs.Dependency.Reparse
import ManifestOrder.Lint.Engine

/-!
# The linter and the fixer

1. `lint_agrees_with_fix`: the linter complains about a manifest exactly when the fixer changes it.
2. `fix_converges_iff`: when the fixed manifest is one that both leave alone. It is if the sorted
   document can be read from its own text. It need not be otherwise: an empty section in an entry
   that is moved in front of a mark swallows the text up to the mark (`fix_diverges`).
-/

namespace ManifestOrder.Lint

open Dependency
open Text (weave)
open Xml (Document)

theorem byLine_checkOrder (cmp : Comparator) (p : Path) (list : DependencyList) :
    byLine (checkOrder cmp p list) = checkOrder cmp p list := by
  unfold checkOrder
  split
  · exact List.mergeSort_nil
  · exact List.mergeSort_singleton _

/-- What the built-in rules find in a manifest. -/
theorem analyzeText_builtin {text : List Char} {list : DependencyList}
    (read : extract? text = some list) (e : Engine) (p : Path) :
    e.analyzeText builtinRules p text = .ok (checkOrder .standard p list,
      { e with issues := checkOrder .standard p list }) := by
  have found : runRules builtinRules p list = checkOrder .standard p list :=
    List.append_nil _
  unfold Engine.analyzeText
  simp only [read, found, byLine_checkOrder]

theorem checkOrder_eq_nil_iff {cmp : Comparator} {p : Path} {list : DependencyList} :
    checkOrder cmp p list = [] ↔ firstViolation cmp list.records = none := by
  unfold checkOrder
  split
  · rename_i none
    simp [none]
  · rename_i index found
    simp [found]

theorem exists_unsorted_iff {cmp : Comparator} {p : Path} {list : DependencyList} :
    (∃ issue ∈ checkOrder cmp p list, issue.rule = unsortedId) ↔
      firstViolation cmp list.records ≠ none := by
  unfold checkOrder
  split
  · rename_i none
    simp [none]
  · rename_i index found
    simp [found, unsortedIssue]

theorem fixText_modified_iff {text : List Char} {list : DependencyList}
    (read : extract? text = some list) (cmp : Comparator) :
    ∃ fixed, fixText cmp text = .ok fixed ∧
      (fixed.modified = true ↔ plan cmp list.records ≠ []) := by
  obtain ⟨gaps, laid⟩ := extract?_laid read
  refine ⟨_, fixText_laid read laid cmp, ?_⟩
  rw [Fixed.modified, decide_eq_true_iff, ← plan_length laid, List.length_pos_iff]

/-- The linter reports an unsorted list exactly when the fixer has something to do, and for every
order of the ids the scan and the plan agree. -/
theorem lint_agrees_with_fix {text : List Char} {list : DependencyList}
    (read : extract? text = some list) :
    (∀ (e : Engine) (p : Path), ∃ issues after fixed,
      e.analyzeText builtinRules p text = .ok (issues, after) ∧
      fixText .standard text = .ok fixed ∧
      ((∃ issue ∈ issues, issue.rule = unsortedId) ↔ fixed.modified = true)) ∧
    ∀ cmp : Comparator, Std.TransCmp cmp → cmp.LooksAtIds →
      (firstViolation cmp list.records ≠ none ↔ plan cmp list.records ≠ []) := by
  constructor
  · intro e p
    obtain ⟨fixed, ok, modified⟩ := fixText_modified_iff read .standard
    refine ⟨_, _, fixed, analyzeText_builtin read e p, ok, ?_⟩
    rw [exists_unsorted_iff, modified]
    exact violation_iff_plan Comparator.standard_looksAtIds read
  · intro cmp preorder looks
    exact violation_iff_plan looks read

theorem lint_agrees_with_fix_swapped : ∃ list issues after fixed,
    extract? swapped = some list ∧
    Engine.analyzeText {} builtinRules {} swapped = .ok (issues, after) ∧
    fixText .standard swapped = .ok fixed ∧
    ((∃ issue ∈ issues, issue.rule = unsortedId) ↔ fixed.modified = true) ∧
    plan .standard list.records ≠ [] := by
  obtain ⟨list, read, violation⟩ := swapped_violation
  obtain ⟨agree, plans⟩ := lint_agrees_with_fix read
  obtain ⟨issues, after, fixed, found, ok, same⟩ := agree {} {}
  exact ⟨list, issues, after, fixed, read, found, ok, same,
    (plans .standard inferInstance Comparator.standard_looksAtIds).1 violation⟩

/-! ## Manifests that are left alone -/

/-- The text is a manifest that the linter has nothing to say about and the fixer leaves as it
is. -/
structure Converged (text : List Char) : Prop where
  accepted : ∃ list, extract? text = some list
  silent : ∀ (e : Engine) (p : Path), ∃ after,
    e.analyzeText builtinRules p text = .ok ([], after)
  unchanged : ∃ fixed, fixText .standard text = .ok fixed ∧ fixed.source = text ∧
    fixed.modified = false

theorem converged_iff {text : List Char} :
    Converged text ↔
      ∃ list, extract? text = some list ∧ Sorted Comparator.standard list.records := by
  constructor
  · rintro ⟨⟨list, read⟩, silent, -⟩
    obtain ⟨after, found⟩ := silent {} {}
    rw [analyzeText_builtin read, Except.ok.injEq, Prod.mk.injEq] at found
    exact ⟨list, read, firstViolation_eq_none_iff.1 (checkOrder_eq_nil_iff.1 found.1)⟩
  · rintro ⟨list, read, sorted⟩
    refine ⟨⟨list, read⟩, ?_, _, fixText_of_sorted read sorted, rfl, rfl⟩
    intro e p
    have none := checkOrder_eq_nil_iff (p := p).2 (firstViolation_eq_none_iff.2 sorted)
    exact ⟨_, none ▸ analyzeText_builtin read e p⟩

/-- A fixed manifest is left alone exactly when no mark follows an empty section in it, or when
what it is read as instead happens to be a manifest in order. -/
theorem fix_converges_iff {text : List Char} {d : Document}
    (read : Document.ofText? text = some d) :
    ∃ fixed, fixText .standard text = .ok fixed ∧
      fixed.source = (sortedDocument .standard d).source ∧
      (Converged fixed.source ↔
        (sortedDocument .standard d).root.isSettled d.trailing = true ∨
        ∃ other, Document.ofText? fixed.source = some other ∧
          other ≠ sortedDocument .standard d ∧
          Sorted Comparator.standard (DependencyList.ofDocument other).records) := by
  refine ⟨_, fixText_document read .standard, rfl, ?_⟩
  rw [converged_iff]
  constructor
  · rintro ⟨list, reread, sorted⟩
    obtain ⟨other, document, rfl⟩ := extract?_eq_some reread
    -- The text is read as the sorted document, or something has been swallowed.
    by_cases same : other = sortedDocument .standard d
    · rw [same] at document
      exact .inl ((ofText?_sorted_iff read).1 document)
    · exact .inr ⟨other, document, same, sorted⟩
  · rintro (settled | ⟨other, document, -, sorted⟩)
    · have document := (ofText?_sorted_iff read).2 settled
      exact ⟨_, extract?_of_document document,
        sortedDocument_sorted Comparator.standard_looksAtIds d⟩
    · exact ⟨_, extract?_of_document document, sorted⟩

theorem fix_converges_swapped : ∃ fixed, fixText .standard swapped = .ok fixed ∧
    Converged fixed.source := by
  obtain ⟨list, extracted, -⟩ := swapped_violation
  obtain ⟨d, read, -⟩ := extract?_eq_some extracted
  obtain ⟨fixed, ok, -, converges⟩ := fix_converges_iff read
  have free : ¬ Xml.emptySection.text <:+: d.source := by
    rw [← (Document.ofText?_sound read).1]
    exact swapped_free
  exact ⟨fixed, ok, converges.2 (.inl (sorted_settled free _ _))⟩

/-! ### A section in front of a mark -/

def plainEntry : List Char :=
  "<dependency><groupId>c</groupId></dependency>".toList

/-- An entry without ids, so one that belongs first, with an empty section in it. -/
def sectionEntry : List Char :=
  "<dependency><![CDATA[]]></dependency>".toList

/-- A list with a mark between its two entries. -/
def markGaps : List (List Char) :=
  ["<project><dependencies>".toList, "<!-- ]]> -->".toList, "</dependencies></project>".toList]

def plainRecord : Record :=
  { span := ⟨23, 68⟩, text := plainEntry, groupId := some "c", artifactId := some "", line := 1 }

def sectionRecord : Record :=
  { span := ⟨80, 117⟩, text := sectionEntry, groupId := some "", artifactId := some "", line := 1 }

/-- The mark stands in front of the section, so the section is read as empty. -/
theorem extract?_section_behind_mark :
    extract? (weave markGaps [plainEntry, sectionEntry]) = some
      { records := [plainRecord, sectionRecord], container := some ⟨9, 132⟩,
        containerLine := 1 } := by
  decide +kernel

/-- The section ends with the mark, and the tags do not fit each other any more. -/
theorem extract?_section_before_mark :
    extract? (weave markGaps [sectionEntry, plainEntry]) = none := by
  decide +kernel

theorem laid_section_behind_mark :
    Laid markGaps (weave markGaps [plainEntry, sectionEntry]) [plainRecord, sectionRecord] :=
  ⟨rfl, rfl, by decide⟩

/-- Sorting makes a malformed text of a manifest. -/
theorem fix_diverges : ∃ list fixed,
    extract? (weave markGaps [plainEntry, sectionEntry]) = some list ∧
    fixText .standard (weave markGaps [plainEntry, sectionEntry]) = .ok fixed ∧
    extract? fixed.source = none ∧ ¬ Converged fixed.source := by
  have sorted : stableSort Comparator.standard [plainRecord, sectionRecord] =
      [sectionRecord, plainRecord] := stableSort_pair (by decide +kernel)
  have fixed := fixText_laid extract?_section_behind_mark laid_section_behind_mark .standard
  simp only [sorted] at fixed
  refine ⟨_, _, extract?_section_behind_mark, fixed, extract?_section_before_mark, ?_⟩
  rintro ⟨⟨list, read⟩, -, -⟩
  exact absurd (read.symm.trans extract?_section_before_mark) (by simp)

end ManifestOrder.Lint

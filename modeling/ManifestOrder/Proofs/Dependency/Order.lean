import ManifestOrder.Dependency.Order

/-!
# Sorting and the scan for a violation

For a comparator that is a total preorder (`Std.TransCmp`: exchanging the records turns the result
round, and it is transitive) the neighbours decide about the whole list: the scan finds nothing
exactly in a sorted list (`firstViolation_eq_none_iff`). Sorting yields a sorted list and leaves one
alone.

A comparator that looks at nothing but the ids orders two lists of records with the same ids in the
same way (`sorted_congr`).
-/

namespace ManifestOrder.Dependency

section
variable {α : Type} {cmp : α → α → Ordering}

/-- No entry comes before an earlier one. -/
def Sorted (cmp : α → α → Ordering) (entries : List α) : Prop :=
  entries.Pairwise fun a b => (cmp a b).isLE = true

theorem stableSort_perm (cmp : α → α → Ordering) (entries : List α) :
    (stableSort cmp entries).Perm entries :=
  List.mergeSort_perm entries _

theorem stableSort_length (cmp : α → α → Ordering) (entries : List α) :
    (stableSort cmp entries).length = entries.length :=
  (stableSort_perm cmp entries).length_eq

theorem stableSort_of_sorted {entries : List α} (sorted : Sorted cmp entries) :
    stableSort cmp entries = entries :=
  List.mergeSort_of_pairwise sorted

/-- Sorting by what a function reads off the entries, and reading it off afterwards. -/
theorem stableSort_map {β : Type} (cmp : β → β → Ordering) (f : α → β) (entries : List α) :
    (stableSort (fun a b => cmp (f a) (f b)) entries).map f = stableSort cmp (entries.map f) :=
  List.map_mergeSort fun _ _ _ _ => rfl

/-- Two entries that stand the wrong way round. -/
theorem stableSort_pair {a b : α} (behind : cmp a b = .gt) : stableSort cmp [a, b] = [b, a] := by
  simp [stableSort, List.mergeSort, List.MergeSort.Internal.splitInTwo, behind]

variable [Std.TransCmp cmp]

theorem isLE_or_isLE (a b : α) : ((cmp a b).isLE || (cmp b a).isLE) = true := by
  have swapped : cmp b a = (cmp a b).swap := Std.OrientedCmp.eq_swap
  rw [swapped]
  cases cmp a b <;> rfl

theorem stableSort_sorted (entries : List α) : Sorted cmp (stableSort cmp entries) :=
  List.pairwise_mergeSort (fun _ _ _ => Std.TransCmp.isLE_trans) isLE_or_isLE entries

variable (cmp) in
/-- A new first entry goes between those that belong before it and those that do not. -/
theorem stableSort_cons (entry : α) (entries : List α) :
    ∃ before after, stableSort cmp (entry :: entries) = before ++ entry :: after ∧
      stableSort cmp entries = before ++ after ∧
      (∀ other ∈ before, (cmp entry other).isLE = false) ∧
      ∀ other ∈ after, (cmp entry other).isLE = true := by
  have trans : ∀ a b c : α, (cmp a b).isLE = true → (cmp b c).isLE = true →
      (cmp a c).isLE = true := fun _ _ _ => Std.TransCmp.isLE_trans
  obtain ⟨before, after, whole, rest, less⟩ :=
    List.mergeSort_cons trans isLE_or_isLE entry entries
  have sorted : Sorted cmp (before ++ entry :: after) := whole ▸ stableSort_sorted _
  refine ⟨before, after, whole, rest, ?_, ?_⟩
  · intro other member
    exact Bool.not_eq_true' _ ▸ less other member
  · exact (List.pairwise_cons.1 (List.pairwise_append.1 sorted).2.1).1

theorem filter_append_split {p : α → Bool} {before after : List α}
    (less : ∀ other ∈ before, p other = false) (more : ∀ other ∈ after, p other = true) :
    (before ++ after).filter p = after ∧ (before ++ after).filter (fun other => !p other) = before := by
  constructor
  · rw [List.filter_append, List.filter_eq_self.2 more, List.filter_eq_nil_iff.2, List.nil_append]
    intro other member
    simp [less other member]
  · rw [List.filter_append, List.filter_eq_self.2, List.filter_eq_nil_iff.2, List.append_nil]
    · intro other member
      simp [more other member]
    · intro other member
      simp [less other member]

/-- Taking entries out leaves the others in their order. -/
theorem stableSort_sublist {part whole : List α} (inside : part.Sublist whole) :
    (stableSort cmp part).Sublist (stableSort cmp whole) := by
  induction inside with
  | slnil => exact List.Sublist.refl _
  | @cons part whole entry _ ih =>
    obtain ⟨before, after, all, others, -⟩ := stableSort_cons cmp entry whole
    rw [others] at ih
    rw [all]
    exact ih.trans ((List.sublist_cons_self entry after).append_left before)
  | @cons_cons part whole entry _ ih =>
    obtain ⟨before, after, all, others, less, more⟩ := stableSort_cons cmp entry part
    obtain ⟨before', after', all', others', less', more'⟩ := stableSort_cons cmp entry whole
    -- The two sorted lists are cut at the entry, and each cut is a filter.
    obtain ⟨behind, front⟩ := filter_append_split less more
    obtain ⟨behind', front'⟩ := filter_append_split less' more'
    rw [others, others'] at ih
    have left := ih.filter fun other => !(cmp entry other).isLE
    have right := ih.filter fun other => (cmp entry other).isLE
    rw [front, front'] at left
    rw [behind, behind'] at right
    rw [all, all']
    exact left.append (right.cons_cons entry)

/-- Without ties between different entries there is one way to put them into order. -/
theorem stableSort_eq_of_perm {entries others : List α} (same : entries.Perm others)
    (untied : ∀ a ∈ entries, ∀ b ∈ entries, cmp a b = .eq → a = b) :
    stableSort cmp entries = stableSort cmp others := by
  have here := stableSort_perm cmp entries
  have there := stableSort_perm cmp others
  refine List.Perm.eq_of_pairwise ?_ (stableSort_sorted entries) (stableSort_sorted others)
    (here.trans (same.trans there.symm))
  intro a b a_mem b_mem before behind
  exact untied a (here.mem_iff.1 a_mem) b (same.mem_iff.2 (there.mem_iff.1 b_mem))
    (Std.OrientedCmp.isLE_antisymm before behind)

theorem sorted_cons_cons {a b : α} {entries : List α} :
    Sorted cmp (a :: b :: entries) ↔ (cmp a b).isLE = true ∧ Sorted cmp (b :: entries) := by
  constructor
  · intro sorted
    obtain ⟨first, others⟩ := List.pairwise_cons.1 sorted
    exact ⟨first b List.mem_cons_self, others⟩
  · rintro ⟨first, others⟩
    refine List.pairwise_cons.2 ⟨?_, others⟩
    intro c member
    rcases List.mem_cons.1 member with rfl | later
    · exact first
    · exact Std.TransCmp.isLE_trans first ((List.pairwise_cons.1 others).1 c later)

theorem scanFrom_eq_none_iff {index : Nat} {previous : α} {entries : List α} :
    (scanFrom cmp index previous entries).violation = none ↔ Sorted cmp (previous :: entries) := by
  induction entries generalizing index previous with
  | nil => simp [scanFrom, Sorted]
  | cons current rest ih =>
    rw [scanFrom, sorted_cons_cons, ← @ih (index + 1) current, Ordering.isLE_iff_ne_gt]
    split
    · rename_i behind
      simp [behind]
    · rename_i ahead
      simp [ahead]

/-- The scan of neighbours finds nothing exactly in a sorted list. -/
theorem firstViolation_eq_none_iff {entries : List α} :
    firstViolation cmp entries = none ↔ Sorted cmp entries := by
  cases entries with
  | nil => simp [firstViolation, scanNeighbours, Sorted]
  | cons first rest => exact scanFrom_eq_none_iff

end

/-! ## Comparators of ids -/

def Record.ids (r : Record) : Option String × Option String :=
  (r.groupId, r.artifactId)

namespace Comparator

/-- The comparator depends on the ids of the records only. -/
def LooksAtIds (cmp : Comparator) : Prop :=
  ∀ {a b a' b' : Record}, a.ids = a'.ids → b.ids = b'.ids → cmp a b = cmp a' b'

theorem standard_looksAtIds : standard.LooksAtIds := by
  intro a b a' b' first second
  simp only [Record.ids, Prod.mk.injEq] at first second
  simp only [standard, andThen, byGroup, byArtifact, first, second]

instance : Std.TransCmp standard :=
  inferInstanceAs (Std.TransCmp (compareLex (compareOn fun r : Record => r.groupId.getD "")
    (compareOn fun r : Record => r.artifactId.getD "")))

end Comparator

/-- Records with the same ids, one by one, are sorted alike. -/
theorem sorted_congr {cmp : Comparator} (looks : cmp.LooksAtIds) {first second : List Record}
    (same : first.map Record.ids = second.map Record.ids) (sorted : Sorted cmp first) :
    Sorted cmp second := by
  induction first generalizing second with
  | nil =>
    obtain rfl : second = [] := List.map_eq_nil_iff.1 same.symm
    exact List.Pairwise.nil
  | cons a first ih =>
    obtain ⟨b, second, rfl, head, tail⟩ := List.map_eq_cons_iff.1 same.symm
    obtain ⟨before, others⟩ := List.pairwise_cons.1 sorted
    refine List.pairwise_cons.2 ⟨?_, ih tail.symm others⟩
    intro d member
    have inside : d.ids ∈ first.map Record.ids := tail ▸ List.mem_map_of_mem member
    obtain ⟨c, c_mem, same_ids⟩ := List.mem_map.1 inside
    rw [looks head same_ids.symm]
    exact before c c_mem

end ManifestOrder.Dependency

import Mathlib.Data.List.FinRange
import ManifestOrder.Proofs.Dependency.Comparator

/-!
# Sorting as an order of positions

A list is rearranged by naming its positions in some order, each of them once. Of these orders there
is exactly one in which no entry comes before a lower one and tied entries keep their places among
each other (`Arranges`). It is the one in which a stable sort lists the entries, those included that
cannot be told apart: `stableSort_determined`.

The order is found by sorting the positions themselves, which are compared by the entries that they
hold (`sortedPositions`).
-/

namespace ManifestOrder.Dependency

section
variable {α : Type} {cmp : α → α → Ordering} {entries : List α}

/-- The order names each position once, puts the entries in order, and keeps tied entries in the
order they had. -/
structure Arranges (cmp : α → α → Ordering) (entries : List α)
    (order : List (Fin entries.length)) : Prop where
  complete : order.Perm (List.finRange entries.length)
  inOrder : order.Pairwise fun i j => (cmp (entries.get i) (entries.get j)).isLE = true
  stable : order.Pairwise fun i j => cmp (entries.get i) (entries.get j) = .eq → i < j

/-- Positions are compared by the entries that they hold. -/
def comparePositions (cmp : α → α → Ordering) (entries : List α)
    (i j : Fin entries.length) : Ordering :=
  cmp (entries.get i) (entries.get j)

instance [Std.TransCmp cmp] : Std.TransCmp (comparePositions cmp entries) where
  eq_swap {i j} := (Std.OrientedCmp.eq_swap : cmp (entries.get i) (entries.get j) = _)
  isLE_trans {i j k} := (Std.TransCmp.isLE_trans :
    (cmp (entries.get i) (entries.get j)).isLE → (cmp (entries.get j) (entries.get k)).isLE → _)

theorem ahead_positions_iff {i j : Fin entries.length} :
    Ahead (comparePositions cmp entries) (· < ·) i j ↔
      (cmp (entries.get i) (entries.get j)).isLE = true ∧
        (cmp (entries.get i) (entries.get j) = .eq → i < j) := by
  rw [Ahead, comparePositions]
  cases cmp (entries.get i) (entries.get j) <;> simp

theorem arranges_iff {order : List (Fin entries.length)} :
    Arranges cmp entries order ↔ order.Perm (List.finRange entries.length) ∧
      order.Pairwise (Ahead (comparePositions cmp entries) (· < ·)) := by
  constructor
  · rintro ⟨complete, inOrder, stable⟩
    exact ⟨complete, (inOrder.and stable).imp ahead_positions_iff.2⟩
  · rintro ⟨complete, ahead⟩
    exact ⟨complete, ahead.imp fun before => (ahead_positions_iff.1 before).1,
      ahead.imp fun before => (ahead_positions_iff.1 before).2⟩

/-! ## The positions of a sorted list -/

/-- The positions of a list in the order in which a stable sort takes them. -/
def sortedPositions (cmp : α → α → Ordering) (entries : List α) : List (Fin entries.length) :=
  stableSort (comparePositions cmp entries) (List.finRange entries.length)

/-- Sorting the positions sorts what stands there. -/
theorem map_sortedPositions (cmp : α → α → Ordering) (entries : List α) :
    (sortedPositions cmp entries).map entries.get = stableSort cmp entries := by
  have sorted := stableSort_map cmp entries.get (List.finRange entries.length)
  rwa [List.map_get_finRange] at sorted

theorem zipIdx_eq_map (entries : List α) :
    entries.zipIdx = (List.finRange entries.length).map fun i => (entries.get i, i.val) := by
  refine List.ext_getElem (by simp) ?_
  intro n inside inside'
  simp

theorem map_sortedPositions_zipIdx (cmp : α → α → Ordering) (entries : List α) :
    (sortedPositions cmp entries).map (fun i => (entries.get i, i.val)) =
      stableSort (positioned cmp) entries.zipIdx := by
  rw [zipIdx_eq_map]
  exact stableSort_map (positioned cmp) (fun i : Fin entries.length => (entries.get i, i.val)) _

/-- Of a sorted list the positions are in order as they are. -/
theorem Sorted.arranges (sorted : Sorted cmp entries) :
    Arranges cmp entries (List.finRange entries.length) where
  complete := .refl _
  inOrder := by
    rw [Sorted, ← List.map_get_finRange entries, List.pairwise_map] at sorted
    exact sorted
  stable := by
    refine (List.pairwise_lt_finRange _).imp ?_
    intro i j less _
    exact less

variable [Std.TransCmp cmp]

theorem sortedPositions_arranges (entries : List α) :
    Arranges cmp entries (sortedPositions cmp entries) :=
  arranges_iff.2 ⟨stableSort_perm _ _, stableSort_ahead (List.pairwise_lt_finRange _)⟩

theorem Arranges.unique {order other : List (Fin entries.length)}
    (first : Arranges cmp entries order) (second : Arranges cmp entries other) : order = other := by
  obtain ⟨complete, ahead⟩ := arranges_iff.1 first
  obtain ⟨complete', ahead'⟩ := arranges_iff.1 second
  refine List.Perm.eq_of_pairwise ?_ ahead ahead' (complete.trans complete'.symm)
  intro i j _ _ before behind
  exact absurd behind (before.asymm fun less more => absurd less (Fin.lt_asymm more))

end

/-- A stable sort rearranges records in the only way that puts them in order and keeps tied ones as
they were. So it leaves sorted records where they are, and without ties the order in which the
records are given does not matter. -/
theorem stableSort_determined (cmp : Comparator) [Std.TransCmp cmp] (records : List Record) :
    (∃ order, Arranges cmp records order ∧
      stableSort cmp records = order.map records.get ∧
      stableSort (positioned cmp) records.zipIdx = order.map (fun i => (records.get i, i.val)) ∧
      ∀ other, Arranges cmp records other → other = order) ∧
    (Sorted cmp records → stableSort cmp records = records ∧
      stableSort (positioned cmp) records.zipIdx = records.zipIdx) ∧
    ∀ others : List Record, records.Perm others →
      (∀ i j : Fin records.length, i ≠ j → cmp (records.get i) (records.get j) ≠ .eq) →
      stableSort cmp records = stableSort cmp others := by
  have arranges : Arranges cmp records (sortedPositions cmp records) :=
    sortedPositions_arranges records
  refine ⟨⟨_, arranges, (map_sortedPositions cmp records).symm,
    (map_sortedPositions_zipIdx cmp records).symm, fun other rearranged =>
      rearranged.unique arranges⟩, ?_, ?_⟩
  · intro sorted
    have positions := arranges.unique sorted.arranges
    refine ⟨stableSort_of_sorted sorted, ?_⟩
    rw [← map_sortedPositions_zipIdx, positions, ← zipIdx_eq_map]
  · intro others same untied
    refine stableSort_eq_of_perm same ?_
    intro a a_mem b b_mem tied
    obtain ⟨i, inside, rfl⟩ := List.getElem_of_mem a_mem
    obtain ⟨j, inside', rfl⟩ := List.getElem_of_mem b_mem
    -- A tie is one of a position with itself.
    by_cases here : i = j
    · subst here
      rfl
    · have differ : (⟨i, inside⟩ : Fin records.length) ≠ ⟨j, inside'⟩ :=
        fun equal => here (Fin.mk.inj equal)
      exact absurd tied (untied _ _ differ)

/-- The second and the fourth of these records cannot be told apart, and come first as they stand. -/
theorem stableSort_determined_tied :
    Std.TransCmp Comparator.standard ∧
      stableSort (positioned Comparator.standard) Comparator.tiedRecords.zipIdx =
        [(Comparator.tiedRecords[1], 1), (Comparator.tiedRecords[3], 3),
          (Comparator.tiedRecords[2], 2), (Comparator.tiedRecords[0], 0)] := by
  obtain ⟨⟨order, -, -, moved, unique⟩, -⟩ :=
    stableSort_determined .standard Comparator.tiedRecords
  have arranged : Arranges Comparator.standard Comparator.tiedRecords
      [⟨1, by decide⟩, ⟨3, by decide⟩, ⟨2, by decide⟩, ⟨0, by decide⟩] :=
    ⟨by decide, by decide, by decide⟩
  rw [← unique _ arranged] at moved
  exact ⟨inferInstance, moved⟩

end ManifestOrder.Dependency

import ManifestOrder.Dependency.Record

/-!
# Comparators and order

Records are compared by their ids, by code point, a missing id counting as an empty one.
Comparators are chained, the second one breaking the ties that the first one leaves.

A list is sorted stably: entries that compare equal keep their order. Whether it is sorted already
is seen from neighbours alone, and the scan stops at the first pair that is out of order.
-/

namespace ManifestOrder.Dependency

/-! ## Comparators -/

abbrev Comparator := Record → Record → Ordering

namespace Comparator

def byGroup : Comparator := fun a b => compare (a.groupId.getD "") (b.groupId.getD "")

def byArtifact : Comparator := fun a b => compare (a.artifactId.getD "") (b.artifactId.getD "")

/-- The first comparator, its ties broken by the second. -/
def andThen (first second : Comparator) : Comparator :=
  fun a b => (first a b).then (second a b)

/-- The comparator with its arguments exchanged. -/
def swapped (cmp : Comparator) : Comparator := fun a b => cmp b a

/-- The order in which the entries of a manifest belong. -/
def standard : Comparator := byGroup.andThen byArtifact

end Comparator

/-! ## Sorting and scanning -/

variable {α : Type}

def stableSort (cmp : α → α → Ordering) (entries : List α) : List α :=
  entries.mergeSort fun a b => (cmp a b).isLE

/-- What a scan of neighbours finds: the index of the first entry that comes before its
predecessor, and the number of comparisons that were made. -/
structure Scan where
  violation : Option Nat
  comparisons : Nat
deriving DecidableEq, Repr

/-- The scan from the entry with index `index` on, which comes after `previous`. -/
def scanFrom (cmp : α → α → Ordering) (index : Nat) (previous : α) : List α → Scan
  | [] => ⟨none, 0⟩
  | current :: rest =>
    if cmp previous current = .gt then ⟨some index, 1⟩
    else
      let scan := scanFrom cmp (index + 1) current rest
      { scan with comparisons := scan.comparisons + 1 }

def scanNeighbours (cmp : α → α → Ordering) : List α → Scan
  | [] => ⟨none, 0⟩
  | first :: rest => scanFrom cmp 1 first rest

def firstViolation (cmp : α → α → Ordering) (entries : List α) : Option Nat :=
  (scanNeighbours cmp entries).violation

end ManifestOrder.Dependency

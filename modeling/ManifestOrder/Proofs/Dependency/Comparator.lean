import ManifestOrder.Proofs.Dependency.Order

/-!
# Comparators that are put together

A stable sort keeps, among entries that are tied, whatever held between earlier and later ones
(`stableSort_ahead`). In particular it keeps the order of their positions, and there is only one list
that does so (`stableSort_positioned_unique`). A second sort therefore adds its own order in front
of the order that the first one left behind, which is what a chain of the two comparators asks for
(`stableSort_stableSort`).

Chains and exchanges of comparators that are total preorders are total preorders again, and so is
all that is built from the comparators of the two ids (`Comparator.Built.transCmp`).
-/

namespace ManifestOrder.Dependency

section
variable {α : Type}

/-- One entry belongs before another one: it comes first by the comparator, or the two are tied and
the relation holds. -/
def Ahead (cmp : α → α → Ordering) (R : α → α → Prop) (a b : α) : Prop :=
  cmp a b = .lt ∨ cmp a b = .eq ∧ R a b

instance {cmp : α → α → Ordering} {R : α → α → Prop} [DecidableRel R] :
    DecidableRel (Ahead cmp R) :=
  fun _ _ => inferInstanceAs (Decidable (_ ∨ _ ∧ _))

/-- Ties that are broken one after the other are broken by the chain. -/
theorem ahead_ahead_iff {first second : α → α → Ordering} {R : α → α → Prop} {a b : α} :
    Ahead first (Ahead second R) a b ↔ Ahead (compareLex first second) R a b := by
  simp only [Ahead, compareLex, Ordering.then_eq_lt, Ordering.then_eq_eq, and_or_left, or_assoc,
    and_assoc]

section
variable {cmp : α → α → Ordering} [Std.TransCmp cmp] {R : α → α → Prop}

theorem Ahead.asymm (asymm : ∀ {a b : α}, R a b → ¬ R b a) {a b : α} (before : Ahead cmp R a b) :
    ¬ Ahead cmp R b a := by
  have swapped : cmp b a = (cmp a b).swap := Std.OrientedCmp.eq_swap
  intro behind
  rw [Ahead, swapped] at behind
  rcases before with less | ⟨tied, related⟩
  · simp [less] at behind
  · simp only [tied, Ordering.swap_eq, reduceCtorEq, true_and, false_or] at behind
    exact asymm related behind

/-- Sorting keeps what held between earlier and later entries wherever they are tied. -/
theorem stableSort_ahead {entries : List α} (kept : entries.Pairwise R) :
    (stableSort cmp entries).Pairwise (Ahead cmp R) := by
  induction kept with
  | nil =>
    rw [stableSort, List.mergeSort_nil]
    exact List.Pairwise.nil
  | @cons entry entries related _ ih =>
    obtain ⟨before, after, all, others, less, more⟩ := stableSort_cons cmp entry entries
    rw [others, List.pairwise_append] at ih
    obtain ⟨front, back, across⟩ := ih
    rw [all, List.pairwise_append, List.pairwise_cons]
    have behind : ∀ other ∈ after, Ahead cmp R entry other := by
      intro other member
      have old : other ∈ entries := (stableSort_perm cmp entries).mem_iff.1
        (others ▸ List.mem_append_right before member)
      exact (Ordering.isLE_iff_eq_lt_or_eq_eq.1 (more other member)).imp_right
        fun tied => ⟨tied, related other old⟩
    refine ⟨front, ⟨behind, back⟩, ?_⟩
    intro other member later there
    rcases List.mem_cons.1 there with rfl | further
    · exact .inl (Std.OrientedCmp.gt_iff_lt.1 (Ordering.isLE_eq_false.1 (less other member)))
    · exact across other member later further

end

/-! ## Entries and their positions -/

/-- Entries that carry their positions are compared without them. -/
def positioned (cmp : α → α → Ordering) (a b : α × Nat) : Ordering :=
  cmp a.1 b.1

instance {cmp : α → α → Ordering} [Std.TransCmp cmp] : Std.TransCmp (positioned cmp) where
  eq_swap {a b} := (Std.OrientedCmp.eq_swap : cmp a.1 b.1 = (cmp b.1 a.1).swap)
  isLE_trans {a b c} := (Std.TransCmp.isLE_trans :
    (cmp a.1 b.1).isLE → (cmp b.1 c.1).isLE → (cmp a.1 c.1).isLE)

/-- The order of positions. -/
def Earlier (a b : α × Nat) : Prop :=
  a.2 < b.2

instance : DecidableRel (@Earlier α) :=
  fun _ _ => inferInstanceAs (Decidable (_ < _))

theorem zipIdx_earlier (entries : List α) : entries.zipIdx.Pairwise Earlier := by
  unfold Earlier
  rw [← List.pairwise_map, List.zipIdx_map_snd]
  exact List.pairwise_lt_range' 1

section
variable {cmp : α → α → Ordering} [Std.TransCmp cmp]

/-- There is one list in which the entries are in order and tied ones are where they were. -/
theorem stableSort_positioned_unique {entries : List α} {others : List (α × Nat)}
    (same : others.Perm entries.zipIdx)
    (ordered : others.Pairwise (Ahead (positioned cmp) Earlier)) :
    others = stableSort (positioned cmp) entries.zipIdx := by
  refine List.Perm.eq_of_pairwise ?_ ordered (stableSort_ahead (zipIdx_earlier entries))
    (same.trans (stableSort_perm _ _).symm)
  intro a b _ _ before behind
  exact absurd behind (before.asymm fun early late => Nat.lt_asymm early late)

end

variable (first second : α → α → Ordering) [Std.TransCmp first] [Std.TransCmp second]

theorem stableSort_stableSort_positioned (entries : List α) :
    stableSort (positioned first) (stableSort (positioned second) entries.zipIdx) =
      stableSort (positioned (compareLex first second)) entries.zipIdx := by
  refine stableSort_positioned_unique
    ((stableSort_perm _ _).trans (stableSort_perm _ _)) ?_
  have once : (stableSort (positioned second) entries.zipIdx).Pairwise
      (Ahead (positioned second) Earlier) := stableSort_ahead (zipIdx_earlier entries)
  have twice : (stableSort (positioned first) (stableSort (positioned second) entries.zipIdx)).Pairwise
      (Ahead (positioned first) (Ahead (positioned second) Earlier)) := stableSort_ahead once
  exact twice.imp ahead_ahead_iff.1

/-- Sorting by one comparator and then by another is sorting by the chain of the two. -/
theorem stableSort_stableSort (entries : List α) :
    stableSort first (stableSort second entries) =
      stableSort (compareLex first second) entries := by
  have placed := congrArg (List.map Prod.fst) (stableSort_stableSort_positioned first second entries)
  unfold positioned at placed
  rwa [stableSort_map, stableSort_map, stableSort_map, List.zipIdx_map_fst] at placed

end

/-! ## Comparators of records -/

/-- The record with an empty id for each one that is missing. -/
def Record.filled (r : Record) : Record :=
  { r with groupId := some (r.groupId.getD ""), artifactId := some (r.artifactId.getD "") }

namespace Comparator

section
variable {first second : Comparator} [Std.TransCmp first] [Std.TransCmp second]

instance : Std.TransCmp byGroup :=
  inferInstanceAs (Std.TransCmp (compareOn fun r : Record => r.groupId.getD ""))

instance : Std.TransCmp byArtifact :=
  inferInstanceAs (Std.TransCmp (compareOn fun r : Record => r.artifactId.getD ""))

instance : Std.TransCmp (first.andThen second) :=
  inferInstanceAs (Std.TransCmp (compareLex first second))

instance : Std.TransCmp first.swapped :=
  (Std.TransCmp.opposite : Std.TransCmp fun a b => first b a)

end

theorem andThen_assoc (first second third : Comparator) :
    first.andThen (second.andThen third) = (first.andThen second).andThen third := by
  funext a b
  exact (Ordering.then_assoc _ _ _).symm

/-- The comparators that can be made of those of the ids. -/
inductive Built : Comparator → Prop
  | byGroup : Built byGroup
  | byArtifact : Built byArtifact
  | andThen {first second : Comparator} : Built first → Built second →
      Built (first.andThen second)
  | swapped {cmp : Comparator} : Built cmp → Built cmp.swapped

namespace Built
variable {cmp : Comparator}

theorem transCmp (built : cmp.Built) : Std.TransCmp cmp := by
  induction built with
  | byGroup => infer_instance
  | byArtifact => infer_instance
  | andThen _ _ first second => infer_instance
  | swapped _ cmp => infer_instance

/-- A missing id counts as an empty one. -/
theorem filled (built : cmp.Built) (a b : Record) : cmp a b = cmp a.filled b.filled := by
  induction built generalizing a b with
  | byGroup => rfl
  | byArtifact => rfl
  | andThen _ _ first second => rw [Comparator.andThen, first, second]; rfl
  | swapped _ cmp => exact cmp b a

end Built

/-- What holds of two comparators, one of which breaks the ties of the other. -/
structure ChainLaws (first second : Comparator) : Prop where
  transCmp : Std.TransCmp (first.andThen second)
  assoc : ∀ third : Comparator,
    first.andThen (second.andThen third) = (first.andThen second).andThen third
  sortedTwice : ∀ records : List Record,
    stableSort first (stableSort second records) = stableSort (first.andThen second) records
  /-- The same with the positions of the records, so that equal ones are told apart. -/
  movedTwice : ∀ records : List Record,
    stableSort (positioned first) (stableSort (positioned second) records.zipIdx) =
      stableSort (positioned (first.andThen second)) records.zipIdx

theorem comparator_laws (first second : Comparator) [Std.TransCmp first]
    [Std.TransCmp second] :
    ChainLaws first second ∧
      ∀ cmp : Comparator, cmp.Built →
        Std.TransCmp cmp ∧ ∀ a b : Record, cmp a b = cmp a.filled b.filled := by
  refine ⟨?_, fun cmp built => ⟨built.transCmp, built.filled⟩⟩
  exact {
    transCmp := inferInstance
    assoc := andThen_assoc first second
    sortedTwice := stableSort_stableSort first second
    movedTwice := stableSort_stableSort_positioned first second }

/-- Records of which the second and the fourth are tied by both ids. -/
def tiedRecords : List Record :=
  [{ groupId := some "b", artifactId := some "x" }, { groupId := none, artifactId := some "x" },
    { groupId := some "", artifactId := some "y" }, { groupId := some "", artifactId := some "x" }]

theorem comparator_laws_tied :
    Std.TransCmp byGroup ∧ Std.TransCmp byArtifact.swapped ∧
      stableSort (positioned byGroup)
        (stableSort (positioned byArtifact.swapped) tiedRecords.zipIdx) =
          [(tiedRecords[2], 2), (tiedRecords[1], 1), (tiedRecords[3], 3), (tiedRecords[0], 0)] ∧
      (byGroup.andThen byArtifact.swapped).swapped tiedRecords[1] tiedRecords[3] = .eq ∧
      Std.TransCmp (byGroup.andThen byArtifact.swapped).swapped := by
  obtain ⟨laws, built⟩ := comparator_laws byGroup byArtifact.swapped
  have chain := Built.byGroup.andThen Built.byArtifact.swapped
  refine ⟨inferInstance, inferInstance, ?_, by decide, (built _ chain.swapped).1⟩
  rw [laws.movedTwice tiedRecords]
  exact (stableSort_positioned_unique (by decide) (by decide)).symm

end Comparator

end ManifestOrder.Dependency

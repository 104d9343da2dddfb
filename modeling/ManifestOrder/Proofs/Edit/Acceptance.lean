import ManifestOrder.Proofs.Edit.Substitution

/-!
# Which lists are accepted

Replacements can be applied together when all their spans lie in the text and no two of them,
wherever they stand in the list, start at the same place or overlap (`JointlyApplicable`). Empty
spans are no exception: one inside another span overlaps it, one at its start starts with it, and one
at its end is apart from it.

The check compares only neighbours in the order of application. No span being turned round, that
decides all pairs, so exactly the lists that can be applied together are accepted
(`validate_decides_pairs`). A refusal names spans of the list that stand in the way
(`EditError.Blames`).
-/

namespace ManifestOrder.Edit

/-- All spans lie in the text, and any two of them start at different places and do not overlap. -/
structure JointlyApplicable (length : Int) (given : List Replacement) : Prop where
  within : ∀ r ∈ given, r.span.Within length
  apart : given.Pairwise fun a b => a.span.start ≠ b.span.start ∧ a.span.overlaps b.span = false

/-- The refusal names a span of the list that is not in the text, or two spans of it that clash. -/
inductive EditError.Blames (given : List Replacement) (length : Int) : EditError → Prop
  | outside {r : Replacement} :
      r ∈ given → ¬ r.span.Within length → Blames given length (.outside r.span length)
  | overlapping {a b : Replacement} {others : List Replacement} :
      given.Perm (a :: b :: others) →
      a.span.overlaps b.span = true ∨ a.span.start = b.span.start →
      Blames given length (.overlapping a.span b.span)

/-! ## Any two spans -/

theorem Span.overlaps_comm (a b : Span) : a.overlaps b = b.overlaps a :=
  Bool.and_comm _ _

theorem not_overlaps_iff {a b : Span} :
    a.overlaps b = false ↔ b.stop ≤ a.start ∨ a.stop ≤ b.start := by
  rw [← Bool.not_eq_true, Span.overlaps_iff, Decidable.not_and_iff_or_not, Int.not_lt, Int.not_lt]

/-- The order of the list does not matter. -/
theorem JointlyApplicable.perm {length : Int} {given other : List Replacement}
    (applicable : JointlyApplicable length given) (perm : given.Perm other) :
    JointlyApplicable length other := by
  refine ⟨fun r member => applicable.within r (perm.mem_iff.2 member), ?_⟩
  refine perm.pairwise applicable.apart ?_
  intro a b apart
  exact ⟨apart.1.symm, by rw [Span.overlaps_comm, apart.2]⟩

theorem Separated.jointlyApplicable {length : Int} {list : List Replacement}
    (separated : Separated length list) : JointlyApplicable length list where
  within := separated.within
  apart := separated.apart.imp fun apart =>
    ⟨Int.ne_of_lt apart.1, not_overlaps_iff.2 (.inr apart.2)⟩

/-- In the order of application each span lies to the left of those in front of it. Here no span may
be turned round: one that is may start within another and still overlap none. -/
theorem JointlyApplicable.separated {length : Int} {ordered : List Replacement}
    (applicable : JointlyApplicable length ordered)
    (sorted : ordered.Pairwise fun a b => Replacement.before a b = true) :
    Separated length ordered.reverse := by
  refine ⟨fun r member => applicable.within r (List.mem_reverse.1 member), ?_⟩
  rw [List.pairwise_reverse]
  have both := List.Pairwise.and_mem.1 (sorted.and applicable.apart)
  refine both.imp ?_
  rintro a b ⟨a_mem, -, ordered, differ, free⟩
  have forward := (applicable.within a a_mem).2.1
  rw [before_iff] at ordered
  rw [not_overlaps_iff] at free
  have left : b.span.start < a.span.start := by omega
  exact ⟨left, by omega⟩

/-! ## Refusals -/

theorem firstClash_eq_some {ordered : List Replacement} {first second : Span}
    (clash : Replacement.firstClash ordered = some (first, second)) :
    ∃ front later earlier back, ordered = front ++ later :: earlier :: back ∧
      first = earlier.span ∧ second = later.span ∧ Replacement.clashes later earlier = true := by
  fun_induction Replacement.firstClash ordered with
  | case1 later earlier rest clashes =>
    obtain ⟨rfl, rfl⟩ := Prod.mk.inj (Option.some.inj clash)
    exact ⟨[], later, earlier, rest, rfl, rfl, rfl, clashes⟩
  | case2 later earlier rest free ih =>
    obtain ⟨front, a, b, back, same, found⟩ := ih clash
    exact ⟨later :: front, a, b, back, congrArg (later :: ·) same, found⟩
  | case3 ordered none => cases clash

/-- What a list is refused for is found in it. -/
theorem validate_blames {given : List Replacement} {length : Int} {e : EditError}
    (refused : Replacement.validate given length = .error e) : e.Blames given length := by
  have same := List.mergeSort_perm given Replacement.before
  unfold Replacement.validate at refused
  simp only at refused
  split at refused
  · rename_i r found
    obtain rfl := Except.error.inj refused
    refine .outside (same.mem_iff.1 (List.mem_of_find?_eq_some found)) ?_
    simpa using List.find?_some found
  · split at refused
    · rename_i first second clash
      obtain rfl := Except.error.inj refused
      obtain ⟨front, later, earlier, back, split, rfl, rfl, clashes⟩ := firstClash_eq_some clash
      -- The two entries are brought to the front of the list.
      have moved : given.Perm (earlier :: later :: (front ++ back)) := by
        rw [split] at same
        exact same.symm.trans ((List.perm_middle.trans (List.perm_middle.cons later)).trans
          (.swap _ _ _))
      refine .overlapping moved ?_
      simpa only [Replacement.clashes, Bool.or_eq_true, decide_eq_true_eq] using clashes
    · cases refused

/-! ## Acceptance -/

theorem validate_isOk_iff {given : List Replacement} {length : Int} :
    (∃ ordered, Replacement.validate given length = .ok ordered) ↔
      JointlyApplicable length given := by
  constructor
  · rintro ⟨ordered, accepted⟩
    obtain ⟨perm, separated⟩ := validate_eq_ok_iff.1 accepted
    exact separated.jointlyApplicable.perm ((List.reverse_perm ordered).trans perm)
  · intro applicable
    have perm := List.mergeSort_perm given Replacement.before
    exact ⟨_, validate_eq_ok_iff.2
      ⟨perm, (applicable.perm perm.symm).separated (mergeSort_before given)⟩⟩

/-- Exactly the lists that can be applied together are accepted. They come out from right to left,
no span reaching into the one listed before it. Any other list is refused for spans that it holds. -/
theorem validate_decides_pairs (given : List Replacement) (length : Int) :
    ((∃ ordered, Replacement.validate given length = .ok ordered) ↔
      JointlyApplicable length given) ∧
    (∀ ordered, Replacement.validate given length = .ok ordered →
      ordered.Perm given ∧
      ordered.Pairwise fun a b => b.span.start < a.span.start ∧ b.span.stop ≤ a.span.start) ∧
    (¬ JointlyApplicable length given →
      ∃ e, Replacement.validate given length = .error e ∧ e.IsRange ∧ e.Blames given length) := by
  refine ⟨validate_isOk_iff, ?_, ?_⟩
  · intro ordered accepted
    obtain ⟨perm, separated⟩ := validate_eq_ok_iff.1 accepted
    exact ⟨perm, List.pairwise_reverse.1 separated.apart⟩
  · intro clashing
    cases checked : Replacement.validate given length with
    | ok ordered => exact absurd (validate_isOk_iff.1 ⟨ordered, checked⟩) clashing
    | error e => exact ⟨e, rfl, validate_error checked, validate_blames checked⟩

end ManifestOrder.Edit

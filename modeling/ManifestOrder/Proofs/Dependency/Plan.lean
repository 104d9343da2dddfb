import Mathlib.Data.List.Dedup
import Mathlib.Data.List.Perm.Subperm
import ManifestOrder.Proofs.Dependency.Order
import ManifestOrder.Dependency.Fix

/-!
# What a plan moves

A plan puts texts at positions of a list: those of the sorted list, where they differ from the old
ones (`moves`). Records made by hand may share their spans and their texts, so positions are told
apart and not records. Where the texts agree they cancel out of the two lists, which are
permutations of each other; so what is written is what is overwritten, in another order
(`differences_conserve`), and no single text can be written. Every position that is written has to
be (`differences_needed`).

The main result is `plan_conserves`.
-/

namespace ManifestOrder.Dependency

open Edit (Replacement)

/-! ## Overwriting entries of a list -/

section
variable {α : Type}

/-- Puts entries at positions of a list, one after the other. -/
def overwrite (entries : List α) (edits : List (Nat × α)) : List α :=
  edits.foldl (fun entries edit => entries.set edit.1 edit.2) entries

theorem overwrite_cons (entries : List α) (position : Nat) (entry : α) (edits : List (Nat × α)) :
    overwrite entries ((position, entry) :: edits) =
      overwrite (entries.set position entry) edits :=
  rfl

theorem overwrite_elsewhere {entries : List α} {edits : List (Nat × α)} {position : Nat}
    (elsewhere : position ∉ edits.map Prod.fst) :
    (overwrite entries edits)[position]? = entries[position]? := by
  induction edits generalizing entries with
  | nil => rfl
  | cons edit edits ih =>
    rw [List.map_cons, List.mem_cons, not_or] at elsewhere
    exact (ih elsewhere.2).trans (List.getElem?_set_ne (Ne.symm elsewhere.1))

/-- The entries at the positions of edits. -/
def overwritten (entries : List α) (edits : List (Nat × α)) : List α :=
  edits.filterMap fun edit => entries[edit.1]?

theorem overwritten_cons {entries : List α} {position : Nat} {old : α}
    (here : entries[position]? = some old) (new : α) (edits : List (Nat × α)) :
    overwritten entries ((position, new) :: edits) = old :: overwritten entries edits :=
  List.filterMap_cons_some here

variable [DecidableEq α]

/-- The entries of the second list that differ from those of the first one, with their positions,
which are counted from `position` on. -/
def differences (position : Nat) : List α → List α → List (Nat × α)
  | old :: olds, new :: news =>
    if old = new then differences (position + 1) olds news
    else (position, new) :: differences (position + 1) olds news
  | _, _ => []

theorem le_of_mem_differences {position : Nat} {olds news : List α} :
    ∀ edit ∈ differences position olds news, position ≤ edit.1 := by
  induction olds generalizing position news with
  | nil => simp [differences]
  | cons old olds ih =>
    cases news with
    | nil => simp [differences]
    | cons new news =>
      have later : ∀ edit ∈ differences (position + 1) olds news, position ≤ edit.1 :=
        fun edit member => Nat.le_of_succ_le (ih edit member)
      rw [differences]
      split
      · exact later
      · exact List.forall_mem_cons.2 ⟨Nat.le_refl _, later⟩

theorem differences_ascend (position : Nat) (olds news : List α) :
    ((differences position olds news).map Prod.fst).Pairwise (· < ·) := by
  induction olds generalizing position news with
  | nil => simp [differences]
  | cons old olds ih =>
    cases news with
    | nil => simp [differences]
    | cons new news =>
      rw [differences]
      split
      · exact ih (position + 1) news
      · refine List.pairwise_cons.2 ⟨?_, ih (position + 1) news⟩
        intro other member
        obtain ⟨edit, inside, rfl⟩ := List.mem_map.1 member
        exact le_of_mem_differences edit inside

/-- An edit is one of an entry that differs. -/
theorem mem_differences {position : Nat} {olds news : List α} :
    ∀ edit ∈ differences position olds news, ∃ index old, edit.1 = position + index ∧
      olds[index]? = some old ∧ news[index]? = some edit.2 ∧ old ≠ edit.2 := by
  induction olds generalizing position news with
  | nil => simp [differences]
  | cons old olds ih =>
    cases news with
    | nil => simp [differences]
    | cons new news =>
      have later : ∀ edit ∈ differences (position + 1) olds news, ∃ index other,
          edit.1 = position + index ∧ (old :: olds)[index]? = some other ∧
            (new :: news)[index]? = some edit.2 ∧ other ≠ edit.2 := by
        intro edit member
        obtain ⟨index, other, place, before, after, differ⟩ := ih edit member
        exact ⟨index + 1, other, by omega, before, after, differ⟩
      rw [differences]
      split
      · exact later
      · rename_i differ
        exact List.forall_mem_cons.2 ⟨⟨0, old, rfl, rfl, rfl, differ⟩, later⟩

/-- The edits make the second list of the first one. -/
theorem overwrite_differences {front olds news : List α} (same : news.length = olds.length) :
    overwrite (front ++ olds) (differences front.length olds news) = front ++ news := by
  induction olds generalizing front news with
  | nil =>
    obtain rfl := List.length_eq_zero_iff.1 same
    rfl
  | cons old olds ih =>
    obtain ⟨new, news, rfl⟩ := List.exists_cons_of_length_eq_add_one same
    have others := @ih (front ++ [new]) news (by simpa using same)
    rw [List.length_append, List.length_singleton, ← List.append_cons, ← List.append_cons] at others
    rw [differences]
    split
    · rename_i equal
      rw [equal, others]
    · rw [overwrite_cons, List.set_append_right _ _ (Nat.le_refl _), Nat.sub_self,
        List.set_cons_zero, others]

/-- Entries that do not differ are in both lists, and the others are overwritten. -/
theorem differences_keep {front olds news : List α} (same : news.length = olds.length) :
    ∃ kept, olds.Perm (kept ++
        overwritten (front ++ olds) (differences front.length olds news)) ∧
      news.Perm (kept ++ (differences front.length olds news).map Prod.snd) := by
  induction olds generalizing front news with
  | nil =>
    obtain rfl := List.length_eq_zero_iff.1 same
    exact ⟨[], .nil, .nil⟩
  | cons old olds ih =>
    obtain ⟨new, news, rfl⟩ := List.exists_cons_of_length_eq_add_one same
    obtain ⟨kept, before, after⟩ := @ih (front ++ [old]) news (by simpa using same)
    rw [List.length_append, List.length_singleton, ← List.append_cons] at before
    rw [List.length_append, List.length_singleton] at after
    rw [differences]
    split
    · rename_i equal
      exact ⟨old :: kept, before.cons old, equal ▸ after.cons old⟩
    · have here : (front ++ old :: olds)[front.length]? = some old := by simp
      refine ⟨kept, ?_, (after.cons new).trans List.perm_middle.symm⟩
      rw [overwritten_cons here]
      exact (before.cons old).trans List.perm_middle.symm

/-- What is written is what is overwritten, in another order. -/
theorem differences_conserve {olds news : List α} (same : news.Perm olds) :
    ((differences 0 olds news).map Prod.snd).Perm
      (overwritten olds (differences 0 olds news)) := by
  obtain ⟨kept, before, after⟩ := @differences_keep α _ [] olds news same.length_eq
  exact (List.perm_append_left_iff kept).1 (after.symm.trans (same.trans before))

/-- Nothing comes of a permutation with a single difference. -/
theorem differences_length_ne_one {olds news : List α} (same : news.Perm olds) :
    (differences 0 olds news).length ≠ 1 := by
  intro single
  obtain ⟨⟨position, new⟩, only⟩ := List.length_eq_one_iff.1 single
  obtain ⟨index, old, place, before, -, differ⟩ :=
    mem_differences (position, new) (only ▸ List.mem_singleton_self _)
  rw [Nat.zero_add] at place
  have conserved := differences_conserve same
  rw [only, overwritten_cons (place ▸ before)] at conserved
  exact differ (List.singleton_perm_singleton.1 conserved).symm

/-- Whatever makes the second list of the first one writes at every position that differs. -/
theorem differences_needed {olds : List α} {edits : List (Nat × α)} :
    (differences 0 olds (overwrite olds edits)).map Prod.fst ⊆ edits.map Prod.fst := by
  intro position member
  obtain ⟨edit, inside, rfl⟩ := List.mem_map.1 member
  obtain ⟨index, old, place, before, after, differ⟩ := mem_differences edit inside
  rw [Nat.zero_add] at place
  by_contra elsewhere
  rw [← place, overwrite_elsewhere elsewhere, place, before] at after
  exact differ (Option.some.inj after)

end

/-! ## The plan -/

/-- The texts that a plan puts at positions of the records. -/
def moves (cmp : Comparator) (records : List Record) : List (Nat × List Char) :=
  differences 0 (records.map Record.text) ((stableSort cmp records).map Record.text)

/-- The replacement that puts a text in place of the record at a position. -/
def replacementAt (records : List Record) (move : Nat × List Char) : Option Replacement :=
  records[move.1]?.map fun r => ⟨r.span, move.2⟩

theorem filterMap_eq_differences {front olds news : List Record}
    (same : news.length = olds.length) :
    (((olds.zip news).filterMap fun (old, new) =>
      if old.text = new.text then none else some (Replacement.mk old.span new.text)).map some) =
      (differences front.length (olds.map Record.text) (news.map Record.text)).map
        (replacementAt (front ++ olds)) := by
  induction olds generalizing front news with
  | nil => rfl
  | cons old olds ih =>
    obtain ⟨new, news, rfl⟩ := List.exists_cons_of_length_eq_add_one same
    have others := @ih (front ++ [old]) news (by simpa using same)
    rw [List.length_append, List.length_singleton, ← List.append_cons] at others
    rw [List.zip_cons_cons, List.map_cons, List.map_cons, differences, List.filterMap_cons]
    by_cases equal : old.text = new.text
    · simp only [equal, if_true]
      exact others
    · have here : replacementAt (front ++ old :: olds) (front.length, new.text) =
          some ⟨old.span, new.text⟩ := by
        simp [replacementAt]
      simp only [if_neg equal, List.map_cons, here, others]

theorem plan_eq_moves (cmp : Comparator) (records : List Record) :
    (plan cmp records).map some = (moves cmp records).map (replacementAt records) :=
  @filterMap_eq_differences [] records _ (stableSort_length cmp records)

theorem filterMap_spans (olds news : List Record) :
    (((olds.zip news).filterMap fun (old, new) =>
      if old.text = new.text then none else some (Replacement.mk old.span new.text)).map
        Replacement.span).Sublist (olds.map Record.span) := by
  induction olds generalizing news with
  | nil => exact List.Sublist.slnil
  | cons old olds ih =>
    cases news with
    | nil => exact List.nil_sublist _
    | cons new news =>
      rw [List.zip_cons_cons, List.filterMap_cons, List.map_cons]
      by_cases equal : old.text = new.text
      · simp only [equal, if_true]
        exact (ih news).cons _
      · simp only [if_neg equal, List.map_cons]
        exact (ih news).cons_cons _

theorem texts_of_replacementAt {records : List Record} {replacements : List Replacement}
    {moves : List (Nat × List Char)}
    (same : replacements.map some = moves.map (replacementAt records)) :
    replacements.map Replacement.text = moves.map Prod.snd := by
  induction replacements generalizing moves with
  | nil =>
    obtain rfl := List.map_eq_nil_iff.1 same.symm
    rfl
  | cons replacement replacements ih =>
    obtain ⟨move, moves, rfl, head, tail⟩ := List.map_eq_cons_iff.1 same.symm
    obtain ⟨r, -, rfl⟩ := Option.map_eq_some_iff.1 head
    rw [List.map_cons, List.map_cons, ih tail.symm]

/-- A plan moves texts among the positions that it overwrites, and loses and doubles none. It makes
the texts of the sorted records of those of the records, and nothing that writes at fewer positions
does. So it is never a single replacement. -/
theorem plan_conserves (cmp : Comparator) (records : List Record) :
    (plan cmp records).map some = (moves cmp records).map (replacementAt records) ∧
    ((moves cmp records).map Prod.fst).Pairwise (· < ·) ∧
    ((plan cmp records).map Replacement.span).Sublist (records.map Record.span) ∧
    ((plan cmp records).map Replacement.text).Perm
      (overwritten (records.map Record.text) (moves cmp records)) ∧
    overwrite (records.map Record.text) (moves cmp records) =
      (stableSort cmp records).map Record.text ∧
    (∀ edits, overwrite (records.map Record.text) edits =
        (stableSort cmp records).map Record.text →
      (moves cmp records).map Prod.fst ⊆ edits.map Prod.fst ∧
        (plan cmp records).length ≤ (edits.map Prod.fst).dedup.length) ∧
    (plan cmp records).length ≠ 1 := by
  have texts := (stableSort_perm cmp records).map Record.text
  have ascending : ((moves cmp records).map Prod.fst).Pairwise (· < ·) :=
    differences_ascend 0 _ _
  have length : (plan cmp records).length = (moves cmp records).length := by
    simpa using congrArg List.length (plan_eq_moves cmp records)
  refine ⟨plan_eq_moves cmp records, ascending, filterMap_spans _ _, ?_, ?_, ?_, ?_⟩
  · rw [texts_of_replacementAt (plan_eq_moves cmp records)]
    exact differences_conserve texts
  · exact @overwrite_differences _ _ [] _ _ texts.length_eq
  · intro edits same
    have needed : (moves cmp records).map Prod.fst ⊆ edits.map Prod.fst := by
      rw [moves, ← same]
      exact differences_needed
    refine ⟨needed, ?_⟩
    have distinct : ((moves cmp records).map Prod.fst).Nodup := ascending.imp Nat.ne_of_lt
    rw [length, ← List.length_map Prod.fst]
    have among := List.Subset.trans needed (List.subset_dedup _)
    exact (List.subperm_of_subset distinct among).length_le
  · rw [length]
    exact differences_length_ne_one texts

end ManifestOrder.Dependency

import ManifestOrder.Text.Reader

/-!
# Texts with slots

A text may be cut into gaps and entries, in turn, a gap first and last. The entries may then be
exchanged for others while the gaps stay. Entries in another order give a text of the same
characters (`weave_perm_perm`), and another text, if none of them begins another one
(`PrefixFree.weave_injective`).
-/

namespace ManifestOrder.Text

/-- Gaps and entries in turn. -/
def weave : List (List Char) → List (List Char) → List Char
  | gap :: gaps, entry :: entries => gap ++ entry ++ weave gaps entries
  | gaps, [] => gaps.flatten
  | [], _ => []

@[simp] theorem weave_cons (gap entry : List Char) (gaps entries : List (List Char)) :
    weave (gap :: gaps) (entry :: entries) = gap ++ entry ++ weave gaps entries := rfl

@[simp] theorem weave_singleton (gap : List Char) : weave [gap] [] = gap := by
  rw [weave, List.flatten_singleton]

/-- What is woven is the gaps and the entries, in another order. -/
theorem weave_perm {gaps entries : List (List Char)} (count : gaps.length = entries.length + 1) :
    (weave gaps entries).Perm (gaps.flatten ++ entries.flatten) := by
  induction entries generalizing gaps with
  | nil => rw [weave, List.flatten_nil, List.append_nil]
  | cons entry entries ih =>
    obtain ⟨gap, gaps, rfl⟩ := List.exists_cons_of_length_eq_add_one count
    have others : (weave gaps entries).Perm (gaps.flatten ++ entries.flatten) :=
      ih (by simpa using count)
    rw [weave_cons, List.flatten_cons, List.flatten_cons, List.append_assoc, List.append_assoc]
    -- The entry has to move behind the gaps that are still to come.
    refine List.Perm.append_left gap ((others.append_left entry).trans ?_)
    rw [← List.append_assoc, ← List.append_assoc]
    exact List.perm_append_comm.append_right entries.flatten

/-- Entries in another order give the same characters in another order. -/
theorem weave_perm_perm {gaps first second : List (List Char)}
    (count : gaps.length = first.length + 1) (same : second.Perm first) :
    (weave gaps second).Perm (weave gaps first) := by
  have others : gaps.length = second.length + 1 := same.length_eq ▸ count
  exact (weave_perm others).trans ((same.flatten.append_left gaps.flatten).trans
    (weave_perm count).symm)

/-- Entries in another order take up the same room. -/
theorem weave_length_perm {gaps first second : List (List Char)}
    (count : gaps.length = first.length + 1) (same : second.Perm first) :
    (weave gaps second).length = (weave gaps first).length :=
  (weave_perm_perm count same).length_eq

theorem infix_weave {gaps entries : List (List Char)} (count : gaps.length = entries.length + 1) :
    ∀ entry ∈ entries, entry <:+: weave gaps entries := by
  induction entries generalizing gaps with
  | nil => simp
  | cons first entries ih =>
    obtain ⟨gap, gaps, rfl⟩ := List.exists_cons_of_length_eq_add_one count
    rw [weave_cons]
    intro entry member
    rcases List.mem_cons.1 member with rfl | later
    · exact List.infix_append gap entry (weave gaps entries)
    · exact (ih (by simpa using count) entry later).trans (List.suffix_append _ _).isInfix

/-! ## Telling entries apart -/

/-- No entry begins another one. -/
def PrefixFree (entries : List (List Char)) : Prop :=
  ∀ a ∈ entries, ∀ b ∈ entries, a <+: b → a = b

namespace PrefixFree
variable {entries : List (List Char)}

/-- The entry that a text begins with is known from the text. -/
theorem eq_of_append (free : PrefixFree entries) {a b x y : List Char} (a_mem : a ∈ entries)
    (b_mem : b ∈ entries) (same : a ++ x = b ++ y) : a = b := by
  have within : b <+: a ++ x := same ▸ List.prefix_append b y
  rcases List.prefix_or_prefix_of_prefix (List.prefix_append a x) within with begins | begins
  · exact free a a_mem b b_mem begins
  · exact (free b b_mem a a_mem begins).symm

/-- The first entry that differs shows in the woven text. -/
theorem weave_injective (free : PrefixFree entries) {gaps first second : List (List Char)}
    (count : gaps.length = first.length + 1) (room : second.length = first.length)
    (inside : first ⊆ entries) (inside' : second ⊆ entries)
    (same : weave gaps first = weave gaps second) : first = second := by
  induction first generalizing gaps second with
  | nil => exact (List.length_eq_zero_iff.1 room).symm
  | cons a first ih =>
    obtain ⟨gap, gaps, rfl⟩ := List.exists_cons_of_length_eq_add_one count
    obtain ⟨b, second, rfl⟩ := List.exists_cons_of_length_eq_add_one room
    obtain ⟨a_mem, others⟩ := List.cons_subset.1 inside
    obtain ⟨b_mem, others'⟩ := List.cons_subset.1 inside'
    rw [weave_cons, weave_cons, List.append_assoc, List.append_assoc,
      List.append_cancel_left_eq] at same
    obtain rfl := free.eq_of_append a_mem b_mem same
    rw [List.append_cancel_left_eq] at same
    rw [ih (by simpa using count) (by simpa using room) others others' same]

end PrefixFree

end ManifestOrder.Text

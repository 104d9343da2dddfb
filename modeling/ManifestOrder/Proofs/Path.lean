import ManifestOrder.Path

/-!
# Reading paths that were written

The components of a path that was read hold no slash, and none of them is empty or a single dot
(`ofString_isRead`). Such a path is read back as it was written (`ofString_toString`), so two of
them that are written alike are the same path (`toString_injective`).
-/

namespace ManifestOrder.Path

/-- A component as it can be read from a text. -/
structure IsComponent (part : String) : Prop where
  filled : part ≠ ""
  named : part ≠ "."
  whole : '/' ∉ part.toList

/-- The path is one that can be read from a text. -/
def IsRead (p : Path) : Prop :=
  ∀ part ∈ p.components, IsComponent part

/-! ## Parts between slashes -/

theorem splitSlashes_slash (s : List Char) : splitSlashes ('/' :: s) = [] :: splitSlashes s := by
  rw [splitSlashes, if_pos rfl]

theorem splitSlashes_cons {c : Char} {s part : List Char} {parts : List (List Char)}
    (plain : c ≠ '/') (split : splitSlashes s = part :: parts) :
    splitSlashes (c :: s) = (c :: part) :: parts := by
  rw [splitSlashes, if_neg plain, split]

theorem splitSlashes_whole (s : List Char) : ∀ part ∈ splitSlashes s, '/' ∉ part := by
  induction s with
  | nil => simp [splitSlashes]
  | cons c s ih =>
    by_cases slash : c = '/'
    · rw [slash, splitSlashes_slash]
      exact List.forall_mem_cons.2 ⟨List.not_mem_nil, ih⟩
    · cases split : splitSlashes s with
      | nil => simp [splitSlashes, slash, split, Ne.symm slash]
      | cons part parts =>
        rw [split, List.forall_mem_cons] at ih
        rw [splitSlashes_cons slash split, List.forall_mem_cons, List.mem_cons, not_or]
        exact ⟨⟨Ne.symm slash, ih.1⟩, ih.2⟩

theorem splitSlashes_of_whole {part : List Char} (whole : '/' ∉ part) :
    splitSlashes part = [part] := by
  induction part with
  | nil => rfl
  | cons c part ih =>
    rw [List.mem_cons, not_or] at whole
    exact splitSlashes_cons (Ne.symm whole.1) (ih whole.2)

theorem splitSlashes_append {part : List Char} (whole : '/' ∉ part) (s : List Char) :
    splitSlashes (part ++ '/' :: s) = part :: splitSlashes s := by
  induction part with
  | nil => exact splitSlashes_slash s
  | cons c part ih =>
    rw [List.mem_cons, not_or] at whole
    exact splitSlashes_cons (Ne.symm whole.1) (ih whole.2)

theorem splitSlashes_intercalate {parts : List (List Char)} (some : parts ≠ [])
    (whole : ∀ part ∈ parts, '/' ∉ part) : splitSlashes (['/'].intercalate parts) = parts := by
  induction parts with
  | nil => exact absurd rfl some
  | cons part parts ih =>
    rw [List.forall_mem_cons] at whole
    cases parts with
    | nil =>
      rw [List.intercalate_singleton]
      exact splitSlashes_of_whole whole.1
    | cons next parts =>
      rw [List.intercalate_cons_cons, List.append_assoc, List.singleton_append,
        splitSlashes_append whole.1, ih (List.cons_ne_nil _ _) whole.2]

/-! ## Paths -/

theorem ofString_isRead (text : String) : (ofString text).IsRead := by
  intro part member
  obtain ⟨split, kept⟩ := List.mem_filter.1 member
  obtain ⟨letters, found, rfl⟩ := List.mem_map.1 split
  rw [Bool.and_eq_true, bne_iff_ne, bne_iff_ne] at kept
  refine ⟨kept.1, kept.2, ?_⟩
  rw [String.toList_ofList]
  exact splitSlashes_whole _ _ found

theorem anchorOf_text (anchor : Anchor) {c : Char} (plain : c ≠ '/') (s : List Char) :
    anchorOf (anchor.text.toList ++ c :: s) = anchor := by
  cases anchor <;> simp [Anchor.text, anchorOf, plain]

/-- The slashes of an anchor have nothing between them. -/
theorem components_text (anchor : Anchor) (s : List Char) :
    ((splitSlashes (anchor.text.toList ++ s)).map String.ofList).filter
        (fun part => part != "" && part != ".") =
      ((splitSlashes s).map String.ofList).filter fun part => part != "" && part != "." := by
  cases anchor <;> simp [Anchor.text, splitSlashes_slash]

/-- What is written behind the anchor begins with a letter of the first component. -/
theorem body_begins {first : String} (component : IsComponent first) (others : List String) :
    ∃ c tail, c ≠ '/' ∧ ("/".intercalate (first :: others)).toList = c :: tail := by
  have body : ("/".intercalate (first :: others)).toList =
      ['/'].intercalate ((first :: others).map String.toList) := String.toList_intercalate
  have whole := component.whole
  rw [body, List.map_cons]
  cases letters : first.toList with
  | nil => exact absurd (String.toList_eq_nil_iff.1 letters) component.filled
  | cons c tail =>
    rw [letters, List.mem_cons, not_or] at whole
    cases others with
    | nil => exact ⟨c, tail, Ne.symm whole.1, List.intercalate_singleton⟩
    | cons next others => exact ⟨c, _, Ne.symm whole.1, List.intercalate_cons_cons⟩

theorem ofString_toString {p : Path} (read : p.IsRead) : ofString (toString p) = p := by
  obtain ⟨anchor, components⟩ := p
  cases components with
  | nil => cases anchor <;> decide
  | cons first others =>
    obtain ⟨c, tail, plain, begins⟩ := body_begins (read first List.mem_cons_self) others
    have some : anchor.text ++ "/".intercalate (first :: others) ≠ "" := by
      intro empty
      have none := congrArg String.toList empty
      rw [String.toList_append, begins] at none
      simp at none
    have written : toString (Path.mk anchor (first :: others)) =
        anchor.text ++ "/".intercalate (first :: others) := if_neg some
    have parts : splitSlashes (c :: tail) = (first :: others).map String.toList := by
      rw [← begins, String.toList_intercalate]
      refine splitSlashes_intercalate (by simp) ?_
      intro part member
      obtain ⟨component, inside, rfl⟩ := List.mem_map.1 member
      exact (read component inside).whole
    have kept : (first :: others).filter (fun part => part != "" && part != ".") =
        first :: others := by
      refine List.filter_eq_self.2 ?_
      intro part member
      simp [(read part member).filled, (read part member).named]
    rw [ofString, Path.mk.injEq, written, String.toList_append, begins, components_text, parts]
    refine ⟨anchorOf_text anchor plain tail, ?_⟩
    have again : String.ofList ∘ String.toList = id := funext fun _ => String.ofList_toList
    rw [List.map_map, again, List.map_id, kept]

/-- Paths that were read and are written alike are the same. -/
theorem toString_injective {p q : Path} (p_read : p.IsRead) (q_read : q.IsRead)
    (same : toString p = toString q) : p = q := by
  rw [← ofString_toString p_read, ← ofString_toString q_read, same]

end ManifestOrder.Path

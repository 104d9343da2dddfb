import ManifestOrder.Proofs.Edit.Substitution
import ManifestOrder.Proofs.Text.Weave

/-!
# Editing the slots of a text

The slots of a text are the spans of the entries that are woven into it. Edits of slots are in
order and do not overlap (`edits_separated`), so they are accepted, and what they are applied as, a
substitution, puts the new entries where the old ones were (`apply_edits`), of whatever length they
are.
-/

namespace ManifestOrder.Edit

open Text

/-- The spans of the entries of a woven text that starts at `offset`. -/
def slots (offset : Nat) : List (List Char) → List (List Char) → List Span
  | gap :: gaps, entry :: entries =>
    let start := offset + gap.length
    ⟨start, start + entry.length⟩ :: slots (start + entry.length) gaps entries
  | _, _ => []

/-- The edits that put new entries into the slots, where they differ from the old ones. -/
def edits (offset : Nat) : List (List Char) → List (List Char) → List (List Char) →
    List Replacement
  | gap :: gaps, old :: olds, new :: news =>
    let start := offset + gap.length
    let others := edits (start + old.length) gaps olds news
    if old = new then others else ⟨⟨start, start + old.length⟩, new⟩ :: others
  | _, _, _ => []

/-! ## Edits in order -/

theorem edits_bounds {offset : Nat} {gaps olds news : List (List Char)}
    (filled : ∀ old ∈ olds, old ≠ []) :
    ∀ r ∈ edits offset gaps olds news, (offset : Int) ≤ r.span.start ∧
      r.span.start < r.span.stop ∧ r.span.stop ≤ offset + (weave gaps olds).length := by
  induction olds generalizing offset gaps news with
  | nil => simp [edits]
  | cons old olds ih =>
    rw [List.forall_mem_cons] at filled
    cases gaps with
    | nil => simp [edits]
    | cons gap gaps =>
      cases news with
      | nil => simp [edits]
      | cons new news =>
        have others := @ih (offset + gap.length + old.length) gaps news filled.2
        have long := List.length_pos_iff.2 filled.1
        have later : ∀ r ∈ edits (offset + gap.length + old.length) gaps olds news,
            (offset : Int) ≤ r.span.start ∧ r.span.start < r.span.stop ∧
              r.span.stop ≤ offset + (weave (gap :: gaps) (old :: olds)).length := by
          intro r member
          have := others r member
          simp only [weave_cons, List.length_append]
          omega
        simp only [edits]
        split
        · exact later
        · refine List.forall_mem_cons.2 ⟨?_, later⟩
          simp only [weave_cons, List.length_append]
          omega

theorem edits_apart {offset : Nat} {gaps olds news : List (List Char)}
    (filled : ∀ old ∈ olds, old ≠ []) :
    (edits offset gaps olds news).Pairwise fun a b =>
      a.span.start < b.span.start ∧ a.span.stop ≤ b.span.start := by
  induction olds generalizing offset gaps news with
  | nil => simp [edits]
  | cons old olds ih =>
    rw [List.forall_mem_cons] at filled
    cases gaps with
    | nil => simp [edits]
    | cons gap gaps =>
      cases news with
      | nil => simp [edits]
      | cons new news =>
        simp only [edits]
        split
        · exact ih filled.2
        · refine List.pairwise_cons.2 ⟨?_, ih filled.2⟩
          intro r member
          have := (edits_bounds filled.2 r member).1
          have long := List.length_pos_iff.2 filled.1
          simp only [Int.natCast_add] at this ⊢
          omega

/-- Edits of slots can be applied together. -/
theorem edits_separated {gaps olds news : List (List Char)} (filled : ∀ old ∈ olds, old ≠ []) :
    Separated (weave gaps olds).length (edits 0 gaps olds news) := by
  refine ⟨?_, edits_apart filled⟩
  intro r member
  have bounds := edits_bounds filled r member
  simp only [Int.natCast_zero, Int.zero_add] at bounds
  exact ⟨bounds.1, Int.le_of_lt bounds.2.1, bounds.2.2⟩

/-! ## Applying the edits -/

/-- What edits of slots are applied as. -/
theorem substitute_edits {front : List Char} {gaps olds news : List (List Char)}
    (filled : ∀ old ∈ olds, old ≠ []) (count : gaps.length = olds.length + 1)
    (same : news.length = olds.length) :
    substitute (front ++ weave gaps olds) front.length (edits front.length gaps olds news) =
      weave gaps news := by
  induction olds generalizing front gaps news with
  | nil =>
    obtain rfl : news = [] := List.length_eq_zero_iff.1 same
    have none : edits front.length gaps [] [] = [] := by cases gaps <;> rfl
    rw [none, substitute, List.drop_left]
  | cons old olds ih =>
    obtain ⟨gap, gaps, rfl⟩ := List.exists_cons_of_length_eq_add_one count
    obtain ⟨new, news, rfl⟩ := List.exists_cons_of_length_eq_add_one same
    rw [List.forall_mem_cons] at filled
    have others := @ih (front ++ gap ++ old) gaps news filled.2 (by simpa using count)
      (by simpa using same)
    have text : front ++ weave (gap :: gaps) (old :: olds) =
        front ++ gap ++ old ++ weave gaps olds := by
      simp only [weave_cons, List.append_assoc]
    have stop : (front ++ gap ++ old).length = front.length + gap.length + old.length := by
      simp only [List.length_append]
    have start : (front ++ gap).length = front.length + gap.length := List.length_append
    rw [stop] at others
    simp only [edits]
    split
    · rename_i equal
      have behind : ∀ r ∈ edits (front.length + gap.length + old.length) gaps olds news,
          ((front.length + gap.length + old.length : Nat) : Int) ≤ r.span.start :=
        fun r member => (edits_bounds filled.2 r member).1
      rw [substitute_skip (by omega) behind, text, others, ← stop, List.take_left,
        List.append_assoc front, List.drop_left, equal, weave_cons]
    · -- The slot begins behind the gap and ends where the rest of the text starts.
      have last : ((front.length + gap.length : Nat) + old.length : Int).toNat =
          front.length + gap.length + old.length := by omega
      simp only [substitute]
      rw [text, last, others, Int.toNat_natCast, ← start, List.append_assoc (front ++ gap),
        List.take_left, List.drop_left, weave_cons]

/-- Edits of slots put the new entries in place of the old ones, as one recorded action. -/
theorem apply_edits {b : Buffer} (closed : b.inTransaction = false)
    {gaps olds news : List (List Char)} (woven : b.text = weave gaps olds)
    (count : gaps.length = olds.length + 1) (same : news.length = olds.length)
    (filled : ∀ old ∈ olds, old ≠ []) (name : Option String) :
    b.apply (edits 0 gaps olds news) name =
      .ok (({ b with text := weave gaps news } : Buffer).commit name b.text) := by
  have separated : Separated b.text.length (edits 0 gaps olds news) :=
    woven ▸ edits_separated filled
  have accepted : Replacement.validate (edits 0 gaps olds news) b.text.length =
      .ok (edits 0 gaps olds news).reverse :=
    validate_eq_ok_iff.2 ⟨List.reverse_perm _, (List.reverse_reverse _).symm ▸ separated⟩
  have substituted := @substitute_edits [] gaps olds news filled count same
  rw [List.nil_append, List.length_nil, ← woven] at substituted
  rw [apply_of_accepted closed accepted, List.reverse_reverse, substituted]

/-- There are as many edits as entries that differ from the old ones. -/
theorem edits_length {offset : Nat} {gaps olds news : List (List Char)}
    (count : gaps.length = olds.length + 1) :
    (edits offset gaps olds news).length =
      (olds.zip news).countP fun (old, new) => decide (old ≠ new) := by
  induction olds generalizing offset gaps news with
  | nil => cases gaps <;> cases news <;> rfl
  | cons old olds ih =>
    obtain ⟨gap, gaps, rfl⟩ := List.exists_cons_of_length_eq_add_one count
    cases news with
    | nil => rfl
    | cons new news =>
      have others := @ih (offset + gap.length + old.length) gaps news (by simpa using count)
      rw [List.zip_cons_cons, List.countP_cons]
      simp only [edits]
      split
      · rename_i equal
        simpa [equal] using others
      · rename_i differ
        simpa [differ] using others

end ManifestOrder.Edit

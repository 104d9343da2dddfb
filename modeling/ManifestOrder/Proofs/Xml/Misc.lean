import ManifestOrder.Proofs.Xml.Token
import ManifestOrder.Xml.Prolog

/-!
# Pieces around the root and the text behind them

White space, comments and instructions are read in front of the root element and behind it. Each is
read again in front of another text (`miscs_elsewhere`), provided that the text that is kept has
markup in it and that none of them is found where they end.

An optional piece that is missing must be shown to stay missing (`optional_elsewhere`,
`optionalLeaf_elsewhere`).
-/

namespace ManifestOrder.Xml

open Text

/-! ## How the pieces begin -/

theorem space?_front {s rest : List Char} (read : space? s = some rest) :
    ∃ c tail, s = c :: tail ∧ isSpace c = true := by
  cases s with
  | nil => simp [space?, run?] at read
  | cons c s =>
    refine ⟨c, s, rfl, ?_⟩
    cases space : isSpace c with
    | true => rfl
    | false => simp [space?_cons_eq_none.2 space] at read

theorem comment?_front {s rest : List Char} (read : comment? s = some rest) :
    ∃ tail, s = "<!--".toList ++ tail := by
  obtain ⟨tail, mark, -⟩ := Option.bind_eq_some_iff.1 read
  exact ⟨tail, word?_eq_some_iff.1 mark⟩

theorem instruction?_front {place : Place} {s rest : List Char}
    (read : instruction? place s = some rest) : ∃ tail, s = "<?".toList ++ tail := by
  obtain ⟨tail, mark, -⟩ := Option.bind_eq_some_iff.1 read
  exact ⟨tail, word?_eq_some_iff.1 mark⟩

/-! ## Optional pieces -/

section
variable {reader : List Char → Option (List Char)}

theorem optional_suffix (closed : Sealed reader) (s : List Char) :
    (reader s).getD s <:+ s := by
  cases read : reader s with
  | none => exact List.suffix_refl s
  | some rest => exact (closed.rest read).suffix

theorem optional_elsewhere {w v x y : List Char} (closed : Sealed reader)
    (missing : reader (v ++ y) = none) (read : (reader (w ++ x)).getD (w ++ x) = v ++ x) :
    (reader (w ++ y)).getD (w ++ y) = v ++ y := by
  cases found : reader (w ++ x) with
  | some rest =>
    rw [found, Option.getD_some] at read
    subst read
    rw [closed.elsewhere y found, Option.getD_some]
  | none =>
    rw [found, Option.getD_none] at read
    obtain rfl := List.append_cancel_right read
    rw [missing, Option.getD_none]

end

theorem optionalLeaf_of_some {kind : LeafKind} {reader : List Char → Option (List Char)}
    {s rest : List Char} (read : reader s = some rest) :
    optionalLeaf kind reader s = ([⟨kind, readOf s rest⟩], rest) := by
  rw [optionalLeaf, read]

theorem optionalLeaf_of_none {kind : LeafKind} {reader : List Char → Option (List Char)}
    {s : List Char} (missing : reader s = none) : optionalLeaf kind reader s = ([], s) := by
  rw [optionalLeaf, missing]

section
variable (kind : LeafKind) {reader : List Char → Option (List Char)}

theorem optionalLeaf_suffix (bounded : Bounded reader) (s : List Char) :
    (optionalLeaf kind reader s).2 <:+ s := by
  cases read : reader s with
  | none =>
    simpa only [optionalLeaf_of_none read] using List.suffix_refl s
  | some rest =>
    rw [optionalLeaf_of_some read]
    exact bounded.suffix read

theorem optionalLeaf_source (bounded : Bounded reader) (s : List Char) :
    (optionalLeaf kind reader s).1.flatMap Leaf.text ++ (optionalLeaf kind reader s).2 = s := by
  cases read : reader s with
  | none =>
    rw [optionalLeaf_of_none read]
    rfl
  | some rest =>
    rw [optionalLeaf_of_some read, List.flatMap_singleton]
    exact readOf_append (bounded.suffix read)

variable {kind}

theorem optionalLeaf_elsewhere {w v x y : List Char} {leaves : List Leaf}
    (bounded : Bounded reader) (nonempty : v ≠ [])
    (stays : reader (v ++ x) = none → reader (v ++ y) = none)
    (read : optionalLeaf kind reader (w ++ x) = (leaves, v ++ x)) :
    optionalLeaf kind reader (w ++ y) = (leaves, v ++ y) := by
  cases found : reader (w ++ x) with
  | none =>
    rw [optionalLeaf_of_none found, Prod.mk.injEq] at read
    obtain ⟨rfl, same⟩ := read
    obtain rfl := List.append_cancel_right same
    exact optionalLeaf_of_none (stays found)
  | some rest =>
    rw [optionalLeaf_of_some found, Prod.mk.injEq] at read
    obtain ⟨rfl, rfl⟩ := read
    rw [optionalLeaf_of_some (bounded.elsewhere y nonempty found),
      readOf_elsewhere (suffix_of_append (bounded.suffix found)) y x]

end

/-- Whether a run begins is seen in the first character. -/
theorem space?_stays {v x y : List Char} (nonempty : v ≠ []) (missing : space? (v ++ x) = none) :
    space? (v ++ y) = none := by
  cases v with
  | nil => exact absurd rfl nonempty
  | cons c v => exact space?_cons_eq_none.2 (space?_cons_eq_none.1 missing)

/-! ## White space, comments and instructions around the root -/

theorem misc?_of_space {s rest : List Char} (read : space? s = some rest) :
    misc? s = some (.space, rest) := by
  rw [misc?, read]

theorem misc?_of_comment {s rest : List Char} (read : comment? s = some rest) :
    misc? s = some (.comment, rest) := by
  obtain ⟨tail, rfl⟩ := comment?_front read
  have blanks : space? ("<!--".toList ++ tail) = none := rfl
  rw [misc?, blanks, read]

theorem misc?_of_instruction {s rest : List Char} (read : instruction? .prolog s = some rest) :
    misc? s = some (.instruction, rest) := by
  obtain ⟨tail, rfl⟩ := instruction?_front read
  have blanks : space? ("<?".toList ++ tail) = none := rfl
  have other : comment? ("<?".toList ++ tail) = none := rfl
  rw [misc?, blanks, other, read, Option.map_some]

theorem misc?_of_tag {s : List Char} (begins : BeginsTag s) : misc? s = none := by
  obtain ⟨c, tail, rfl, name⟩ := begins
  have front := Construct.of_opening name tail
  have blanks : space? ('<' :: c :: tail) = none := rfl
  have other : comment? ('<' :: c :: tail) = none := by
    refine Option.eq_none_iff_forall_ne_some.2 ?_
    intro rest read
    obtain ⟨body, same⟩ := comment?_front read
    rw [same, Construct.of_comment] at front
    simp at front
  have another : instruction? .prolog ('<' :: c :: tail) = none := by
    refine Option.eq_none_iff_forall_ne_some.2 ?_
    intro rest read
    obtain ⟨body, same⟩ := instruction?_front read
    rw [same, Construct.of_instruction] at front
    simp at front
  rw [misc?, blanks, other, another, Option.map_none]

theorem misc?_eq_some {s rest : List Char} {kind : LeafKind} (read : misc? s = some (kind, rest)) :
    (kind = .space ∧ space? s = some rest) ∨ (kind = .comment ∧ comment? s = some rest) ∨
      (kind = .instruction ∧ instruction? .prolog s = some rest) := by
  unfold misc? at read
  split at read
  · rename_i left blanks
    simp only [Option.some.injEq, Prod.mk.injEq] at read
    obtain ⟨rfl, rfl⟩ := read
    exact .inl ⟨rfl, blanks⟩
  · split at read
    · rename_i left comment
      simp only [Option.some.injEq, Prod.mk.injEq] at read
      obtain ⟨rfl, rfl⟩ := read
      exact .inr (.inl ⟨rfl, comment⟩)
    · obtain ⟨left, instruction, pair⟩ := Option.map_eq_some_iff.1 read
      simp only [Prod.mk.injEq] at pair
      obtain ⟨rfl, rfl⟩ := pair
      exact .inr (.inr ⟨rfl, instruction⟩)

theorem misc?_elsewhere {w v x : List Char} {kind : LeafKind} (y : List Char) (markup : '<' ∈ v)
    (read : misc? (w ++ x) = some (kind, v ++ x)) : misc? (w ++ y) = some (kind, v ++ y) := by
  rcases misc?_eq_some read with ⟨rfl, blanks⟩ | ⟨rfl, comment⟩ | ⟨rfl, instruction⟩
  · exact misc?_of_space (space?_bounded.elsewhere y (List.ne_nil_of_mem markup) blanks)
  · exact misc?_of_comment (comment?_sealed.elsewhere y comment)
  · refine misc?_of_instruction (instruction?_elsewhere ?_ instruction)
    intro ends
    rw [← ends]
    exact lineEnds_of_mem (by decide) markup y x

theorem miscs_of_none {s : List Char} (stops : misc? s = none) : miscs s = ([], s) := by
  rw [miscs]
  split
  · rfl
  · simp_all

theorem miscs_of_some {s rest : List Char} {kind : LeafKind}
    (read : misc? s = some (kind, rest)) :
    miscs s = (⟨kind, readOf s rest⟩ :: (miscs rest).1, (miscs rest).2) := by
  rw [miscs]
  split
  · simp_all
  · rename_i found
    rw [read, Option.some.injEq, Prod.mk.injEq] at found
    obtain ⟨rfl, rfl⟩ := found
    rfl

theorem miscs_stops (s : List Char) : misc? (miscs s).2 = none := by
  induction s using miscs.induct with
  | case1 s stops => rwa [miscs_of_none stops]
  | case2 s kind rest read _ _ _ _ ih => rwa [miscs_of_some read]

theorem miscs_suffix (s : List Char) : (miscs s).2 <:+ s := by
  induction s using miscs.induct with
  | case1 s stops =>
    simpa only [miscs_of_none stops] using List.suffix_refl s
  | case2 s kind rest read _ _ _ _ ih =>
    rw [miscs_of_some read]
    exact ih.trans (misc?_rest read).suffix

theorem miscs_source (s : List Char) : (miscs s).1.flatMap Leaf.text ++ (miscs s).2 = s := by
  induction s using miscs.induct with
  | case1 s stops =>
    rw [miscs_of_none stops]
    rfl
  | case2 s kind rest read _ _ _ _ ih =>
    rw [miscs_of_some read, List.flatMap_cons, List.append_assoc, ih]
    exact readOf_append (misc?_rest read).suffix

theorem miscs_elsewhere {w v x y : List Char} {leaves : List Leaf} (markup : '<' ∈ v)
    (stops : misc? (v ++ y) = none) (read : miscs (w ++ x) = (leaves, v ++ x)) :
    miscs (w ++ y) = (leaves, v ++ y) := by
  generalize whole : w ++ x = s at read
  induction s using miscs.induct generalizing w leaves with
  | case1 s none =>
    rw [miscs_of_none none, Prod.mk.injEq] at read
    obtain ⟨rfl, same⟩ := read
    rw [List.append_cancel_right (whole.trans same), miscs_of_none stops]
  | case2 s kind rest found _ _ _ _ ih =>
    rw [miscs_of_some found, Prod.mk.injEq] at read
    obtain ⟨rfl, left⟩ := read
    -- The rest of the first piece is `front ++ v ++ x`, and `ih` is about that.
    obtain ⟨front, behind⟩ := miscs_suffix rest
    rw [left, ← List.append_assoc] at behind
    obtain rfl := behind
    subst whole
    have inside : '<' ∈ front ++ v := List.mem_append_right front markup
    have others : miscs (front ++ v ++ y) = ((miscs (front ++ v ++ x)).1, v ++ y) :=
      ih rfl (Prod.ext rfl left)
    rw [miscs_of_some (misc?_elsewhere y inside found), others,
      readOf_elsewhere (suffix_of_append (misc?_rest found).suffix) y x]

end ManifestOrder.Xml

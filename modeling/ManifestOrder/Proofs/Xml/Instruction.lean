import ManifestOrder.Proofs.Xml.Lexeme

/-!
# Instructions and the text behind them

The target of an instruction is bounded, odd as the reading of a target that begins with `xml` is:
each character that is taken without being looked at stands in front of the mark that ends the
instruction. What is left is the line feed behind an instruction with a body. Whether there is one
depends on the text behind, up to the first character that is no space.
-/

namespace ManifestOrder.Xml

open Text

/-! ## Targets -/

theorem afterCommon_elsewhere {word w v x : List Char} (y : List Char) (nonempty : v ≠ [])
    (compared : afterCommon word (w ++ x) = (false, v ++ x)) :
    afterCommon word (w ++ y) = (false, v ++ y) := by
  induction word generalizing w with
  | nil => simp [afterCommon] at compared
  | cons c word ih =>
    cases w with
    | nil =>
      have left := afterCommon_suffix (c :: word) ([] ++ x)
      rw [compared] at left
      exact absurd (List.suffix_nil.1 (suffix_of_append left)) nonempty
    | cons d w =>
      rw [List.cons_append, afterCommon] at compared ⊢
      split at compared
      · rename_i same
        rw [if_pos same]
        exact ih compared
      · rename_i differ
        rw [if_neg differ]
        rw [← List.cons_append, Prod.mk.injEq] at compared ⊢
        rw [List.append_cancel_right compared.2]
        exact ⟨rfl, rfl⟩

theorem dropOne_elsewhere {p : Char → Bool} {w v x : List Char} (y : List Char)
    (nonempty : v ≠ []) (dropped : ((w ++ x).drop 1).dropWhile p = v ++ x) :
    ((w ++ y).drop 1).dropWhile p = v ++ y := by
  cases w with
  | nil =>
    have left : v ++ x <:+ [] ++ x :=
      dropped ▸ (List.dropWhile_suffix p).trans (List.drop_suffix 1 x)
    exact absurd (List.suffix_nil.1 (suffix_of_append left)) nonempty
  | cons c w => exact dropWhile_elsewhere y nonempty dropped

theorem reservedTarget_elsewhere {w v x : List Char} (y : List Char) (nonempty : v ≠ [])
    (read : reservedTarget (w ++ x) = .plain (v ++ x)) :
    reservedTarget (w ++ y) = .plain (v ++ y) := by
  unfold reservedTarget at read
  split at read
  · simp at read
  · rename_i middle first
    split at read
    · simp at read
    · rename_i last second
      injection read with skipped
      -- Both comparisons stop in front of `v`, so at a character that they have seen.
      obtain ⟨front, rfl⟩ : v ++ x <:+ last :=
        skipped ▸ (List.dropWhile_suffix _).trans (List.drop_suffix 1 last)
      have left := afterCommon_suffix "stylesheet".toList middle
      rw [second] at left
      obtain ⟨before, rfl⟩ := left
      simp only [← List.append_assoc] at first second skipped
      have first' := afterCommon_elsewhere y (by simp [nonempty]) first
      have second' := afterCommon_elsewhere y (by simp [nonempty]) second
      unfold reservedTarget
      rw [first']
      simp only [second']
      rw [dropOne_elsewhere y nonempty skipped]

theorem targetAfterXM_cons_suffix {place : Place} {l : Char} {s rest : List Char}
    (read : targetAfterXM place (l :: s) = .plain rest) : rest <:+ s := by
  simp only [targetAfterXM] at read
  split at read
  · cases s with
    | nil => simp at read
    | cons c s =>
      refine .trans ?_ (List.suffix_cons c s)
      simp only at read
      split at read
      · simp at read
      · split at read
        · exact reservedTarget_suffix read
        · injection read with read
          exact read ▸ (List.dropWhile_suffix _).trans (List.drop_suffix 1 s)
  · injection read with read
    exact read ▸ List.dropWhile_suffix _

theorem targetAfterXM_elsewhere {place : Place} {w v x : List Char} (y : List Char)
    (nonempty : v ≠ []) (read : targetAfterXM place (w ++ x) = .plain (v ++ x)) :
    targetAfterXM place (w ++ y) = .plain (v ++ y) := by
  cases w with
  | nil => exact absurd (List.suffix_nil.1 (suffix_of_append (targetAfterXM_suffix read))) nonempty
  | cons l w =>
    have left := targetAfterXM_cons_suffix read
    cases w with
    | nil => exact absurd (List.suffix_nil.1 (suffix_of_append left)) nonempty
    | cons c w =>
      simp only [List.cons_append, targetAfterXM] at read ⊢
      split at read
      · rename_i third
        rw [if_pos third]
        split at read
        · simp at read
        · rename_i name
          rw [if_neg name]
          split at read
          · rename_i hyphen
            rw [if_pos hyphen]
            exact reservedTarget_elsewhere y nonempty read
          · rename_i hyphen
            injection read with skipped
            rw [if_neg hyphen, dropOne_elsewhere y nonempty skipped]
      · rename_i third
        injection read with skipped
        rw [if_neg third, ← List.cons_append, dropWhile_elsewhere y nonempty skipped]

theorem target_cons_suffix {place : Place} {c : Char} {s rest : List Char}
    (read : target place (c :: s) = .plain rest) : rest <:+ s := by
  simp only [target] at read
  split at read
  · simp at read
  · split at read
    · cases s with
      | nil =>
        injection read with read
        exact read ▸ List.suffix_refl _
      | cons m s =>
        simp only at read
        split at read
        · exact (targetAfterXM_suffix read).trans (List.suffix_cons m s)
        · injection read with read
          exact read ▸ List.dropWhile_suffix _
    · injection read with read
      exact read ▸ List.dropWhile_suffix _

theorem target_elsewhere {place : Place} {w v x : List Char} (y : List Char)
    (nonempty : v ≠ []) (read : target place (w ++ x) = .plain (v ++ x)) :
    target place (w ++ y) = .plain (v ++ y) := by
  cases w with
  | nil => exact absurd (List.suffix_nil.1 (suffix_of_append (target_suffix read))) nonempty
  | cons c w =>
    have left := target_cons_suffix read
    simp only [List.cons_append, target] at read ⊢
    split at read
    · simp at read
    · rename_i start
      rw [if_neg start]
      split at read
      · rename_i first
        rw [if_pos first]
        cases w with
        | nil => exact absurd (List.suffix_nil.1 (suffix_of_append left)) nonempty
        | cons m w =>
          simp only [List.cons_append] at read ⊢
          split at read
          · rename_i second
            rw [if_pos second]
            exact targetAfterXM_elsewhere y nonempty read
          · rename_i second
            injection read with skipped
            rw [if_neg second, ← List.cons_append, dropWhile_elsewhere y nonempty skipped]
      · rename_i first
        injection read with skipped
        rw [if_neg first, dropWhile_elsewhere y nonempty skipped]

/-! ## Endings -/

theorem lineEnds_cons (c : Char) (s : List Char) :
    lineEnds (c :: s) = if c = ' ' then lineEnds s else decide (c = '\n') := by
  unfold lineEnds
  by_cases blank : c = ' '
  · simp [blank]
  · simp [blank]

/-- Whether a line ends is decided by the first character that is no space. -/
theorem lineEnds_append {c : Char} {w : List Char} (other : c ≠ ' ') (x y : List Char) :
    lineEnds (w ++ c :: x) = lineEnds (w ++ c :: y) := by
  induction w with
  | nil => simp [lineEnds_cons, other]
  | cons d w ih => rw [List.cons_append, List.cons_append, lineEnds_cons, lineEnds_cons, ih]

/-- A line ends in front of a mark or it does not, whatever stands behind the mark. -/
theorem lineEnds_of_mem {c : Char} {v : List Char} (other : c ≠ ' ') (mark : c ∈ v)
    (x y : List Char) : lineEnds (v ++ x) = lineEnds (v ++ y) := by
  obtain ⟨front, tail, rfl⟩ := List.append_of_mem mark
  simpa using lineEnds_append (w := front) other (tail ++ x) (tail ++ y)

theorem word?_of_space? {s rest : List Char} (blanks : space? s = some rest) :
    word? "?>" s = none := by
  cases s with
  | nil => rfl
  | cons c s =>
    cases closed : word? "?>" (c :: s) with
    | none => rfl
    | some left =>
      have spelled := word?_eq_some_iff.1 closed
      obtain rfl : c = '?' := (List.cons.injEq .. ▸ spelled).1
      simp [space?, run?, isSpace] at blanks

theorem afterTarget?_rest {s rest : List Char} (read : afterTarget? s = some rest) :
    IsRestOf rest s := by
  unfold afterTarget? at read
  split at read
  · rename_i closed
    exact Option.some.inj read ▸ word?_rest (by decide) closed
  · obtain ⟨read, -⟩ := Option.filter_eq_some_iff.1 read
    obtain ⟨body, blanks, closed⟩ := Option.bind_eq_some_iff.1 read
    exact ((word?_rest (by decide) closed).after_suffix (List.dropWhile_suffix _)).trans
      (run?_rest blanks)

theorem afterTarget?_elsewhere {w v x y : List Char}
    (line : lineEnds (v ++ x) = true → lineEnds (v ++ y) = true)
    (read : afterTarget? (w ++ x) = some (v ++ x)) : afterTarget? (w ++ y) = some (v ++ y) := by
  have mark : Sealed (word? "?>") := word?_sealed (by decide)
  unfold afterTarget? at read ⊢
  split at read
  · rename_i left closed
    rw [Option.some.inj read] at closed
    rw [mark.elsewhere y closed]
  · obtain ⟨read, ends⟩ := Option.filter_eq_some_iff.1 read
    have body : Sealed fun s => (space? s).bind fun body =>
        word? "?>" (body.dropWhile fun c => c != '\n' && c != '?') :=
      space?_bounded.seal ((dropWhile_bounded _).seal mark)
    have moved := body.elsewhere y read
    obtain ⟨_, blanks, _⟩ := Option.bind_eq_some_iff.1 moved
    rw [word?_of_space? blanks]
    exact Option.filter_eq_some_iff.2 ⟨moved, line ends⟩

/-! ## Reserved targets -/

theorem reservedTarget_eq_reserved {s : List Char} {name : String}
    (read : reservedTarget s = .reserved name) :
    name = "xml-model" ∨ name = "xml-stylesheet" := by
  unfold reservedTarget at read
  split at read
  · injection read with same
    exact .inl same.symm
  · split at read
    · injection read with same
      exact .inr same.symm
    · simp at read

theorem targetAfterXM_eq_reserved {place : Place} {s : List Char} {name : String}
    (read : targetAfterXM place s = .reserved name) :
    place = .prolog ∧ (name = "xml-model" ∨ name = "xml-stylesheet") := by
  unfold targetAfterXM at read
  split at read
  · simp at read
  · split at read
    · split at read
      · simp at read
      · split at read
        · simp at read
        · split at read
          · rename_i hyphen
            simp only [Bool.and_eq_true, decide_eq_true_eq] at hyphen
            exact ⟨hyphen.2, reservedTarget_eq_reserved read⟩
          · simp at read
    · simp at read

theorem target_eq_reserved {place : Place} {s : List Char} {name : String}
    (read : target place s = .reserved name) :
    place = .prolog ∧ (name = "xml-model" ∨ name = "xml-stylesheet") := by
  unfold target at read
  split at read
  · simp at read
  · split at read
    · simp at read
    · split at read
      · split at read
        · simp at read
        · split at read
          · exact targetAfterXM_eq_reserved read
          · simp at read
      · simp at read

/-- A reserved target is recognised by its letters alone. -/
theorem target_of_reserved {name : String}
    (reserved : name = "xml-model" ∨ name = "xml-stylesheet") (s : List Char) :
    target .prolog (name.toList ++ s) = .reserved name := by
  rcases reserved with rfl | rfl
  · rfl
  · rfl

theorem afterReserved?_sealed (name : String) : Sealed (afterReserved? name) where
  rest {s rest} read := by
    unfold afterReserved? at read
    split at read
    · exact (word?_rest (by decide) read).after_suffix
        ((skipAttributes_suffix _).trans (List.dropWhile_suffix isNameChar))
    · simp at read
  elsewhere {w v x} y read := by
    unfold afterReserved? at read ⊢
    split at read
    · rename_i named
      have closing : Sealed fun s => word? "?>" (skipAttributes s) :=
        attributesThen_sealed '?' ['>'] rfl (by decide)
      obtain ⟨front, nonempty, dropped⟩ := closing.rest read
      rw [← List.append_assoc] at dropped
      have seen : front ++ v ≠ [] := by simp [nonempty]
      rw [takeWhile_elsewhere y seen dropped, if_pos named, dropWhile_elsewhere y seen dropped]
      rw [dropped] at read
      exact closing.elsewhere y read
    · simp at read

theorem afterReserved?_spelled {name : String} {s rest : List Char}
    (read : afterReserved? name s = some rest) : ∃ tail, s = name.toList ++ tail := by
  unfold afterReserved? at read
  split at read
  · rename_i named
    exact ⟨s.dropWhile isNameChar, by rw [← named, List.takeWhile_append_dropWhile]⟩
  · simp at read

/-! ## Instructions -/

/-- An instruction is the same in front of any text, if a line ends there where one has to. -/
theorem instruction?_elsewhere {place : Place} {w v x y : List Char}
    (line : lineEnds (v ++ x) = true → lineEnds (v ++ y) = true)
    (read : instruction? place (w ++ x) = some (v ++ x)) :
    instruction? place (w ++ y) = some (v ++ y) := by
  obtain ⟨inner, mark, ending⟩ := Option.bind_eq_some_iff.1 read
  -- Whatever the target is, something of the instruction follows it.
  obtain ⟨taken, -, rfl⟩ : IsRestOf (v ++ x) inner := by
    split at ending
    · rename_i same
      exact (afterTarget?_rest ending).after_suffix (target_suffix same)
    · exact (afterReserved?_sealed _).rest ending
    · simp at ending
  rw [← List.append_assoc] at mark ending
  unfold instruction?
  rw [(word?_sealed (by decide)).elsewhere y mark, Option.bind_some]
  split at ending
  · -- a plain target
    rename_i rest same
    obtain ⟨front, nonempty, rfl⟩ := afterTarget?_rest ending
    rw [← List.append_assoc] at same ending
    rw [target_elsewhere y (by simp [nonempty]) same]
    exact afterTarget?_elsewhere line ending
  · -- a reserved one: its letters stand there as well, and by them it is recognised
    rename_i name same
    have moved := (afterReserved?_sealed name).elsewhere y ending
    obtain ⟨rfl, reserved⟩ := target_eq_reserved same
    obtain ⟨tail, spelled⟩ := afterReserved?_spelled moved
    have found := target_of_reserved reserved tail
    rw [← spelled] at found
    rw [found]
    exact moved
  · simp at ending

end ManifestOrder.Xml

import ManifestOrder.Proofs.Text.Reading
import ManifestOrder.Xml.TextRun
import ManifestOrder.Xml.Instruction

/-!
# Lexemes and the text behind them

White space and names are bounded; quoted values, references, attributes, comments and sections
whose mark is found are sealed. Text runs and instructions look at the text behind them:

* a text run ends at the first `<` or `&`, so its end is seen in what follows
  (`scanText_whole_elsewhere`);
* an instruction with a body looks for a line feed behind it (`instruction?_elsewhere`);
* a section that seems to be empty is empty only if the mark that ends a section does not occur in
  all the text that follows (`cdata?_empty_iff`).
-/

namespace ManifestOrder.Xml

open Text

/-! ## Names, values and references -/

theorem space?_bounded : Bounded space? :=
  run?_bounded isSpace isSpace

theorem name?_bounded : Bounded name? :=
  run?_bounded isNameStart isNameChar

theorem tagName?_bounded : Bounded tagName? :=
  run?_bounded isTagNameChar isTagNameChar

theorem skipSpace_bounded : Bounded fun s => some (skipSpace s) :=
  dropWhile_bounded isSpace

theorem skipSpace_of_space? {s rest : List Char} (blanks : space? s = some rest) :
    skipSpace s = rest :=
  dropWhile_of_run? blanks

/-- A word behind white space. -/
theorem spacedWord_sealed {word : String} (letters : word.toList ≠ []) :
    Sealed fun s => word? word (skipSpace s) :=
  skipSpace_bounded.seal (word?_sealed letters)

theorem equals?_bounded : Bounded equals? :=
  (spacedWord_sealed (by decide)).bounded.map skipSpace_bounded

theorem quoted?_sealed (allowed : List Char → Bool) : Sealed (quoted? allowed) where
  rest := quoted?_rest
  elsewhere {w v x} y read := by
    cases w with
    | nil => exact absurd (quoted?_rest read).length_lt_append (Nat.not_lt_zero _)
    | cons quote w =>
      simp only [List.cons_append, quoted?] at read ⊢
      split at read
      · rename_i opened
        split at read
        · rename_i closing left dropped
          split at read
          · -- The value has ended at the quote, which is part of the piece.
            rename_i good
            obtain rfl := Option.some.inj read
            have nonempty : closing :: v ≠ [] := List.cons_ne_nil closing v
            rw [if_pos opened, dropWhile_elsewhere y nonempty dropped,
              takeWhile_elsewhere y nonempty dropped]
            exact if_pos good
          · simp at read
        · simp at read
      · simp at read

/-- A reference has an ampersand, something that is referred to, and a semicolon. -/
theorem reference?_length {s rest : List Char} (read : reference? s = some rest) :
    rest.length + 3 ≤ s.length := by
  unfold reference? at read
  split at read
  case h_4 => simp at read
  all_goals
    obtain ⟨middle, first, last⟩ := Option.bind_eq_some_iff.1 read
    have := (run?_rest first).length_lt
    have := (word?_rest (by decide) last).length_lt
    simp only [List.length_cons]
    omega

theorem reference?_decimal {c : Char} (decimal : c ≠ 'x') (s : List Char) :
    reference? ('&' :: '#' :: c :: s) =
      (run? Char.isDigit Char.isDigit (c :: s)).bind (word? ";") := by
  simp [reference?, decimal]

theorem reference?_named {c : Char} (named : c ≠ '#') (s : List Char) :
    reference? ('&' :: c :: s) = (name? (c :: s)).bind (word? ";") := by
  simp [reference?, named]

theorem reference?_sealed : Sealed reference? where
  rest := reference?_rest
  elsewhere {w v x} y read := by
    have long := reference?_length read
    simp only [List.length_append] at long
    obtain ⟨a, w, rfl⟩ := List.exists_cons_of_length_pos (l := w) (by omega)
    simp only [List.length_cons] at long
    obtain ⟨b, w, rfl⟩ := List.exists_cons_of_length_pos (l := w) (by omega)
    simp only [List.length_cons] at long
    obtain ⟨c, w, rfl⟩ := List.exists_cons_of_length_pos (l := w) (by omega)
    -- Three characters of `w` tell the kinds of references apart, and each ends with a semicolon.
    have semicolon : Sealed (word? ";") := word?_sealed (by decide)
    by_cases ampersand : a = '&'
    · subst ampersand
      by_cases number : b = '#'
      · subst number
        by_cases hexadecimal : c = 'x'
        · subst hexadecimal
          exact ((run?_bounded isHexDigit isHexDigit).seal semicolon).elsewhere y read
        · simp only [List.cons_append, reference?_decimal hexadecimal] at read ⊢
          rw [← List.cons_append] at read ⊢
          exact ((run?_bounded Char.isDigit Char.isDigit).seal semicolon).elsewhere y read
      · simp only [List.cons_append, reference?_named number] at read ⊢
        rw [← List.cons_append, ← List.cons_append] at read ⊢
        exact (name?_bounded.seal semicolon).elsewhere y read
    · simp [reference?, ampersand] at read

/-! ## Attributes -/

theorem attribute?_sealed : Sealed attribute? :=
  (name?_bounded.bind equals?_bounded).seal (quoted?_sealed _)

theorem attribute?_of_not_nameStart {c : Char} {s : List Char} (other : isNameStart c = false) :
    attribute? (c :: s) = none := by
  simp [attribute?, name?, run?, other]

theorem space?_cons_eq_none {c : Char} {s : List Char} :
    space? (c :: s) = none ↔ isSpace c = false := by
  simp [space?, run?]

theorem skipAttributes_of_no_space {s : List Char} (blanks : space? s = none) :
    skipAttributes s = s := by
  rw [skipAttributes]
  split
  · rfl
  · simp_all

theorem skipAttributes_of_no_attribute {s inner : List Char} (blanks : space? s = some inner)
    (value : attribute? inner = none) : skipAttributes s = inner := by
  rw [skipAttributes]
  split
  · simp_all
  · split <;> simp_all

theorem skipAttributes_of_attribute {s inner rest : List Char} (blanks : space? s = some inner)
    (value : attribute? inner = some rest) : skipAttributes s = skipAttributes rest := by
  rw [skipAttributes]
  split
  · simp_all
  · split <;> simp_all

/-- The end of a list of attributes is seen when something follows that begins no attribute. -/
theorem skipAttributes_elsewhere {c : Char} {w v x : List Char} (y : List Char)
    (other : isNameStart c = false) (skipped : skipAttributes (w ++ x) = c :: v ++ x) :
    skipAttributes (w ++ y) = c :: v ++ y := by
  generalize whole : w ++ x = s at skipped
  fun_induction skipAttributes s generalizing w with
  | case1 s blanks =>
    -- nothing is skipped
    rw [skipped] at whole blanks
    rw [List.append_cancel_right whole]
    rw [List.cons_append, space?_cons_eq_none] at blanks
    exact skipAttributes_of_no_space (space?_cons_eq_none.2 blanks)
  | case2 s inner blanks _ =>
    -- white space is skipped, and what follows it begins no attribute here or there
    rw [← whole, skipped] at blanks
    exact skipAttributes_of_no_attribute (space?_bounded.elsewhere y (by simp) blanks)
      (attribute?_of_not_nameStart other)
  | case3 s inner blanks rest value ih =>
    -- an attribute is skipped, and `ih` is about what follows it
    obtain ⟨front, leftOf⟩ := skipAttributes_suffix rest
    rw [skipped, ← List.append_assoc] at leftOf
    obtain ⟨taken, nonempty, rfl⟩ := attribute?_rest value
    rw [← leftOf, ← List.append_assoc] at blanks
    rw [← leftOf, ← List.append_assoc] at value
    rw [← whole] at blanks
    rw [skipAttributes_of_attribute (space?_bounded.elsewhere y (by simp) blanks)
      (attribute?_sealed.elsewhere y value)]
    exact ih leftOf skipped

/-- Attributes and a word that is none: the end of a tag. -/
theorem attributesThen_sealed {word : String} (c : Char) (letters : List Char)
    (spelled : word.toList = c :: letters) (other : isNameStart c = false) :
    Sealed fun s => word? word (skipAttributes s) where
  rest read := (word?_rest (by simp [spelled]) read).after_suffix (skipAttributes_suffix _)
  elsewhere {w v x} y read := by
    rw [word?_eq_some_iff, spelled] at read ⊢
    rw [List.cons_append, ← List.append_assoc, ← List.cons_append] at read ⊢
    exact skipAttributes_elsewhere y other read

/-! ## Comments -/

theorem afterComment?_skip {c : Char} {s : List Char} (other : c = '-' → s.head? ≠ some '-') :
    afterComment? (c :: s) = afterComment? s := by
  rw [afterComment?]
  intro tail first second
  exact other first (by rw [second, List.head?_cons])

theorem afterComment?_sealed : Sealed afterComment? where
  rest := afterComment?_rest
  elsewhere {w v x} y read := by
    induction w with
    | nil => exact absurd (afterComment?_rest read).length_lt_append (Nat.not_lt_zero _)
    | cons c w ih =>
      by_cases hyphens : c = '-' ∧ (w ++ x).head? = some '-'
      · obtain ⟨rfl, second⟩ := hyphens
        cases w with
        | nil =>
          -- The second hyphen would be taken from the text behind, all of which is left.
          obtain ⟨tail, rfl⟩ := List.head?_eq_some_iff.1 second
          have := (word?_rest (w := ">") (by decide) read).length_lt
          simp only [List.length_append, List.length_cons] at this
          omega
        | cons d w =>
          obtain rfl : d = '-' := by simpa using second
          exact (word?_sealed (by decide)).elsewhere y read
      · have other : c = '-' → (w ++ x).head? ≠ some '-' := fun first second =>
          hyphens ⟨first, second⟩
        rw [List.cons_append, afterComment?_skip other] at read
        cases w with
        | nil => exact absurd (afterComment?_rest read).length_lt_append (Nat.not_lt_zero _)
        | cons d w =>
          rw [List.cons_append, afterComment?_skip]
          · exact ih read
          · exact other

theorem comment?_sealed : Sealed comment? :=
  (word?_sealed (by decide)).bind afterComment?_sealed

/-! ## Text runs -/

theorem scanText_broken_rest {p : Progress} {s rest : List Char}
    (scanned : scanText p s = .broken rest) : IsRestOf rest s := by
  cases s with
  | nil => simp [scanText] at scanned
  | cons c s =>
    by_cases plain : isTextChar c = true
    · have left := scanText_cons_rest (p := p) (s := s) plain
      rwa [scanned] at left
    · simp [scanText, plain] at scanned

theorem scanText_broken_elsewhere {p : Progress} {w v x : List Char} (y : List Char)
    (scanned : scanText p (w ++ x) = .broken (v ++ x)) :
    scanText p (w ++ y) = .broken (v ++ y) := by
  induction w generalizing p with
  | nil => exact absurd (scanText_broken_rest scanned).length_lt_append (Nat.not_lt_zero _)
  | cons c w ih =>
    rw [List.cons_append, scanText] at scanned ⊢
    split at scanned
    · simp at scanned
    · rename_i plain
      rw [if_neg plain]
      split at scanned
      · rename_i closing
        rw [if_pos closing]
        split at scanned
        · rename_i started
          rw [if_pos started]
          injection scanned with same
          rw [List.append_cancel_right same]
        · rename_i started
          rw [if_neg started]
          exact ih scanned
      · rename_i closing
        rw [if_neg closing]
        exact ih scanned

/-- A text run ends where the next markup starts. -/
theorem scanText_whole {p : Progress} {s rest : List Char}
    (scanned : scanText p s = .whole rest) : ∀ c ∈ rest.head?, isTextChar c = false := by
  induction s generalizing p with
  | nil =>
    simp only [scanText, TextEnd.whole.injEq] at scanned
    simp [← scanned]
  | cons c s ih =>
    rw [scanText] at scanned
    split at scanned
    · rename_i markup
      injection scanned with same
      simpa [← same] using markup
    · split at scanned
      · split at scanned
        · simp at scanned
        · exact ih scanned
      · exact ih scanned

theorem scanText_whole_elsewhere {p : Progress} {c : Char} {w x : List Char} (y : List Char)
    (scanned : scanText p (w ++ c :: x) = .whole (c :: x)) :
    scanText p (w ++ c :: y) = .whole (c :: y) := by
  have markup := scanText_whole scanned c (by simp)
  induction w generalizing p with
  | nil => simp [scanText, markup]
  | cons d w ih =>
    rw [List.cons_append, scanText] at scanned ⊢
    split at scanned
    · -- The run would have ended with all of `d :: w` left.
      injection scanned with same
      have := congrArg List.length same
      simp only [List.length_cons, List.length_append] at this
      omega
    · rename_i plain
      rw [if_neg plain]
      split at scanned
      · rename_i closing
        rw [if_pos closing]
        split at scanned
        · simp at scanned
        · rename_i started
          rw [if_neg started]
          exact ih scanned
      · rename_i closing
        rw [if_neg closing]
        exact ih scanned

/-! ## Sections -/

theorem scanCdata_rest {p : Progress} {s rest : List Char} (scanned : scanCdata p s = some rest) :
    IsRestOf rest s := by
  cases s with
  | nil => simp [scanCdata] at scanned
  | cons c s =>
    rw [scanCdata] at scanned
    split at scanned
    · exact Option.some.inj scanned ▸ IsRestOf.cons c (List.suffix_refl s)
    · exact .cons c (scanCdata_suffix scanned)

theorem scanCdata_sealed (p : Progress) : Sealed (scanCdata p) where
  rest := scanCdata_rest
  elsewhere {w v x} y read := by
    induction w generalizing p with
    | nil => exact absurd (scanCdata_rest read).length_lt_append (Nat.not_lt_zero _)
    | cons c w ih =>
      rw [List.cons_append, scanCdata] at read ⊢
      split at read
      · rename_i closing
        rw [if_pos closing, List.append_cancel_right (Option.some.inj read)]
      · rename_i closing
        rw [if_neg closing]
        exact ih _ read

end ManifestOrder.Xml

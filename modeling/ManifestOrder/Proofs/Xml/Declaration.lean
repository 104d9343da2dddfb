import ManifestOrder.Proofs.Xml.Misc

/-!
# The declaration and the text behind it

The settings of a declaration are optional and in a fixed order, so each of them must be shown to
stay missing in front of the next one or of the mark at the end (`declarationEnd_sealed`).
-/

namespace ManifestOrder.Xml

open Text

theorem declaration?_front {s rest : List Char} (read : declaration? s = some rest) :
    ∃ c tail, s = "<?xml".toList ++ c :: tail ∧ isSpace c = true := by
  obtain ⟨_, front, -⟩ := Option.bind_eq_some_iff.1 read
  obtain ⟨tail, mark, setting⟩ := Option.bind_eq_some_iff.1 front
  obtain ⟨_, setting, -⟩ := Option.bind_eq_some_iff.1 setting
  obtain ⟨_, setting, -⟩ := Option.bind_eq_some_iff.1 setting
  obtain ⟨_, blanks, -⟩ := Option.bind_eq_some_iff.1 setting
  obtain ⟨c, inner, rfl, space⟩ := space?_front blanks
  exact ⟨c, inner, word?_eq_some_iff.1 mark, space⟩

/-- The target of an instruction cannot be `xml` alone. -/
theorem misc?_of_declaration {s rest : List Char} (read : declaration? s = some rest) :
    misc? s = none := by
  obtain ⟨c, tail, rfl, space⟩ := declaration?_front read
  have unnamed : isTagNameChar c = false := by
    simp only [isSpace, Bool.or_eq_true, decide_eq_true_eq] at space
    rcases space with ((rfl | rfl) | rfl) | rfl <;> rfl
  have refused : target .prolog ("xml".toList ++ c :: tail) = .refused := by
    simp [target, targetAfterXM, unnamed, Text.isLetter]
  have blanks : space? ("<?xml".toList ++ c :: tail) = none := rfl
  have other : comment? ("<?xml".toList ++ c :: tail) = none := rfl
  have opened : word? "<?" ("<?xml".toList ++ c :: tail) = some ("xml".toList ++ c :: tail) := rfl
  rw [misc?, blanks, other, instruction?, opened, Option.bind_some, refused]
  rfl

theorem setting?_sealed {name : String} (letters : name.toList ≠ [])
    (allowed : List Char → Bool) : Sealed (setting? name allowed) :=
  ((space?_bounded.bind (word?_sealed letters).bounded).bind equals?_bounded).seal
    (quoted?_sealed allowed)

theorem setting?_front {name : String} {allowed : List Char → Bool} {s rest : List Char}
    (read : setting? name allowed s = some rest) :
    ∃ tail, skipSpace s = name.toList ++ tail := by
  obtain ⟨_, front, -⟩ := Option.bind_eq_some_iff.1 read
  obtain ⟨_, front, -⟩ := Option.bind_eq_some_iff.1 front
  obtain ⟨inner, blanks, word⟩ := Option.bind_eq_some_iff.1 front
  exact ⟨_, (skipSpace_of_space? blanks).trans (word?_eq_some_iff.1 word)⟩

/-- A setting is missing where another word stands. -/
theorem setting?_eq_none {name : String} {allowed : List Char → Bool} {s : List Char}
    (other : ∀ tail, skipSpace s ≠ name.toList ++ tail) : setting? name allowed s = none := by
  refine Option.eq_none_iff_forall_ne_some.2 ?_
  intro rest present
  obtain ⟨tail, front⟩ := setting?_front present
  exact other tail front

theorem optionalSetting_front (name : String) (allowed : List Char → Bool) (s : List Char) :
    (∃ tail, skipSpace s = name.toList ++ tail) ∨ optionalSetting name allowed s = s := by
  unfold optionalSetting
  cases read : setting? name allowed s with
  | none => exact .inr rfl
  | some rest => exact .inl (setting?_front read)

/-- What may stand between the version and the end of a declaration. -/
theorem declarationEnd_sealed : Sealed fun s => word? "?>" (skipSpace
    (optionalSetting "standalone" isStandalone (optionalSetting "encoding" isEncoding s))) where
  rest read :=
    (word?_rest (by decide) read).after_suffix ((skipSpace_suffix _).trans
      ((optional_suffix (setting?_sealed (by decide) isStandalone) _).trans
        (optional_suffix (setting?_sealed (by decide) isEncoding) _)))
  elsewhere {w v x} y read := by
    have mark : Sealed fun s => word? "?>" (skipSpace s) := spacedWord_sealed (by decide)
    generalize encoded : optionalSetting "encoding" isEncoding (w ++ x) = early at read
    generalize alone : optionalSetting "standalone" isStandalone early = late at read
    obtain ⟨b, rfl⟩ := (mark.rest read).suffix
    have inside : b ++ (v ++ x) <:+ early :=
      alone ▸ optional_suffix (setting?_sealed (by decide) isStandalone) early
    obtain ⟨a, rfl⟩ := inside
    rw [← List.append_assoc] at read
    simp only [← List.append_assoc] at encoded alone
    -- the end mark, then the settings before it, from the last to the first
    have ended := word?_eq_some_iff.1 (mark.elsewhere y read)
    have second : optionalSetting "standalone" isStandalone (a ++ b ++ v ++ y) = b ++ v ++ y := by
      refine optional_elsewhere (setting?_sealed (by decide) _)
        (setting?_eq_none ?_) alone
      intro tail same
      rw [ended] at same
      simp at same
    have first : optionalSetting "encoding" isEncoding (w ++ y) = a ++ b ++ v ++ y := by
      refine optional_elsewhere (setting?_sealed (by decide) _)
        (setting?_eq_none ?_) encoded
      intro tail same
      rcases optionalSetting_front "standalone" isStandalone (a ++ b ++ v ++ y) with
        ⟨tail', spelled⟩ | stays
      · rw [spelled] at same
        simp at same
      · rw [← stays, second, ended] at same
        simp at same
    show word? "?>" (skipSpace (optionalSetting _ _ (optionalSetting _ _ (w ++ y)))) = _
    rw [first, second]
    exact mark.elsewhere y read

theorem declaration?_sealed : Sealed declaration? :=
  ((word?_sealed (by decide)).bind (setting?_sealed (by decide) _)).bind declarationEnd_sealed

end ManifestOrder.Xml

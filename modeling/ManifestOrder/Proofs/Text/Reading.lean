import ManifestOrder.Text.Reader

/-!
# Readers and the text behind them

A reader is given a whole text, but most readers look at the front of it only. Two kinds matter. A
*sealed* reader takes a piece that closes by itself, so the same piece is taken whatever stands
behind it. A *bounded* reader stops at a character that it sees; the text behind that character does
not matter.

A bounded reader followed by a sealed one is sealed (`Bounded.seal`). That is how a name, greedy as
it is, becomes part of a tag that reads the same everywhere.
-/

namespace ManifestOrder.Text

structure Sealed (reader : List Char → Option (List Char)) : Prop where
  rest : ∀ {s rest : List Char}, reader s = some rest → IsRestOf rest s
  elsewhere : ∀ {w v x : List Char} (y : List Char),
    reader (w ++ x) = some (v ++ x) → reader (w ++ y) = some (v ++ y)

structure Bounded (reader : List Char → Option (List Char)) : Prop where
  suffix : ∀ {s rest : List Char}, reader s = some rest → rest <:+ s
  elsewhere : ∀ {w v x : List Char} (y : List Char), v ≠ [] →
    reader (w ++ x) = some (v ++ x) → reader (w ++ y) = some (v ++ y)

theorem IsRestOf.length_lt_append {w v x : List Char} (left : IsRestOf (v ++ x) (w ++ x)) :
    v.length < w.length := by
  have := left.length_lt
  simp only [List.length_append] at this
  omega

/-- What is left of `w ++ x`, when all of `x` is left, begins with an end of `w`. -/
theorem suffix_of_append {w v x : List Char} (suffix : v ++ x <:+ w ++ x) : v <:+ w := by
  obtain ⟨front, whole⟩ := suffix
  rw [← List.append_assoc] at whole
  exact ⟨front, List.append_cancel_right whole⟩

section
variable {first second : List Char → Option (List Char)}

theorem Sealed.bounded (closed : Sealed first) : Bounded first where
  suffix read := (closed.rest read).suffix
  elsewhere y _ read := closed.elsewhere y read

theorem Bounded.bind (before : Bounded first) (after : Bounded second) :
    Bounded fun s => (first s).bind second where
  suffix read := by
    obtain ⟨middle, front, back⟩ := Option.bind_eq_some_iff.1 read
    exact (after.suffix back).trans (before.suffix front)
  elsewhere {w v x} y nonempty read := by
    obtain ⟨middle, front, back⟩ := Option.bind_eq_some_iff.1 read
    -- All of `v` is behind the first piece, so that piece has stopped at something it saw, too.
    obtain ⟨taken, rfl⟩ := after.suffix back
    rw [← List.append_assoc] at front back
    rw [before.elsewhere y (by simp [nonempty]) front, Option.bind_some]
    exact after.elsewhere y nonempty back

/-- The second reader takes something, so the first one has stopped at a character that it saw. -/
theorem Bounded.seal (before : Bounded first) (after : Sealed second) :
    Sealed fun s => (first s).bind second where
  rest read := by
    obtain ⟨middle, front, back⟩ := Option.bind_eq_some_iff.1 read
    exact (after.rest back).after_suffix (before.suffix front)
  elsewhere {w v x} y read := by
    obtain ⟨middle, front, back⟩ := Option.bind_eq_some_iff.1 read
    obtain ⟨taken, nonempty, rfl⟩ := after.rest back
    rw [← List.append_assoc] at front back
    rw [before.elsewhere y (by simp [nonempty]) front, Option.bind_some]
    exact after.elsewhere y back

theorem Sealed.bind (before : Sealed first) (after : Sealed second) :
    Sealed fun s => (first s).bind second :=
  before.bounded.seal after

theorem Bounded.map {skip : List Char → List Char} (before : Bounded first)
    (after : Bounded fun s => some (skip s)) : Bounded fun s => (first s).map skip := by
  have both := before.bind after
  simp only [Option.map_eq_bind]
  exact both

end

/-! ## Words -/

theorem word?_sealed {word : String} (letters : word.toList ≠ []) : Sealed (word? word) where
  rest read := word?_rest letters read
  elsewhere {w v x} y read := by
    rw [word?_eq_some_iff, ← List.append_assoc] at read ⊢
    rw [List.append_cancel_right read]

/-! ## Runs of one class of characters -/

/-- A skipped run that stops at a character it sees: where the run ends and what stands there. -/
theorem dropWhile_split {p : Char → Bool} {w v x : List Char} (nonempty : v ≠ [])
    (dropped : (w ++ x).dropWhile p = v ++ x) :
    ∃ front, w = front ++ v ∧ (∀ c ∈ front, p c = true) ∧ ∀ y, (v ++ y).dropWhile p = v ++ y := by
  have whole := List.takeWhile_append_dropWhile (p := p) (l := w ++ x)
  rw [dropped, ← List.append_assoc] at whole
  refine ⟨(w ++ x).takeWhile p, (List.append_cancel_right whole).symm, ?_, ?_⟩
  · intro c member
    exact List.all_eq_true.1 List.all_takeWhile c member
  · intro y
    cases v with
    | nil => exact absurd rfl nonempty
    | cons c v =>
      have stops := List.head?_dropWhile_not p (w ++ x)
      rw [dropped] at stops
      simp only [List.cons_append, List.head?_cons] at stops
      rw [List.cons_append, List.dropWhile_cons, stops]
      rfl

theorem dropWhile_elsewhere {p : Char → Bool} {w v x : List Char} (y : List Char)
    (nonempty : v ≠ []) (dropped : (w ++ x).dropWhile p = v ++ x) :
    (w ++ y).dropWhile p = v ++ y := by
  obtain ⟨front, rfl, inside, stops⟩ := dropWhile_split nonempty dropped
  rw [List.append_assoc, List.dropWhile_append_of_pos inside, stops]

/-- A run that stops at a character it sees is the same run in front of any other text. -/
theorem takeWhile_elsewhere {p : Char → Bool} {w v x : List Char} (y : List Char)
    (nonempty : v ≠ []) (dropped : (w ++ x).dropWhile p = v ++ x) :
    (w ++ y).takeWhile p = (w ++ x).takeWhile p := by
  have here := List.takeWhile_append_dropWhile (p := p) (l := w ++ x)
  have there := List.takeWhile_append_dropWhile (p := p) (l := w ++ y)
  rw [dropped, ← List.append_assoc] at here
  rw [dropWhile_elsewhere y nonempty dropped, ← List.append_assoc] at there
  have same := List.append_cancel_right there |>.trans (List.append_cancel_right here).symm
  exact List.append_cancel_right same

theorem dropWhile_bounded (p : Char → Bool) : Bounded fun s => some (s.dropWhile p) where
  suffix read := Option.some.inj read ▸ List.dropWhile_suffix p
  elsewhere y nonempty read := by
    rw [dropWhile_elsewhere y nonempty (Option.some.inj read)]

theorem dropWhile_of_run? {p : Char → Bool} {s rest : List Char}
    (read : run? p p s = some rest) : s.dropWhile p = rest := by
  cases s with
  | nil => simp [run?] at read
  | cons c s =>
    rw [run?] at read
    split at read
    · rename_i inside
      rw [List.dropWhile_cons, if_pos inside]
      exact Option.some.inj read
    · simp at read

theorem run?_bounded (first next : Char → Bool) : Bounded (run? first next) where
  suffix read := (run?_rest read).suffix
  elsewhere {w v x} y nonempty read := by
    cases w with
    | nil => exact absurd (run?_rest read).length_lt_append (Nat.not_lt_zero _)
    | cons c w =>
      simp only [List.cons_append, run?] at read ⊢
      split at read
      · rename_i allowed
        rw [if_pos allowed, dropWhile_elsewhere y nonempty (Option.some.inj read)]
      · simp at read

end ManifestOrder.Text

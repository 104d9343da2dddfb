/-!
# Readers

A reader takes something off the front of a text and returns what is left, or fails. Readers are
greedy, so what they take ends at the first character that cannot belong to it.

A reader that has read something leaves a shorter text (`IsRestOf`), so a loop over readers ends.
-/

namespace ManifestOrder.Text

/-- Something was read from the front of `s`, and `rest` is what is left. -/
def IsRestOf (rest s : List Char) : Prop :=
  ∃ front, front ≠ [] ∧ s = front ++ rest

namespace IsRestOf

theorem length_lt {rest s : List Char} (left : IsRestOf rest s) : rest.length < s.length := by
  obtain ⟨front, nonempty, rfl⟩ := left
  have := List.length_pos_iff.2 nonempty
  simp only [List.length_append]
  omega

theorem suffix {rest s : List Char} (left : IsRestOf rest s) : rest <:+ s := by
  obtain ⟨front, _, rfl⟩ := left
  exact List.suffix_append front rest

theorem cons (c : Char) {rest s : List Char} (suffix : rest <:+ s) : IsRestOf rest (c :: s) := by
  obtain ⟨front, rfl⟩ := suffix
  exact ⟨c :: front, by simp, rfl⟩

theorem of_suffix {rest middle s : List Char} (suffix : rest <:+ middle)
    (left : IsRestOf middle s) : IsRestOf rest s := by
  obtain ⟨front, nonempty, rfl⟩ := left
  obtain ⟨between, rfl⟩ := suffix
  exact ⟨front ++ between, by simp [nonempty], by simp⟩

theorem after_suffix {rest middle s : List Char} (left : IsRestOf rest middle)
    (suffix : middle <:+ s) : IsRestOf rest s := by
  obtain ⟨front, nonempty, rfl⟩ := left
  obtain ⟨before, rfl⟩ := suffix
  exact ⟨before ++ front, by simp [nonempty], by simp⟩

theorem trans {rest middle s : List Char} (second : IsRestOf rest middle)
    (first : IsRestOf middle s) : IsRestOf rest s :=
  first.of_suffix second.suffix

end IsRestOf

/-- The word occurs somewhere in the text. -/
def occursIn (word : List Char) : List Char → Bool
  | [] => word.isEmpty
  | c :: s => word.isPrefixOf (c :: s) || occursIn word s

def word? (w : String) (s : List Char) : Option (List Char) :=
  w.toList.isPrefixOf? s

/-- One character of a class, and all further ones. -/
def run? (first next : Char → Bool) : List Char → Option (List Char)
  | c :: s => if first c then some (s.dropWhile next) else none
  | [] => none

theorem word?_eq_some_iff {w : String} {s rest : List Char} :
    word? w s = some rest ↔ s = w.toList ++ rest := by
  unfold word?
  generalize w.toList = letters
  induction letters generalizing s with
  | nil =>
    show some s = some rest ↔ s = rest
    rw [Option.some.injEq]
  | cons c letters ih =>
    cases s with
    | nil =>
      show none = some rest ↔ [] = c :: (letters ++ rest)
      simp
    | cons d s =>
      show (if c == d then letters.isPrefixOf? s else none) = some rest ↔
        d :: s = c :: (letters ++ rest)
      rw [List.cons.injEq]
      by_cases same : c = d
      · simp [same, ih]
      · simp [same, Ne.symm same]

theorem word?_suffix {w : String} {s rest : List Char} (read : word? w s = some rest) :
    rest <:+ s :=
  ⟨w.toList, (word?_eq_some_iff.1 read).symm⟩

theorem word?_rest {w : String} {s rest : List Char} (letters : w.toList ≠ [])
    (read : word? w s = some rest) : IsRestOf rest s :=
  ⟨w.toList, letters, word?_eq_some_iff.1 read⟩

theorem run?_rest {first next : Char → Bool} {s rest : List Char}
    (read : run? first next s = some rest) : IsRestOf rest s := by
  cases s with
  | nil => simp [run?] at read
  | cons c s =>
    simp only [run?] at read
    split at read
    · exact Option.some.inj read ▸ IsRestOf.cons c (List.dropWhile_suffix next)
    · simp at read

end ManifestOrder.Text

import ManifestOrder.Text.Reader

/-!
# Terminal commands in a text

A terminal takes an escape character with an opening bracket, parameters and a letter as a command:
a colour, a place for the cursor. A text that is not shown on a terminal is written without such
commands. What is left is not looked through again, so taking one command out of the middle of
another one leaves that other one.
-/

namespace ManifestOrder.Text

def escapeCharacter : Char := '\x1B'

def isCommandParameter (c : Char) : Bool :=
  c.isDigit || c = ';' || c = '?'

/-- What follows a terminal command at the front of a text. -/
def terminalCommand? : List Char → Option (List Char)
  | escape :: '[' :: s =>
    if escape = escapeCharacter then
      match s.dropWhile isCommandParameter with
      | c :: rest => if c.isAlpha then some rest else none
      | [] => none
    else none
  | _ => none

theorem terminalCommand?_length {s rest : List Char} (read : terminalCommand? s = some rest) :
    rest.length < s.length := by
  unfold terminalCommand? at read
  split at read
  · rename_i escape s
    split at read
    · have shorter := (List.dropWhile_suffix (l := s) isCommandParameter).length_le
      split at read
      · rename_i c left same
        rw [same, List.length_cons] at shorter
        split at read
        · obtain rfl := Option.some.inj read
          simp only [List.length_cons]
          omega
        · simp at read
      · simp at read
    · simp at read
  · simp at read

/-- The text without its terminal commands. -/
def withoutCommands (s : List Char) : List Char :=
  match s with
  | [] => []
  | c :: tail =>
    match read : terminalCommand? (c :: tail) with
    | some rest =>
      have : rest.length ≤ tail.length :=
        Nat.le_of_lt_succ (terminalCommand?_length read)
      withoutCommands rest
    | none => c :: withoutCommands tail
termination_by s.length
decreasing_by all_goals simp only [List.length_cons]; omega

end ManifestOrder.Text

import ManifestOrder.Edit.Buffer

/-!
# The history of a buffer

The history is a stack of the texts that committed transactions started from. While a transaction is
open nothing is put on it, but `undo` may take from it (`TakenBack`). While none is open a buffer
changes in two ways: `undo` takes the newest text back, or a transaction is committed, which is
recorded if it changed the text (`IsCommitOf`). Both keep the oldest text that can be reached by
undoing (`Recorded.commit`, `Recorded.undo`), so undoing everything ends there
(`Recorded.undoTimes`).
-/

namespace ManifestOrder.Edit.Buffer

/-! ## Inside a transaction -/

theorem replace_eq_ok {b c : Buffer} {r : Replacement} (replaced : b.replace r = .ok c) :
    b.inTransaction = true ∧ c = { b with text := c.text } := by
  unfold replace at replaced
  split at replaced
  · simp at replaced
  · rename_i opened
    split at replaced
    · obtain rfl := Except.ok.inj replaced
      exact ⟨by simpa using opened, rfl⟩
    · simp at replaced

theorem replaceAll_eq_ok {b c : Buffer} {list : List Replacement}
    (replaced : b.replaceAll list = .ok c) : c = { b with text := c.text } := by
  induction list generalizing b with
  | nil =>
    obtain rfl := Except.ok.inj replaced
    rfl
  | cons r rest ih =>
    rw [replaceAll] at replaced
    split at replaced
    · simp at replaced
    · rename_i next first
      have step := (replace_eq_ok first).2
      have others := ih replaced
      rw [step] at others
      exact others

/-- Inside a transaction only the empty list can be applied. -/
theorem apply_of_open {b c : Buffer} {list : List Replacement} {name : Option String}
    (opened : b.inTransaction = true) (applied : b.apply list name = .ok c) : c = b := by
  unfold apply at applied
  split at applied
  · exact (Except.ok.inj applied).symm
  · split at applied
    · simp at applied
    · simp [begin, opened] at applied

/-- While a transaction was open, `count` recorded actions were taken back, and none was added. -/
structure TakenBack (count : Nat) (b c : Buffer) : Prop where
  isOpen : c.inTransaction = true
  enough : count ≤ b.history.length
  history : c.history = b.history.drop count

namespace TakenBack
variable {b c d : Buffer}

theorem none (opened : c.inTransaction = true) (same : c.history = b.history) :
    TakenBack 0 b c :=
  ⟨opened, Nat.zero_le _, by rw [same, List.drop_zero]⟩

theorem undo (opened : b.inTransaction = true) (undone : b.undo = some c) :
    TakenBack 1 b c := by
  unfold Buffer.undo at undone
  split at undone
  · simp at undone
  · rename_i name text older same
    obtain rfl := Option.some.inj undone
    exact ⟨opened, by simp [same], by simp [same]⟩

theorem trans {first second : Nat} (begun : TakenBack first b c)
    (continued : TakenBack second c d) : TakenBack (first + second) b d := by
  have enough := continued.enough
  have all := begun.enough
  rw [begun.history, List.length_drop] at enough
  refine ⟨continued.isOpen, by omega, ?_⟩
  rw [continued.history, begun.history, List.drop_drop]

end TakenBack

/-! ## Outside transactions -/

/-- What one transaction on `b` leaves: the text it ends with, recorded if it is another one. -/
def IsCommitOf (b c : Buffer) : Prop :=
  ∃ name, c = ({ b with text := c.text } : Buffer).commit name b.text

theorem isCommitOf_self {b : Buffer} (closed : b.inTransaction = false) : b.IsCommitOf b :=
  ⟨.none, by simp [commit, ← closed]⟩

theorem apply_of_closed {b c : Buffer} {list : List Replacement} {name : Option String}
    (closed : b.inTransaction = false) (applied : b.apply list name = .ok c) :
    b.IsCommitOf c := by
  unfold apply at applied
  split at applied
  · obtain rfl := Except.ok.inj applied
    exact isCommitOf_self closed
  · split at applied
    · simp at applied
    · simp only [begin, closed, Bool.false_eq_true, if_false] at applied
      split at applied
      · simp at applied
      · rename_i edited replaced
        obtain rfl := Except.ok.inj applied
        refine ⟨name, ?_⟩
        have kept := replaceAll_eq_ok replaced
        rw [kept]
        rfl

/-! ## Undoing -/

/-- The text that undoing everything leads to. -/
def oldest (text : List Char) : List (Option String × List Char) → List Char
  | [] => text
  | (_, saved) :: older => oldest saved older

/-- Undoes so many times, if there is something to undo each time. -/
def undoTimes : Nat → Buffer → Option Buffer
  | 0, b => some b
  | count + 1, b => b.undo.bind (undoTimes count)

theorem undoTimes_history (b : Buffer) :
    undoTimes b.history.length b = some { b with text := oldest b.text b.history, history := [] } := by
  obtain ⟨text, inTransaction, history⟩ := b
  induction history generalizing text with
  | nil => rfl
  | cons entry older ih => exact ih entry.2

/-- No transaction is open, the texts that can be taken back are `left`, the newest first, and
undoing everything leads to `first`. -/
structure Recorded (first : List Char) (left : List (List Char)) (b : Buffer) : Prop where
  isClosed : b.inTransaction = false
  saved : b.history.map Prod.snd = left
  oldest : oldest b.text b.history = first

namespace Recorded
variable {first : List Char} {left : List (List Char)} {b c : Buffer}

theorem commit (recorded : Recorded first left b) (committed : b.IsCommitOf c) :
    Recorded first (if c.text = b.text then left else b.text :: left) c := by
  obtain ⟨name, result⟩ := committed
  rw [Buffer.commit] at result
  simp only at result
  refine ⟨by rw [result], ?_, ?_⟩
  · rw [result]
    by_cases same : c.text = b.text
    · simp only [same, if_true, recorded.saved]
    · simp only [same, if_false, List.map_cons, recorded.saved]
  · rw [result]
    by_cases same : c.text = b.text
    · simp only [same, if_true, recorded.oldest]
    · simp only [same, if_false, Buffer.oldest, recorded.oldest]

theorem undo (recorded : Recorded first left b) (undone : b.undo = some c) :
    Recorded first left.tail c := by
  unfold Buffer.undo at undone
  split at undone
  · simp at undone
  · rename_i name text older same
    obtain rfl := Option.some.inj undone
    obtain ⟨closed, saved, oldest⟩ := recorded
    rw [same] at saved oldest
    exact ⟨closed, saved ▸ rfl, oldest⟩

/-- Undoing leads to the newest text that was saved. -/
theorem undo_text (recorded : Recorded first left b) : b.undo.map text = left.head? := by
  rw [← recorded.saved, Buffer.undo]
  split
  · rename_i none
    rw [none]
    rfl
  · rename_i some
    rw [some]
    rfl

/-- Each recorded action can be undone once, and then the text is the first one again. -/
theorem undoTimes (recorded : Recorded first left b) :
    b.undoTimes b.undoNames.length = some { text := first } := by
  have names : b.undoNames.length = b.history.length := by
    rw [undoNames, List.length_reverse, List.length_map]
  rw [names, undoTimes_history, recorded.oldest, recorded.isClosed]

end Recorded

end ManifestOrder.Edit.Buffer

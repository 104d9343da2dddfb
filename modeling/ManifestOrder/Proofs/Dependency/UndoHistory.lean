import ManifestOrder.Proofs.Dependency.Transaction

/-!
# The history of a script

If nothing is undone inside transactions, a script only commits changes and takes back the newest
one that is left. So the history holds the text before each committed change that has not been
taken back, and undoing everything leads to the first text (`history_of_script`).
-/

namespace ManifestOrder.Dependency

open Edit (Buffer Replacement)
open Edit.Buffer (Recorded)

/-! ## Changes that are left -/

/-- How many recorded actions were taken back inside a step that is a transaction. -/
def Entry.undosInside (e : Entry) : Nat :=
  undos (e.inner.getD [])

/-- The texts before the committed changes that have not been taken back, the newest first: a step
that undoes takes the newest one away, and any other step that changes the text adds the text
before it. -/
def changesLeft (current : List Char) (left : List (List Char)) : List Entry → List (List Char)
  | [] => left
  | e :: rest =>
    changesLeft e.text
      (if e.undid then left.tail else if e.text = current then left else current :: left) rest

theorem Effect.recorded {b c : Buffer} {answer : Answer} {first : List Char}
    {left : List (List Char)} (effect : Effect b answer c) (recorded : Recorded first left b) :
    Recorded first
      (if answer.undid then left.tail else if c.text = b.text then left else b.text :: left) c := by
  have closed := recorded.isClosed
  cases effect with
  | none quiet => simpa [quiet] using recorded
  | replace replaced =>
    have opened := (Buffer.replace_eq_ok replaced).1
    rw [closed] at opened
    cases opened
  | undo undone => exact recorded.undo undone
  | apply quiet applied =>
    rw [quiet]
    exact recorded.commit (Buffer.apply_of_closed closed applied)

theorem Script.runInside_history {body : Script} {s : ScriptState}
    (quiet : undos (body.runInside s).entries = 0) :
    (body.runInside s).state.buffer.history = s.buffer.history := by
  rw [(body.runInside_takenBack s).history, quiet, List.drop_zero]

/-- A transaction in which nothing is undone is one step of the history, also when it fails. -/
theorem closeTransaction_isCommitOf {s : ScriptState} (closed : s.buffer.inTransaction = false)
    (name : Option String) {body : Script} (quiet : undos (body.runInside s).entries = 0) :
    s.buffer.IsCommitOf (closeTransaction name s (body.runInside s)).buffer := by
  have history := Script.runInside_history quiet
  unfold closeTransaction
  split
  · refine ⟨name, ?_⟩
    simp only [Buffer.commit, history]
  · have same := Buffer.isCommitOf_self closed
    simp only [Buffer.rollBack, history, ← closed]
    exact same

theorem closeTransaction_failed (name : Option String) (s : ScriptState) {body : Trace}
    {e : StepError} (failed : body.failure = some e) :
    (closeTransaction name s body).buffer.text = s.buffer.text := by
  simp only [closeTransaction, failed, Buffer.rollBack]

theorem changesLeft_error (e : StepError) {current : List Char} {left : List (List Char)}
    {buffer : Buffer} (same : buffer.text = current) (inner : Option (List Entry))
    (rest : List Entry) :
    changesLeft current left (Entry.of (.error e) buffer inner :: rest) =
      changesLeft current left rest := by
  simp [changesLeft, Entry.of, Entry.undid, same]

theorem changesLeft_ok (answer : Answer) (current : List Char) (left : List (List Char))
    (buffer : Buffer) (inner : Option (List Entry)) (rest : List Entry) :
    changesLeft current left (Entry.of (.ok answer) buffer inner :: rest) =
      changesLeft buffer.text
        (if answer.undid then left.tail else if buffer.text = current then left else current :: left)
        rest := rfl

/-- If nothing is undone inside transactions, the history of a buffer holds the changes that are
left. -/
theorem Script.run_recorded {p : Script} {s : ScriptState} {first : List Char}
    {left : List (List Char)} (recorded : Recorded first left s.buffer)
    (outside : ∀ e ∈ (p.run s).entries, e.undosInside = 0) :
    Recorded first (changesLeft s.buffer.text left (p.run s).entries) (p.run s).state.buffer := by
  induction p generalizing s left with
  | done => exact recorded
  | act action caught rest ih =>
    rw [Script.run] at *
    split at outside
    · rename_i answer next ran
      have step := (Action.effect ran).recorded recorded
      rw [Trace.cons, changesLeft_ok]
      exact ih step (List.forall_mem_cons.1 outside).2
    · rename_i e failed
      split at outside
      · rename_i goesOn
        rw [if_pos goesOn, Trace.cons, changesLeft_error e rfl]
        exact ih recorded (List.forall_mem_cons.1 outside).2
      · rename_i ends
        rw [if_neg ends, changesLeft_error e rfl]
        exact recorded
  | transaction name body caught rest _ ih =>
    have closed := recorded.isClosed
    rw [Script.run_transaction closed] at *
    simp only at *
    -- Whether the body fails or not, the transaction is one step of the history.
    have step : undos (body.runInside s).entries = 0 → Recorded first
        (if (closeTransaction name s (body.runInside s)).buffer.text = s.buffer.text then left
          else s.buffer.text :: left) (closeTransaction name s (body.runInside s)).buffer :=
      fun quiet => recorded.commit (closeTransaction_isCommitOf closed name quiet)
    split at outside
    · obtain ⟨quiet, later⟩ := List.forall_mem_cons.1 outside
      rw [Trace.cons, changesLeft_ok]
      exact ih (step quiet) later
    · rename_i e failed
      have same := closeTransaction_failed name s failed
      rw [same, if_pos rfl] at step
      split at outside
      · rename_i goesOn
        obtain ⟨quiet, later⟩ := List.forall_mem_cons.1 outside
        rw [if_pos goesOn, Trace.cons, changesLeft_error e same]
        rw [← same]
        exact ih (step quiet) later
      · rename_i ends
        rw [if_neg ends, changesLeft_error e same]
        exact step (outside _ List.mem_cons_self)

/-- A transaction in which nothing is undone adds one entry if it is committed with another text,
and none otherwise. -/
theorem afterTransaction_history {s : ScriptState} (closed : s.buffer.inTransaction = false)
    (name : Option String) {body : Script} (caught : Bool)
    (quiet : undos (body.runInside s).entries = 0) :
    (afterTransaction s name body caught).history =
      if (body.runInside s).failure = none ∧
        (body.runInside s).state.buffer.text ≠ s.buffer.text then
          (name, s.buffer.text) :: s.buffer.history
      else s.buffer.history := by
  have history := Script.runInside_history quiet
  rw [afterTransaction_eq closed, closeTransaction]
  cases ended : (body.runInside s).failure with
  | none =>
    simp only [Buffer.commit, history]
    by_cases same : (body.runInside s).state.buffer.text = s.buffer.text
    · simp [same]
    · simp [same]
  | some e => simp [Buffer.rollBack, history]

/-! ## Beginnings of a script -/

/-- The first steps of a script. -/
def Script.take : Nat → Script → Script
  | count + 1, .act action caught rest => .act action caught (rest.take count)
  | count + 1, .transaction name body caught rest => .transaction name body caught (rest.take count)
  | _, _ => .done

/-- The first steps leave the first records of the whole script. -/
theorem Script.take_entries (count : Nat) (p : Script) (s : ScriptState) :
    ((p.take count).run s).entries = (p.run s).entries.take count := by
  induction p generalizing count s with
  | done => cases count <;> rfl
  | act action caught rest ih =>
    cases count with
    | zero => rfl
    | succ count =>
      rw [Script.take, Script.run, Script.run]
      split
      · exact congrArg _ (ih _ _)
      · split
        · exact congrArg _ (ih _ _)
        · exact (List.take_of_length_le (by simp)).symm
  | transaction name body caught rest _ ih =>
    cases count with
    | zero => rfl
    | succ count =>
      rw [Script.take, Script.run, Script.run]
      split
      · split
        · exact congrArg _ (ih _ _)
        · exact (List.take_of_length_le (by simp)).symm
      · simp only
        split
        · exact congrArg _ (ih _ _)
        · split
          · exact congrArg _ (ih _ _)
          · exact (List.take_of_length_le (by simp)).symm

/-- The history of a buffer in which nothing is undone inside transactions, after any number of
steps. It holds the changes that are left, and undoing all of them leads to the first text. -/
theorem history_of_script {text : List Char} {planned : List Replacement} {p : Script}
    (outside : ∀ e ∈ (p.run ⟨{ text }, planned⟩).entries, e.undosInside = 0) (count : Nat) :
    let s := ((p.take count).run ⟨{ text }, planned⟩).state
    let left := changesLeft text [] ((p.run ⟨{ text }, planned⟩).entries.take count)
    s.buffer.inTransaction = false ∧
    s.buffer.history.map Prod.snd = left ∧
    s.buffer.undo.map Buffer.text = left.head? ∧
    (∀ name body caught, undos (body.runInside s).entries = 0 →
      (afterTransaction s name body caught).history =
        if (body.runInside s).failure = none ∧
          (body.runInside s).state.buffer.text ≠ s.buffer.text then
            (name, s.buffer.text) :: s.buffer.history
        else s.buffer.history) ∧
    ∃ last, s.buffer.undoTimes s.buffer.undoNames.length = some last ∧ last.undo = none ∧
      last.text = text := by
  intro s left
  have begun : Recorded text [] ({ text } : Buffer) := ⟨rfl, rfl, rfl⟩
  have quiet : ∀ e ∈ ((p.take count).run ⟨{ text }, planned⟩).entries, e.undosInside = 0 := by
    intro e member
    rw [Script.take_entries] at member
    exact outside e (List.mem_of_mem_take member)
  have recorded : Recorded text left s.buffer := by
    have run := Script.run_recorded (s := ⟨{ text }, planned⟩) begun quiet
    rw [Script.take_entries] at run
    exact run
  refine ⟨recorded.isClosed, recorded.saved, recorded.undo_text, ?_, _, recorded.undoTimes, rfl,
    rfl⟩
  intro name body caught none
  exact afterTransaction_history recorded.isClosed name caught none

/-- A commit with an attempt to nest, a failure, an application, an undo, and an edit outside. -/
def mixedSteps : Script :=
  .transaction (some "edit")
      (.act (.replace ⟨⟨0, 1⟩, "b".toList⟩) false (.transaction none .done true .done)) true <|
  .transaction none (.act (.replace ⟨⟨0, 1⟩, "c".toList⟩) false (.act (.fail "no") false .done))
      true <|
  .act (.apply [⟨⟨1, 1⟩, "x".toList⟩] none) true <|
  .act .undo true <|
  .act (.replace ⟨⟨0, 1⟩, "d".toList⟩) true .done

theorem history_of_script_mixed :
    (∀ e ∈ (mixedSteps.run ⟨{ text := "a".toList }, []⟩).entries, e.undosInside = 0) ∧
    ((mixedSteps.take 3).run ⟨{ text := "a".toList }, []⟩).state.buffer.history.map Prod.snd =
      ["b".toList, "a".toList] ∧
    ∃ last, ((mixedSteps.take 5).run ⟨{ text := "a".toList }, []⟩).state.buffer.undoTimes 1 =
      some last ∧ last.text = "a".toList := by
  have outside : ∀ e ∈ (mixedSteps.run ⟨{ text := "a".toList }, []⟩).entries,
      e.undosInside = 0 := by
    decide +kernel
  obtain ⟨-, three, -⟩ := history_of_script outside 3
  obtain ⟨-, -, -, -, last, all, -, ends⟩ := history_of_script outside 5
  have names : ((mixedSteps.take 5).run
      ⟨{ text := "a".toList }, []⟩).state.buffer.undoNames.length = 1 := by
    decide +kernel
  rw [names] at all
  refine ⟨outside, three.trans ?_, last, all, ends⟩
  decide +kernel

end ManifestOrder.Dependency

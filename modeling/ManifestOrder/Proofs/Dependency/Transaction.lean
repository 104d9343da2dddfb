import ManifestOrder.Proofs.Edit.History
import ManifestOrder.Dependency.Script

/-!
# Transactions of a script

A transaction that fails, or that ends with the text it started from, gives that text back and
closes. The history stays as the body left it, and the body may have undone some of it. So the
transaction leaves no trace exactly when nothing was undone in it (`unrecorded_transaction_iff`).
`undo_leaves_trace` is a failing transaction that shortens the history.
-/

namespace ManifestOrder.Dependency

open Edit (Buffer Replacement)
open Edit.Buffer (TakenBack)

/-! ## Actions -/

/-- A recorded action was taken back. -/
def Answer.undid : Answer → Bool
  | .undone anything => anything
  | _ => false

/-- What an action that answers does to the buffer. -/
inductive Effect (b : Buffer) : Answer → Buffer → Prop
  | none {answer : Answer} : answer.undid = false → Effect b answer b
  | replace {r : Replacement} {c : Buffer} : b.replace r = .ok c → Effect b .done c
  | undo {c : Buffer} : b.undo = some c → Effect b (.undone true) c
  | apply {answer : Answer} {list : List Replacement} {name : Option String} {c : Buffer} :
      answer.undid = false → b.apply list name = .ok c → Effect b answer c

theorem ScriptState.edited_eq_ok {s next : ScriptState} {answer : Answer}
    {result : Except Edit.EditError Buffer} (done : s.edited result = .ok (answer, next)) :
    answer = .done ∧ result = .ok next.buffer := by
  unfold ScriptState.edited at done
  split at done
  · simp at done
  · simp only [Except.ok.injEq, Prod.mk.injEq] at done
    obtain ⟨rfl, rfl⟩ := done
    exact ⟨rfl, rfl⟩

theorem fixBuffer_eq_ok {cmp : Comparator} {b c : Buffer} {count : Nat}
    (fixed : fixBuffer cmp b = .ok (c, count)) :
    ∃ list, b.apply list (some Edit.sortActionName) = .ok c := by
  unfold fixBuffer at fixed
  split at fixed
  · simp at fixed
  · rename_i list planned
    split at fixed
    · simp at fixed
    · rename_i edited applied
      simp only [Except.ok.injEq, Prod.mk.injEq] at fixed
      obtain ⟨rfl, -⟩ := fixed
      exact ⟨list, applied⟩

theorem Action.effect {action : Action} {s next : ScriptState} {answer : Answer}
    (ran : action.run s = .ok (answer, next)) : Effect s.buffer answer next.buffer := by
  cases action with
  | replace r =>
    obtain ⟨rfl, replaced⟩ := ScriptState.edited_eq_ok ran
    exact .replace replaced
  | undo =>
    unfold Action.run at ran
    dsimp only at ran
    split at ran
    · simp only [Except.ok.injEq, Prod.mk.injEq] at ran
      obtain ⟨rfl, rfl⟩ := ran
      exact .none rfl
    · rename_i buffer undone
      simp only [Except.ok.injEq, Prod.mk.injEq] at ran
      obtain ⟨rfl, rfl⟩ := ran
      exact .undo undone
  | fail message => cases ran
  | apply list name =>
    obtain ⟨rfl, applied⟩ := ScriptState.edited_eq_ok ran
    exact .apply rfl applied
  | fix cmp =>
    unfold Action.run at ran
    dsimp only at ran
    split at ran
    · simp at ran
    · rename_i buffer count fixed
      simp only [Except.ok.injEq, Prod.mk.injEq] at ran
      obtain ⟨rfl, rfl⟩ := ran
      obtain ⟨list, applied⟩ := fixBuffer_eq_ok fixed
      exact .apply rfl applied
  | plan cmp =>
    unfold Action.run at ran
    dsimp only at ran
    split at ran
    · simp at ran
    · simp only [Except.ok.injEq, Prod.mk.injEq] at ran
      obtain ⟨rfl, rfl⟩ := ran
      exact .none rfl
  | applyPlan =>
    obtain ⟨rfl, applied⟩ := ScriptState.edited_eq_ok ran
    exact .apply rfl applied

/-! ## Bodies of transactions -/

/-- The step took a recorded action back. -/
def Entry.undid (e : Entry) : Bool :=
  match e.outcome with
  | .ok answer => answer.undid
  | .error _ => false

/-- How many recorded actions the steps took back. -/
def undos (entries : List Entry) : Nat :=
  entries.countP Entry.undid

theorem Effect.takenBack {b c : Buffer} {answer : Answer} (effect : Effect b answer c)
    (opened : b.inTransaction = true) : TakenBack (if answer.undid then 1 else 0) b c := by
  cases effect with
  | none quiet => rw [quiet]; exact .none opened rfl
  | replace replaced =>
    have kept := (Buffer.replace_eq_ok replaced).2
    exact .none (by rw [kept]; exact opened) (by rw [kept])
  | undo undone => exact .undo opened undone
  | apply quiet applied =>
    rw [quiet, Edit.Buffer.apply_of_open opened applied]
    exact .none opened rfl

theorem undos_cons (e : Entry) (entries : List Entry) :
    undos (e :: entries) = (if e.undid then 1 else 0) + undos entries := by
  rw [undos, undos, List.countP_cons, Nat.add_comm]

/-- A step that failed, and what ran after it. -/
theorem undos_error (e : StepError) (buffer : Buffer) (inner : Option (List Entry))
    (entries : List Entry) : undos (Entry.of (.error e) buffer inner :: entries) = undos entries := by
  rw [undos_cons]
  exact Nat.zero_add _

/-- What a script does to the history while a transaction is open. No transaction of its own starts,
so only the steps of the script itself count. -/
theorem Script.run_takenBack {p : Script} {s : ScriptState}
    (opened : s.buffer.inTransaction = true) :
    TakenBack (undos (p.run s).entries) s.buffer (p.run s).state.buffer := by
  induction p generalizing s with
  | done => exact .none opened rfl
  | act action caught rest ih =>
    rw [Script.run]
    split
    · rename_i answer next ran
      have step := (Action.effect ran).takenBack opened
      have others := step.trans (ih step.isOpen)
      rw [Trace.cons, undos_cons]
      exact others
    · rename_i e failed
      split
      · rw [Trace.cons, undos_error]
        exact ih opened
      · exact .none opened rfl
  | transaction name body caught rest _ ih =>
    rw [Script.run]
    simp only [Buffer.begin, opened, if_true]
    split
    · rw [Trace.cons, undos_error]
      exact ih opened
    · exact .none opened rfl

/-! ## Transactions -/

/-- The trace of a body in a transaction that is opened in this state. -/
def Script.runInside (body : Script) (s : ScriptState) : Trace :=
  body.run { s with buffer := { s.buffer with inTransaction := true } }

theorem Script.runInside_takenBack (body : Script) (s : ScriptState) :
    TakenBack (undos (body.runInside s).entries) { s.buffer with inTransaction := true }
      (body.runInside s).state.buffer :=
  run_takenBack rfl

theorem Script.run_transaction {s : ScriptState} (closed : s.buffer.inTransaction = false)
    (name : Option String) (body : Script) (caught : Bool) (rest : Script) :
    (Script.transaction name body caught rest).run s =
      let inner := body.runInside s
      let after := closeTransaction name s inner
      match inner.failure with
      | none => .cons (.of (.ok .done) after.buffer (some inner.entries)) (rest.run after)
      | some e =>
        let entry := Entry.of (.error e) after.buffer (some inner.entries)
        if caught then .cons entry (rest.run after) else ⟨[entry], after, some e⟩ := by
  rw [Script.run]
  simp only [Buffer.begin, closed, Bool.false_eq_true, if_false]
  rfl

/-- The buffer after a transaction and nothing else. -/
def afterTransaction (s : ScriptState) (name : Option String) (body : Script) (caught : Bool) :
    Buffer :=
  ((Script.transaction name body caught .done).run s).state.buffer

theorem afterTransaction_eq {s : ScriptState} (closed : s.buffer.inTransaction = false)
    (name : Option String) (body : Script) (caught : Bool) :
    afterTransaction s name body caught =
      (closeTransaction name s (body.runInside s)).buffer := by
  unfold afterTransaction
  rw [Script.run_transaction closed]
  simp only
  split
  · rfl
  · split
    · rfl
    · rfl

/-- A transaction that fails, or ends with the text it started from, leaves nothing behind but the
history that its body left. -/
theorem closeTransaction_of_unrecorded {s : ScriptState} {body : Trace} {name : Option String}
    (unrecorded : body.failure ≠ none ∨ body.state.buffer.text = s.buffer.text) :
    (closeTransaction name s body).buffer =
      ⟨s.buffer.text, false, body.state.buffer.history⟩ := by
  unfold closeTransaction
  split
  · rename_i none
    rcases unrecorded with failed | same
    · exact absurd none failed
    · simp [Buffer.commit, same]
  · rfl

/-- A transaction that fails, or ends with the text it started from, leaves no trace exactly when
nothing was undone in it. What was undone stays undone, though its text comes back. -/
theorem unrecorded_transaction_iff {s : ScriptState} (closed : s.buffer.inTransaction = false)
    {name : Option String} {body : Script} {caught : Bool}
    (unrecorded : (body.runInside s).failure ≠ none ∨
      (body.runInside s).state.buffer.text = s.buffer.text) :
    undos (body.runInside s).entries ≤ s.buffer.history.length ∧
    afterTransaction s name body caught =
      { s.buffer with history := s.buffer.history.drop (undos (body.runInside s).entries) } ∧
    (afterTransaction s name body caught = s.buffer ↔ undos (body.runInside s).entries = 0) := by
  have taken := body.runInside_takenBack s
  have enough : undos (body.runInside s).entries ≤ s.buffer.history.length := taken.enough
  have history : (body.runInside s).state.buffer.history =
      s.buffer.history.drop (undos (body.runInside s).entries) := taken.history
  have result : afterTransaction s name body caught =
      { s.buffer with history := s.buffer.history.drop (undos (body.runInside s).entries) } := by
    rw [afterTransaction_eq closed, closeTransaction_of_unrecorded unrecorded, history, ← closed]
  refine ⟨enough, result, ?_⟩
  rw [result]
  constructor
  · intro same
    have kept := congrArg (fun b : Buffer => b.history.length) same
    simp only [List.length_drop] at kept
    omega
  · intro nothing
    rw [nothing, List.drop_zero]

/-- The text "a", changed to "b" by a transaction. -/
def onceEdited : ScriptState :=
  ((Script.transaction none (.act (.replace ⟨⟨0, 1⟩, "b".toList⟩) false .done) false .done).run
    { buffer := { text := "a".toList } }).state

def undoThenFail : Script :=
  .act .undo false (.act (.fail "no") false .done)

/-- Undoes the change and makes it again by hand. -/
def undoThenRestore : Script :=
  .act .undo false (.act (.replace ⟨⟨0, 1⟩, "b".toList⟩) false .done)

theorem unrecorded_transaction_iff_undoing :
    (undoThenFail.runInside onceEdited).failure ≠ none ∧
    afterTransaction onceEdited none undoThenFail false = { text := "b".toList } := by
  have failed : (undoThenFail.runInside onceEdited).failure ≠ none := by decide
  obtain ⟨-, result, -⟩ := @unrecorded_transaction_iff onceEdited rfl none undoThenFail false
    (.inl failed)
  refine ⟨failed, result.trans ?_⟩
  decide

/-- A transaction that fails, and one that ends with the text it started from, shorten the
history. -/
theorem undo_leaves_trace :
    onceEdited.buffer = { text := "b".toList, history := [(none, "a".toList)] } ∧
    (undoThenFail.runInside onceEdited).failure = some (.raised "no") ∧
    afterTransaction onceEdited none undoThenFail false ≠ onceEdited.buffer ∧
    (undoThenRestore.runInside onceEdited).failure = none ∧
    (undoThenRestore.runInside onceEdited).state.buffer.text = onceEdited.buffer.text ∧
    afterTransaction onceEdited none undoThenRestore false ≠ onceEdited.buffer := by
  decide

end ManifestOrder.Dependency

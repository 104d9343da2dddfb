import ManifestOrder.Proofs.Dependency.Fix
import ManifestOrder.Proofs.Dependency.Transaction

/-!
# Edits as one action

An application of replacements answers with a buffer or with a failure, and a failure says nothing
about the buffer. So the application is taken apart here (`applySteps`, `fixSteps`): the text is
planned for, the list is checked, and then a transaction makes one replacement after the other, each
on the buffer that the last one left. If one failed, the buffer would be left half edited but for the
transaction. `edits_are_one_action` says that the steps end as the application does, that a failure
leaves everything as it was, wherever it comes from, and that a success is recorded at most once,
however many replacements were made.
-/

namespace ManifestOrder.Dependency

open Edit (Buffer Replacement)

/-! ## Single steps -/

/-- Makes one replacement after the other, up to the first that fails. -/
def Script.replacing : List Replacement → Script
  | [] => .done
  | r :: rest => .act (.replace r) false (replacing rest)

/-- What fails before anything has been done. -/
def Trace.refused (s : ScriptState) (cause : FixError) : Trace :=
  ⟨[], s, some (.fix cause)⟩

/-- A list of replacements applied step by step. -/
def applySteps (list : List Replacement) (name : Option String) (s : ScriptState) : Trace :=
  if list.isEmpty then ⟨[], s, none⟩
  else
    match Replacement.validate list s.buffer.text.length with
    | .error e => .refused s (.edit e)
    | .ok ordered => (Script.transaction name (.replacing ordered) false .done).run s

/-- The manifest in a buffer sorted step by step. -/
def fixSteps (cmp : Comparator) (s : ScriptState) : Trace :=
  match planText cmp s.buffer.text with
  | .error e => .refused s e
  | .ok list => applySteps list (some Edit.sortActionName) s

/-- The steps end as the whole action answers: with the same state, or with the same failure. -/
def Trace.EndsAs (ran : Trace) : Except StepError (Answer × ScriptState) → Prop
  | .ok (_, next) => ran.failure = none ∧ ran.state = next
  | .error e => ran.failure = some e

/-! ## The transaction -/

section
variable {s : ScriptState} {list : List Replacement} {name : Option String}

theorem Script.run_replacing :
    ((replacing list).run s).EndsAs (s.edited (s.buffer.replaceAll list)) := by
  induction list generalizing s with
  | nil => exact ⟨rfl, rfl⟩
  | cons r rest ih =>
    rw [replacing, Script.run, Action.run, Buffer.replaceAll]
    cases s.buffer.replace r with
    | error e => rfl
    | ok next => exact @ih { s with buffer := next }

/-- Whether the replacements are all made or not, nothing but the text has changed then. -/
theorem Script.run_replacing_text :
    ((replacing list).run s).state = { s with buffer := { s.buffer with
      text := ((replacing list).run s).state.buffer.text } } := by
  induction list generalizing s with
  | nil => rfl
  | cons r rest ih =>
    rw [replacing, Script.run, Action.run]
    cases replaced : s.buffer.replace r with
    | error e => rfl
    | ok next =>
      have others := @ih { s with buffer := next }
      rw [(Buffer.replace_eq_ok replaced).2] at others ⊢
      exact others

/-- A transaction and nothing else ends as its body does, and then it is closed. -/
theorem Script.run_transaction_alone (closed : s.buffer.inTransaction = false) (body : Script) :
    ((Script.transaction name body false .done).run s).failure = (body.runInside s).failure ∧
    ((Script.transaction name body false .done).run s).state =
      closeTransaction name s (body.runInside s) := by
  rw [run_transaction closed]
  simp only
  cases (body.runInside s).failure with
  | none => exact ⟨rfl, rfl⟩
  | some e => exact ⟨rfl, rfl⟩

/-- A transaction of replacements that fails gives back everything. -/
theorem closeTransaction_replacing_failed (closed : s.buffer.inTransaction = false)
    (failed : ((Script.replacing list).runInside s).failure ≠ none) :
    closeTransaction name s ((Script.replacing list).runInside s) = s := by
  have kept : ((Script.replacing list).runInside s).state = _ := Script.run_replacing_text
  obtain ⟨e, failure⟩ := Option.ne_none_iff_exists'.1 failed
  simp only [closeTransaction, failure]
  rw [kept]
  simp only [Buffer.rollBack, ← closed]

/-- One that does not fail is recorded if it changed the text. -/
theorem closeTransaction_replacing_done
    (done : ((Script.replacing list).runInside s).failure = none) :
    closeTransaction name s ((Script.replacing list).runInside s) =
      { s with
        buffer := Buffer.commit
          { s.buffer with text := ((Script.replacing list).runInside s).state.buffer.text }
          name s.buffer.text } := by
  have kept : ((Script.replacing list).runInside s).state = _ := Script.run_replacing_text
  simp only [closeTransaction, done]
  rw [kept]
  rfl

end

/-! ## Steps and actions -/

section
variable {s : ScriptState} {list : List Replacement} {name : Option String}

theorem applySteps_of_accepted {ordered : List Replacement} (some : list ≠ [])
    (accepted : Replacement.validate list s.buffer.text.length = .ok ordered) :
    applySteps list name s =
      (Script.transaction name (.replacing ordered) false .done).run s := by
  rw [applySteps, if_neg (by simpa using some)]
  simp only [accepted]

theorem edits_endsAs (ordered : List Replacement) :
    ((Script.transaction name (.replacing ordered) false .done).run s).EndsAs
      (s.edited (match s.buffer.begin with
        | .error e => .error e
        | .ok opened =>
          match opened.replaceAll ordered with
          | .error e => .error e
          | .ok edited => .ok (edited.commit name s.buffer.text))) := by
  cases opened : s.buffer.inTransaction with
  | true =>
    rw [Script.run]
    simp only [Buffer.begin, opened, if_true]
    rfl
  | false =>
    obtain ⟨failure, state⟩ := @Script.run_transaction_alone s name opened (.replacing ordered)
    have ends : ((Script.replacing ordered).runInside s).EndsAs _ := Script.run_replacing
    simp only [Buffer.begin, opened, Bool.false_eq_true, if_false]
    cases made : Buffer.replaceAll { s.buffer with inTransaction := true } ordered with
    | error e =>
      rw [made] at ends
      exact failure.trans ends
    | ok edited =>
      rw [made] at ends
      obtain ⟨finished, same⟩ := ends
      refine ⟨failure.trans finished, state.trans ?_⟩
      simp only [closeTransaction, finished]
      rw [same]

/-- The steps do what the application does as a whole. -/
theorem applySteps_endsAs : (applySteps list name s).EndsAs ((Action.apply list name).run s) := by
  rw [Action.run, Buffer.apply]
  by_cases empty : list.isEmpty = true
  · rw [applySteps, if_pos empty, if_pos empty]
    exact ⟨rfl, rfl⟩
  · rw [if_neg empty]
    cases checked : Replacement.validate list s.buffer.text.length with
    | error e =>
      rw [applySteps, if_neg empty]
      simp only [checked]
      rfl
    | ok ordered =>
      rw [applySteps_of_accepted (by simpa using empty) checked]
      exact edits_endsAs ordered

theorem fixSteps_endsAs {cmp : Comparator} : (fixSteps cmp s).EndsAs ((Action.fix cmp).run s) := by
  rw [Action.run, fixSteps, fixBuffer]
  cases planText cmp s.buffer.text with
  | error e => rfl
  | ok list =>
    have ends : (applySteps list (some Edit.sortActionName) s).EndsAs _ := applySteps_endsAs
    rw [Action.run] at ends
    simp only
    cases applied : s.buffer.apply list (some Edit.sortActionName) with
    | error e =>
      rw [applied] at ends
      exact ends
    | ok edited =>
      rw [applied] at ends
      exact ends

/-! ## All or nothing -/

/-- What failed left everything as it was. What did not fail left everything as it was, too, or it
changed the text, and recorded that under the name as one action that can be taken back as one. -/
structure AllOrNothing (name : Option String) (s : ScriptState) (ran : Trace) : Prop where
  failed : ran.failure ≠ none → ran.state = s
  done : ran.failure = none → ran.state = s ∨
    ran.state.buffer.text ≠ s.buffer.text ∧
    ran.state.buffer.history = (name, s.buffer.text) :: s.buffer.history ∧
    ran.state.buffer.undo = some s.buffer

/-- So it is with replacements that nobody has checked, because of the transaction around them. -/
theorem edits_allOrNothing (ordered : List Replacement) :
    AllOrNothing name s ((Script.transaction name (.replacing ordered) false .done).run s) := by
  cases opened : s.buffer.inTransaction with
  | true =>
    rw [Script.run]
    simp only [Buffer.begin, opened, if_true]
    exact ⟨fun _ => rfl, fun done => by cases done⟩
  | false =>
    obtain ⟨failure, state⟩ := @Script.run_transaction_alone s name opened (.replacing ordered)
    constructor
    · intro failed
      rw [failure] at failed
      rw [state, closeTransaction_replacing_failed opened failed]
    · intro done
      rw [failure] at done
      rw [state, closeTransaction_replacing_done done]
      generalize ((Script.replacing ordered).runInside s).state.buffer.text = text
      by_cases same : text = s.buffer.text
      · left
        simp only [Buffer.commit, same, if_true, ← opened]
      · right
        simp only [Buffer.commit, same, if_false]
        refine ⟨same, trivial, ?_⟩
        simp only [Buffer.undo, ← opened]

theorem applySteps_allOrNothing : AllOrNothing name s (applySteps list name s) := by
  by_cases empty : list.isEmpty = true
  · rw [applySteps, if_pos empty]
    exact ⟨fun failed => absurd rfl failed, fun _ => .inl rfl⟩
  · cases checked : Replacement.validate list s.buffer.text.length with
    | error e =>
      rw [applySteps, if_neg empty]
      simp only [checked]
      exact ⟨fun _ => rfl, fun done => by cases done⟩
    | ok ordered =>
      rw [applySteps_of_accepted (by simpa using empty) checked]
      exact edits_allOrNothing ordered

theorem fixSteps_allOrNothing (cmp : Comparator) (s : ScriptState) :
    AllOrNothing (some Edit.sortActionName) s (fixSteps cmp s) := by
  rw [fixSteps]
  cases planText cmp s.buffer.text with
  | error e => exact ⟨fun _ => rfl, fun done => by cases done⟩
  | ok list => exact applySteps_allOrNothing

/-! ## Causes of failure -/

theorem applySteps_cause {e : StepError} (failed : (applySteps list name s).failure = some e) :
    ∃ cause, e = .fix (.edit cause) ∧
      (Replacement.validate list s.buffer.text.length = .error cause ∨
        cause = .transactionOpen ∧ s.buffer.inTransaction = true) := by
  have ends : (applySteps list name s).EndsAs _ := applySteps_endsAs
  rw [Action.run] at ends
  cases applied : s.buffer.apply list name with
  | ok edited =>
    rw [applied] at ends
    cases ends.1.symm.trans failed
  | error cause =>
    rw [applied] at ends
    obtain rfl := Option.some.inj (ends.symm.trans failed)
    exact ⟨cause, rfl, Edit.apply_eq_error applied⟩

/-- A plan for a text is never out of range in it. -/
theorem planText_accepted {cmp : Comparator} {text : List Char}
    (planned : planText cmp text = .ok list) :
    ∃ ordered, Replacement.validate list text.length = .ok ordered := by
  cases checked : Replacement.validate list text.length with
  | ok ordered => exact ⟨ordered, rfl⟩
  | error e =>
    have refused : fixBuffer cmp { text } = .error (.edit e) := by
      have failed := @Edit.apply_of_refused { text } list e checked (some Edit.sortActionName)
      simp only [fixBuffer, planned, failed]
    cases read : extract? text with
    | none => simp [planText, read] at planned
    | some records =>
      obtain ⟨gaps, laid⟩ := extract?_laid read
      have fixed := @fixBuffer_laid { text } rfl records gaps read laid cmp
      cases refused.symm.trans fixed

theorem planText_eq_error {cmp : Comparator} {text : List Char} {e : FixError}
    (failed : planText cmp text = .error e) : e = .malformed := by
  unfold planText at failed
  split at failed
  · exact (Except.error.inj failed).symm
  · cases failed

theorem fixSteps_cause {cmp : Comparator} {e : StepError}
    (failed : (fixSteps cmp s).failure = some e) :
    e = .fix .malformed ∨ e = .fix (.edit .transactionOpen) ∧ s.buffer.inTransaction = true := by
  rw [fixSteps] at failed
  cases planned : planText cmp s.buffer.text with
  | error cause =>
    rw [planned] at failed
    obtain rfl := Option.some.inj failed
    exact .inl (congrArg StepError.fix (planText_eq_error planned))
  | ok list =>
    simp only [planned] at failed
    obtain ⟨cause, rfl, refused | ⟨rfl, opened⟩⟩ := applySteps_cause failed
    · obtain ⟨ordered, accepted⟩ := planText_accepted planned
      cases accepted.symm.trans refused
    · exact .inr ⟨rfl, opened⟩

/-- While a transaction is open no other one is started, and the open one goes on. -/
theorem applySteps_of_open {ordered : List Replacement} (opened : s.buffer.inTransaction = true)
    (some : list ≠ [])
    (accepted : Replacement.validate list s.buffer.text.length = .ok ordered) :
    (applySteps list name s).failure = .some (.fix (.edit .transactionOpen)) ∧
      (applySteps list name s).state = s := by
  rw [applySteps_of_accepted some accepted, Script.run]
  simp only [Buffer.begin, opened, if_true]
  exact ⟨rfl, rfl⟩

end

/-- An application of replacements, and a sort of the manifest, leave everything as it was when they
fail, for whatever cause. Otherwise they change nothing, or they change the text and record that as
one action under the name that is given, which can be taken back as one. While a transaction is open,
a list that is not empty and could be applied fails for that, and the empty one does nothing. -/
theorem edits_are_one_action (s : ScriptState) :
    (∀ (list : List Replacement) (name : Option String),
      AllOrNothing name s (applySteps list name s) ∧
      (applySteps list name s).EndsAs ((Action.apply list name).run s) ∧
      ∀ e, (applySteps list name s).failure = some e → ∃ cause, e = .fix (.edit cause) ∧
        (cause.IsRange ∨ cause = .transactionOpen ∧ s.buffer.inTransaction = true)) ∧
    (∀ cmp : Comparator,
      AllOrNothing (some Edit.sortActionName) s (fixSteps cmp s) ∧
      (fixSteps cmp s).EndsAs ((Action.fix cmp).run s) ∧
      ∀ e, (fixSteps cmp s).failure = some e → e = .fix .malformed ∨
        e = .fix (.edit .transactionOpen) ∧ s.buffer.inTransaction = true) ∧
    (∀ name, applySteps [] name s = ⟨[], s, none⟩) ∧
    ∀ list name ordered, s.buffer.inTransaction = true → list ≠ [] →
      Replacement.validate list s.buffer.text.length = .ok ordered →
      (applySteps list name s).failure = some (.fix (.edit .transactionOpen)) ∧
        (applySteps list name s).state = s := by
  refine ⟨?_, ?_, fun _ => rfl, ?_⟩
  · intro list name
    refine ⟨applySteps_allOrNothing, applySteps_endsAs, ?_⟩
    intro e failed
    obtain ⟨cause, rfl, refused | busy⟩ := applySteps_cause failed
    · exact ⟨cause, rfl, .inl (Edit.validate_error refused)⟩
    · exact ⟨cause, rfl, .inr busy⟩
  · intro cmp
    exact ⟨fixSteps_allOrNothing cmp s, fixSteps_endsAs, fun e => fixSteps_cause⟩
  · intro list name ordered
    exact applySteps_of_open

end ManifestOrder.Dependency

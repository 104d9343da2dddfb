import ManifestOrder.Dependency.Fix

/-!
# Scripts of buffer actions

A script is a sequence of actions on one buffer, some of them grouped into transactions. Each step
is recorded with the state right after it. A failing step ends the script it stands in, unless its
failure is caught; a transaction whose body ends so is rolled back and fails itself.
-/

namespace ManifestOrder.Dependency

open Edit (Buffer Replacement)

/-- A single action on a buffer. -/
inductive Action where
  | replace (replacement : Replacement)
  | undo
  | fail (message : String)
  | apply (replacements : List Replacement) (name : Option String)
  | fix (cmp : Comparator)
  /-- Plans for the current text, and remembers the plan. -/
  | plan (cmp : Comparator)
  | applyPlan

/-- Why a step failed. -/
inductive StepError where
  | fix (cause : FixError)
  | raised (message : String)
deriving DecidableEq, Repr

def StepError.message : StepError → String
  | .fix cause => cause.message
  | .raised message => message

/-- What a step answers. -/
inductive Answer where
  | done
  | undone (anything : Bool)
  | edits (count : Nat)
  | planned (replacements : List Replacement)
deriving DecidableEq, Repr

/-- A buffer, and the plan made last. -/
structure ScriptState where
  buffer : Buffer
  plan : List Replacement := []
deriving DecidableEq, Repr

/-- The state with the buffer that an edit gives, if it gives one. -/
def ScriptState.edited (s : ScriptState) :
    Except Edit.EditError Buffer → Except StepError (Answer × ScriptState)
  | .error e => .error (.fix (.edit e))
  | .ok buffer => .ok (.done, { s with buffer })

def Action.run (action : Action) (s : ScriptState) : Except StepError (Answer × ScriptState) :=
  match action with
  | .replace replacement => s.edited (s.buffer.replace replacement)
  | .undo =>
    match s.buffer.undo with
    | none => .ok (.undone false, s)
    | some buffer => .ok (.undone true, { s with buffer })
  | .fail message => .error (.raised message)
  | .apply replacements name => s.edited (s.buffer.apply replacements name)
  | .fix cmp =>
    match fixBuffer cmp s.buffer with
    | .error e => .error (.fix e)
    | .ok (buffer, count) => .ok (.edits count, { s with buffer })
  | .plan cmp =>
    match planText cmp s.buffer.text with
    | .error e => .error (.fix e)
    | .ok replacements => .ok (.planned replacements, { s with plan := replacements })
  | .applyPlan => s.edited (s.buffer.apply s.plan (some Edit.sortActionName))

inductive Script where
  | done
  | act (action : Action) (caught : Bool) (rest : Script)
  | transaction (name : Option String) (body : Script) (caught : Bool) (rest : Script)
deriving Inhabited

/-- The record of a step: its answer or failure, the state after it, and for a transaction the
records of the steps within it. -/
structure Entry where
  outcome : Except StepError Answer
  text : List Char
  undoNames : List (Option String)
  inner : Option (List Entry) := none

def Entry.of (outcome : Except StepError Answer) (buffer : Buffer)
    (inner : Option (List Entry)) : Entry :=
  ⟨outcome, buffer.text, buffer.undoNames, inner⟩

/-- The record of a script that has ended, by itself or by a failure. -/
structure Trace where
  entries : List Entry
  state : ScriptState
  failure : Option StepError := none

/-- The trace of a step followed by the trace of what still runs after it. -/
def Trace.cons (entry : Entry) (t : Trace) : Trace :=
  { t with entries := entry :: t.entries }

/-- The transaction that started from `before` is closed as its body ended. -/
def closeTransaction (name : Option String) (before : ScriptState) (body : Trace) : ScriptState :=
  { body.state with
    buffer :=
      match body.failure with
      | none => body.state.buffer.commit name before.buffer.text
      | some _ => body.state.buffer.rollBack before.buffer.text }

def Script.run : Script → ScriptState → Trace
  | .done, s => ⟨[], s, none⟩
  | .act action caught rest, s =>
    match action.run s with
    | .ok (answer, next) => .cons (.of (.ok answer) next.buffer none) (rest.run next)
    | .error e =>
      let entry := Entry.of (.error e) s.buffer none
      if caught then .cons entry (rest.run s) else ⟨[entry], s, some e⟩
  | .transaction name body caught rest, s =>
    match s.buffer.begin with
    | .error e =>
      let error := StepError.fix (.edit e)
      let entry := Entry.of (.error error) s.buffer (some [])
      if caught then .cons entry (rest.run s) else ⟨[entry], s, some error⟩
    | .ok buffer =>
      let inner := body.run { s with buffer }
      let closed := closeTransaction name s inner
      match inner.failure with
      | none => .cons (.of (.ok .done) closed.buffer (some inner.entries)) (rest.run closed)
      | some e =>
        let entry := Entry.of (.error e) closed.buffer (some inner.entries)
        if caught then .cons entry (rest.run closed) else ⟨[entry], closed, some e⟩

end ManifestOrder.Dependency

import ManifestOrder.Edit.Replacement

/-!
# Text buffers

A buffer holds a text, and the texts that its committed transactions started from, the newest
first. A text is edited only inside a transaction. A transaction that fails gives back the text it
started from; one that leaves the text as it was is not recorded.

`Buffer.apply` makes a list of replacements one transaction, all or nothing.
-/

namespace ManifestOrder.Edit

/-- The name under which a sort is recorded. -/
def sortActionName : String := "Sort Maven dependencies"

structure Buffer where
  text : List Char
  inTransaction : Bool := false
  history : List (Option String × List Char) := []
deriving DecidableEq, Repr

/-- The text with the characters from `start` to `stop` overwritten. -/
def splice (text : List Char) (start stop : Nat) (new : List Char) : List Char :=
  text.take start ++ new ++ text.drop stop

namespace Buffer

/-- The names of the recorded transactions, the oldest first. -/
def undoNames (b : Buffer) : List (Option String) :=
  (b.history.map Prod.fst).reverse

def replace (b : Buffer) (r : Replacement) : Except EditError Buffer :=
  if !b.inTransaction then .error .noTransaction
  else if r.span.Within b.text.length then
    .ok { b with text := splice b.text r.span.start.toNat r.span.stop.toNat r.text }
  else .error (.outside r.span b.text.length)

/-- Opens a transaction. Transactions do not nest. -/
def begin (b : Buffer) : Except EditError Buffer :=
  if b.inTransaction then .error .transactionOpen else .ok { b with inTransaction := true }

/-- Closes the transaction that started from `snapshot`, and records it if the text changed. -/
def commit (b : Buffer) (name : Option String) (snapshot : List Char) : Buffer :=
  { b with
    inTransaction := false
    history := if b.text = snapshot then b.history else (name, snapshot) :: b.history }

/-- Closes the transaction that started from `snapshot` and gives that text back. The history stays
as the failed transaction left it. -/
def rollBack (b : Buffer) (snapshot : List Char) : Buffer :=
  { b with text := snapshot, inTransaction := false }

/-- Takes back the newest recorded transaction, if there is one. -/
def undo (b : Buffer) : Option Buffer :=
  match b.history with
  | [] => none
  | (_, text) :: older => some { b with text := text, history := older }

def replaceAll (b : Buffer) : List Replacement → Except EditError Buffer
  | [] => .ok b
  | r :: rest =>
    match b.replace r with
    | .error e => .error e
    | .ok next => next.replaceAll rest

/-- Applies replacements computed against the buffer's text. The whole list is checked before the
transaction is opened, and an empty list opens none. A failure leaves the buffer as it was. -/
def apply (b : Buffer) (replacements : List Replacement) (name : Option String) :
    Except EditError Buffer :=
  if replacements.isEmpty then .ok b
  else
    match Replacement.validate replacements b.text.length with
    | .error e => .error e
    | .ok ordered =>
      match b.begin with
      | .error e => .error e
      | .ok opened =>
        match opened.replaceAll ordered with
        | .error e => .error e
        | .ok edited => .ok (edited.commit name b.text)

end Buffer

end ManifestOrder.Edit

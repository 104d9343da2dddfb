import ManifestOrder.Dependency.Order
import ManifestOrder.Dependency.Extract
import ManifestOrder.Edit.Buffer

/-!
# Sorting the entries of a manifest

The place of each entry receives the text of the entry that belongs there. Places that hold that
text already are left alone, so what stands between the entries never moves.
-/

namespace ManifestOrder.Dependency

open Edit (Buffer EditError Replacement)

/-- The replacements that put the records into order. -/
def plan (cmp : Comparator) (records : List Record) : List Replacement :=
  (records.zip (stableSort cmp records)).filterMap fun (old, new) =>
    if old.text = new.text then none else some ⟨old.span, new.text⟩

inductive FixError where
  | malformed
  | edit (cause : EditError)
deriving DecidableEq, Repr

def FixError.message : FixError → String
  | .malformed => malformedMessage
  | .edit cause => cause.message

/-- The plan for a text as it stands. -/
def planText (cmp : Comparator) (text : List Char) : Except FixError (List Replacement) :=
  match extract? text with
  | none => .error .malformed
  | some list => .ok (plan cmp list.records)

/-- Sorts the manifest in a buffer as one recorded action, and counts the edits. -/
def fixBuffer (cmp : Comparator) (buffer : Buffer) : Except FixError (Buffer × Nat) :=
  match planText cmp buffer.text with
  | .error e => .error e
  | .ok replacements =>
    match buffer.apply replacements (some Edit.sortActionName) with
    | .error e => .error (.edit e)
    | .ok edited => .ok (edited, replacements.length)

/-- A sorted manifest. -/
structure Fixed where
  source : List Char
  replacements : Nat
deriving DecidableEq, Repr

def Fixed.modified (f : Fixed) : Bool :=
  decide (0 < f.replacements)

def fixText (cmp : Comparator) (text : List Char) : Except FixError Fixed :=
  match fixBuffer cmp { text } with
  | .error e => .error e
  | .ok (buffer, count) => .ok ⟨buffer.text, count⟩

end ManifestOrder.Dependency

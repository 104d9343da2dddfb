/-!
# Spans and replacements

A span is a half-open range of character offsets. A span that nobody has checked yet may be
negative, reversed or reach past the end of a text, so its ends are integers.

A replacement overwrites a span of a text. A list of replacements is computed against one text and
applied from its end towards its start, so that no edit moves the span of an edit still to come.
`validate` puts a list into that order and refuses what cannot be applied together: a span outside
the text, two spans that overlap, two spans with the same start.
-/

namespace ManifestOrder.Edit

/-! ## Spans -/

structure Span where
  start : Int := 0
  stop : Int := 0
deriving DecidableEq, Repr, Inhabited

namespace Span

def overlaps (a b : Span) : Bool :=
  decide (a.start < b.stop) && decide (b.start < a.stop)

/-- The span lies in a text of `length` characters. -/
def Within (length : Int) (a : Span) : Prop :=
  0 ≤ a.start ∧ a.start ≤ a.stop ∧ a.stop ≤ length

instance (length : Int) (a : Span) : Decidable (a.Within length) :=
  inferInstanceAs (Decidable (_ ∧ _ ∧ _))

/-- How a span is shown in messages. -/
def shown (a : Span) : String :=
  s!"[{a.start}, {a.stop})"

theorem overlaps_iff {a b : Span} : a.overlaps b = true ↔ a.start < b.stop ∧ b.start < a.stop := by
  simp [overlaps]

end Span

/-! ## Replacements -/

structure Replacement where
  span : Span
  text : List Char
deriving DecidableEq, Repr, Inhabited

/-- Why an edit is refused. -/
inductive EditError where
  | outside (span : Span) (length : Int)
  | overlapping (first second : Span)
  | noTransaction
  | transactionOpen
deriving DecidableEq, Repr

def EditError.message : EditError → String
  | .outside span length => s!"Span {span.shown} outside buffer of length {length}"
  | .overlapping first second => s!"Span {first.shown} overlaps {second.shown}"
  | .noTransaction => "replace() must be called inside write_transaction()"
  | .transactionOpen => "Write transaction already in progress"

namespace Replacement

/-- The order of application: `a` is applied no later than `b` when it starts further right, or at
the same place and ends no further left. -/
def before (a b : Replacement) : Bool :=
  decide (b.span.start < a.span.start) ||
    decide (b.span.start = a.span.start) && decide (b.span.stop ≤ a.span.stop)

/-- Two neighbours of the order of application cannot both be applied. -/
def clashes (later earlier : Replacement) : Bool :=
  earlier.span.overlaps later.span || decide (earlier.span.start = later.span.start)

/-- The first two neighbours that clash, the one further left first. -/
def firstClash : List Replacement → Option (Span × Span)
  | later :: earlier :: rest =>
    if clashes later earlier then some (earlier.span, later.span) else firstClash (earlier :: rest)
  | _ => none

/-- The replacements in the order in which they are applied to a text of `length` characters.
A span outside the text is reported before any overlap. -/
def validate (replacements : List Replacement) (length : Int) :
    Except EditError (List Replacement) :=
  let ordered := replacements.mergeSort before
  match ordered.find? fun r => !decide (r.span.Within length) with
  | some r => .error (.outside r.span length)
  | none =>
    match firstClash ordered with
    | some (earlier, later) => .error (.overlapping earlier later)
    | none => .ok ordered

end Replacement

end ManifestOrder.Edit

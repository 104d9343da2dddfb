import ManifestOrder.Text.Character
import ManifestOrder.Text.Reader
import ManifestOrder.Toml.Value

/-!
# Dates and times

A date of the calendar, a time of day, or both with an optional distance from universal time. The
year zero is not in the calendar. Nothing is computed with them, so their text is kept.
-/

namespace ManifestOrder.Toml

open Text

/-- A number of exactly `width` digits within bounds. -/
def fixed? (width low high : Nat) (s : List Char) : Option (Nat × List Char) :=
  let digits := s.take width
  let n := numberOf 10 digits
  if digits.length = width && digits.all Char.isDigit && decide (low ≤ n) && decide (n ≤ high) then
    some (n, s.drop width)
  else none

def isLeapYear (year : Nat) : Bool :=
  year % 4 = 0 && (year % 100 != 0 || year % 400 = 0)

def daysIn (year month : Nat) : Nat :=
  match month with
  | 2 => if isLeapYear year then 29 else 28
  | 4 => 30
  | 6 => 30
  | 9 => 30
  | 11 => 30
  | _ => 31

def date? (s : List Char) : Option (List Char) :=
  (fixed? 4 1 9999 s).bind fun (year, s) =>
    (word? "-" s).bind fun s =>
      (fixed? 2 1 12 s).bind fun (month, s) =>
        (word? "-" s).bind fun s => (fixed? 2 1 (daysIn year month) s).map Prod.snd

/-- The fraction of a second; a point without digits is not part of the time. -/
def skipFraction (s : List Char) : List Char :=
  match (word? "." s).bind (run? Char.isDigit Char.isDigit) with
  | some rest => rest
  | none => s

def time? (s : List Char) : Option (List Char) :=
  (fixed? 2 0 23 s).bind fun (_, s) =>
    (word? ":" s).bind fun s =>
      (fixed? 2 0 59 s).bind fun (_, s) =>
        (word? ":" s).bind fun s => (fixed? 2 0 59 s).map fun (_, s) => skipFraction s

def zone? (s : List Char) : Option (List Char) :=
  match s with
  | 'Z' :: rest => some rest
  | 'z' :: rest => some rest
  | sign :: s =>
    if sign = '+' || sign = '-' then
      (fixed? 2 0 23 s).bind fun (_, s) =>
        (word? ":" s).bind fun s => (fixed? 2 0 59 s).map Prod.snd
    else none
  | [] => none

/-- The time behind a date, if there is one. -/
def skipTimeOfDate (s : List Char) : List Char :=
  match s with
  | mark :: after =>
    if mark = 'T' || mark = 't' || mark = ' ' then
      match time? after with
      | some rest => (zone? rest).getD rest
      | none => s
    else s
  | [] => s

def moment? (s : List Char) : Option (Value × List Char) :=
  (((date? s).map skipTimeOfDate).orElse fun _ => time? s).map fun rest =>
    (.moment (String.ofList (s.take (s.length - rest.length))), rest)

end ManifestOrder.Toml

import ManifestOrder.Text.Character
import ManifestOrder.Text.Reader
import ManifestOrder.Toml.Value

/-!
# Numbers

A number is read as far as it goes; a character that cannot follow is the reader's next concern. An
underscore may stand between two digits. Only decimal numbers have a sign, and they have no leading
zeros. The digits of a whole number are limited in base ten, where reading them takes more than
linear time, and in no other base.
-/

namespace ManifestOrder.Toml

open Text

/-- Further digits of a number: a digit, or an underscore and a digit. -/
def moreDigits (isDigit : Char → Bool) : List Char → List Char × List Char
  | [] => ([], [])
  | [c] => if isDigit c then ([c], []) else ([], [c])
  | c :: d :: s =>
    if isDigit c then
      let (digits, rest) := moreDigits isDigit (d :: s)
      (c :: digits, rest)
    else if c = '_' && isDigit d then
      let (digits, rest) := moreDigits isDigit s
      (d :: digits, rest)
    else ([], c :: d :: s)

def digits? (isDigit : Char → Bool) : List Char → Option (List Char × List Char)
  | [] => none
  | c :: s =>
    if isDigit c then
      let (digits, rest) := moreDigits isDigit s
      some (c :: digits, rest)
    else none

def isBinaryDigit (c : Char) : Bool :=
  c = '0' || c = '1'

def isOctalDigit (c : Char) : Bool :=
  decide ('0' ≤ c) && decide (c ≤ '7')

/-- A whole number in another base than ten, after the mark of its base. -/
def based? (s : List Char) : Option (Value × List Char) :=
  let read (base : Nat) (isDigit : Char → Bool) (s : List Char) :=
    (digits? isDigit s).map fun (digits, rest) =>
      (Value.integer (numberOf base digits), rest)
  match s with
  | '0' :: 'x' :: s => read 16 isHexDigit s
  | '0' :: 'b' :: s => read 2 isBinaryDigit s
  | '0' :: 'o' :: s => read 8 isOctalDigit s
  | _ => none

def optionalSign (s : List Char) : Bool × List Char :=
  match s with
  | '-' :: rest => (true, rest)
  | '+' :: rest => (false, rest)
  | _ => (false, s)

/-- The digits before the point: a single zero, or digits that start with another one. -/
def wholePart? (s : List Char) : Option (List Char × List Char) :=
  match s with
  | '0' :: rest => some (['0'], rest)
  | _ => digits? Char.isDigit s

def fraction? (s : List Char) : Option (List Char × List Char) :=
  (word? "." s).bind (digits? Char.isDigit)

def exponent? (s : List Char) : Option (Int × List Char) :=
  match s with
  | [] => none
  | e :: s =>
    if e = 'e' || e = 'E' then
      let (negative, s) := optionalSign s
      (digits? Char.isDigit s).map fun (digits, rest) =>
        let n : Int := numberOf 10 digits
        (if negative then -n else n, rest)
    else none

def signed (negative : Bool) (n : Nat) : Int :=
  if negative then -n else n

/-- The most digits of a whole number in base ten. -/
def mostDigits : Nat := 4300

def wholeNumber (negative : Bool) (digits : List Char) : Except DocumentError Value :=
  if digits.length ≤ mostDigits then .ok (.integer (signed negative (numberOf 10 digits)))
  else .error .numberTooLong

def decimal (s : List Char) : Except DocumentError (Value × List Char) :=
  let (negative, s) := optionalSign s
  match wholePart? s with
  | none => .error .malformed
  | some (whole, afterWhole) =>
    let (fraction, afterFraction) := (fraction? afterWhole).getD ([], afterWhole)
    match exponent? afterFraction with
    | some (exponent, rest) =>
      .ok (.real (.decimal negative (numberOf 10 (whole ++ fraction)) (exponent - fraction.length)),
        rest)
    | none =>
      if fraction.isEmpty then
        (wholeNumber negative whole).map fun value => (value, afterFraction)
      else
        .ok (.real (.decimal negative (numberOf 10 (whole ++ fraction)) (-fraction.length)),
          afterFraction)

def special? (s : List Char) : Option (Value × List Char) :=
  let (negative, s) := optionalSign s
  match word? "inf" s with
  | some rest => some (.real (.infinite negative), rest)
  | none => (word? "nan" s).map fun rest => (.real .notNumber, rest)

def number (s : List Char) : Except DocumentError (Value × List Char) :=
  match (based? s).orElse fun _ => special? s with
  | some read => .ok read
  | none => decimal s

end ManifestOrder.Toml

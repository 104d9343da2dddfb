/-!
# Configuration values

The values of a TOML document, and why a text cannot be read as one. A table keeps its entries in
the order in which they were written.
-/

namespace ManifestOrder.Toml

/-! ## Errors

A document is read from its front and the first error counts, so a number that is too long hides
every fault behind it.
-/

inductive DocumentError where
  | malformed
  /-- A whole number in base ten has more digits than are read. -/
  | numberTooLong
deriving DecidableEq, Repr

/-- The result of a reading that fails only on what is malformed. -/
def orMalformed {α : Type} : Option α → Except DocumentError α
  | some a => .ok a
  | none => .error .malformed

/-! ## Values -/

/-- A number with a fraction or an exponent: `digits * 10 ^ exponent`, an infinity, or no number. -/
inductive Real where
  | decimal (negative : Bool) (digits : Nat) (exponent : Int)
  | infinite (negative : Bool)
  | notNumber
deriving DecidableEq, Repr

/-- The decimal has no double next to it but zero: it is at most half of the least positive
double, `2 ^ -1074`. -/
def vanishes (digits : Nat) (exponent : Int) : Bool :=
  let leading := exponent + (Nat.toDigits 10 digits).length
  if digits = 0 then true
  else if leading ≤ -324 then true
  else if -322 ≤ leading then false
  else decide (digits * Nat.pow 2 1075 ≤ Nat.pow 10 (-exponent).toNat)

def Real.isZero : Real → Bool
  | .decimal _ digits exponent => vanishes digits exponent
  | _ => false

inductive Value where
  | string (text : String)
  | integer (n : Int)
  | real (r : Real)
  | boolean (b : Bool)
  | moment (text : String)
  | array (elements : List Value)
  | table (entries : List (String × Value))

abbrev Table := List (String × Value)

abbrev Key := List String

namespace Value

/-- An empty or zero value, which as a setting means that there is none. -/
def isBlank : Value → Bool
  | .string text => text = ""
  | .integer n => n = 0
  | .real r => r.isZero
  | .boolean b => !b
  | .moment _ => false
  | .array elements => elements.isEmpty
  | .table entries => entries.isEmpty

def string? : Value → Option String
  | .string text => some text
  | _ => none

def table? : Value → Option Table
  | .table entries => some entries
  | _ => none

/-- What a value is made of: the characters of a string, the elements of an array, the keys of a
table. Other values have no parts. -/
def parts? : Value → Option (List Value)
  | .string text => some (text.toList.map fun c => .string (String.ofList [c]))
  | .array elements => some elements
  | .table entries => some (entries.map fun entry => .string entry.1)
  | _ => none

/-- The value keeps its own entries, so nothing can be added to it later. -/
def isClosed : Value → Bool
  | .array _ => true
  | .table _ => true
  | _ => false

end Value

namespace Table

def find? (t : Table) (key : String) : Option Value :=
  t.lookup key

/-- The table with the value of an existing key exchanged. -/
def set (t : Table) (key : String) (value : Value) : Table :=
  t.map fun entry => if entry.1 = key then (key, value) else entry

def add (t : Table) (key : String) (value : Value) : Table :=
  t ++ [(key, value)]

/-- Changes the table at the end of a path of keys, making the tables that are missing on the way.
With `throughArrays`, an array on the way stands for its last element. -/
def modifyAt? (throughArrays : Bool) (change : Table → Option Table) : Key → Table → Option Table
  | [], t => change t
  | key :: path, t =>
    match find? t key with
    | none => (modifyAt? throughArrays change path []).map fun inner => add t key (.table inner)
    | some (.table inner) =>
      (modifyAt? throughArrays change path inner).map fun inner => set t key (.table inner)
    | some (.array elements) =>
      match throughArrays, elements.getLast? with
      | true, some (.table inner) =>
        (modifyAt? throughArrays change path inner).map fun inner =>
          set t key (.array (elements.dropLast ++ [.table inner]))
      | _, _ => none
    | some _ => none

end Table

end ManifestOrder.Toml

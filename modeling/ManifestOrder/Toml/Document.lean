import ManifestOrder.Toml.Literal

/-!
# Documents

A document is read line by line: a table header, the header of a further element of an array of
tables, or a key with a value. What may be added later is kept beside the tables read so far: a
value is closed with all that is in it, and a table has one header. A table that dotted keys made
takes more of them in the same section, and none afterwards.
-/

namespace ManifestOrder.Toml

open Text

structure Reading where
  entries : Table := []
  /-- The table that keys are added to. -/
  header : Key := []
  /-- Values that nothing can be added to. -/
  closed : List Key := []
  /-- Tables that cannot have a header, or another one. -/
  declared : List Key := []
  /-- Tables made by dotted keys of the present section. -/
  dotted : List Key := []

namespace Reading

/-- Ends a section. -/
def endSection (r : Reading) : Reading :=
  { r with declared := r.dotted ++ r.declared, dotted := [] }

/-- Starts the section of a table. -/
def openTable? (r : Reading) (key : Key) : Option Reading :=
  if r.declared.contains key || underAny r.closed key then none
  else
    (Table.modifyAt? true some key r.entries).map fun entries =>
      { r with entries, header := key, declared := key :: r.declared }

/-- Adds an empty table to the array of tables in a table. -/
def addElement? (last : String) (t : Table) : Option Table :=
  match Table.find? t last with
  | none => some (Table.add t last (.array [.table []]))
  | some (.array elements) => some (Table.set t last (.array (elements ++ [.table []])))
  | some _ => none

/-- Starts the section of a further element of an array of tables. What was declared in the element
before it can be declared again. -/
def openElement? (r : Reading) (key : Key) : Option Reading :=
  if underAny r.closed key then none
  else
    match key.getLast? with
    | none => none
    | some last =>
      (Table.modifyAt? true (addElement? last) key.dropLast r.entries).map fun entries =>
        { r with
          entries
          header := key
          closed := r.closed.filter fun other => !key.isPrefixOf other
          declared := key :: r.declared.filter fun other => !key.isPrefixOf other }

/-- The proper beginnings of a key but the empty one. -/
def beginnings (key : Key) : List Key :=
  (List.range (key.length - 1)).map fun n => key.take (n + 1)

/-- Adds a key with its value to the table of the section. -/
def addEntry? (r : Reading) (key : Key) (value : Value) : Option Reading :=
  let onTheWay := (beginnings key).map fun part => r.header ++ part
  if onTheWay.any r.declared.contains || underAny r.closed (r.header ++ key.dropLast) then none
  else
    (addAt? true r.entries (r.header ++ key) value).map fun entries =>
      { r with
        entries
        dotted := onTheWay ++ r.dotted
        closed := if value.isClosed then (r.header ++ key) :: r.closed else r.closed }

end Reading

/-! ## Lines -/

/-- A header between the given brackets. -/
def headerKey? (opening closing : String) (s : List Char) : Option (Key × List Char) :=
  (word? opening s).bind fun inner =>
    (key? (skipBlanks inner)).bind fun (key, rest) =>
      (word? closing rest.val).map fun left => (key, left)

/-- The key with its value at the front of a line, added to the section. -/
def readEntry (r : Reading) (s : List Char) : Except DocumentError (Reading × List Char) :=
  match keySign? s with
  | none => .error .malformed
  | some (key, afterSign) =>
    match readValue afterSign.val with
    | .error e => .error e
    | .ok (value, rest) => orMalformed ((r.addEntry? key value).map fun r => (r, rest.val))

/-- The statement at the front of a line, and what follows it. -/
def readStatement (r : Reading) (s : List Char) : Except DocumentError (Reading × List Char) :=
  if (word? "[[" s).isSome then
    orMalformed ((headerKey? "[[" "]]" s).bind fun (key, rest) =>
      (r.endSection.openElement? key).map fun r => (r, rest))
  else if (word? "[" s).isSome then
    orMalformed ((headerKey? "[" "]" s).bind fun (key, rest) =>
      (r.endSection.openTable? key).map fun r => (r, rest))
  else readEntry r s

/-- One line without its white space at the front: a statement or nothing, and a comment or
nothing. -/
def readLine (r : Reading) (s : List Char) : Except DocumentError (Reading × List Char) :=
  match s with
  | [] => .ok (r, [])
  | c :: _ =>
    if c = '\n' then .ok (r, s)
    else if c = '#' then orMalformed ((skipComment? s).map fun rest => (r, rest))
    else
      match readStatement r s with
      | .error e => .error e
      | .ok (r, rest) => orMalformed ((skipComment? (skipBlanks rest)).map fun rest => (r, rest))

/-- Reads all lines. A line ends with a line feed or with the text. -/
def readLines (r : Reading) (s : List Char) : Except DocumentError Reading :=
  match readLine r (skipBlanks s) with
  | .error e => .error e
  | .ok (r, []) => .ok r
  | .ok (r, c :: rest) =>
    if c = '\n' then
      if rest.length < s.length then readLines r rest else .error .malformed
    else .error .malformed
termination_by s.length

/-- Carriage returns in front of line feeds count for nothing. -/
def withoutReturns : List Char → List Char
  | '\r' :: '\n' :: s => '\n' :: withoutReturns s
  | c :: s => c :: withoutReturns s
  | [] => []

/-- The table that a text describes. -/
def parse (text : String) : Except DocumentError Table :=
  (readLines {} (withoutReturns text.toList)).map Reading.entries

end ManifestOrder.Toml

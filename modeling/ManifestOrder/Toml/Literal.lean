import ManifestOrder.Toml.Moment
import ManifestOrder.Toml.Number
import ManifestOrder.Toml.Quoted

/-!
# Keys and values

A value is read together with a proof that what is left is shorter, so arrays and inline tables may
hold values in turn. The elements of an array may stand on several lines, with comments between
them, and a comma may follow the last one; an inline table is one line without such a comma.
-/

namespace ManifestOrder.Toml

open Text

/-- What is left when something of `s` has been read. -/
abbrev Shorter (s : List Char) := { rest : List Char // rest.length < s.length }

/-- A reading that leaves less than `s`; one that leaves as much is none. -/
def shortened {α : Type} (s : List Char) : Option (α × List Char) → Option (α × Shorter s)
  | none => none
  | some (a, rest) => if less : rest.length < s.length then some (a, ⟨rest, less⟩) else none

def skipBlanks (s : List Char) : List Char :=
  s.dropWhile isBlankChar

/-- A comment up to the end of its line, if there is one. It must not hold control characters. -/
def skipComment? (s : List Char) : Option (List Char) :=
  match s with
  | '#' :: body =>
    if (body.takeWhile (· != '\n')).any isControl then none else some (body.dropWhile (· != '\n'))
  | _ => some s

theorem skipComment?_length {s rest : List Char} (read : skipComment? s = some rest) :
    rest.length ≤ s.length := by
  unfold skipComment? at read
  split at read
  · split at read
    · simp at read
    · obtain rfl := Option.some.inj read
      have := (List.dropWhile_suffix (l := ‹List Char›) (· != '\n')).length_le
      simp only [List.length_cons]
      omega
  · exact Option.some.inj read ▸ Nat.le_refl _

/-- White space, line feeds and comments between the elements of an array. -/
def skipGaps? (s : List Char) : Option { rest : List Char // rest.length ≤ s.length } :=
  let blank := s.dropWhile isGapChar
  have shorter : blank.length ≤ s.length := (List.dropWhile_suffix isGapChar).length_le
  match read : skipComment? blank with
  | none => none
  | some rest =>
    have := skipComment?_length read
    if rest.length < s.length then
      match skipGaps? rest with
      | none => none
      | some ⟨left, less⟩ => some ⟨left, by omega⟩
    else some ⟨rest, by omega⟩
termination_by s.length

/-! ## Keys -/

def isKeyChar (c : Char) : Bool :=
  c.isAlphanum || c = '-' || c = '_'

def keyPart? (s : List Char) : Option (String × List Char) :=
  match run? isKeyChar isKeyChar s with
  | some rest => some (String.ofList (s.takeWhile isKeyChar), rest)
  | none => (lineString? s).map fun (text, rest) => (String.ofList text, rest)

/-- A key of parts with points between them, and the blanks behind it. -/
def key? (s : List Char) : Option (Key × Shorter s) :=
  match shortened s ((keyPart? s).map fun (part, rest) => (part, skipBlanks rest)) with
  | none => none
  | some (part, ⟨rest, less⟩) =>
    match rest with
    | [] => some ([part], ⟨[], less⟩)
    | c :: after =>
      if c = '.' then
        have : (skipBlanks after).length ≤ after.length :=
          (List.dropWhile_suffix isBlankChar).length_le
        match key? (skipBlanks after) with
        | none => none
        | some (parts, ⟨left, lessLeft⟩) =>
          some (part :: parts, ⟨left, by simp only [List.length_cons] at less; omega⟩)
      else some ([part], ⟨c :: after, less⟩)
termination_by s.length
decreasing_by simp only [List.length_cons] at less; omega

/-- A key and the equals sign behind it, with the blanks around that. -/
def keySign? (s : List Char) : Option (Key × Shorter s) :=
  match key? s with
  | none => none
  | some (key, ⟨rest, less⟩) =>
    match rest with
    | '=' :: after =>
      have : (skipBlanks after).length ≤ after.length :=
        (List.dropWhile_suffix isBlankChar).length_le
      some (key, ⟨skipBlanks after, by simp only [List.length_cons] at less; omega⟩)
    | _ => none

/-! ## Values -/

def string? (s : List Char) : Option (Value × List Char) :=
  (anyString? s).map fun (text, rest) => (.string (String.ofList text), rest)

def boolean? (s : List Char) : Option (Value × List Char) :=
  match word? "true" s with
  | some rest => some (.boolean true, rest)
  | none => (word? "false" s).map fun rest => (.boolean false, rest)

/-- The value is a string, a boolean, a date or time, or a number. -/
def plainValue (s : List Char) : Except DocumentError (Value × List Char) :=
  match s with
  | '\x22' :: _ => orMalformed (string? s)
  | '\x27' :: _ => orMalformed (string? s)
  | _ =>
    match (boolean? s).orElse fun _ => moment? s with
    | some read => .ok read
    | none => number s

/-- An inline table under construction, with the keys whose values are closed. -/
structure InlineTable where
  entries : Table := []
  closed : List Key := []

/-- Some beginning of the key, or the whole key, is in the list. -/
def underAny (keys : List Key) (key : Key) : Bool :=
  keys.any fun closed => closed.isPrefixOf key

/-- Adds a new entry to a table. -/
def addNew? (key : String) (value : Value) (t : Table) : Option Table :=
  if (Table.find? t key).isSome then none else some (Table.add t key value)

/-- Adds a new entry at the end of a path of keys. -/
def addAt? (throughArrays : Bool) (t : Table) (key : Key) (value : Value) : Option Table :=
  match key.getLast? with
  | none => none
  | some last => Table.modifyAt? throughArrays (addNew? last value) key.dropLast t

def InlineTable.add? (t : InlineTable) (key : Key) (value : Value) : Option InlineTable :=
  if underAny t.closed key then none
  else
    (addAt? false t.entries key value).map fun entries =>
      ⟨entries, if value.isClosed then key :: t.closed else t.closed⟩

mutual

def readValue (s : List Char) : Except DocumentError (Value × Shorter s) :=
  match s with
  | '[' :: body =>
    match readElements body with
    | .error e => .error e
    | .ok (elements, ⟨rest, less⟩) =>
      .ok (.array elements, ⟨rest, by simp only [List.length_cons]; omega⟩)
  | '{' :: body =>
    have : (skipBlanks body).length ≤ body.length :=
      (List.dropWhile_suffix isBlankChar).length_le
    match same : skipBlanks body with
    | '}' :: rest =>
      .ok (.table [], ⟨rest, by simp only [same, List.length_cons] at this ⊢; omega⟩)
    | first =>
      match readEntries {} first with
      | .error e => .error e
      | .ok (entries, ⟨rest, less⟩) =>
        .ok (.table entries, ⟨rest, by simp only [same, List.length_cons] at this ⊢; omega⟩)
  | s =>
    match plainValue s with
    | .error e => .error e
    | .ok read => orMalformed (shortened s (some read))
termination_by 2 * s.length

/-- The elements of an array from the next one on, its closing bracket included. -/
def readElements (s : List Char) : Except DocumentError (List Value × Shorter s) :=
  match skipGaps? s with
  | none => .error .malformed
  | some ⟨[], _⟩ => .error .malformed
  | some ⟨c :: body, least⟩ =>
    if c = ']' then .ok ([], ⟨body, by simp only [List.length_cons] at least; omega⟩)
    else
      have : body.length + 1 ≤ s.length := least
      match readValue (c :: body) with
      | .error e => .error e
      | .ok (element, ⟨afterValue, less⟩) =>
        match skipGaps? afterValue with
        | none => .error .malformed
        | some ⟨[], _⟩ => .error .malformed
        | some ⟨d :: rest, leastAfter⟩ =>
          have shorter : rest.length < s.length := by
            simp only [List.length_cons] at least less leastAfter
            omega
          if d = ']' then .ok ([element], ⟨rest, shorter⟩)
          else if d = ',' then
            match readElements rest with
            | .error e => .error e
            | .ok (others, ⟨left, lessLeft⟩) => .ok (element :: others, ⟨left, by omega⟩)
          else .error .malformed
termination_by 2 * s.length + 1

/-- The entries of an inline table from the next one on, its closing brace included. -/
def readEntries (t : InlineTable) (s : List Char) : Except DocumentError (Table × Shorter s) :=
  match keySign? s with
  | none => .error .malformed
  | some (key, ⟨afterSign, less⟩) =>
    match readValue afterSign with
    | .error e => .error e
    | .ok (value, ⟨afterValue, lessValue⟩) =>
      match t.add? key value with
      | none => .error .malformed
      | some t =>
        have blanks : (skipBlanks afterValue).length ≤ afterValue.length :=
          (List.dropWhile_suffix isBlankChar).length_le
        match same : skipBlanks afterValue with
        | [] => .error .malformed
        | d :: rest =>
          have shorter : rest.length < s.length := by
            simp only [same, List.length_cons] at blanks
            omega
          if d = '}' then .ok (t.entries, ⟨rest, shorter⟩)
          else if d = ',' then
            have more : (skipBlanks rest).length ≤ rest.length :=
              (List.dropWhile_suffix isBlankChar).length_le
            match readEntries t (skipBlanks rest) with
            | .error e => .error e
            | .ok (entries, ⟨left, lessLeft⟩) => .ok (entries, ⟨left, by omega⟩)
          else .error .malformed
termination_by 2 * s.length + 1

end

end ManifestOrder.Toml

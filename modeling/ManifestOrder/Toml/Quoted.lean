import ManifestOrder.Text.Character
import ManifestOrder.Text.Reader

/-!
# Strings

A basic string stands between double quotes and has escapes, a literal one between apostrophes and
has none. With three quotes at each end a string may span lines; then a line feed right behind the
opening quotes is dropped, and up to two quotes before the closing ones belong to the text.
-/

namespace ManifestOrder.Toml

open Text

def isBlankChar (c : Char) : Bool :=
  c = ' ' || c = '\t'

def isGapChar (c : Char) : Bool :=
  isBlankChar c || c = '\n'

/-- A control character that a string or comment of one line must not hold. -/
def isControl (c : Char) : Bool :=
  decide (c.toNat < 0x20) && c != '\t' || c = '\x7F'

def isForbidden (multiline : Bool) (c : Char) : Bool :=
  isControl c && !(multiline && c = '\n')

/-! ## Literal strings -/

/-- Everything before a mark, and what follows the mark. -/
def splitAt? (mark : String) : List Char → Option (List Char × List Char)
  | [] => none
  | c :: s =>
    match word? mark (c :: s) with
    | some rest => some ([], rest)
    | none => (splitAt? mark s).map fun (front, rest) => (c :: front, rest)

def literalBody? (mark : String) (multiline : Bool) (s : List Char) :
    Option (List Char × List Char) :=
  (splitAt? mark s).filter fun found => !found.1.any (isForbidden multiline)

/-! ## Basic strings -/

/-- A character given by its number in hexadecimal digits. -/
def codePoint? (width : Nat) (s : List Char) : Option (List Char × List Char) :=
  let digits := s.take width
  let n := numberOf 16 digits
  if digits.length = width && digits.all isHexDigit then
    if n.isValidChar then some ([Char.ofNat n], s.drop width) else none
  else none

/-- An escape, its backslash being read: the text it stands for, and what follows it. A backslash
at the end of a line stands for nothing, and takes all white space up to the next text. -/
def escape? (multiline : Bool) (s : List Char) : Option (List Char × List Char) :=
  match s with
  | [] => none
  | c :: rest =>
    match c with
    | 'b' => some (['\x08'], rest)
    | 't' => some (['\t'], rest)
    | 'n' => some (['\n'], rest)
    | 'f' => some (['\x0C'], rest)
    | 'r' => some (['\r'], rest)
    | '\x22' => some (['\x22'], rest)
    | '\x5C' => some (['\x5C'], rest)
    | 'u' => codePoint? 4 rest
    | 'U' => codePoint? 8 rest
    | '\n' => if multiline then some ([], rest.dropWhile isGapChar) else none
    | c =>
      if multiline && isBlankChar c then
        match rest.dropWhile isBlankChar with
        | [] => some ([], [])
        | d :: after => if d = '\n' then some ([], after.dropWhile isGapChar) else none
      else none

theorem escape?_suffix {multiline : Bool} {s text rest : List Char}
    (read : escape? multiline s = some (text, rest)) : rest <:+ s := by
  have point {width : Nat} {s : List Char} (read : codePoint? width s = some (text, rest)) :
      rest <:+ s := by
    simp only [codePoint?] at read
    split at read
    · split at read
      · simp only [Option.some.injEq, Prod.mk.injEq] at read
        exact read.2 ▸ List.drop_suffix width s
      · simp at read
    · simp at read
  unfold escape? at read
  split at read
  · simp at read
  · rename_i c tail
    refine List.IsSuffix.trans ?_ (List.suffix_cons c tail)
    split at read
    case h_8 => exact point read
    case h_9 => exact point read
    case h_10 =>
      split at read
      · simp only [Option.some.injEq, Prod.mk.injEq] at read
        exact read.2 ▸ List.dropWhile_suffix isGapChar
      · simp at read
    case h_11 =>
      split at read
      · have blanks := List.dropWhile_suffix (l := tail) isBlankChar
        split at read
        · simp only [Option.some.injEq, Prod.mk.injEq] at read
          exact read.2 ▸ List.nil_suffix
        · rename_i d after same
          rw [same] at blanks
          split at read
          · simp only [Option.some.injEq, Prod.mk.injEq] at read
            exact read.2 ▸ (List.dropWhile_suffix isGapChar).trans
              ((List.suffix_cons d after).trans blanks)
          · simp at read
      · simp at read
    all_goals
      simp only [Option.some.injEq, Prod.mk.injEq] at read
      exact read.2 ▸ List.suffix_refl _

/-- The text of a basic string up to its closing mark, and what follows that. -/
def basicBody? (mark : String) (multiline : Bool) (s : List Char) :
    Option (List Char × List Char) :=
  match word? mark s with
  | some rest => some ([], rest)
  | none =>
    match s with
    | [] => none
    | c :: tail =>
      if c = '\x5C' then
        match read : escape? multiline tail with
        | none => none
        | some (text, rest) =>
          have := (escape?_suffix read).length_le
          (basicBody? mark multiline rest).map fun (body, left) => (text ++ body, left)
      else if isForbidden multiline c then none
      else (basicBody? mark multiline tail).map fun (body, left) => (c :: body, left)
termination_by s.length

/-! ## Strings of either kind -/

/-- Up to two more quotes behind the closing ones belong to the text. -/
def withFinalQuotes (quote : Char) (found : List Char × List Char) : List Char × List Char :=
  match found.2 with
  | c :: d :: rest =>
    if c = quote then
      if d = quote then (found.1 ++ [c, d], rest) else (found.1 ++ [c], d :: rest)
    else found
  | [c] => if c = quote then (found.1 ++ [c], []) else found
  | [] => found

def dropLineFeed (s : List Char) : List Char :=
  (word? "\n" s).getD s

/-- A string of one line. -/
def lineString? (s : List Char) : Option (List Char × List Char) :=
  match s with
  | '\x22' :: rest => basicBody? "\x22" false rest
  | '\x27' :: rest => literalBody? "\x27" false rest
  | _ => none

def blockString? (s : List Char) : Option (List Char × List Char) :=
  match word? "\x22\x22\x22" s with
  | some rest =>
    (basicBody? "\x22\x22\x22" true (dropLineFeed rest)).map (withFinalQuotes '\x22')
  | none =>
    ((word? "\x27\x27\x27" s).bind fun rest =>
      literalBody? "\x27\x27\x27" true (dropLineFeed rest)).map (withFinalQuotes '\x27')

/-- Three quotes always open a string of several lines. -/
def anyString? (s : List Char) : Option (List Char × List Char) :=
  if (word? "\x22\x22\x22" s).isSome || (word? "\x27\x27\x27" s).isSome then blockString? s
  else lineString? s

end ManifestOrder.Toml

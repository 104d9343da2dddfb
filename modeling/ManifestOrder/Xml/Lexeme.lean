import ManifestOrder.Text.Character
import ManifestOrder.Text.Letter
import ManifestOrder.Text.Reader

/-!
# Lexemes of markup

Names, white space, quoted values and references. Each is read by a reader, which returns what is
left of the text.
-/

namespace ManifestOrder.Xml

open Text

/-! ## Characters -/

def isSpace (c : Char) : Bool :=
  c = ' ' || c = '\t' || c = '\r' || c = '\n'

def isNameStart (c : Char) : Bool :=
  c.isAlpha || c = '_'

def isNameChar (c : Char) : Bool :=
  c.isAlphanum || c = '_' || c = ':' || c = '.' || c = '-' || c = '\u00B7'

/-- Characters of the names in tags. Such a name may start with any of them. -/
def isTagNameChar (c : Char) : Bool :=
  Text.isAlphanumeric c || c = '_' || c = ':' || c = '.' || c = '-' || c = '\u00B7'

def isQuote (c : Char) : Bool :=
  c = '\x22' || c = '\x27'

/-! ## Readers -/

def space? : List Char → Option (List Char) := run? isSpace isSpace

def skipSpace (s : List Char) : List Char := s.dropWhile isSpace

def name? : List Char → Option (List Char) := run? isNameStart isNameChar

def tagName? : List Char → Option (List Char) := run? isTagNameChar isTagNameChar

/-- The equals sign of an attribute. -/
def equals? (s : List Char) : Option (List Char) :=
  (word? "=" (skipSpace s)).map skipSpace

/-- A text between two quotes of one kind. Nothing ends it but the quote, so what it may hold is
asked of the whole text between the quotes. -/
def quoted? (allowed : List Char → Bool) : List Char → Option (List Char)
  | quote :: s =>
    if isQuote quote then
      match s.dropWhile (· != quote) with
      | _ :: rest => if allowed (s.takeWhile (· != quote)) then some rest else none
      | [] => none
    else none
  | [] => none

/-- A reference to an entity or to a character, whether or not there is such an entity or
character. -/
def reference? (s : List Char) : Option (List Char) :=
  match s with
  | '&' :: '#' :: 'x' :: digits => (run? isHexDigit isHexDigit digits).bind (word? ";")
  | '&' :: '#' :: digits => (run? Char.isDigit Char.isDigit digits).bind (word? ";")
  | '&' :: name => (name? name).bind (word? ";")
  | _ => none

/-- Every ampersand starts a reference. -/
def referencesClosed : List Char → Bool
  | [] => true
  | c :: s => (c != '&' || (reference? (c :: s)).isSome) && referencesClosed s

/-- What a value in quotes may hold: references, and any character outside a list. -/
def isValue (excluded : List Char) (value : List Char) : Bool :=
  value.all (fun c => !excluded.contains c) && referencesClosed value

/-! ## What the readers leave -/

theorem skipSpace_suffix (s : List Char) : skipSpace s <:+ s :=
  List.dropWhile_suffix isSpace

theorem equals?_suffix {s rest : List Char} (read : equals? s = some rest) : rest <:+ s := by
  obtain ⟨middle, sign, rfl⟩ := Option.map_eq_some_iff.1 read
  exact (skipSpace_suffix middle).trans ((word?_suffix sign).trans (skipSpace_suffix s))

theorem quoted?_rest {allowed : List Char → Bool} {s rest : List Char}
    (read : quoted? allowed s = some rest) : IsRestOf rest s := by
  cases s with
  | nil => simp [quoted?] at read
  | cons quote s =>
    simp only [quoted?] at read
    split at read
    · split at read
      · rename_i closing left same
        split at read
        · obtain rfl := Option.some.inj read
          refine IsRestOf.cons quote ((List.suffix_cons closing left).trans ?_)
          exact same ▸ List.dropWhile_suffix (· != quote)
        · simp at read
      · simp at read
    · simp at read

theorem reference?_rest {s rest : List Char} (read : reference? s = some rest) :
    IsRestOf rest s := by
  unfold reference? at read
  split at read
  case h_4 => simp at read
  all_goals
    obtain ⟨middle, first, last⟩ := Option.bind_eq_some_iff.1 read
    have left := (word?_suffix last).trans (run?_rest first).suffix
  · exact .cons _ (left.trans ((List.suffix_cons _ _).trans (List.suffix_cons _ _)))
  · exact .cons _ (left.trans (List.suffix_cons _ _))
  · exact .cons _ left

end ManifestOrder.Xml

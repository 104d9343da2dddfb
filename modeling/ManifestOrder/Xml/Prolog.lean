import ManifestOrder.Xml.Token

/-!
# What stands before the root element

White space, a declaration, comments, instructions and a document type, in that order as far as
there is an order. White space may stand before the declaration. A document type may declare
entities; its other declarations are refused.

Each part is optional: a part that cannot be read is taken to be missing, and then whatever has to
follow it is missing as well.
-/

namespace ManifestOrder.Xml

open Text

/-- An optional leaf. -/
def optionalLeaf (kind : LeafKind) (read : List Char → Option (List Char)) (s : List Char) :
    List Leaf × List Char :=
  match read s with
  | some rest => ([⟨kind, readOf s rest⟩], rest)
  | none => ([], s)

def byteOrderMark? : List Char → Option (List Char)
  | c :: s => if c = '\uFEFF' then some s else none
  | [] => none

/-! ## The declaration -/

/-- White space, and a name with a value in quotes. -/
def setting? (name : String) (allowed : List Char → Bool) (s : List Char) : Option (List Char) :=
  (((space? s).bind (word? name)).bind equals?).bind (quoted? allowed)

def isVersion (value : List Char) : Bool :=
  match value with
  | '1' :: '.' :: digits => !digits.isEmpty && digits.all Char.isDigit
  | _ => false

def isEncoding (value : List Char) : Bool :=
  match value with
  | c :: rest =>
    c.isAlpha && rest.all fun d => d.isAlphanum || d = '.' || d = '_' || d = '-'
  | [] => false

def isStandalone (value : List Char) : Bool :=
  value = "yes".toList || value = "no".toList

/-- A setting that may be left out. -/
def optionalSetting (name : String) (allowed : List Char → Bool) (s : List Char) : List Char :=
  (setting? name allowed s).getD s

def declaration? (s : List Char) : Option (List Char) :=
  ((word? "<?xml" s).bind (setting? "version" isVersion)).bind fun s =>
    word? "?>" (skipSpace
      (optionalSetting "standalone" isStandalone (optionalSetting "encoding" isEncoding s)))

/-! ## Comments and instructions -/

/-- White space, a comment or an instruction outside the root element. -/
def misc? (s : List Char) : Option (LeafKind × List Char) :=
  match space? s with
  | some rest => some (.space, rest)
  | none =>
    match comment? s with
    | some rest => some (.comment, rest)
    | none => (instruction? .prolog s).map (.instruction, ·)

theorem misc?_rest {s rest : List Char} {kind : LeafKind} (read : misc? s = some (kind, rest)) :
    IsRestOf rest s := by
  unfold misc? at read
  split at read
  · rename_i found
    simp only [Option.some.injEq, Prod.mk.injEq] at read
    exact read.2 ▸ run?_rest found
  · split at read
    · rename_i found
      simp only [Option.some.injEq, Prod.mk.injEq] at read
      exact read.2 ▸ comment?_rest found
    · obtain ⟨left, found, pair⟩ := Option.map_eq_some_iff.1 read
      simp only [Prod.mk.injEq] at pair
      exact pair.2 ▸ instruction?_rest found

/-- All such leaves at the front of a text. -/
def miscs (s : List Char) : List Leaf × List Char :=
  match read : misc? s with
  | none => ([], s)
  | some (kind, rest) =>
    have := (misc?_rest read).length_lt
    let (leaves, left) := miscs rest
    (⟨kind, readOf s rest⟩ :: leaves, left)
termination_by s.length

/-! ## The document type -/

def isLiteral (value : List Char) : Bool :=
  !value.contains '\x00'

def isPublicChar (c : Char) : Bool :=
  c.isAlphanum || c = '\x27' || "\n\r !#$%()*+,-./:;=?@_".toList.contains c

def entity? (s : List Char) : Option (List Char) :=
  ((((word? "<!ENTITY" s).bind space?).bind name?).bind space?).bind fun s =>
    (quoted? (isValue ['<', '%', '\x00']) s).bind fun s => word? ">" (skipSpace s)

/-- A declaration within the brackets of a document type. White space must follow it. -/
def subsetItem? (s : List Char) : Option (LeafKind × List Char) :=
  match comment? s with
  | some rest => some (.comment, rest)
  | none =>
    match entity? s with
    | some rest => some (.doctype, rest)
    | none => (instruction? .content s).map (.instruction, ·)

theorem subsetItem?_rest {s rest : List Char} {kind : LeafKind}
    (read : subsetItem? s = some (kind, rest)) : IsRestOf rest s := by
  unfold subsetItem? at read
  split at read
  · rename_i found
    simp only [Option.some.injEq, Prod.mk.injEq] at read
    exact read.2 ▸ comment?_rest found
  · split at read
    · rename_i found
      simp only [Option.some.injEq, Prod.mk.injEq] at read
      obtain ⟨before, front, found⟩ := Option.bind_eq_some_iff.1 found
      obtain ⟨third, front, gap⟩ := Option.bind_eq_some_iff.1 front
      obtain ⟨second, front, name⟩ := Option.bind_eq_some_iff.1 front
      obtain ⟨first, mark, blanks⟩ := Option.bind_eq_some_iff.1 front
      obtain ⟨after, value, close⟩ := Option.bind_eq_some_iff.1 found
      have left := (word?_suffix close).trans (skipSpace_suffix after)
      exact read.2 ▸ (((((quoted?_rest value).of_suffix left).trans (run?_rest gap)).trans
        (run?_rest name)).trans (run?_rest blanks)).after_suffix (word?_suffix mark)
    · obtain ⟨left, found, pair⟩ := Option.map_eq_some_iff.1 read
      simp only [Prod.mk.injEq] at pair
      exact pair.2 ▸ instruction?_rest found

/-- The declarations at the front of a text, each with the white space behind it. -/
def subset (s : List Char) : List Leaf × List Char :=
  match read : subsetItem? s with
  | none => ([], s)
  | some (kind, middle) =>
    match blanks : space? middle with
    | none => ([], s)
    | some rest =>
      have := ((run?_rest blanks).trans (subsetItem?_rest read)).length_lt
      let (leaves, left) := subset rest
      (⟨kind, readOf s middle⟩ :: ⟨.space, readOf middle rest⟩ :: leaves, left)
termination_by s.length

/-- White space, and where the document type is kept. -/
def external? (s : List Char) : Option (List Char) :=
  (space? s).bind fun s =>
    match word? "SYSTEM" s with
    | some s => (space? s).bind (quoted? isLiteral)
    | none =>
      ((((word? "PUBLIC" s).bind space?).bind (quoted? (·.all isPublicChar))).bind space?).bind
        (quoted? isLiteral)

def doctypeHead? (s : List Char) : Option (List Char) :=
  (((word? "<!DOCTYPE" s).bind space?).bind name?).map fun s =>
    skipSpace ((external? s).getD s)

def doctype? (s : List Char) : Option (List Leaf × List Char) :=
  (doctypeHead? s).bind fun afterHead =>
    match word? "[" afterHead with
    | none =>
      (word? ">" afterHead).map fun rest => ([⟨.doctype, readOf s rest⟩], rest)
    | some inner =>
      let (blanks, body) := optionalLeaf .space space? inner
      let (items, afterItems) := subset body
      ((word? "]" afterItems).bind fun s => word? ">" (skipSpace s)).map fun rest =>
        (⟨.doctype, readOf s inner⟩ :: blanks ++ items ++ [⟨.doctype, readOf afterItems rest⟩],
          rest)

/-! ## All of it -/

def prolog (s : List Char) : List Leaf × List Char :=
  let (mark, s) := optionalLeaf .byteOrderMark byteOrderMark? s
  let (blanks, s) := optionalLeaf .space space? s
  let (declared, s) := optionalLeaf .declaration declaration? s
  let (first, s) := miscs s
  let (typed, s) := (doctype? s).getD ([], s)
  let (second, s) := miscs s
  (mark ++ blanks ++ declared ++ first ++ typed ++ second, s)

end ManifestOrder.Xml

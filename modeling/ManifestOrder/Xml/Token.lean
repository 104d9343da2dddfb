import ManifestOrder.Xml.TextRun
import ManifestOrder.Xml.Instruction

/-!
# Tokens of content

The content of an element is a sequence of tokens: tags, and leaves without structure of their own.
A token keeps the text it was read from, so a document is the concatenation of its tokens. Which
token stands at the front of a text does not depend on what was read before it.

Main statements: `Token.scan_text`, no character is lost, and `Token.scan_rest`, every token has at
least one.
-/

namespace ManifestOrder.Xml

open Text

inductive LeafKind where
  | byteOrderMark
  | space
  | declaration
  | doctype
  | comment
  | instruction
  | charData
  | reference
  | cdata
deriving DecidableEq, Repr

structure Leaf where
  kind : LeafKind
  text : List Char
deriving DecidableEq, Repr

/-- A tag of any kind, with the name in it and its whole text. -/
structure Tag where
  name : List Char
  text : List Char
deriving DecidableEq, Repr

/-- What was read of `s` when `rest` is left. -/
def readOf (s rest : List Char) : List Char :=
  s.take (s.length - rest.length)

theorem readOf_append {s rest : List Char} (suffix : rest <:+ s) : readOf s rest ++ rest = s := by
  obtain ⟨front, rfl⟩ := suffix
  simp [readOf]

inductive Token where
  | opening (tag : Tag)
  | empty (tag : Tag)
  | closing (tag : Tag)
  | leaf (piece : Leaf)
deriving DecidableEq, Repr

def Token.text : Token → List Char
  | .opening tag => tag.text
  | .empty tag => tag.text
  | .closing tag => tag.text
  | .leaf piece => piece.text

/-! ## Tags -/

def closingTag? (s : List Char) : Option (Token × List Char) :=
  (word? "</" s).bind fun inner =>
    (((tagName? inner).map skipSpace).bind (word? ">")).map fun rest =>
      (.closing ⟨inner.takeWhile isTagNameChar, readOf s rest⟩, rest)

def openingTag? (s : List Char) : Option (Token × List Char) :=
  (word? "<" s).bind fun inner =>
    ((tagName? inner).map skipAttributes).bind fun ending =>
      let name := inner.takeWhile isTagNameChar
      match word? ">" ending with
      | some rest => some (.opening ⟨name, readOf s rest⟩, rest)
      | none => (word? "/>" ending).map fun rest => (.empty ⟨name, readOf s rest⟩, rest)

/-! ## The front of a text -/

/-- What the first characters of a text announce. -/
inductive Construct where
  | comment
  | cdata
  | instruction
  | closing
  | opening
  | reference
  | text
deriving DecidableEq, Repr

def Construct.of (s : List Char) : Construct :=
  if (word? "<!--" s).isSome then .comment
  else if (word? "<![CDATA[" s).isSome then .cdata
  else if (word? "<?" s).isSome then .instruction
  else if (word? "</" s).isSome then .closing
  else if (word? "<" s).isSome then .opening
  else if (word? "&" s).isSome then .reference
  else .text

def Token.ofLeaf (kind : LeafKind) (s rest : List Char) : Token × List Char :=
  (.leaf ⟨kind, readOf s rest⟩, rest)

def Token.scan (s : List Char) : Option (Token × List Char) :=
  match Construct.of s with
  | .comment => (comment? s).map (ofLeaf .comment s)
  | .cdata => (cdata? s).map (ofLeaf .cdata s)
  | .instruction => (instruction? .content s).map (ofLeaf .instruction s)
  | .closing => closingTag? s
  | .opening => openingTag? s
  | .reference => (reference? s).map (ofLeaf .reference s)
  | .text =>
    (textRun? s).map fun (isComment, rest) =>
      ofLeaf (if isComment then .comment else .charData) s rest

/-! ## Nothing is lost -/

theorem closingTag?_text_and_rest {s rest : List Char} {token : Token}
    (read : closingTag? s = some (token, rest)) : token.text = readOf s rest ∧ IsRestOf rest s := by
  obtain ⟨inner, mark, read⟩ := Option.bind_eq_some_iff.1 read
  obtain ⟨left, ending, pair⟩ := Option.map_eq_some_iff.1 read
  obtain ⟨middle, name, close⟩ := Option.bind_eq_some_iff.1 ending
  obtain ⟨after, letters, rfl⟩ := Option.map_eq_some_iff.1 name
  simp only [Prod.mk.injEq] at pair
  obtain ⟨rfl, rfl⟩ := pair
  refine ⟨by simp [Token.text], ?_⟩
  exact .of_suffix (((word?_suffix close).trans (skipSpace_suffix after)).trans
    (run?_rest letters).suffix) (word?_rest (by decide) mark)

theorem openingTag?_text_and_rest {s rest : List Char} {token : Token}
    (read : openingTag? s = some (token, rest)) : token.text = readOf s rest ∧ IsRestOf rest s := by
  obtain ⟨inner, mark, read⟩ := Option.bind_eq_some_iff.1 read
  obtain ⟨ending, name, read⟩ := Option.bind_eq_some_iff.1 read
  obtain ⟨after, letters, rfl⟩ := Option.map_eq_some_iff.1 name
  have left : skipAttributes after <:+ inner :=
    (skipAttributes_suffix after).trans (run?_rest letters).suffix
  have mark := word?_rest (by decide) mark
  simp only at read
  split at read
  · rename_i close
    simp only [Option.some.injEq, Prod.mk.injEq] at read
    obtain ⟨rfl, rfl⟩ := read
    exact ⟨by simp [Token.text], .of_suffix ((word?_suffix close).trans left) mark⟩
  · obtain ⟨_, close, pair⟩ := Option.map_eq_some_iff.1 read
    simp only [Prod.mk.injEq] at pair
    obtain ⟨rfl, rfl⟩ := pair
    exact ⟨by simp [Token.text], .of_suffix ((word?_suffix close).trans left) mark⟩

theorem ofLeaf_text_and_rest {s rest : List Char} {token : Token} {kind : LeafKind}
    {read : Option (List Char)} (whole : ∀ left, read = some left → IsRestOf left s)
    (scanned : read.map (Token.ofLeaf kind s) = some (token, rest)) :
    token.text = readOf s rest ∧ IsRestOf rest s := by
  obtain ⟨left, found, pair⟩ := Option.map_eq_some_iff.1 scanned
  simp only [Token.ofLeaf, Prod.mk.injEq] at pair
  obtain ⟨rfl, rfl⟩ := pair
  exact ⟨by simp [Token.text], whole _ found⟩

theorem Token.scan_text_and_rest {s rest : List Char} {token : Token}
    (read : Token.scan s = some (token, rest)) : token.text = readOf s rest ∧ IsRestOf rest s := by
  unfold Token.scan at read
  split at read
  · exact ofLeaf_text_and_rest (fun _ => comment?_rest) read
  · exact ofLeaf_text_and_rest (fun _ => cdata?_rest) read
  · exact ofLeaf_text_and_rest (fun _ => instruction?_rest) read
  · exact closingTag?_text_and_rest read
  · exact openingTag?_text_and_rest read
  · exact ofLeaf_text_and_rest (fun _ => reference?_rest) read
  · obtain ⟨⟨isComment, left⟩, found, pair⟩ := Option.map_eq_some_iff.1 read
    simp only [Token.ofLeaf, Prod.mk.injEq] at pair
    obtain ⟨rfl, rfl⟩ := pair
    exact ⟨by simp [Token.text], textRun?_rest found⟩

theorem Token.scan_rest {s rest : List Char} {token : Token}
    (read : Token.scan s = some (token, rest)) : IsRestOf rest s :=
  (scan_text_and_rest read).2

theorem Token.scan_text {s rest : List Char} {token : Token}
    (read : Token.scan s = some (token, rest)) : token.text ++ rest = s := by
  rw [(scan_text_and_rest read).1, readOf_append (scan_rest read).suffix]

end ManifestOrder.Xml

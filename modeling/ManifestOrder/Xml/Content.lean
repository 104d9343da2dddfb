import ManifestOrder.Xml.Token
import ManifestOrder.Xml.TagStack
import ManifestOrder.Text.ByteOffset

/-!
# Content and elements

The content of an element is read up to the closing tag that ends the element. Elements nest by
their tags alone; whether the closing tags fit the names of the open elements is asked of the
finished content (`Content.isNested`).
-/

namespace ManifestOrder.Xml

open Text

/-- What stands between two tags: leaves and elements, in order. -/
inductive Content where
  | nil
  | leaf (piece : Leaf) (rest : Content)
  | empty (tag : Tag) (rest : Content)
  | element (opening : Tag) (inner : Content) (closing : Tag) (rest : Content)
deriving DecidableEq, Repr

inductive Element where
  | empty (tag : Tag)
  | paired (opening : Tag) (inner : Content) (closing : Tag)
deriving DecidableEq, Repr

namespace Content

/-- The text the content was read from, in front of a further text. -/
def onto (tail : List Char) : Content → List Char
  | .nil => tail
  | .leaf piece rest => piece.text ++ rest.onto tail
  | .empty tag rest => tag.text ++ rest.onto tail
  | .element opening inner closing rest =>
    opening.text ++ inner.onto (closing.text ++ rest.onto tail)

/-- The text the content was read from. -/
def source (c : Content) : List Char :=
  c.onto []

theorem onto_eq (c : Content) (tail : List Char) : c.onto tail = c.source ++ tail := by
  unfold source
  induction c generalizing tail with
  | nil => rfl
  | leaf piece rest ih =>
    simp only [onto]
    rw [ih tail, List.append_assoc]
  | empty tag rest ih =>
    simp only [onto]
    rw [ih tail, List.append_assoc]
  | element opening inner closing rest ihInner ih =>
    simp only [onto]
    rw [ihInner (closing.text ++ rest.onto tail), ihInner (closing.text ++ rest.onto []), ih tail]
    simp only [List.append_assoc]

@[simp] theorem source_nil : source .nil = [] := rfl

@[simp] theorem source_leaf (piece : Leaf) (rest : Content) :
    (Content.leaf piece rest).source = piece.text ++ rest.source := rfl

@[simp] theorem source_empty (tag : Tag) (rest : Content) :
    (Content.empty tag rest).source = tag.text ++ rest.source := rfl

@[simp] theorem source_element (opening closing : Tag) (inner rest : Content) :
    (Content.element opening inner closing rest).source =
      opening.text ++ inner.source ++ closing.text ++ rest.source := by
  show opening.text ++ inner.onto (closing.text ++ rest.source) = _
  rw [onto_eq]
  simp only [List.append_assoc]

/-- The content at the front of a text, the closing tag after it, and what follows that tag. -/
def scan (s : List Char) :
    Option (Content × Tag × { rest : List Char // rest.length < s.length }) :=
  match read : Token.scan s with
  | none => none
  | some (token, rest) =>
    have shorter := (Token.scan_rest read).length_lt
    match token with
    | .closing tag => some (.nil, tag, ⟨rest, shorter⟩)
    | .leaf piece =>
      match scan rest with
      | none => none
      | some (content, closing, ⟨left, less⟩) =>
        some (.leaf piece content, closing, ⟨left, by omega⟩)
    | .empty tag =>
      match scan rest with
      | none => none
      | some (content, closing, ⟨left, less⟩) =>
        some (.empty tag content, closing, ⟨left, by omega⟩)
    | .opening tag =>
      match scan rest with
      | none => none
      | some (inner, innerClosing, ⟨middle, lessInner⟩) =>
        match scan middle with
        | none => none
        | some (content, closing, ⟨left, less⟩) =>
          some (.element tag inner innerClosing content, closing, ⟨left, by omega⟩)
termination_by s.length

/-- Every closing tag fits the element it ends, under the elements open around the content. An empty
tag is closed at once and leaves the open elements as they are. -/
def isNested (stack : TagStack) : Content → Bool
  | .nil => true
  | .leaf _ rest => rest.isNested stack
  | .empty _ rest => rest.isNested stack
  | .element opening inner closing rest =>
    let opened := stack.push opening.name
    inner.isNested opened && opened.closes closing.name && rest.isNested stack

end Content

namespace Element

def source : Element → List Char
  | .empty tag => tag.text
  | .paired opening inner closing => opening.text ++ inner.onto closing.text

/-- The tag with the element's name and attributes. -/
def tag : Element → Tag
  | .empty tag => tag
  | .paired opening _ _ => opening

def content : Element → Content
  | .empty _ => .nil
  | .paired _ inner _ => inner

def scan (s : List Char) : Option (Element × List Char) :=
  match Token.scan s with
  | some (.empty tag, rest) => some (.empty tag, rest)
  | some (.opening tag, rest) =>
    (Content.scan rest).map fun (inner, closing, left) => (.paired tag inner closing, left.val)
  | _ => none

/-- The closing tags within the element and its own fit, no element being open around it. -/
def isNested : Element → Bool
  | .empty _ => true
  | .paired opening inner closing =>
    (Content.element opening inner closing .nil).isNested []

end Element

end ManifestOrder.Xml

import ManifestOrder.Xml.Element

/-!
# All nodes of a document

The nodes are listed in the order of their first characters, a node before the nodes within it:
each element, then its opening tag, its content if there is any, and its closing tag.
-/

namespace ManifestOrder.Xml

open Text

inductive NodeKind where
  | element
  | content
  | openingTag
  | closingTag
  | emptyTag
  | leaf (kind : LeafKind)
deriving DecidableEq, Repr

structure Node where
  kind : NodeKind
  start : Position
  text : List Char
  /-- The local name, of an element only. -/
  name : Option String := none
deriving DecidableEq, Repr

def leafNodes (p : Position) : List Leaf → List Node
  | [] => []
  | piece :: rest => ⟨.leaf piece.kind, p, piece.text, none⟩ :: leafNodes (p.after piece.text) rest

/-- The node of a content that starts at `p`, if the content is not empty, before its inner
nodes. -/
def contentNode (p : Position) (inner : Content) (nodes : List Node) : List Node :=
  if inner = .nil then [] else ⟨.content, p, inner.source, none⟩ :: nodes

def Content.nodes (p : Position) : Content → List Node
  | .nil => []
  | .leaf piece rest =>
    ⟨.leaf piece.kind, p, piece.text, none⟩ :: rest.nodes (p.after piece.text)
  | .empty tag rest =>
    ⟨.element, p, tag.text, some tag.localName⟩ :: ⟨.emptyTag, p, tag.text, none⟩ ::
      rest.nodes (p.after tag.text)
  | .element opening inner closing rest =>
    let innerStart := p.after opening.text
    let innerStop := innerStart.after inner.source
    ⟨.element, p, opening.text ++ inner.source ++ closing.text, some opening.localName⟩ ::
      ⟨.openingTag, p, opening.text, none⟩ ::
      contentNode innerStart inner (inner.nodes innerStart) ++
      ⟨.closingTag, innerStop, closing.text, none⟩ ::
      rest.nodes (innerStop.after closing.text)

/-- An element as a content of its own. -/
def Element.alone : Element → Content
  | .empty tag => .empty tag .nil
  | .paired opening inner closing => .element opening inner closing .nil

def Document.nodes (d : Document) : List Node :=
  leafNodes {} d.before ++ d.root.alone.nodes d.rootStart ++
    leafNodes d.rootElement.stop d.after

end ManifestOrder.Xml

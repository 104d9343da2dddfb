import ManifestOrder.Xml.Content
import ManifestOrder.Xml.Prolog

/-!
# Documents

A text is well formed when it is a prolog, one element whose tags fit each other, and comments,
instructions and white space behind it.
-/

namespace ManifestOrder.Xml

open Text

structure Document where
  before : List Leaf
  root : Element
  after : List Leaf
deriving DecidableEq, Repr

namespace Document

/-- The text the document was read from. -/
def source (d : Document) : List Char :=
  d.before.flatMap Leaf.text ++ d.root.source ++ d.after.flatMap Leaf.text

/-- The document that a text is; `none` when it is not well formed. -/
def ofText? (text : List Char) : Option Document :=
  let (before, s) := prolog text
  match Element.scan s with
  | none => none
  | some (root, s) =>
    let (after, left) := miscs s
    if left.isEmpty && root.isNested then some ⟨before, root, after⟩ else none

end Document

end ManifestOrder.Xml

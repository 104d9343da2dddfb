import ManifestOrder.Text.Character
import ManifestOrder.Xml.Document

/-!
# Elements in their place

An element that has been found in a document is kept with the position of its first character. From
there its children, its local name and its text are read off.

The text of an element is the raw text between its tags, less what looks like a comment in it, and
less the blanks around. References, sections and tags within it stay as they are written.
-/

namespace ManifestOrder.Xml

open Text

/-- The name in a tag, behind its last colon. -/
def Tag.localName (tag : Tag) : String :=
  String.ofList (tag.name.reverse.takeWhile (· != ':')).reverse

/-! ## The text of an element -/

def afterArrow? : List Char → Option (List Char)
  | '-' :: '-' :: '>' :: s => some s
  | _ :: s => afterArrow? s
  | [] => none

theorem afterArrow?_rest {s rest : List Char} (read : afterArrow? s = some rest) :
    IsRestOf rest s := by
  fun_induction afterArrow? s with
  | case1 s =>
    exact Option.some.inj read ▸ .cons _ ((List.suffix_cons _ s).trans (List.suffix_cons _ _))
  | case2 c s _ ih => exact .cons c (ih read).suffix
  | case3 => simp at read

/-- A comment wherever it stands: it ends at the nearest arrow, be there hyphens in it or not. -/
def looseComment? (s : List Char) : Option (List Char) :=
  (word? "<!--" s).bind afterArrow?

theorem looseComment?_rest {s rest : List Char} (read : looseComment? s = some rest) :
    IsRestOf rest s := by
  obtain ⟨body, mark, ending⟩ := Option.bind_eq_some_iff.1 read
  exact (afterArrow?_rest ending).after_suffix (word?_suffix mark)

def withoutComments (s : List Char) : List Char :=
  match read : looseComment? s with
  | some rest =>
    have := (looseComment?_rest read).length_lt
    withoutComments rest
  | none =>
    match s with
    | [] => []
    | c :: tail => c :: withoutComments tail
termination_by s.length

/-- The text of an element; an element of a single tag has none. -/
def Element.text : Element → List Char
  | .empty _ => []
  | .paired _ inner _ => Text.trim (withoutComments inner.source)

/-! ## Placed elements -/

structure Placed where
  element : Element
  start : Position
deriving DecidableEq, Repr

/-- The elements directly in a content that starts at `p`. -/
def Content.children (p : Position) : Content → List Placed
  | .nil => []
  | .leaf piece rest => rest.children (p.after piece.text)
  | .empty tag rest => ⟨.empty tag, p⟩ :: rest.children (p.after tag.text)
  | .element opening inner closing rest =>
    ⟨.paired opening inner closing, p⟩ ::
      rest.children (p.after (Element.paired opening inner closing).source)

namespace Placed

def name (e : Placed) : String :=
  e.element.tag.localName

def source (e : Placed) : List Char :=
  e.element.source

def stop (e : Placed) : Position :=
  e.start.after e.source

def children (e : Placed) : List Placed :=
  e.element.content.children (e.start.after e.element.tag.text)

def childrenNamed (e : Placed) (name : String) : List Placed :=
  e.children.filter (·.name == name)

def firstChildNamed? (e : Placed) (name : String) : Option Placed :=
  (e.childrenNamed name).head?

/-- The element reached by going to the first child of each name in turn. -/
def descend? (e : Placed) : List String → Option Placed
  | [] => some e
  | name :: names => (e.firstChildNamed? name).bind (·.descend? names)

end Placed

namespace Document

def rootStart (d : Document) : Position :=
  Position.after {} (d.before.flatMap Leaf.text)

def rootElement (d : Document) : Placed :=
  ⟨d.root, d.rootStart⟩

end Document

end ManifestOrder.Xml

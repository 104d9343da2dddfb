/-!
# Paths

A path is a list of components below one of three starting points: the working directory, the root,
or the root written with two slashes, which is kept apart. Empty components and single dots are
dropped when a path is read; double dots stay.
-/

namespace ManifestOrder

/-- Where a path starts. -/
inductive Anchor where
  | here
  | root
  | doubleRoot
deriving DecidableEq, Repr

def Anchor.text : Anchor → String
  | .here => ""
  | .root => "/"
  | .doubleRoot => "//"

structure Path where
  anchor : Anchor := .here
  components : List String := []
deriving DecidableEq, Repr

namespace Path

def parentComponent : String := ".."

/-- The parts of a text between its slashes. -/
def splitSlashes : List Char → List (List Char)
  | [] => [[]]
  | c :: s =>
    if c = '/' then [] :: splitSlashes s
    else
      match splitSlashes s with
      | [] => [[c]]
      | part :: parts => (c :: part) :: parts

/-- One slash at the front means the root, and so do three or more. -/
def anchorOf : List Char → Anchor
  | '/' :: '/' :: '/' :: _ => .root
  | '/' :: '/' :: _ => .doubleRoot
  | '/' :: _ => .root
  | _ => .here

def ofString (text : String) : Path where
  anchor := anchorOf text.toList
  components := ((splitSlashes text.toList).map String.ofList).filter fun part =>
    part != "" && part != "."

instance : ToString Path where
  toString p :=
    let body := "/".intercalate p.components
    let whole := p.anchor.text ++ body
    if whole = "" then "." else whole

/-- The last component, empty when there is none. -/
def name (p : Path) : String :=
  p.components.getLast?.getD ""

/-- Some component holds a NUL, which stands in no name of a file. -/
def hasNul (p : Path) : Bool :=
  p.components.any fun component => component.contains '\x00'

/-- The path of an entry below `p`. -/
def below (p : Path) (components : List String) : Path :=
  { p with components := p.components ++ components }

end Path

end ManifestOrder

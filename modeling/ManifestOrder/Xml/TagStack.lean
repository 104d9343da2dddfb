/-!
# The stack of open tags

The names of the open elements are kept in a store of 1024 bytes, eight of them taken. A name is
kept as its code points modulo 256, at most 255 of them, and takes one byte more than its length.
A name for which there is no room is kept as an empty one, which no closing tag matches; so an
element with a very long name, or too deep in others, cannot be closed.
-/

namespace ManifestOrder.Xml

/-- The kept names of the open elements, the innermost first. -/
abbrev TagStack := List (List Nat)

namespace TagStack

def capacity : Nat := 1024

def reserved : Nat := 8

def longestName : Nat := 255

def letters (name : List Char) : List Nat :=
  name.map fun c => c.toNat % 256

/-- The bytes taken by the reserved ones and by the kept names. -/
def used : TagStack → Nat
  | [] => reserved
  | kept :: rest => kept.length + 1 + used rest

def push (stack : TagStack) (name : List Char) : TagStack :=
  let kept := (letters name).take longestName
  (if stack.used + kept.length + 2 < capacity then kept else []) :: stack

/-- The innermost open element can be closed by this name. -/
def closes (stack : TagStack) (name : List Char) : Bool :=
  stack.head? == some (letters name)

end TagStack

end ManifestOrder.Xml

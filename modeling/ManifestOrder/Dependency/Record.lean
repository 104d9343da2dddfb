import ManifestOrder.Edit.Replacement

/-!
# Dependency records

A record is one dependency entry of a manifest: where it stands, its text, and the two ids that make
up its coordinates. A record that was read from a manifest always has both ids, empty when they are
not given; a record made by hand may lack one.
-/

namespace ManifestOrder.Dependency

open Edit (Span)

structure Record where
  span : Span := {}
  text : List Char := []
  groupId : Option String := some ""
  artifactId : Option String := some ""
  line : Int := 0
deriving DecidableEq, Repr, Inhabited

/-- How a missing id is shown. -/
def shownId (id : Option String) : String :=
  id.getD "None"

def Record.coordinates (r : Record) : String :=
  shownId r.groupId ++ ":" ++ shownId r.artifactId

/-- The records of a manifest in document order, and the list they stand in. A manifest without such
a list has no records. -/
structure DependencyList where
  records : List Record := []
  container : Option Span := none
  containerLine : Int := 0
deriving DecidableEq, Repr

end ManifestOrder.Dependency

import ManifestOrder.Dependency.Record
import ManifestOrder.Xml.Element

/-!
# The dependency records of a manifest

The records are the dependency entries of the project's own list: direct children of the first
`dependencies` child of a root element named `project`. Lists of plugins and of managed
dependencies lie deeper and are left alone.
-/

namespace ManifestOrder.Dependency

open Edit (Span)
open Xml (Document Placed)

def projectName : String := "project"

def listName : String := "dependencies"

def entryName : String := "dependency"

def groupIdName : String := "groupId"

def artifactIdName : String := "artifactId"

/-- The message about a text that is no well-formed document. -/
def malformedMessage : String := "Manifest is not well-formed XML"

def spanOf (e : Placed) : Span :=
  ⟨e.start.offset, e.stop.offset⟩

/-- The text of the first child of a name, empty when there is none. -/
def childText (e : Placed) (name : String) : String :=
  match e.firstChildNamed? name with
  | some child => String.ofList child.element.text
  | none => ""

def Record.ofEntry (e : Placed) : Record where
  span := spanOf e
  text := e.source
  groupId := some (childText e groupIdName)
  artifactId := some (childText e artifactIdName)
  line := e.start.line

/-- The element that holds the project's dependency entries. -/
def container? (d : Document) : Option Placed :=
  if d.rootElement.name = projectName then d.rootElement.firstChildNamed? listName else none

def DependencyList.ofDocument (d : Document) : DependencyList :=
  match container? d with
  | none => {}
  | some list =>
    { records := (list.childrenNamed entryName).map Record.ofEntry
      container := some (spanOf list)
      containerLine := list.start.line }

/-- The records of a text; `none` when it is not a well-formed document. -/
def extract? (text : List Char) : Option DependencyList :=
  (Document.ofText? text).map DependencyList.ofDocument

end ManifestOrder.Dependency

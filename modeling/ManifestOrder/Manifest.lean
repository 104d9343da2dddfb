import ManifestOrder.Dependency.Fix
import ManifestOrder.FileSystem
import ManifestOrder.Selection

/-!
# Manifest files

A manifest is read as UTF-8 and written back as UTF-8, and nothing else is done to its characters:
line ends and a byte order mark stay as they are.
-/

namespace ManifestOrder

open Dependency (Comparator DependencyList FixError)

/-- Why the work on a file fails. -/
inductive FileFailure where
  | unreadable (cause : FileError)
  /-- The path holds a NUL, so it is not asked for at all. -/
  | notPath
  | notText
  | wrongType
  | fix (cause : FixError)
deriving DecidableEq, Repr

namespace Manifest

def decode? (content : ByteArray) : Option (List Char) :=
  (String.fromUTF8? content).map String.toList

def encode (text : List Char) : ByteArray :=
  (String.ofList text).toUTF8

def read (fs : FileSystem) (p : Path) : Except FileFailure (List Char) :=
  if p.hasNul then .error .notPath
  else
    match fs.read p with
    | .error e => .error (.unreadable e)
    | .ok content =>
      match decode? content with
      | none => .error .notText
      | some text => .ok text

def write (fs : FileSystem) (p : Path) (text : List Char) : Except FileFailure FileSystem :=
  match fs.writePath p (encode text) with
  | .error e => .error (.unreadable e)
  | .ok fs => .ok fs

def extract (fs : FileSystem) (p : Path) : Except FileFailure DependencyList :=
  match read fs p with
  | .error e => .error e
  | .ok text =>
    match Dependency.extract? text with
    | none => .error (.fix .malformed)
    | some list => .ok list

/-! ## Finding manifests -/

/-- The manifests below a folder, in the order of their components. As in `filesBelow`, a path that
is too long to be opened is no failure: that is met when the manifest is read. -/
def find (fs : FileSystem) (folder : Location) (patterns : List Toml.Value) :
    Except WrongType (List Location) :=
  match filterOrFail (fun location => isManifest patterns ⟨.here, location⟩)
      (fs.filesBelow folder) with
  | .error e => .error e
  | .ok found => .ok (found.mergeSort fun a b => (compare a b).isLE)

end Manifest

end ManifestOrder

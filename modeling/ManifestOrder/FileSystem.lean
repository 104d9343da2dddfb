import ManifestOrder.Path
import ManifestOrder.Text.Quoted

/-!
# Files and folders

A file system holds files by their location, the list of the names that lead to it from the root.
Every proper beginning of a file's location is a folder, and further folders may be empty. Paths are
resolved one component at a time, so `x/..` needs a folder `x`.

Names and paths have a greatest length, counted in the bytes of their text. A path that is too long
is refused before it is looked at, a name when its folder is looked through.

There are no links, no permissions and no disk that is full. A path can be written unless it is
refused or leads to a folder, and what is written stands there as a whole.
-/

namespace ManifestOrder

abbrev Location := List String

structure FileSystem where
  files : List (Location × ByteArray) := []
  folders : List Location := []
  /-- The folder that relative paths start from. -/
  workingFolder : Location := []

/-- Why a path cannot be opened. -/
inductive FileError where
  | missing
  | notFolder
  | isFolder
  | tooLong
deriving DecidableEq, Repr

/-- The message about a path that cannot be opened. -/
def FileError.message (e : FileError) (p : Path) : String :=
  let reason := match e with
    | .missing => "[Errno 2] No such file or directory"
    | .notFolder => "[Errno 20] Not a directory"
    | .isFolder => "[Errno 21] Is a directory"
    | .tooLong => "[Errno 36] File name too long"
  s!"{reason}: {Text.quoted (toString p)}"

namespace FileSystem

def file? (fs : FileSystem) (location : Location) : Option ByteArray :=
  fs.files.lookup location

def isFolder (fs : FileSystem) (location : Location) : Bool :=
  location.isPrefixOf fs.workingFolder ||
    fs.folders.any location.isPrefixOf ||
    fs.files.any fun entry => location.isPrefixOf entry.1 && entry.1 != location

/-- The file system with the content of one file changed, or the file added. -/
def write (fs : FileSystem) (location : Location) (content : ByteArray) : FileSystem :=
  { fs with
    files :=
      if (fs.file? location).isSome then
        fs.files.map fun entry => if entry.1 = location then (location, content) else entry
      else fs.files ++ [(location, content)] }

def addFolder (fs : FileSystem) (location : Location) : FileSystem :=
  { fs with folders := location :: fs.folders }

/-! ## Paths -/

/-- The most bytes of a name. -/
def longestName : Nat := 255

/-- The most bytes of a path. -/
def longestPath : Nat := 4095

/-- Follows components from a location. Each step needs a folder to start from. -/
def follow (fs : FileSystem) (location : Location) : List String → Except FileError Location
  | [] => .ok location
  | component :: rest =>
    if (fs.file? location).isSome then .error .notFolder
    else if !fs.isFolder location then .error .missing
    else if longestName < component.utf8ByteSize then .error .tooLong
    else
      fs.follow (if component = Path.parentComponent then location.dropLast
        else location ++ [component]) rest

def resolve (fs : FileSystem) (p : Path) : Except FileError Location :=
  if longestPath < (toString p).utf8ByteSize then .error .tooLong
  else
    match p.anchor with
    | .here => fs.follow fs.workingFolder p.components
    | _ => fs.follow [] p.components

/-- Something stands at the path. Where it leads nowhere nothing does, but of a path that is too
long it cannot be told. -/
def pathExists (fs : FileSystem) (p : Path) : Except FileError Bool :=
  match fs.resolve p with
  | .error .tooLong => .error .tooLong
  | .error _ => .ok false
  | .ok location => .ok ((fs.file? location).isSome || fs.isFolder location)

def read (fs : FileSystem) (p : Path) : Except FileError ByteArray :=
  match fs.resolve p with
  | .error e => .error e
  | .ok location =>
    match fs.file? location with
    | some content => .ok content
    | none => if fs.isFolder location then .error .isFolder else .error .missing

/-- The file system with new content at a path, if the path can be opened for writing. -/
def writePath (fs : FileSystem) (p : Path) (content : ByteArray) : Except FileError FileSystem :=
  match fs.resolve p with
  | .error e => .error e
  | .ok location =>
    if fs.isFolder location then .error .isFolder else .ok (fs.write location content)

/-! ## Listing -/

/-- The path of the working folder. -/
def workingPath (fs : FileSystem) : Path :=
  ⟨.root, fs.workingFolder⟩

/-- The locations of all files below a folder, relative to it. Lengths are not looked at: a file is
listed also where its path, or that of a folder on the way, is too long to be opened. -/
def filesBelow (fs : FileSystem) (folder : Location) : List Location :=
  fs.files.filterMap fun entry =>
    match folder.isPrefixOf? entry.1 with
    | some (name :: rest) => some (name :: rest)
    | _ => none

end FileSystem

end ManifestOrder

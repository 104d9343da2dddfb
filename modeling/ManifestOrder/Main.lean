import ManifestOrder.Command.Sort

/-!
# The program

Copies what a request can reach from the disk, runs the request on the copy, prints its lines and
writes the files that it changed.
-/

namespace ManifestOrder

open Command (Outcome Request)

/-- How a location is written for the disk. -/
def diskPath (location : Location) : String :=
  "/" ++ "/".intercalate location

/-- The locations that following a path from a folder leads through. -/
def passedFrom (location : Location) : List String → List Location
  | [] => [location]
  | component :: rest =>
    location ::
      passedFrom (if component = Path.parentComponent then location.dropLast
        else location ++ [component]) rest

def passed (fs : FileSystem) (p : Path) : List Location :=
  match p.anchor with
  | .here => passedFrom fs.workingFolder p.components
  | _ => passedFrom [] p.components

def asksForProject : Request → Bool
  | .lint options => options.project
  | .sort _ => false

/-- Copies a file, or takes note of a folder. What cannot be read is left out. -/
def copyLocation (fs : FileSystem) (location : Location) : IO FileSystem := do
  let path := diskPath location
  try
    let real ← IO.FS.realPath path
    if ← real.isDir then return fs.addFolder location
    return fs.write location (← IO.FS.readBinFile path)
  catch _ => return fs

def copyFor (request : Request) : IO FileSystem := do
  let folder ← IO.currentDir
  let empty : FileSystem := { workingFolder := (Path.ofString folder.toString).components }
  let named := request.paths.flatMap (passed empty)
  let below ← if asksForProject request then folder.walkDir else pure #[]
  let found := below.toList.map fun path => (Path.ofString path.toString).components
  (named ++ found).foldlM copyLocation empty

/-- Writes the files that a run has changed. -/
def writeChanges (before after : FileSystem) : IO Unit :=
  after.files.forM fun (location, content) => do
    if before.file? location != some content then
      IO.FS.writeBinFile (diskPath location) content

def exitCodeOf (o : Outcome) : UInt32 :=
  UInt32.ofNat o.exitCode

end ManifestOrder

def main (arguments : List String) : IO UInt32 := do
  match ManifestOrder.Command.parse? arguments with
  | none =>
    IO.eprintln "usage: pom-sort-lint [-v] lint [FILES] [OPTIONS] | sort FILE [OPTIONS]"
    return 2
  | some request =>
    let before ← ManifestOrder.copyFor request
    let outcome := ManifestOrder.Command.run before request
    let onTerminal ← (← IO.getStdout).isTty
    IO.print (if onTerminal then outcome.output else outcome.plainOutput)
    ManifestOrder.writeChanges before outcome.fileSystem
    if outcome.crash.isSome then IO.eprintln "pom-sort-lint: the run was broken off"
    return ManifestOrder.exitCodeOf outcome

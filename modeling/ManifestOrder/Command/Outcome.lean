import ManifestOrder.FileSystem
import ManifestOrder.Text.Terminal

/-!
# Outcomes of a run

A run prints lines, may change files, and ends with an exit code. A failure that no command handles
ends it at once; what was printed and written before stays.
-/

namespace ManifestOrder.Command

/-- A failure that no command handles. -/
inductive Crash where
  | notText
  | numberTooLong
  | notPath
  | wrongType
  | notTable
  | unknownSeverity
  | file (cause : FileError)
  | edit
deriving DecidableEq, Repr

structure Outcome where
  exitCode : Nat
  /-- The messages that were printed, in order. Each is one entry, also where a path or an id brings
  line feeds into it. -/
  lines : List String := []
  crash : Option Crash := none
  fileSystem : FileSystem

namespace Outcome

def crashed (crash : Crash) (lines : List String) (fs : FileSystem) : Outcome :=
  ⟨1, lines, some crash, fs⟩

def endLines (lines : List String) : String :=
  String.join (lines.map fun line => line ++ "\n")

/-- All that was printed. -/
def output (o : Outcome) : String :=
  endLines o.lines

/-- All that was printed, as it is written to anything but a terminal. -/
def plainOutput (o : Outcome) : String :=
  endLines (o.lines.map fun line => String.ofList (Text.withoutCommands line.toList))

end Outcome

end ManifestOrder.Command

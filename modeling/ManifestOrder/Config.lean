import ManifestOrder.FileSystem
import ManifestOrder.Toml.Document

/-!
# Configuration

Which rules run and which files count as manifests. The settings are taken from the configuration
file as they are; whether they make sense is seen when they are used. A file that cannot be opened
or is not a document leaves the standard settings, with a warning, and one that is missing leaves
them without. A path that is too long, a file that is not text, a number that is too long, or a
document in which the tool's section is not a table, is a failure.
-/

namespace ManifestOrder

open Toml (Table Value)

def defaultPatterns : List String := ["pom.xml", "*.pom"]

structure Config where
  select : Value := .array [.string "unsorted"]
  ignore : Value := .array []
  patterns : Value := .array (defaultPatterns.map .string)

inductive ConfigError where
  | file (cause : FileError)
  | notText
  | numberTooLong
  | notTable
deriving DecidableEq, Repr

structure LoadedConfig where
  config : Config := {}
  warned : Bool := false

namespace Config

def toolKey : String := "tool"

def sectionKey : String := "pom-sort-lint"

def selectKey : String := "select"

def ignoreKey : String := "ignore"

def patternsKey : String := "manifest-patterns"

/-- The table at a key. A missing one is empty. -/
def tableAt (t : Table) (key : String) : Except ConfigError Table :=
  match Table.find? t key with
  | none => .ok []
  | some (.table entries) => .ok entries
  | some _ => .error .notTable

def ofSection (t : Table) : Config where
  select := (Table.find? t selectKey).getD ({} : Config).select
  ignore := (Table.find? t ignoreKey).getD ({} : Config).ignore
  patterns := (Table.find? t patternsKey).getD ({} : Config).patterns

def ofTable (t : Table) : Except ConfigError Config :=
  match tableAt t toolKey with
  | .error e => .error e
  | .ok tool =>
    match tableAt tool sectionKey with
    | .error e => .error e
    | .ok entries => .ok (ofSection entries)

def ofBytes (content : ByteArray) : Except ConfigError LoadedConfig :=
  match String.fromUTF8? content with
  | none => .error .notText
  | some text =>
    match Toml.parse text with
    | .error .malformed => .ok { warned := true }
    | .error .numberTooLong => .error .numberTooLong
    | .ok t =>
      match ofTable t with
      | .error e => .error e
      | .ok config => .ok { config }

def load (fs : FileSystem) (p : Path) : Except ConfigError LoadedConfig :=
  match fs.pathExists p with
  | .error cause => .error (.file cause)
  | .ok false => .ok {}
  | .ok true =>
    match fs.read p with
    | .error _ => .ok { warned := true }
    | .ok content => ofBytes content

end Config

end ManifestOrder

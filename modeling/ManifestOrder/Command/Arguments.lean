import ManifestOrder.Path

/-!
# Arguments

The name of a command comes first, after options for all commands. Options of a command and its
paths may follow in any order; after a double hyphen everything is a path. An option with a value
takes the next argument whatever it is, or what stands behind an equals sign. Of an option given
twice the later one counts. A path with a NUL in it is not understood.
-/

namespace ManifestOrder.Command

def defaultConfigFile : String := ".pom-sort-lint.toml"

structure LintOptions where
  files : List Path := []
  project : Bool := false
  fix : Bool := false
  configFile : Path := Path.ofString defaultConfigFile
  severity : String := "STYLE"
deriving DecidableEq, Repr

structure SortOptions where
  file : Path
  check : Bool := false
  configFile : Path := Path.ofString defaultConfigFile
deriving DecidableEq, Repr

inductive Request where
  | lint (options : LintOptions)
  | sort (options : SortOptions)
deriving DecidableEq, Repr

namespace Request

/-- The paths that a request names. -/
def paths : Request → List Path
  | .lint options => options.configFile :: options.files
  | .sort options => [options.configFile, options.file]

def hasNul (request : Request) : Bool :=
  request.paths.any Path.hasNul

end Request

/-! ## Options -/

/-- The options of a command: switches with what they set, and options with a value. -/
structure OptionSet (σ : Type) where
  switches : List (String × (σ → σ))
  valued : List (String × (String → σ → σ))

/-- The settings that a list of arguments makes, and the paths among them; `none` when the list
cannot be understood. -/
def readArguments {σ : Type} (options : OptionSet σ) (s : σ) :
    List String → Option (σ × List String)
  | [] => some (s, [])
  | argument :: rest =>
    if argument = "--" then some (s, rest)
    else
      match options.switches.lookup argument with
      | some change => readArguments options (change s) rest
      | none =>
        match options.valued.lookup argument with
        | some change =>
          match rest with
          | [] => none
          | value :: rest => readArguments options (change value s) rest
        | none =>
          let name := argument.toList.takeWhile (· != '=')
          match options.valued.lookup (String.ofList name) with
          | some change =>
            readArguments options
              (change (String.ofList (argument.toList.drop (name.length + 1))) s) rest
          | none =>
            if argument.startsWith "-" && argument != "-" then none
            else
              (readArguments options s rest).map fun (s, paths) => (s, argument :: paths)

def lintOptions : OptionSet LintOptions where
  switches :=
    [("--project", fun o => { o with project := true }),
     ("--no-project", fun o => { o with project := false }),
     ("--fix", fun o => { o with fix := true }),
     ("--no-fix", fun o => { o with fix := false })]
  valued :=
    [("--config-file", fun value o => { o with configFile := Path.ofString value }),
     ("--severity", fun value o => { o with severity := value })]

def sortOptions : OptionSet SortOptions where
  switches :=
    [("--check", fun o => { o with check := true }),
     ("--no-check", fun o => { o with check := false })]
  valued := [("--config-file", fun value o => { o with configFile := Path.ofString value })]

/-! ## Requests -/

def isVerboseSwitch (argument : String) : Bool :=
  argument = "--verbose" ||
    match argument.toList with
    | '-' :: letters => !letters.isEmpty && letters.all (· = 'v')
    | _ => false

def parseLint? (arguments : List String) : Option Request :=
  (readArguments lintOptions {} arguments).map fun (options, paths) =>
    .lint { options with files := paths.map Path.ofString }

/-- A sort has exactly one path. -/
def parseSort? (arguments : List String) : Option Request :=
  match readArguments sortOptions { file := {} } arguments with
  | some (options, [path]) => some (.sort { options with file := Path.ofString path })
  | _ => none

def parseCommand? : List String → Option Request
  | "lint" :: rest => parseLint? rest
  | "sort" :: rest => parseSort? rest
  | _ => none

/-- The request for a command behind options for all commands. -/
def parseRequest? : List String → Option Request
  | [] => none
  | argument :: rest =>
    if isVerboseSwitch argument then parseRequest? rest
    else if argument = "--" then parseCommand? rest
    else parseCommand? (argument :: rest)

/-- The request that the arguments make; `none` when they cannot be understood. -/
def parse? (arguments : List String) : Option Request :=
  (parseRequest? arguments).filter fun request => !request.hasNul

end ManifestOrder.Command

import GatewayDocs.CommandLine.Words
import GatewayDocs.Endpoint.Documentation
import GatewayDocs.Export

/-! # Arguments of the commands

`Arguments.ofWords` reads a command line: options for the whole program, the name of a
command, and the options of the command. -/

namespace GatewayDocs.CommandLine

/-- The environment variables that the program looks at. -/
structure Environment where
  splitModels : Option String
  splitLimit : Option String
  logLevel : Option String
  region : Option String

/-- What is compiled and where the results go; what is not given is absent. -/
structure CompileArguments where
  service : Value
  template : Value
  output : Value
  parts : Value
  safeMode : Bool

/-- What is downloaded and where it goes; what is not given is absent. -/
structure DownloadArguments where
  restApi : Value
  stack : Value
  stage : Value
  output : Value
  extensions : Value
  region : Value

/-- A command. -/
inductive Command where
  | compile (arguments : CompileArguments)
  | download (arguments : DownloadArguments)

/-- What a command line asks for. -/
structure Arguments where
  logLevel : Value
  command : Command

/-- An option with a value of any text. -/
def valueOption (name : String) : OptionSpec := ⟨name, .value []⟩

/-- The options of the program. -/
def programOptions : List OptionSpec := [helpOption, valueOption "--log-level"]

/-- The options of the command that compiles. -/
def compileOptions : List OptionSpec :=
  [helpOption, valueOption "--service", valueOption "--template", valueOption "--out",
    valueOption "--parts", ⟨"--safe-mode", .flag⟩]

/-- The options of the command that downloads. -/
def downloadOptions : List OptionSpec :=
  [helpOption, valueOption "--rest-api-id", valueOption "--stack-name", valueOption "--stage",
    valueOption "--output", ⟨"--extensions", .value Export.knownExtensions⟩,
    valueOption "--region"]

/-- The two ways to name an interface, of which one has to be used. -/
def target : Exclusive := some ("--rest-api-id", "--stack-name")

/-- The value of an option that has to be given. -/
def required (given : Given) (name : String) : Except Refusal Value :=
  match given.get? name with
  | some v => .ok v
  | none => .error .usage

/-- The value of an option that need not be given. -/
def optional (given : Given) (name : String) : Value := (given.get? name).getD .null

/-- Reads the options of the command that compiles. -/
def CompileArguments.ofWords (words : List String) : Except Refusal CompileArguments := do
  let given ← readOptions compileOptions none words
  return {
    service := ← required given "--service"
    template := ← required given "--template"
    output := optional given "--out"
    parts := optional given "--parts"
    safeMode := given.has "--safe-mode" }

/-- Reads the options of the command that downloads. -/
def DownloadArguments.ofWords (env : Environment) (words : List String) :
    Except Refusal DownloadArguments := do
  let given ← readOptions downloadOptions target words
  let stage ← required given "--stage"
  let output ← required given "--output"
  if !(given.has "--rest-api-id" || given.has "--stack-name") then throw .usage
  return {
    restApi := optional given "--rest-api-id"
    stack := optional given "--stack-name"
    stage, output
    extensions := optional given "--extensions"
    region := (given.get? "--region").getD (textOrNull env.region) }

namespace Command

/-- Reads a command and its options. -/
def ofWords (env : Environment) : List String → Except Refusal Command
  | "compile" :: rest => .compile <$> CompileArguments.ofWords rest
  | "download" :: rest => .download <$> DownloadArguments.ofWords env rest
  | _ => .error .usage

end Command

namespace Arguments

/-- The level of messages if nothing else is said. -/
def standardLevel : String := "INFO"

/-- Reads the options of the program up to the name of a command.  The level of messages,
whether all words were options, and the words from the command on are told. -/
def programWords (level : Option Value) (complete : Bool) :
    List Word → List String → Except Refusal (Option Value × Bool × List String)
  | .option ⟨_, .value _⟩ (some v) :: words, _ :: texts =>
    programWords (some (joinedValue v)) complete words texts
  | .option ⟨_, .value _⟩ none :: .plain v :: words, _ :: _ :: texts =>
    programWords (some (.str v)) complete words texts
  | .option ⟨_, .help⟩ none :: _, _ => .error .help
  | .option _ _ :: _, _ => .error .usage
  | .refused :: _, _ => .error .usage
  | .unknown _ :: words, _ :: texts => programWords level false words texts
  | .plain _ :: _, texts => .ok (level, complete, texts)
  | .separator :: _, texts => .ok (level, complete, texts)
  | _, _ => .ok (level, complete, [])

/-- Reads a command line. -/
def ofWords (env : Environment) (texts : List String) : Except Refusal Arguments := do
  let words ← Word.readAll programOptions texts
  let (level, complete, rest) ← programWords none true words texts
  let command ← Command.ofWords env rest
  if !complete then throw .usage
  return ⟨level.getD (.str (env.logLevel.getD standardLevel)), command⟩

end Arguments
end GatewayDocs.CommandLine

import GatewayDocs.CommandLine.Arguments
import GatewayDocs.Compile
import GatewayDocs.Files.Loading

/-! # Running commands

`run` carries out a command on files, counters and a client that may not be there.  A command
that fails by the program's own rules ends with a status of one and a message; other failures
pass through. -/

namespace GatewayDocs.CommandLine
variable {σ : Type}

/-- Writes a value to a file, as indented JSON with a newline at the end. -/
def writeJson (p : Path) (v : Value) (limit : Decimal.DigitLimit := Decimal.usualLimit) :
    Edit FileTree Unit := do
  FileTree.makeParent p
  let text ← Edit.ofResult (Json.write Json.indented v limit)
  FileTree.save p (Text.encode (text ++ "\n"))

/-- The path that an argument names, which has to be a text. -/
def pathOf : Value → Result Path
  | .str s => .ok (.ofText s)
  | _ => .error .badShape

/-- The settings of a command that compiles. -/
def CompileArguments.settings (a : CompileArguments) (env : Environment) (service : Value) :
    Result CompileSettings :=
  CompileSettings.ofService service (.ofPairs [("doc-safe-mode", .bool a.safeMode)])
    ⟨env.splitModels, env.splitLimit⟩

/-- What is told about the parts of a documentation. -/
def partsReport (c : Compiled) : Value :=
  .ofPairs [("version", textOrNull c.version), ("parts", .list (c.parts.map Part.toValue))]

/-- Works on a template and on the counters. -/
def onTemplate {α : Type} (template : Value) (edit : Edit Workspace α) :
    Edit (Desk σ) (α × Value) := do
  let d ← get
  match edit ⟨template, d.metrics⟩ with
  | .ok a w =>
    set { d with metrics := w.metrics }
    return (a, w.template)
  | .error f w =>
    set { d with metrics := w.metrics }
    throw f

/-- Compiles the documentation of a service into a template file. -/
def CompileArguments.run (a : CompileArguments) (env : Environment) : Edit (Desk σ) Unit := do
  let files := (← get).files
  let service ← Edit.ofResult (pathOf a.service >>= files.loadService)
  let template ← Edit.ofResult (pathOf a.template >>= files.loadTemplate)
  let settings ← Edit.ofResult (a.settings env service)
  let (compiled, template) ← onTemplate template (compile service settings)
  let output ← Edit.ofResult (pathOf (if a.output.truthy then a.output else a.template))
  Desk.onFiles (writeJson output template)
  if a.parts.truthy then
    Desk.onFiles (writeJson (← Edit.ofResult (pathOf a.parts)) (partsReport compiled))

/-- Connects to a service of the cloud, in a region. -/
def connect (client : Option (Client σ)) (service : String) (region : Value) :
    Edit (Desk σ) (Client σ) := do
  match client with
  | none => throw .noClient
  | some client =>
    let _ ← Desk.onClient (client ⟨"client",
      [(.str "service", .str service), (.str "region", region)]⟩)
    return client

/-- The interface that a stack tells. -/
def DownloadArguments.stackApi (client : Option (Client σ)) (a : DownloadArguments) :
    Edit (Desk σ) Value := do
  let cloud ← connect client "cloudformation" a.region
  let described ← Desk.onClient (cloud ⟨"describe_stacks", [(.str "StackName", a.stack)]⟩)
  let api := ((← Edit.ofResult (Stack.apiOfStacks described)).getD .null)
  if !api.truthy then throw (.noRestApi a.stack)
  return api

/-- Exports the documentation of a deployed interface to a file. -/
def DownloadArguments.run (client : Option (Client σ)) (a : DownloadArguments) :
    Edit (Desk σ) Unit := do
  let api ← if a.restApi.truthy then pure a.restApi else a.stackApi client
  let gateway ← connect client "apigateway" a.region
  let output ← Edit.ofResult (pathOf a.output)
  Export.download gateway api a.stage output a.extensions

/-- Carries out a command. -/
def Command.run (client : Option (Client σ)) (env : Environment) :
    Command → Edit (Desk σ) Unit
  | .compile a => a.run env
  | .download a => a.run client

/-- How a command line ends. -/
inductive Outcome where
  | done
  | reported (message : String)
  | refused (refusal : Refusal)
  | failed (failure : Failure)

/-- Carries out a command line. -/
def run (client : Option (Client σ)) (env : Environment) (words : List String) (d : Desk σ) :
    Outcome × Desk σ :=
  match Arguments.ofWords env words with
  | .error refusal => (.refused refusal, d)
  | .ok arguments =>
    match arguments.command.run client env d with
    | .ok _ d => (.done, d)
    | .error f d => (if f.isReported then .reported f.message else .failed f, d)

end GatewayDocs.CommandLine

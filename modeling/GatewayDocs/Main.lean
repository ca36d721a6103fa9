import GatewayDocs.CommandLine.Run

/-! # The program

The command line of the program: it looks at the files that a command names, carries the
command out on them, and writes the files that changed.  There is no client of the cloud, so
a download ends with a message that says so. -/

namespace GatewayDocs.Program
open CommandLine

/-- The environment variables of the process. -/
def environment : IO Environment := do
  return ⟨← IO.getEnv "APIDOCS_SPLIT_MODELS", ← IO.getEnv "APIDOCS_SPLIT_MODELS_LIMIT",
    ← IO.getEnv "APIDOCS_LOG_LEVEL", ← IO.getEnv "AWS_REGION"⟩

/-- The paths that a command names. -/
def namedPaths : Command → List Path
  | .compile a =>
    [a.service, a.template, a.output, a.parts].filterMap fun v => (pathOf v).toOption
  | .download a => (pathOf a.output).toOption.toList

/-- The paths on the way to a path, and the path itself. -/
def waysTo (p : Path) : List Path :=
  (List.range p.parts.length).map fun n => { p with parts := p.parts.take (n + 1) }

/-- What is at a path of the file system. -/
def nodeAt (p : Path) : IO (Option FileNode) := do
  match ← (IO.FS.readBinFile p.text).toBaseIO with
  | .ok bytes => return some (.file bytes)
  | .error (.noFileOrDirectory ..) => return none
  | .error _ => return some .directory

/-- Adds what is at a path to a file tree. -/
def addPath (t : FileTree) (p : Path) : IO FileTree := do
  match t.place p, ← nodeAt p with
  | .ok place, some node => return if (t.get? place).isSome then t else t.put place node
  | _, _ => return t

/-- The files and directories that a command may see. -/
def treeFor (command : Command) : IO FileTree :=
  ((namedPaths command).flatMap waysTo).foldlM addPath .empty

/-- The path of a place. -/
def pathOf : Place → Path
  | "/" :: names => ⟨"/", names⟩
  | names => ⟨"", names⟩

/-- Makes a node of a file tree in the file system, unless it was there before. -/
def saveNode (before : FileTree) (place : Place) (node : FileNode) : IO Unit := do
  match node, before.get? place with
  | .directory, none => IO.FS.createDirAll (pathOf place).text
  | .file bytes, some (.file old) =>
    if !(bytes == old) then IO.FS.writeBinFile (pathOf place).text bytes
  | .file bytes, none => IO.FS.writeBinFile (pathOf place).text bytes
  | _, _ => return ()

/-- The files that a command line may see; a line that is refused sees none. -/
def treeOf (env : Environment) (words : List String) : IO FileTree :=
  match Arguments.ofWords env words with
  | .ok arguments => treeFor arguments.command
  | .error _ => return .empty

/-- Tells how a command line ended. -/
def report : Outcome → IO UInt32
  | .done => return 0
  | .reported message => do
    IO.eprintln message
    return 1
  | .refused .help => do
    IO.println "usage: apidocs [--log-level LEVEL] compile|download OPTIONS"
    return 0
  | .refused .usage => do
    IO.eprintln "usage: apidocs [--log-level LEVEL] compile|download OPTIONS"
    return 2
  | .failed failure => do
    IO.eprintln failure.message
    return 1

end GatewayDocs.Program

open GatewayDocs GatewayDocs.Program in
/-- Carries out a command line. -/
def main (words : List String) : IO UInt32 := do
  let env ← environment
  let files ← treeOf env words
  let client : Option (Client Unit) := none
  let (outcome, desk) := CommandLine.run client env words ⟨(), files, .empty⟩
  for (place, node) in desk.files.nodes do saveNode files place node
  report outcome

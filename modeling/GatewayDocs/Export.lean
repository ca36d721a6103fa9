import GatewayDocs.Client.Call
import GatewayDocs.Files.Tree
import GatewayDocs.Metrics
import GatewayDocs.Text.Utf8

/-! # Exporting documentation

The documentation of a deployed interface is exported by one call and written to a file, byte
by byte.  The suffix of the file decides on the format. -/

namespace GatewayDocs

/-- What a command works on: a client, files and counters. -/
structure Desk (σ : Type) where
  client : σ
  files : FileTree
  metrics : Metrics

namespace Desk
variable {σ α : Type}

/-- Works on the client alone. -/
def onClient (edit : Edit σ α) : Edit (Desk σ) α := do
  let d ← get
  Edit.zoom d.client (fun c => { d with client := c }) edit

/-- Works on the files alone. -/
def onFiles (edit : Edit FileTree α) : Edit (Desk σ) α := do
  let d ← get
  Edit.zoom d.files (fun t => { d with files := t }) edit

/-- Adds one to a counter. -/
def count (key : String) : Edit (Desk σ) Unit :=
  modify fun d => { d with metrics := d.metrics.increment key 1 }

end Desk

namespace Export
variable {σ : Type}

/-- The kinds of extensions that an export may have. -/
def knownExtensions : List String := ["integrations", "apigateway", "authorizers", "postman"]

/-- The extensions if none of the known ones are asked for. -/
def standardExtensions : String := "integrations"

/-- The extensions of an export. -/
def extensions : Value → String
  | .str s => if knownExtensions.contains s then s else standardExtensions
  | _ => standardExtensions

/-- The format of an export to a file. -/
def contentType (p : Path) : String :=
  if [".yml", ".yaml"].contains (Text.lower p.suffix) then "application/yaml"
  else "application/json"

/-- The call of an export. -/
def call (api stage : Value) (p : Path) (asked : Value) : Call :=
  ⟨"get_export",
    [(.str "restApiId", api), (.str "stageName", stage), (.str "exportType", .str "swagger"),
      (.str "parameters", .ofPairs [("extensions", .str (extensions asked))]),
      (.str "accepts", .str (contentType p))]⟩

/-- The body of a response with a text as its bytes; without a body there are none. -/
def body (response : Value) : Result Value := do
  match (← response.asObject).get? "body" with
  | none => return .atom (.bytes [])
  | some (.str s) =>
    match Text.encode? s with
    | some bytes => return .atom (.bytes bytes.toList)
    | none => throw .notText
  | some v => return v

/-- The bytes of a body. -/
def bytesOf : Value → Result ByteArray
  | .atom (.bytes bs) => .ok ⟨bs.toArray⟩
  | _ => .error .badShape

/-- Exports the documentation of an interface to a file. -/
def download (client : Client σ) (api stage : Value) (p : Path) (asked : Value) :
    Edit (Desk σ) Unit := do
  let response ← Desk.onClient (client (call api stage p asked))
  let body ← Edit.ofResult (body response)
  Desk.onFiles (FileTree.makeParent p)
  Desk.onFiles (FileTree.save p (← Edit.ofResult (bytesOf body)))
  Desk.count "documentation.downloaded"

end Export
end GatewayDocs

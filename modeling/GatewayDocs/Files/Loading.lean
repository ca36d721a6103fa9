import GatewayDocs.Files.Tree
import GatewayDocs.Json.Reader
import GatewayDocs.Text.Utf8
import GatewayDocs.Yaml.Meaning

/-! # Loading configuration files

A configuration file is an object in JSON or else in YAML.  `FileTree.loadService` and
`FileTree.loadTemplate` read one; a template always has resources. -/

namespace GatewayDocs
open Decimal (DigitLimit usualLimit)

/-- A text with newlines as its only line ends. -/
def newlines : List Char → List Char
  | [] => []
  | '\r' :: '\n' :: rest => '\n' :: newlines rest
  | '\r' :: rest => '\n' :: newlines rest
  | c :: rest => c :: newlines rest

/-- The value of a text in JSON or YAML; `path` is where the text is from. -/
def readValue (path : String) (text : String) (limit : DigitLimit := usualLimit) :
    Result Value :=
  match Json.parse text limit with
  | .ok v => .ok v
  | .error (.longNumeral digits) => .error (.longNumeral digits)
  | .error .malformed =>
    match Yaml.read text with
    | .ok v => .ok v
    | .error (.scalar f) => .error f
    | .error f => .error (.malformed path (f.report text.toList))

namespace FileTree

/-- The object that a configuration file holds. -/
def load (t : FileTree) (p : Path) (limit : DigitLimit := usualLimit) : Result Fields := do
  checkPath p
  let bytes ←
    match t.read p with
    | .ok bytes => pure bytes
    | .error e => throw (.unreadable p.text (Failure.unusable e p.text).message)
  match Text.decode? bytes with
  | none => throw .notText
  | some text =>
    let v ← readValue p.text (String.ofList (newlines text.toList)) limit
    match v.fields? with
    | some fields => return fields
    | none => throw (.unreadable p.text ("expected a mapping, got " ++ v.kindName))

/-- Reads the description of a service. -/
def loadService (t : FileTree) (p : Path) (limit : DigitLimit := usualLimit) :
    Result Value := do
  return .object (← t.load p limit)

/-- Reads a template, with resources. -/
def loadTemplate (t : FileTree) (p : Path) (limit : DigitLimit := usualLimit) :
    Result Value := do
  return .object ((← t.load p limit).putNew "Resources" (.object []))

end FileTree
end GatewayDocs

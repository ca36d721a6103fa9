import GatewayDocs.Endpoint.Documentation
import GatewayDocs.Text.Case

/-! # Events

An event is a path and a method, and may carry the documentation of its endpoint.  It is
written as an object, or in short as the method and the path with a space between.

An event names its endpoint by its documented path, which starts with a slash and does not
end with one (`HttpEvent.docPath`). -/

namespace GatewayDocs
open Shape

/-- A path and a method, with documentation or without. -/
structure HttpEvent where
  path : String
  method : String
  documentation : Option EndpointDocumentation

namespace HttpEvent

/-- Reads an event from the pairs of an object. -/
def ofFields (fields : Fields) : Checked HttpEvent :=
  mk <$> Shape.required ["path"] text fields
    <*> Shape.required ["method"] text fields
    <*> optional ["documentation"] none (orNull EndpointDocumentation.ofValue) fields

/-- Reads an event that is an object. -/
def ofValue (v : Value) : Checked HttpEvent := record ofFields v

/-- Reads an event in its short form: the method up to the first space, then the path. -/
def ofShort (s : String) : HttpEvent :=
  let cs := Text.trimBoth Text.isBlank s.toList
  let (method, rest) := cs.span (· ≠ ' ')
  { path := Text.strip (String.ofList (rest.drop 1))
    method := String.ofList method
    documentation := none }

/-- Reads an event in either form. -/
def ofEvent : Value → Result HttpEvent
  | .str s => .ok (ofShort s)
  | v => (ofValue v).orInvalid "HttpEvent"

/-- The path from the root, without slashes at the end. -/
def docPath (e : HttpEvent) : String := "/" ++ Text.stripChar '/' e.path

/-- The method in capitals and the documented path. -/
def label (e : HttpEvent) : String := Text.upper e.method ++ " " ++ e.docPath

/-- Writes an event. -/
def toValue (e : HttpEvent) : Value :=
  .ofPairs [("path", .str e.path), ("method", .str e.method),
    ("documentation", (e.documentation.map EndpointDocumentation.toValue).getD .null)]

end HttpEvent

/-- The events of a function, not yet read. -/
structure FunctionDefinition where
  events : List Value

namespace FunctionDefinition

/-- Reads the events of a function; a value that counts as false is no event. -/
def ofFields (fields : Fields) : Checked FunctionDefinition :=
  mk <$> optional ["events"] []
    (fun v => if v.truthy then listOf (fun w => .ok w) v else .ok []) fields

/-- Reads a function. -/
def ofValue (v : Value) : Checked FunctionDefinition := record ofFields v

/-- Writes a function. -/
def toValue (f : FunctionDefinition) : Value := .ofPairs [("events", .list f.events)]

/-- The part of an event that is a call over the network, if it has one. -/
def http? (event : Value) : Option Value := (event.field? "http").filter Value.truthy

/-- Reads the network events of a function. -/
def httpEvents (f : FunctionDefinition) : Result (List HttpEvent) :=
  (f.events.filterMap http?).mapM HttpEvent.ofEvent

end FunctionDefinition

/-- Reads the network events of all functions of a service, in order. -/
def serviceEvents (service : Value) : Result (List HttpEvent) := do
  let functions ← service.field "functions"
  let fields ← if functions.truthy then functions.asObject else .ok []
  let lists ← fields.mapM fun (_, raw) => do
    let v := if raw.truthy then raw else .object []
    let f ← (FunctionDefinition.ofValue v).orInvalid "FunctionDefinition"
    f.httpEvents
  return lists.flatten

end GatewayDocs

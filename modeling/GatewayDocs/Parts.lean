import GatewayDocs.Digest.Sha256
import GatewayDocs.Endpoint.Configuration
import GatewayDocs.Endpoint.Event
import GatewayDocs.Json.Text
import GatewayDocs.Text.Encoding

/-! # Documentation parts

Documentation is published in parts, each of which has a location and properties (`Part`).
Blank entries are dropped, and what has no properties is no part (`part?`).  The parts of a
service are those of the interface, its resources, its models and its endpoints, in this
order (`serviceParts`).  A part that is handed over from elsewhere may have anything for a
location and properties until it is read (`LoosePart`).

The parts as a whole have a version: the one that is given, or the digest of their
canonical text (`version`). -/

namespace GatewayDocs

/-- A part of a documentation. -/
structure Part where
  location : Fields
  properties : Fields

namespace Part

/-- Writes a part. -/
def toValue (p : Part) : Value :=
  .ofPairs [("location", .object p.location), ("properties", .object p.properties)]

end Part

/-- A part whose location and properties may be anything. -/
structure LoosePart where
  location : Value
  properties : Value

namespace LoosePart

/-- Reads a part; lists of pairs count as objects. -/
def read (p : LoosePart) : Result Part := do
  return ⟨← p.location.asPairs, ← p.properties.asPairs⟩

end LoosePart

namespace Parts

/-- Drops the blank entries. -/
def clean (fields : Fields) : Fields := fields.filter fun kv => !kv.2.isBlank

/-- Pairs with text keys. -/
def pairs (xs : List (String × Value)) : Fields := xs.map fun (k, v) => (.str k, v)

/-- The part at a location, if it has properties. -/
def part? (location : List (String × Value)) (properties : Fields) : Option Part :=
  let kept := clean properties
  if kept.isEmpty then none else some ⟨clean (pairs location), kept⟩

/-- The parts of parameters of one kind. -/
def ofParameters (kind path method : String) (ps : List Parameter) : List (Option Part) :=
  ps.map fun p =>
    part? [("type", .str kind), ("path", .str path), ("method", .str method),
        ("name", .str p.name)]
      (pairs [("description", textOrNull p.description), ("required", flagOrNull p.required)])

/-- The pairs of a body that may be absent; a body that contains itself has none. -/
def bodyFields : Option Body → Result Fields
  | none => .ok []
  | some b => if b.toValue.isEndless then .error .circularBody else .ok b.toFields

/-- The parts of a response. -/
def ofResponse (path method : String) (r : MethodResponse) : Result (List (Option Part)) := do
  let place : List (String × Value) :=
    [("path", .str path), ("method", .str method), ("statusCode", .str r.statusCode)]
  let body ← bodyFields r.body
  return part? (("type", .str "RESPONSE") :: place)
      (pairs [("description", textOrNull r.description)]) ::
    part? (("type", .str "RESPONSE_BODY") :: place) body ::
    r.headers.map fun h =>
      part? (("type", .str "RESPONSE_HEADER") :: ("name", .str h.name) :: place)
        (pairs [("description", textOrNull h.description)])

/-- The parts of a documented endpoint. -/
def ofEndpoint (e : HttpEvent) (d : EndpointDocumentation) : Result (List Part) := do
  let path := e.docPath
  let method := Text.upper e.method
  let place (kind : String) : List (String × Value) :=
    [("type", .str kind), ("path", .str path), ("method", .str method)]
  let whole := part? (place "METHOD")
    (pairs [("summary", textOrNull d.summary), ("description", textOrNull d.description),
      ("tags", .list (d.tags.map .str))])
  let body ← bodyFields d.body
  let responses ← d.responses.mapM (ofResponse path method)
  return (whole :: ofParameters "QUERY_PARAMETER" path method d.queryParameters ++
    ofParameters "PATH_PARAMETER" path method d.pathParameters ++
    ofParameters "REQUEST_HEADER" path method d.headers ++
    part? (place "REQUEST_BODY") body :: responses.flatten).filterMap id

/-- The parts of an event that has to be documented. -/
def ofEvent (e : HttpEvent) : Result (List Part) :=
  match e.documentation with
  | some d => ofEndpoint e d
  | none => .error .badShape

/-- The parts of an event; without documentation it has none. -/
def ofAnyEvent (e : HttpEvent) : Result (List Part) :=
  match e.documentation with
  | some d => ofEndpoint e d
  | none => .ok []

/-- The parts of models. -/
def ofModels (ms : List ModelDescriptor) : List Part :=
  ms.filterMap fun m =>
    part? [("type", .str "MODEL"), ("name", .str m.name)]
      (pairs [("description", textOrNull m.description)])

/-- Whether a pair is the path of a resource. -/
def isPath (kv : Atom × Value) : Bool :=
  match kv.1 with
  | .str s => s = "path"
  | _ => false

/-- The part of a resource of the interface. -/
def ofResource (fields : Fields) : Result (Option Part) := do
  let path ← ((fields.get? "path").getD (.str "")).text
  return part? [("type", .str "RESOURCE"), ("path", .str ("/" ++ Text.stripChar '/' path))]
    (fields.filter fun kv => !isPath kv)

/-- The parts of a service. -/
def serviceParts (config : DocumentationConfig) (models : List ModelDescriptor)
    (events : List HttpEvent) : Result (List Part) := do
  let resources ← config.resources.mapM ofResource
  let endpoints ← events.mapM ofAnyEvent
  return (part? [("type", .str "API")] config.api).toList ++ resources.filterMap id ++
    ofModels models ++ endpoints.flatten

/-- The canonical text of parts. -/
def canonicalText (parts : List Part) : Result String :=
  Json.writeSorted Json.compact (.list (parts.map Part.toValue))

/-- The digest of the canonical text of parts. -/
def fingerprint (parts : List Part) : Result String := do
  return Sha256.digest (Text.encode (← canonicalText parts))

/-- The version of parts: the text of the one that is given, if it counts as true. -/
def version (parts : List Part) (given : Value) : Result String :=
  if given.truthy then given.text else fingerprint parts

/-- The version of parts that are not read yet; they are read only for their digest. -/
def looseVersion (parts : List LoosePart) (given : Value) : Result String := do
  version (← if given.truthy then pure [] else parts.mapM LoosePart.read) given

end Parts
end GatewayDocs

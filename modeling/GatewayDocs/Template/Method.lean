import GatewayDocs.Endpoint.Documentation
import GatewayDocs.Template.Reference

/-! # Documentation of method resources

The method resource of an endpoint is there before it is documented.  Documentation adds to
what it has: responses are merged by status code (`addResponses`), parameters and headers
that are there keep their values (`addParameters`), and only the models of the request are
replaced (`addRequestModels`).  The resource comes to depend on every model that is
referred to directly.

A step that fails midway leaves what it has done; it is a computation on the state of the
resource. -/

namespace GatewayDocs
namespace ModelRefs

/-- What the references are written as: the name of a model or the identifier of an
imported one. -/
def targets (refs : ModelRefs) : Fields :=
  refs.map fun (k, r) =>
    (k, match r with
      | .direct name => .str name
      | .imported identifier => identifier.copied)

/-- The names of the models that are referred to directly, in order. -/
def directNames (refs : ModelRefs) : List String := refs.filterMap fun kr => kr.2.name?

/-- The names of the resources that the references depend on. -/
def dependencies (refs : ModelRefs) : List String := refs.directNames.map modelResourceName

end ModelRefs

namespace Resource

/-- The place of response headers. -/
def responseHeaderPlace : String := "method.response.header"

/-- The place of request headers. -/
def requestHeaderPlace : String := "method.request.header"

/-- The place of query parameters. -/
def queryPlace : String := "method.request.querystring"

/-- The place of path parameters. -/
def pathPlace : String := "method.request.path"

/-- The key of a parameter at a place. -/
def placedName (place name : String) : String := place ++ "." ++ name

/-- Makes a resource depend on the models that are referred to directly; what the references
are written as is told. -/
def addModelDependencies (refs : ModelRefs) : Edit Resource Fields := do
  modify fun r => r.addDependencies refs.dependencies
  return refs.targets

/-- Makes a resource depend on models by values that were not read as references, of which
none is one. -/
def addUnreadDependencies : Fields → Result Fields
  | [] => .ok []
  | (contentType, v) :: _ => .error (.unsupportedReference contentType v)

/-- Replaces the request models. -/
def addRequestModels (d : EndpointDocumentation) : Edit Resource Unit := do
  if !d.models.isEmpty then
    let targets ← addModelDependencies d.models
    editAt [] (modify fun fields => fields.put "RequestModels" (.object targets))

/-- The index of the first response of a status code. -/
def findResponse (code : String) : List Value → Result (Option Nat)
  | [] => .ok none
  | v :: rest => do
    if (← (← v.field "StatusCode").text) = code then return some 0
    else return (← findResponse code rest).map (· + 1)

/-- The key of the responses of a method. -/
def responsesKey : String := "MethodResponses"

/-- The list of responses of some properties. -/
def responseList (properties : Value) : Result (List Value) :=
  match ((properties.field? responsesKey).getD .null).bare with
  | .list items => .ok items
  | _ => .error .badShape

/-- The place of the responses. -/
def responsesPlace : List Step := [.key (.str responsesKey)]

/-- The place of the entry of a response, the first of its status code or a new one at the
end. -/
def responseEntry (code : String) : Edit Resource (List Step) := do
  let items ← Edit.ofResult (responseList (← get).properties)
  match ← Edit.ofResult (findResponse code items) with
  | some i => return responsesPlace ++ [.index i]
  | none =>
    let entry : Value := .ofPairs [("StatusCode", .str code)]
    modify fun r => r.changeProperties responsesPlace fun _ => .list (items ++ [entry])
    return responsesPlace ++ [.index items.length]

/-- The models of a response entry with further ones.  A set gets their content types alone. -/
def withModels (targets : Fields) (given : Value) : Result Value :=
  match given.bare with
  | .object fields => .ok (.object (Pairs.putAll fields targets))
  | .set members => .ok (.set (targets.foldl (fun ms kv => insertMember ms kv.1) members))
  | _ => .error .badShape
where
  /-- Adds a member to a set that does not have it. -/
  insertMember (members : List Atom) (a : Atom) : List Atom :=
    if members.contains a then members else members ++ [a]

/-- The key of the models of a response. -/
def responseModelsKey : String := "ResponseModels"

/-- Adds the models of a declared response to its entry at a place. -/
def addResponseModels (entry : List Step) (refs : ModelRefs) : Edit Resource Unit := do
  editAt entry (modify fun fields => fields.putNew responseModelsKey (.object []))
  let place := entry ++ [.key (.str responseModelsKey)]
  let given := ((← get).properties.at? place).getD .null
  let models ← Edit.ofResult (withModels refs.targets given)
  modify fun r => r.changeProperties place fun _ => models
  modify fun r => r.addDependencies refs.dependencies

/-- Adds a declared response to a resource: headers that its entry has keep their values, models
are replaced by content type. -/
def addResponse (declared : MethodResponse) : Edit Resource Unit := do
  let entry ← responseEntry declared.statusCode
  if !declared.headers.isEmpty then
    editUnder entry "ResponseParameters" <| modify fun fields =>
      declared.headers.foldl
        (fun fs h => fs.putNew (placedName responseHeaderPlace h.name) (.bool true)) fields
  if !declared.models.isEmpty then addResponseModels entry declared.models

/-- Adds the declared responses to a resource, in order. -/
def addResponses (d : EndpointDocumentation) : Edit Resource Unit := do
  if !d.responses.isEmpty then
    editAt [] (modify fun fields => fields.putNew responsesKey (.list []))
    d.responses.forM addResponse

/-- Adds parameters at a place; those that are there keep their values. -/
def addParameters (ps : List Parameter) (place : String) : Edit Resource Unit := do
  if !ps.isEmpty then
    editUnder [] "RequestParameters" <| modify fun fields =>
      ps.foldl (fun fs p => fs.putNew (placedName place p.name) (.bool (p.required = some true)))
        fields

/-- Adds the documentation of an endpoint to its method resource; in safe mode the request
parameters are left alone. -/
def augment (d : EndpointDocumentation) (safeMode : Bool) : Edit Resource Unit := do
  addResponses d
  addRequestModels d
  if !safeMode then
    addParameters d.headers requestHeaderPlace
    addParameters d.queryParameters queryPlace
    addParameters d.pathParameters pathPlace

end Resource
end GatewayDocs

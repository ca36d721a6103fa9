import GatewayDocs.Endpoint.Configuration
import GatewayDocs.Endpoint.Event
import GatewayDocs.Template.Method
import GatewayDocs.Template.Naming

/-! # Embedded interface descriptions

A service may carry a description of its interface: definitions of models, and operations
by path and method.  Definitions become declared models (`modelsOfDefinitions`), and every
event whose path and method are described gets the documentation of the operation
(`documentEvents`).

A schema that only refers to a definition stands for that model.  Any other schema of a
body or response becomes a model of its own, named after the endpoint (`schemaModel`); the
models found so far are the state of the computation. -/

namespace GatewayDocs

/-- How a reference to a definition starts. -/
def definitionsPath : String := "#/definitions/"

/-- The name of the definition that a text refers to. -/
def definitionNamed? (s : String) : Option String :=
  if definitionsPath.toList.isPrefixOf s.toList then
    some (String.ofList (s.toList.drop definitionsPath.length))
  else none

/-- The marker that names a model. -/
def marker (model : String) : String := "\x7b\x7bmodel: " ++ model ++ "\x7d\x7d"

namespace Value

mutual

/-- Puts markers in the place of the references to definitions.  Tuples and sets are left
alone. -/
def markRefs : Value → Value
  | .list items => .list (markItems items)
  | .object fields => .object (markFields fields)
  | .shared l v => .shared l (markRefs v)
  | .atom a => .atom a
  | .tuple items => .tuple items
  | .set members => .set members
  | .knot l v => .knot l v
  | .again l => .again l

/-- Puts markers in the place of the references of some items. -/
def markItems : List Value → List Value
  | [] => []
  | v :: rest => markRefs v :: markItems rest

/-- Puts markers in the place of the references of some pairs. -/
def markFields : List (Atom × Value) → List (Atom × Value)
  | [] => []
  | (k, .str s) :: rest =>
    let v : Value :=
      if isRefKey k then
        match definitionNamed? s with
        | some model => .str (marker model)
        | none => .str s
      else .str s
    (k, v) :: markFields rest
  | (k, v) :: rest => (k, markRefs v) :: markFields rest

end

/-- The value under a text key, if the value is an object. -/
def fieldOrNull (key : String) (v : Value) : Value := (v.field? key).getD .null

end Value

namespace Swagger
open Shape

/-- The content type of all models and references of a description. -/
def jsonType : String := "application/json"

/-- A model of a description, whose own description may turn out to be no text. -/
def describedModel (name : String) (description schema : Value) : Result ModelDescriptor := do
  let description ←
    ((orNull text description).within (.key (.str "description"))).orInvalid "ModelDescriptor"
  return ⟨name, description, jsonType, schema⟩

/-- A schema with markers in the place of its references; one that contains itself has no
end. -/
def markedSchema (schema : Value) : Result Value :=
  if schema.meetsKnot then .error .unending else .ok schema.markRefs

/-- The model of a definition. -/
def modelOfDefinition (name : String) (definition : Value) : Result ModelDescriptor := do
  let schema ← markedSchema definition
  describedModel name (schema.fieldOrNull "description") schema

/-- The models of definitions, in order. -/
def modelsOfDefinitions (definitions : Value) : Result (List ModelDescriptor) := do
  let fields ← if definitions.truthy then definitions.asObject else .ok []
  fields.mapM fun (k, v) => modelOfDefinition k.spelled v

/-- The models found so far. -/
abbrev Finding := Edit (List ModelDescriptor)

/-- The name of the model of the schema of a body or response; a schema that is no
reference becomes a model with the name that is given. -/
def schemaModel (container : Value) (fallback : String) : Finding String := do
  let fields ← Edit.ofResult container.asObject
  let given := fields.get "schema"
  let schema := if given.truthy then given else .object []
  let referred? :=
    match schema.fieldOrNull refKey with
    | .str s => definitionNamed? s
    | _ => none
  match referred? with
  | some name => return name
  | none =>
    let marked ← Edit.ofResult (markedSchema schema)
    let m ← Edit.ofResult (describedModel fallback (fields.get "description") marked)
    modify (· ++ [m])
    return fallback

/-- Makes a model the only reference of a body or response. -/
def jsonModel (name : String) : ModelRefs := [(.str jsonType, .direct name)]

/-- The parameter that a description gives. -/
def parameterOf (fields : Fields) : Result Parameter :=
  match fields.get? "name" with
  | none => .error (.noKey (.str "name"))
  | some name =>
    (Parameter.ofFields [(.str "name", name), (.str "description", fields.get "description"),
      (.str "required", fields.get "required")]).orInvalid "Param"

/-- Adds a described parameter to a documentation, where it says it belongs. -/
def addParameter (base : String) (d : EndpointDocumentation) (parameter : Value) :
    Finding EndpointDocumentation := do
  let fields ← Edit.ofResult parameter.asObject
  match fields.get "in" with
  | .str "header" =>
    let p ← Edit.ofResult (parameterOf fields)
    return { d with headers := d.headers ++ [p] }
  | .str "path" =>
    let p ← Edit.ofResult (parameterOf fields)
    return { d with pathParameters := d.pathParameters ++ [p] }
  | .str "query" =>
    let p ← Edit.ofResult (parameterOf fields)
    return { d with queryParameters := d.queryParameters ++ [p] }
  | .str "body" =>
    let name ← schemaModel parameter (base ++ "Request")
    return { d with models := jsonModel name }
  | .atom _ => return d
  | .tuple _ => return d
  | _ => throw .badShape

/-- Adds a described response to a documentation. -/
def addResponse (base : String) (d : EndpointDocumentation) (response : Atom × Value) :
    Finding EndpointDocumentation := do
  let code ← Edit.ofResult response.1.text
  let fields ← Edit.ofResult response.2.asObject
  let description ← Edit.ofResult <|
    ((orNull text (fields.get "description")).within (.key (.str "description"))).orInvalid
      "MethodResponse"
  let models ←
    if (fields.get "schema").truthy then
      pure (jsonModel (← schemaModel response.2 (base ++ "Response" ++ code)))
    else pure []
  return { d with responses := d.responses ++ [⟨code, description, none, [], models⟩] }

/-- A documentation with the texts of an operation. -/
def startingFrom (fields : Fields) : Result EndpointDocumentation := do
  let given := fields.get "tags"
  let tags ← if given.truthy then given.members else .ok []
  (EndpointDocumentation.ofFields
    [(.str "summary", fields.get "summary"), (.str "description", fields.get "description"),
      (.str "tags", .list tags)]).orInvalid "EndpointDocumentation"

/-- The documentation of an operation; `base` starts the names of its models. -/
def documentation (operation : Value) (base : String) : Finding EndpointDocumentation := do
  let fields ← Edit.ofResult operation.asObject
  let d ← Edit.ofResult (startingFrom fields)
  let given := fields.get "parameters"
  let parameters ← Edit.ofResult (if given.truthy then given.members else .ok [])
  let d ← parameters.foldlM (addParameter base) d
  let described := fields.get "responses"
  let responses ← Edit.ofResult (if described.truthy then described.asObject else .ok [])
  responses.foldlM (addResponse base) d

/-- The start of the names of the models of an endpoint. -/
def baseName (e : HttpEvent) : String :=
  Naming.pathName e.path ++ Naming.methodName e.method

/-- The operation that is described for an event. -/
def operation? (paths : Value) (e : HttpEvent) : Result (Option Value) := do
  let item ← paths.field e.docPath
  if item.truthy then
    let operation ← item.field (Text.lower e.method)
    return if operation.truthy then some operation else none
  else return none

/-- Gives an event the documentation of its operation, if one is described. -/
def documentEvent (paths : Value) (e : HttpEvent) : Finding HttpEvent := do
  match ← Edit.ofResult (operation? paths e) with
  | some operation =>
    return { e with documentation := some (← documentation operation (baseName e)) }
  | none => return e

/-- Gives the events of a list the documentation of their operations, in order, up to one
for which that fails. -/
def documentEvents (paths : Value) :
    List HttpEvent → List ModelDescriptor → List HttpEvent × Result (List ModelDescriptor)
  | [], models => ([], .ok models)
  | e :: rest, models =>
    match documentEvent paths e models with
    | .ok e models =>
      let (es, r) := documentEvents paths rest models
      (e :: es, r)
    | .error f _ => (e :: rest, .error f)

/-- The events with the documentation of their operations, and all models of a
description. -/
def apply (definitions paths : Value) (events : List HttpEvent) :
    List HttpEvent × Result (List ModelDescriptor) :=
  match modelsOfDefinitions definitions with
  | .ok models => documentEvents paths events models
  | .error f => (events, .error f)

end Swagger
end GatewayDocs

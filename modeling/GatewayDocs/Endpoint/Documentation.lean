import GatewayDocs.Endpoint.ModelRef

/-! # Documentation of an endpoint

The documentation of an endpoint tells its parameters, the body and the models of a
request, and the responses (`EndpointDocumentation`).  Each part is read from a value
(`ofValue`) and written as one (`toValue`) with the names of its fields; fields may be read
under a second, camel-case name, which wins.

Bodies and whole documentations keep the pairs they do not know, in order. -/

namespace GatewayDocs
open Shape

/-- The value of a text that may be absent. -/
def textOrNull : Option String → Value
  | some s => .str s
  | none => .null

/-- The value of a truth value that may be absent. -/
def flagOrNull : Option Bool → Value
  | some b => .bool b
  | none => .null

/-- A parameter or header. -/
structure Parameter where
  name : String
  description : Option String
  required : Option Bool

namespace Parameter

/-- Reads a parameter from the pairs of an object. -/
def ofFields (fields : Fields) : Checked Parameter :=
  mk <$> Shape.required ["name"] text fields
    <*> optional ["description"] none (orNull text) fields
    <*> optional ["required"] none (orNull flag) fields

/-- Reads a parameter. -/
def ofValue (v : Value) : Checked Parameter := record ofFields v

/-- Writes a parameter. -/
def toValue (p : Parameter) : Value :=
  .ofPairs [("name", .str p.name), ("description", textOrNull p.description),
    ("required", flagOrNull p.required)]

end Parameter

/-- The body of a request or response. -/
structure Body where
  description : Option String
  extra : Fields

namespace Body

/-- The names of the fields of a body. -/
def names : List (List String) := [["description"]]

/-- Reads a body from the pairs of an object. -/
def ofFields (fields : Fields) : Checked Body :=
  mk <$> optional ["description"] none (orNull text) fields <*> extras names fields

/-- Reads a body. -/
def ofValue (v : Value) : Checked Body := openRecord ofFields v

/-- The pairs of a body, the description first. -/
def toFields (b : Body) : Fields :=
  Pairs.putAll [(.str "description", textOrNull b.description)] b.extra

/-- Writes a body. -/
def toValue (b : Body) : Value := .object b.toFields

end Body

/-- The value of a body that may be absent. -/
def bodyOrNull : Option Body → Value
  | some b => b.toValue
  | none => .null

/-- A response of an endpoint. -/
structure MethodResponse where
  statusCode : String
  description : Option String
  body : Option Body
  headers : List Parameter
  models : ModelRefs

namespace MethodResponse

/-- Reads a response from the pairs of an object; any status code is read as its text. -/
def ofFields (fields : Fields) : Checked MethodResponse :=
  mk <$> Shape.required ["statusCode", "status_code"] spelled fields
    <*> optional ["description"] none (orNull text) fields
    <*> optional ["responseBody", "response_body"] none (orNull Body.ofValue) fields
    <*> optional ["responseHeaders", "response_headers"] [] (listOf Parameter.ofValue) fields
    <*> optional ["responseModels", "response_models"] [] ModelRefs.ofValue fields

/-- Reads a response. -/
def ofValue (v : Value) : Checked MethodResponse := record ofFields v

/-- Writes a response. -/
def toValue (r : MethodResponse) : Value :=
  .ofPairs [("status_code", .str r.statusCode), ("description", textOrNull r.description),
    ("response_body", bodyOrNull r.body),
    ("response_headers", .list (r.headers.map Parameter.toValue)),
    ("response_models", r.models.toValue)]

end MethodResponse

/-- The documentation of an endpoint. -/
structure EndpointDocumentation where
  summary : Option String
  description : Option String
  tags : List String
  body : Option Body
  headers : List Parameter
  pathParameters : List Parameter
  queryParameters : List Parameter
  models : ModelRefs
  responses : List MethodResponse
  extra : Fields

namespace EndpointDocumentation

/-- The names of the fields of a documentation. -/
def names : List (List String) :=
  [["summary"], ["description"], ["tags"], ["requestBody", "request_body"],
    ["requestHeaders", "request_headers"], ["pathParams", "path_params"],
    ["queryParams", "query_params"], ["requestModels", "request_models"],
    ["methodResponses", "method_responses"]]

/-- Reads a documentation from the pairs of an object. -/
def ofFields (fields : Fields) : Checked EndpointDocumentation :=
  mk <$> optional ["summary"] none (orNull text) fields
    <*> optional ["description"] none (orNull text) fields
    <*> optional ["tags"] [] (listOf text) fields
    <*> optional ["requestBody", "request_body"] none (orNull Body.ofValue) fields
    <*> optional ["requestHeaders", "request_headers"] [] (listOf Parameter.ofValue) fields
    <*> optional ["pathParams", "path_params"] [] (listOf Parameter.ofValue) fields
    <*> optional ["queryParams", "query_params"] [] (listOf Parameter.ofValue) fields
    <*> optional ["requestModels", "request_models"] [] ModelRefs.ofValue fields
    <*> optional ["methodResponses", "method_responses"] [] (listOf MethodResponse.ofValue)
      fields
    <*> extras names fields

/-- Reads a documentation. -/
def ofValue (v : Value) : Checked EndpointDocumentation := openRecord ofFields v

/-- Writes a documentation; the pairs that it does not know come last. -/
def toValue (d : EndpointDocumentation) : Value :=
  let known : Fields :=
    [(.str "summary", textOrNull d.summary), (.str "description", textOrNull d.description),
      (.str "tags", .list (d.tags.map .str)), (.str "request_body", bodyOrNull d.body),
      (.str "request_headers", .list (d.headers.map Parameter.toValue)),
      (.str "path_params", .list (d.pathParameters.map Parameter.toValue)),
      (.str "query_params", .list (d.queryParameters.map Parameter.toValue)),
      (.str "request_models", d.models.toValue),
      (.str "method_responses", .list (d.responses.map MethodResponse.toValue))]
  .object (Pairs.putAll known d.extra)

/-- The identifiers of the imported models, those of the request first. -/
def imported (d : EndpointDocumentation) : List Value :=
  d.models.identifiers ++ d.responses.flatMap fun r => r.models.identifiers

/-- Documentation that says nothing. -/
def empty : EndpointDocumentation := ⟨none, none, [], none, [], [], [], [], [], []⟩

end EndpointDocumentation
end GatewayDocs

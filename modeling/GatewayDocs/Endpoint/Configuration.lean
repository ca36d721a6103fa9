import GatewayDocs.Endpoint.Documentation

/-! # Documentation of a service

The documentation section of a service declares models (`ModelDescriptor`) and describes
the interface as a whole, its resources, and, if it says so, all endpoints at once by an
embedded interface description (`DocumentationConfig`). -/

namespace GatewayDocs
open Shape

/-- A declared model. -/
structure ModelDescriptor where
  name : String
  description : Option String
  contentType : String
  schema : Value

namespace ModelDescriptor

/-- Reads a declared model from the pairs of an object. -/
def ofFields (fields : Fields) : Checked ModelDescriptor :=
  mk <$> Shape.required ["name"] text fields
    <*> optional ["description"] none (orNull text) fields
    <*> Shape.required ["contentType", "content_type"] text fields
    <*> optional ["schema", "schema_"] .null (fun v => .ok v) fields

/-- Reads a declared model. -/
def ofValue (v : Value) : Checked ModelDescriptor := record ofFields v

/-- Writes a declared model. -/
def toValue (m : ModelDescriptor) : Value :=
  .ofPairs [("name", .str m.name), ("description", textOrNull m.description),
    ("content_type", .str m.contentType), ("schema_", m.schema)]

end ModelDescriptor

/-- The documentation section of a service. -/
structure DocumentationConfig where
  version : Option String
  api : Fields
  resources : List Fields
  models : List ModelDescriptor
  swagger : Bool
  definitions : Option Fields
  paths : Fields
  extra : Fields

namespace DocumentationConfig

/-- The names of the fields of a documentation section. -/
def names : List (List String) :=
  [["version"], ["api"], ["resources"], ["models"], ["swagger"], ["definitions"], ["paths"]]

/-- Reads a version, which may be absent; any other value is read as its text. -/
def versionOf : Value → Checked (Option String) := orNull spelled

/-- Reads a documentation section from the pairs of an object. -/
def ofFields (fields : Fields) : Checked DocumentationConfig :=
  mk <$> optional ["version"] none versionOf fields
    <*> optional ["api"] [] mapOf fields
    <*> optional ["resources"] [] (listOf mapOf) fields
    <*> optional ["models"] [] (listOf ModelDescriptor.ofValue) fields
    <*> optional ["swagger"] false flag fields
    <*> optional ["definitions"] none (orNull mapOf) fields
    <*> optional ["paths"] [] mapOf fields
    <*> extras names fields

/-- Reads a documentation section. -/
def ofValue (v : Value) : Checked DocumentationConfig := openRecord ofFields v

/-- Writes a documentation section; the pairs that it does not know come last. -/
def toValue (c : DocumentationConfig) : Value :=
  let known : Fields :=
    [(.str "version", textOrNull c.version), (.str "api", .object c.api),
      (.str "resources", .list (c.resources.map .object)),
      (.str "models", .list (c.models.map ModelDescriptor.toValue)),
      (.str "swagger", .bool c.swagger),
      (.str "definitions", (c.definitions.map Value.object).getD .null),
      (.str "paths", .object c.paths)]
  .object (Pairs.putAll known c.extra)

/-- The documentation section of a service, if there is one that is not empty. -/
def ofService (service : Value) : Result (Option DocumentationConfig) := do
  let raw := ((← service.field "custom").field? "documentation").getD .null
  if raw.truthy then return some (← (ofValue raw).orInvalid "DocumentationConfig")
  else return none

end DocumentationConfig
end GatewayDocs

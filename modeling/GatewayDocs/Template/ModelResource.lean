import GatewayDocs.Endpoint.Configuration
import GatewayDocs.Template.Reference

/-! # Resources of declared models

Every declared model becomes a resource under a name of its own, with its schema
resolved. -/

namespace GatewayDocs.ModelDescriptor

/-- The properties of the resource of a model, the schema not yet resolved. -/
def properties (restApi : Value) (m : ModelDescriptor) : Fields :=
  let schema : Value :=
    match m.schema with
    | .null => .object []
    | v => v
  let own : Fields :=
    [(.str "RestApiId", restApi), (.str "ContentType", .str m.contentType),
      (.str "Name", .str m.name), (.str "Schema", schema)]
  match m.description with
  | some d => if d = "" then own else own ++ [(.str "Description", .str d)]
  | none => own

/-- The resource of a model. -/
def toResource (restApi : Value) (m : ModelDescriptor) : Result Resource :=
  (Resource.ofProperties modelKind (m.properties restApi)).resolve restApi

/-- The name of the resource of a model. -/
def resourceName (m : ModelDescriptor) : String := modelResourceName m.name

/-- The resources of models with their names, in order. -/
def toResources (restApi : Value) (ms : List ModelDescriptor) :
    Result (List (Atom × Resource)) :=
  ms.mapM fun m => do return (.str m.resourceName, ← m.toResource restApi)

end GatewayDocs.ModelDescriptor

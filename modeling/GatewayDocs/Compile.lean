import GatewayDocs.Metrics
import GatewayDocs.Parts
import GatewayDocs.Settings
import GatewayDocs.Stack
import GatewayDocs.Swagger
import GatewayDocs.Template.Chaining
import GatewayDocs.Template.ModelResource

/-! # Compiling documentation into a template

A compilation reads the resources of a template and the documentation of a service, adds a
resource for every model, documents the method resources of the events, and chains the
independent models if that is wanted (`documentedGraph`).  Only then is the template
written: its resources, and an output that tells the interface (`commit`).

A service without documentation leaves the template as it is. -/

namespace GatewayDocs

/-- What a compilation gives. -/
structure Compiled where
  graph : ResourceGraph
  restApi : Value
  models : List ModelDescriptor
  events : List HttpEvent
  parts : List Part
  version : Option String

/-- What a compilation works on. -/
structure Workspace where
  template : Value
  metrics : Metrics

namespace Compile

/-- The first imported identifier of a documentation that is the name of a model. -/
def importedName? (names : List String) (d : EndpointDocumentation) : Option String :=
  d.imported.findSome? fun
    | .str s => if names.contains s then some s else none
    | _ => none

/-- The first event with an imported model that is also declared, and the name. -/
def importConflict? (names : List String) (events : List HttpEvent) :
    Option (String × HttpEvent) :=
  events.findSome? fun e =>
    (e.documentation.bind (importedName? names)).map fun name => (name, e)

/-- Fails if a declared model is also imported. -/
def checkImports (models : List ModelDescriptor) (events : List HttpEvent) : Result Unit :=
  match importConflict? (models.map (·.name)) events with
  | some (name, e) => .error (.conflict name e.label)
  | none => .ok ()

/-- The logical id of the method resource of an event. -/
def methodId (e : HttpEvent) : String := Naming.logicalId e.path e.method

/-- Documents the method resource of an event, if the event is documented. -/
def augmentEvent (safeMode : Bool) (g : ResourceGraph) (e : HttpEvent) :
    Result ResourceGraph :=
  match e.documentation with
  | none => .ok g
  | some d =>
    let name : Atom := .str (methodId e)
    match g.get? name with
    | none => .error (.noMethod (methodId e) e.label)
    | some r =>
      match Resource.augment d safeMode r with
      | .ok _ r => .ok (g.add name r)
      | .error f _ => .error f

/-- Documents the method resources of events, in order. -/
def augmentEvents (safeMode : Bool) (g : ResourceGraph) (events : List HttpEvent) :
    Result ResourceGraph :=
  events.foldlM (augmentEvent safeMode) g

/-- The number of documented events. -/
def documentedCount (events : List HttpEvent) : Nat :=
  events.countP fun e => e.documentation.isSome

/-- The models of a service and its events, documented by the description that is embedded
if one is. -/
def sources (config : DocumentationConfig) (events : List HttpEvent) :
    List HttpEvent × Result (List ModelDescriptor) :=
  if config.swagger then
    let definitions := (config.definitions.map Value.object).getD .null
    Swagger.apply definitions (.object config.paths) events
  else (events, .ok config.models)

/-- Adds to a counter. -/
def count (key : String) (amount : Nat) : Edit Metrics Unit :=
  modify fun m => m.increment key amount

/-- The resources of a template with the models and the documentation of the events. -/
def documentedGraph (g : ResourceGraph) (models : List ModelDescriptor)
    (events : List HttpEvent) (settings : CompileSettings) : Edit Metrics ResourceGraph := do
  Edit.ofResult (checkImports models events)
  let g := g.addAll (← Edit.ofResult (ModelDescriptor.toResources settings.restApi models))
  count "compiler.models.built" models.length
  let g ← Edit.ofResult (augmentEvents settings.safeMode g events)
  count "compiler.methods.augmented" (documentedCount events)
  if settings.chunking.enabled then
    let (g, edges) := Edit.outcome (ResourceGraph.chainModels (.int settings.chunking.width)) g
    count "compiler.chunk.edges" (← Edit.ofResult edges)
    return g
  else return g

/-- The output that tells an interface. -/
def apiOutputValue (restApi : Value) : Value :=
  .ofPairs [("Description", .str "API ID"), ("Value", restApi)]

/-- The key of the resources of a template. -/
def resourcesKey : String := "Resources"

/-- The key of the outputs of a template. -/
def outputsKey : String := "Outputs"

/-- Carries a change of what has a label to the other places of a template; its resources are
written anew and have nothing in common with the rest. -/
def relabelOutside (label : Nat) (content : Value) (fields : Fields) : Fields :=
  fields.map fun (k, v) =>
    (k, if k.same (.str resourcesKey) then v else Value.relabel label content v)

/-- Writes an output into the outputs of a template. -/
def putOutput (output : Value) (fields : Fields) : Result Fields := do
  let outputs := fields.get outputsKey
  let pairs ← outputs.asObject
  let changed := outputs.inside fun _ => .object (pairs.put apiOutput output)
  let written := fields.put outputsKey changed
  match changed.label? with
  | some (label, content) => return relabelOutside label content written
  | none => return written

/-- Writes the resources and the output into a template. -/
def commit (g : ResourceGraph) (restApi : Value) : Edit Value Unit := do
  let fields ← Edit.ofResult (← get).asObject
  let given := fields.get outputsKey
  let outputs := if given.truthy then given else .object []
  let fields := (fields.put resourcesKey g.toSection).put outputsKey outputs
  set (Value.object fields)
  set (Value.object (← Edit.ofResult (putOutput (apiOutputValue restApi) fields)))

/-- Works on the counters alone. -/
def onMetrics {α : Type} (edit : Edit Metrics α) : Edit Workspace α := do
  let w ← get
  Edit.zoom w.metrics (fun m => { w with metrics := m }) edit

/-- Works on the template alone. -/
def onTemplate {α : Type} (edit : Edit Value α) : Edit Workspace α := do
  let w ← get
  Edit.zoom w.template (fun t => { w with template := t }) edit

end Compile

open Compile in
/-- Compiles the documentation of a service into a template. -/
def compile (service : Value) (settings : CompileSettings) : Edit Workspace Compiled := do
  let template := (← get).template
  let g ← Edit.ofResult (template.field resourcesKey >>= ResourceGraph.ofSection)
  match ← Edit.ofResult (DocumentationConfig.ofService service) with
  | none => return ⟨g, .null, [], [], [], none⟩
  | some config =>
    let (events, models) := sources config (← Edit.ofResult (serviceEvents service))
    let models ← Edit.ofResult models
    let g ← onMetrics (documentedGraph g models events settings)
    onTemplate (commit g settings.restApi)
    let parts ← Edit.ofResult (Parts.serviceParts config models events)
    let version ← Edit.ofResult (Parts.version parts (textOrNull config.version))
    return ⟨g, settings.restApi, models, events, parts, some version⟩

end GatewayDocs

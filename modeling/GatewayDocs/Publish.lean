import GatewayDocs.Client.Listing
import GatewayDocs.Metrics
import GatewayDocs.Parts

/-! # Publishing documentation

A version of a documentation is published once.  Unless it is there already, the parts that
are there are deleted, all of them listed before the first is deleted; then the new parts are
created, and the version last (`upload`).  `publish` counts what happened and says whether
the version is new. -/

namespace GatewayDocs

/-- What is published: an interface, its parts, a version and the stage that gets it. -/
structure Publication where
  api : Value
  parts : List LoosePart
  version : Value
  stage : Value

/-- A client with the counters of what was done. -/
structure Session (σ : Type) where
  client : σ
  metrics : Metrics

namespace Publication
variable {σ : Type}

/-- A call about the interface. -/
def call (p : Publication) (name : String) (arguments : List (String × Value)) : Call :=
  ⟨name, (("restApiId", p.api) :: arguments).map fun (k, v) => (.str k, v)⟩

/-- A listing of the interface. -/
def listing (p : Publication) (name : String) : Listing :=
  ⟨name, (p.call name []).arguments⟩

/-- Whether an item of a listing is the version. -/
def isVersion (p : Publication) (item : Value) : Result (Option Unit) := do
  let fields ← item.asObject
  return if (fields.get "version").equals p.version then some () else none

/-- The identifier of a part that is listed. -/
def listedId (item : Value) : Result Value := do
  match (← item.asObject).get? "id" with
  | some id => return id
  | none => throw (.noKey (.str "id"))

/-- Deletes a part that is listed. -/
def deletePart (client : Client σ) (p : Publication) (item : Value) : Edit σ Unit := do
  let id ← Edit.ofResult (listedId item)
  let _ ← client (p.call "delete_documentation_part" [("documentationPartId", id)])
  return ()

/-- Creates a part. -/
def createPart (client : Client σ) (p : Publication) (part : LoosePart) : Edit σ Unit := do
  let location ← Edit.ofResult part.location.asPairs
  let properties ← Edit.ofResult (Json.writeSorted Json.spaced part.properties)
  let _ ← client (p.call "create_documentation_part"
    [("location", .object location), ("properties", .str properties)])
  return ()

/-- The call that creates the version. -/
def versionCall (p : Publication) : Call :=
  p.call "create_documentation_version"
    (("documentationVersion", p.version) ::
      if p.stage.truthy then [("stageName", p.stage)] else [])

/-- Uploads the parts and the version; fails if the version is there already.  Of a listing at
most `pages` pages are asked for. -/
def upload (client : Client σ) (pages : Nat) (p : Publication) : Edit σ Unit := do
  let found ← Listing.find client p.isVersion pages (p.listing "get_documentation_versions")
  if found.isSome then throw (.versionExists p.version.spelled)
  let listed ← Listing.items client pages (p.listing "get_documentation_parts")
  for item in listed do deletePart client p item
  for part in p.parts do createPart client p part
  let _ ← client p.versionCall
  return ()

/-- Uploads the parts and the version unless it is there already; says whether it is new. -/
def publish (client : Client σ) (pages : Nat) (p : Publication) : Edit (Session σ) Bool :=
  fun s =>
    let count (key : String) : Metrics := s.metrics.increment key 1
    match upload client pages p s.client with
    | .ok _ c => .ok true ⟨c, count "documentation.publish.uploaded"⟩
    | .error (.versionExists _) c => .ok false ⟨c, count "documentation.publish.skipped"⟩
    | .error f c => .error f ⟨c, s.metrics⟩

end Publication

end GatewayDocs

import GatewayDocs.Client.Listing
import GatewayDocs.Shape.Leaves

/-! # A gateway that keeps documentation

A client that keeps the documentation parts and versions of an interface: it lists them in
pages, creates and deletes parts, and creates versions.  New parts get identifiers that were
not used before. -/

namespace GatewayDocs

/-- The documentation that is published. -/
structure Gateway where
  versions : List Value
  parts : List Value
  pageSize : Int
  created : Nat

namespace Gateway

/-- The field of an item that is an object. -/
def fieldOf (key : String) (v : Value) : Value := (v.field? key).getD .null

/-- The published versions. -/
def versionNames (g : Gateway) : List Value := g.versions.map (fieldOf "version")

/-- The identifiers of the published parts. -/
def partIds (g : Gateway) : List Value := g.parts.map (fieldOf "id")

/-- The number of pages that no listing exceeds. -/
def enoughPages (g : Gateway) : Nat := g.versions.length + g.parts.length + 2

/-- The number in the text of a position; the first page has none. -/
def startOf (position : Value) : Nat :=
  match position with
  | .str s => ((Shape.integer? s.toList).getD 0).toNat
  | .int n => n.toNat
  | _ => 0

/-- The limit of a call. -/
def limitOf (arguments : Fields) : Int :=
  match arguments.get "limit" with
  | .int n => n
  | _ => Listing.pageLimit

/-- A page of a list. -/
def page (g : Gateway) (items : List Value) (arguments : Fields) : Value :=
  let start := startOf (arguments.get "position")
  let size := (min (limitOf arguments) g.pageSize).toNat
  let next := start + size
  .ofPairs (("items", .list ((items.drop start).take size)) ::
    if next < items.length then [("position", .str (Decimal.intText next))] else [])

/-- A gateway without a part. -/
def deletePart (g : Gateway) (id : Value) : Gateway :=
  { g with parts := g.parts.filter fun p => !(fieldOf "id" p).equals id }

/-- A gateway with a new part. -/
def createPart (g : Gateway) : Gateway :=
  let id := "new" ++ Decimal.intText (g.created + 1 : Nat)
  { g with parts := g.parts ++ [.ofPairs [("id", .str id)]], created := g.created + 1 }

/-- A gateway with a new version. -/
def createVersion (g : Gateway) (version : Value) : Gateway :=
  { g with versions := g.versions ++ [.ofPairs [("version", version)]] }

/-- Answers a call. -/
def answer (g : Gateway) (call : Call) : Value × Gateway :=
  let arguments := call.arguments
  match call.name with
  | "get_documentation_versions" => (g.page g.versions arguments, g)
  | "get_documentation_parts" => (g.page g.parts arguments, g)
  | "delete_documentation_part" =>
    (.object [], g.deletePart (arguments.get "documentationPartId"))
  | "create_documentation_part" => (.object [], g.createPart)
  | "create_documentation_version" =>
    (.object [], g.createVersion (arguments.get "documentationVersion"))
  | _ => (.object [], g)

/-- The client of a gateway. -/
def client : Client Gateway := fun call => do
  let (response, g) := (← get).answer call
  set g
  return response

end Gateway
end GatewayDocs

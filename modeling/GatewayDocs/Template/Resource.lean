import GatewayDocs.Edit
import GatewayDocs.Value.Place

/-! # Resources of a template

A resource has a kind, properties, the names of the resources that it depends on, and
further entries that are kept as they are.  `Resource.ofEntry` reads an entry of a template
and `Resource.toEntry` writes one; a name is depended on at most once
(`Resource.addDependency`).

What stands in several places of a resource is changed in all of them
(`Resource.changeProperties`).  No two resources share what a template gives them, for each entry is
read by itself.  The identifier of an imported model, which documentation gives, is written into
each resource as a value of that resource: an edit that reaches one through a label of the resource
changes it there and in no other. -/

namespace GatewayDocs

/-- The kind of a model resource. -/
def modelKind : String := "AWS::ApiGateway::Model"

/-- A resource of a template. -/
structure Resource where
  kind : Value
  properties : Value
  dependsOn : List Value
  extra : Fields

/-- Adds a value at the end of a list unless the list has it. -/
def insertNew (xs : List Value) (x : Value) : List Value :=
  if xs.any fun y => y.same x then xs else xs ++ [x]

namespace Resource

/-- The keys of an entry that are not kept as they are. -/
def reserved : List String := ["Type", "Properties", "DependsOn"]

/-- Whether a key of an entry is kept as it is. -/
def isKept : Atom → Bool
  | .str s => !reserved.contains s
  | _ => true

/-- A resource of a kind with some properties. -/
def ofProperties (kind : String) (properties : Fields) : Resource :=
  ⟨.str kind, .object properties, [], []⟩

/-- Makes a resource depend on a value. -/
def addValue (r : Resource) (dependency : Value) : Resource :=
  { r with dependsOn := insertNew r.dependsOn dependency }

/-- Makes a resource depend on a name. -/
def addDependency (r : Resource) (name : String) : Resource := r.addValue (.str name)

/-- Makes a resource depend on names, one after the other. -/
def addDependencies (r : Resource) (names : List String) : Resource :=
  names.foldl addDependency r

/-- Whether a resource is a model. -/
def isModel (r : Resource) : Bool :=
  match r.kind with
  | .str s => s = modelKind
  | _ => false

/-- The dependencies that an entry lists; a text stands for itself alone. -/
def listedDependencies : Value → Result (List Value)
  | .str s => .ok [.str s]
  | v => if v.truthy then v.members else .ok []

/-- Reads an entry of a template. -/
def ofEntry (entry : Value) : Result Resource := do
  let fields ← entry.asObject
  let properties := fields.get "Properties"
  let listed ← listedDependencies (fields.get "DependsOn")
  return {
    kind := (fields.get? "Type").getD (.str "")
    properties := if properties.truthy then properties else .object []
    dependsOn := listed.foldl insertNew []
    extra := fields.filter fun kv => isKept kv.1 }

/-- Writes an entry of a template. -/
def toFields (r : Resource) : Fields :=
  let own : Fields := [(.str "Type", r.kind), (.str "Properties", r.properties)]
  let listed : Fields :=
    if r.dependsOn.isEmpty then [] else [(.str "DependsOn", .list r.dependsOn)]
  Pairs.putAll (own ++ listed) r.extra

/-- A resource as a value. -/
def toEntry (r : Resource) : Value := .object r.toFields

/-! ### Changes -/

/-- Changes all values of a resource. -/
def mapValues (f : Value → Value) (r : Resource) : Resource :=
  { kind := f r.kind
    properties := f r.properties
    dependsOn := r.dependsOn.map f
    extra := r.extra.map fun kv => (kv.1, f kv.2) }

/-- Changes the value at a place of the properties, and with it the other places of what it is
a part of. -/
def changeProperties (path : List Step) (f : Value → Value) (r : Resource) : Resource :=
  let properties := r.properties.change f path
  let changed := { r with properties }
  match properties.labelOn? path with
  | some (label, content) => changed.mapValues (Value.relabel label content)
  | none => changed

/-- Runs a computation on the pairs of an object at a place of the properties. -/
def editAt {α : Type} (path : List Step) (edit : Edit Fields α) : Edit Resource α := do
  let r ← get
  let fields ← Edit.ofResult ((r.properties.at? path).getD .null).asObject
  Edit.zoom fields (fun fs => r.changeProperties path fun _ => .object fs) edit

/-- Runs a computation on the object under a key of an object, which is made if it is
absent. -/
def editUnder {α : Type} (path : List Step) (key : String) (edit : Edit Fields α) :
    Edit Resource α := do
  editAt path (modify fun fields => fields.putNew key (.object []))
  editAt (path ++ [.key (.str key)]) edit

end Resource
end GatewayDocs

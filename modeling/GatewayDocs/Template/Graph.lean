import GatewayDocs.Template.Reference
import GatewayDocs.Value.Order

/-! # The resources of a template

The resources of a template by name, in order (`ResourceGraph`).  A resource added under a
name that is there takes its place, one under a new name comes last; a new order is taken
only if it keeps the names (`ResourceGraph.reorder`), which have to be of one kind for that.

The names of a template are texts as a rule, but may be any keys. -/

namespace GatewayDocs

/-- Resources by name, in order. -/
structure ResourceGraph where
  entries : List (Atom × Resource)

namespace ResourceGraph

/-- No resources. -/
def empty : ResourceGraph := ⟨[]⟩

/-- The names of the resources, in order. -/
def names (g : ResourceGraph) : List Atom := g.entries.map (·.1)

/-- The number of resources. -/
def size (g : ResourceGraph) : Nat := g.entries.length

/-- The resource of a name. -/
def get? (g : ResourceGraph) (name : Atom) : Option Resource := Pairs.lookup name g.entries

/-- Whether a name has a resource. -/
def contains (g : ResourceGraph) (name : Atom) : Bool := (g.get? name).isSome

/-- The resource of a name that has to have one. -/
def get (g : ResourceGraph) (name : Atom) : Result Resource :=
  match g.get? name with
  | some r => .ok r
  | none => .error (.noKey name)

/-- Writes a resource under a name: in its place, or at the end. -/
def add (g : ResourceGraph) (name : Atom) (r : Resource) : ResourceGraph :=
  ⟨Pairs.put name r g.entries⟩

/-- Writes resources one after the other. -/
def addAll (g : ResourceGraph) (rs : List (Atom × Resource)) : ResourceGraph :=
  ⟨Pairs.putAll g.entries rs⟩

/-- Runs a computation on the resource of a name that has to have one. -/
def update {α : Type} (name : Atom) (edit : Edit Resource α) : Edit ResourceGraph α := do
  let g : ResourceGraph ← MonadState.get
  let r ← Edit.ofResult (g.get name)
  Edit.zoom r (fun r => g.add name r) edit

/-- Resolves the references in the schema of the resource of a name.  What the resource has in
common with others is resolved there too. -/
def resolve (name : Atom) (restApi : Value) (g : ResourceGraph) : Result ResourceGraph := do
  let r ← g.get name
  let resolved ← r.resolve restApi
  let labels := ((r.properties.field? Resource.schemaKey).getD .null).labelsMet
  let others := g.entries.map fun (n, s) => (n, s.resolveLabelled restApi labels)
  return add ⟨others⟩ name resolved

/-- Gives the resources a new order, which has to keep their names. -/
def reorder (g : ResourceGraph) (entries : List (Atom × Resource)) : Result ResourceGraph :=
  let names := entries.map (·.1)
  if !(Atom.sortable names && Atom.sortable g.names) then .error .badShape
  else if Atom.sameInOrder names g.names then .ok (empty.addAll entries)
  else .error .namesDiffer

/-- Reads the resources of a template; a section that counts as false has none. -/
def ofSection (v : Value) : Result ResourceGraph := do
  let fields ← if v.truthy then v.asObject else .ok []
  let entries ← fields.mapM fun (k, entry) => do return (k, ← Resource.ofEntry entry)
  return ⟨entries⟩

/-- Writes the resources as a section of a template. -/
def toSection (g : ResourceGraph) : Value :=
  .object (g.entries.map fun (n, r) => (n, r.toEntry))

end ResourceGraph
end GatewayDocs

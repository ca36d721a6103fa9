import GatewayDocs.Template.Graph

/-! # Chains of independent models

Resources that depend on nothing are created all at once.  So that at most `width` models
are, the models that depend on nothing are threaded into chains: each one depends on the
model `width` places before it (`chain`).

`ResourceGraph.chainFree` does so and puts the chained models first, then the models that
had dependencies, then everything else.  A width of less than one is refused
(`ResourceGraph.chainModels`). -/

namespace GatewayDocs

/-- A model that depends on nothing. -/
def Resource.isFree (r : Resource) : Bool := r.isModel && r.dependsOn.isEmpty

/-- A model that depends on something. -/
def Resource.isBound (r : Resource) : Bool := r.isModel && !r.dependsOn.isEmpty

/-- The pairs of a parent and the child that comes `width` places after it. -/
def chainEdges (width : Nat) (names : List Atom) : List (Atom × Atom) :=
  names.zip (names.drop width)

/-- The width of chains that a value tells: a number of at least one. -/
def chainWidth : Value → Result Nat
  | .atom a =>
    match a with
    | .bool b => if b then .ok 1 else .error (.badWidth a)
    | .int n => if n < 1 then .error (.badWidth a) else .ok n.toNat
    | .float x => .error (if x < 1.0 then .badWidth a else .badShape)
    | _ => .error .badShape
  | _ => .error .badShape

namespace ResourceGraph

/-- The models that depend on something. -/
def boundModels (g : ResourceGraph) : List (Atom × Resource) :=
  g.entries.filter fun nr => nr.2.isBound

/-- The models that depend on nothing. -/
def freeModels (g : ResourceGraph) : List (Atom × Resource) :=
  g.entries.filter fun nr => nr.2.isFree

/-- The resources that are no models. -/
def others (g : ResourceGraph) : List (Atom × Resource) :=
  g.entries.filter fun nr => !nr.2.isModel

/-- Makes a resource depend on one parent alone. -/
def setParent (g : ResourceGraph) (parent child : Atom) : ResourceGraph :=
  match g.get? child with
  | some r => g.add child { r with dependsOn := [.atom parent] }
  | none => g

/-- Chains the resources of some names. -/
def chain (g : ResourceGraph) (names : List Atom) (width : Nat) : ResourceGraph :=
  (chainEdges width names).foldl (fun g pc => g.setParent pc.1 pc.2) g

/-- Puts the models of some names first, before the models that have dependencies and the other
resources of a graph. -/
def regrouped (free : List Atom) (before g : ResourceGraph) : Result ResourceGraph :=
  let order := free ++ before.boundModels.map (·.1) ++ before.others.map (·.1)
  g.reorder (order.filterMap fun name => (g.get? name).map fun r => (name, r))

/-- Chains the models that depend on nothing and puts them first, before the models that
had dependencies and the other resources; the number of new dependencies is told. -/
def chainFree (width : Nat) : Edit ResourceGraph Nat := do
  let g : ResourceGraph ← MonadState.get
  let free := g.freeModels.map (·.1)
  let chained := g.chain free width
  set chained
  set (← Edit.ofResult (regrouped free g chained))
  return (chainEdges width free).length

/-- Chains the models that depend on nothing, with the width that a value tells. -/
def chainModels (width : Value) : Edit ResourceGraph Nat := do
  chainFree (← Edit.ofResult (chainWidth width))

end ResourceGraph
end GatewayDocs

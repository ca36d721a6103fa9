import GatewayDocs.Template.Resource
import GatewayDocs.Text.Blank
import GatewayDocs.Text.Word

/-! # References between models

A schema refers to a model by a marker that names it, under the key `$ref`
(`markerName?`).  Resolving a schema puts the address of the model in the place of every
such text (`Value.resolveRefs`), wherever it stands, and tells which models were named, in
the order in which they were met (`Value.namedModels`).

A model resource whose schema is resolved depends on the models that it names, itself
excepted (`Resource.resolve`).  A part of the schema that also stands elsewhere is resolved
there too. -/

namespace GatewayDocs

/-- The key of a reference. -/
def refKey : String := "$ref"

/-- The opening of a marker. -/
def markerOpening : List Char := "\x7b\x7bmodel:".toList

/-- The closing of a marker. -/
def markerClosing : List Char := "\x7d\x7d".toList

/-- A character of the name in a marker. -/
def isNameChar (c : Char) : Bool := c = '-' || Text.isWord c

/-- The name in a marker that a text starts with. -/
def markerAt? (cs : List Char) : Option (List Char) :=
  if markerOpening.isPrefixOf cs then
    let rest := (cs.drop markerOpening.length).dropWhile Text.isBlank
    let (name, after) := rest.span isNameChar
    if name ≠ [] ∧ markerClosing.isPrefixOf after then some name else none
  else none

/-- The name in the first marker of a text. -/
def markerName? : List Char → Option (List Char)
  | [] => markerAt? []
  | c :: rest =>
    match markerAt? (c :: rest) with
    | some name => some name
    | none => markerName? rest

/-- The model that a text refers to. -/
def modelNamed? (s : String) : Option String := (markerName? s.toList).map String.ofList

/-- Where the models of interfaces are served. -/
def modelsBase : String := "https://apigateway.amazonaws.com/restapis"

/-- The address of a model of an interface. -/
def modelAddress (restApi : Value) (model : String) : Value :=
  .ofPairs [("Fn::Join",
    .list [.str "/", .list [.str modelsBase, restApi, .str "models", .str model]])]

/-- The name of the resource of a model. -/
def modelResourceName (model : String) : String := model ++ "Model"

/-- Whether a key is that of a reference. -/
def isRefKey : Atom → Bool
  | .str s => s = refKey
  | _ => false

namespace Value

mutual

/-- Puts addresses in the place of the references of a value.  Tuples and sets are left
alone. -/
def resolveRefs (restApi : Value) : Value → Value
  | .list items => .list (resolveItems restApi items)
  | .object fields => .object (resolveFields restApi fields)
  | .shared l v => .shared l (resolveRefs restApi v)
  | .atom a => .atom a
  | .tuple items => .tuple items
  | .set members => .set members
  | .knot l v => .knot l v
  | .again l => .again l

/-- Puts addresses in the place of the references of some items. -/
def resolveItems (restApi : Value) : List Value → List Value
  | [] => []
  | v :: rest => resolveRefs restApi v :: resolveItems restApi rest

/-- Puts addresses in the place of the references of some pairs. -/
def resolveFields (restApi : Value) : List (Atom × Value) → List (Atom × Value)
  | [] => []
  | (k, .str s) :: rest =>
    let v : Value :=
      if isRefKey k then
        match modelNamed? s with
        | some model => modelAddress restApi model
        | none => .str s
      else .str s
    (k, v) :: resolveFields restApi rest
  | (k, v) :: rest => (k, resolveRefs restApi v) :: resolveFields restApi rest

end

mutual

/-- The models that the references of a value name. -/
def namedModels : Value → List String
  | .list items => namedInItems items
  | .object fields => namedInFields fields
  | .shared _ v => namedModels v
  | .atom _ => []
  | .tuple _ => []
  | .set _ => []
  | .knot _ _ => []
  | .again _ => []

/-- The models that the references of some items name. -/
def namedInItems : List Value → List String
  | [] => []
  | v :: rest => namedModels v ++ namedInItems rest

/-- The models that the references of some pairs name. -/
def namedInFields : List (Atom × Value) → List String
  | [] => []
  | (k, .str s) :: rest =>
    (if isRefKey k then (modelNamed? s).toList else []) ++ namedInFields rest
  | (_, v) :: rest => namedModels v ++ namedInFields rest

end

mutual

/-- The labels in a value where references are looked for. -/
def labelsMet : Value → List Nat
  | .list items => labelsInItems items
  | .object fields => labelsInFields fields
  | .shared l v => l :: labelsMet v
  | .atom _ => []
  | .tuple _ => []
  | .set _ => []
  | .knot l _ => [l]
  | .again _ => []

/-- The labels in some items where references are looked for. -/
def labelsInItems : List Value → List Nat
  | [] => []
  | v :: rest => labelsMet v ++ labelsInItems rest

/-- The labels in some pairs where references are looked for. -/
def labelsInFields : List (Atom × Value) → List Nat
  | [] => []
  | (_, v) :: rest => labelsMet v ++ labelsInFields rest

end

mutual

/-- Puts addresses in the place of the references of what has one of some labels. -/
def resolveLabelled (restApi : Value) (labels : List Nat) : Value → Value
  | .shared l v =>
    .shared l (if labels.contains l then resolveRefs restApi v
      else resolveLabelled restApi labels v)
  | .list items => .list (resolveLabelledItems restApi labels items)
  | .tuple items => .tuple (resolveLabelledItems restApi labels items)
  | .object fields => .object (resolveLabelledFields restApi labels fields)
  | .atom a => .atom a
  | .set members => .set members
  | .knot l v => .knot l v
  | .again l => .again l

/-- Puts addresses in the place of the references of the labelled parts of some items. -/
def resolveLabelledItems (restApi : Value) (labels : List Nat) : List Value → List Value
  | [] => []
  | v :: rest => resolveLabelled restApi labels v :: resolveLabelledItems restApi labels rest

/-- Puts addresses in the place of the references of the labelled parts of some pairs. -/
def resolveLabelledFields (restApi : Value) (labels : List Nat) :
    List (Atom × Value) → List (Atom × Value)
  | [] => []
  | (k, v) :: rest =>
    (k, resolveLabelled restApi labels v) :: resolveLabelledFields restApi labels rest

end

mutual

/-- Whether there is a value that contains itself where references are looked for. -/
def meetsKnot : Value → Bool
  | .list items => itemsMeetKnot items
  | .object fields => fieldsMeetKnot fields
  | .shared _ v => meetsKnot v
  | .atom _ => false
  | .tuple _ => false
  | .set _ => false
  | .knot _ _ => true
  | .again _ => true

/-- Whether there is a value that contains itself in some items where references are looked
for. -/
def itemsMeetKnot : List Value → Bool
  | [] => false
  | v :: rest => meetsKnot v || itemsMeetKnot rest

/-- Whether there is a value that contains itself in some pairs where references are looked
for. -/
def fieldsMeetKnot : List (Atom × Value) → Bool
  | [] => false
  | (_, v) :: rest => meetsKnot v || fieldsMeetKnot rest

end

/-- Whether the references of a schema cannot all be resolved: the schema contains itself, or
it would when its address is put into itself. -/
def resolvesForever (schema restApi : Value) : Bool :=
  schema.meetsKnot ||
    match restApi.label? with
    | some (label, content) =>
      schema.labelsMet.contains label && !(namedModels content).isEmpty
    | none => false

/-- Whether a value is a text equal to a given one. -/
def isStr (s : String) : Value → Bool
  | .str t => t = s
  | _ => false

end Value

namespace Resource

/-- The key of the schema of a model. -/
def schemaKey : String := "Schema"

/-- Puts addresses in the place of references in all that has one of some labels, the schema
excepted. -/
def resolveLabelled (restApi : Value) (labels : List Nat) (r : Resource) : Resource :=
  if labels.isEmpty then r
  else
    let schema? := r.properties.field? schemaKey
    let resolved := r.mapValues (Value.resolveLabelled restApi labels)
    let keep (v : Value) : Value :=
      match schema? with
      | some schema => v.putPart (.key (.str schemaKey)) schema
      | none => v
    { resolved with properties := resolved.properties.inside keep }

/-- A resource with the references in its schema resolved. -/
def resolved (restApi schema : Value) (r : Resource) : Resource :=
  let own := (r.properties.field? "Name").getD .null
  let others := schema.namedModels.filter fun model => !own.isStr model
  let written := (r.resolveLabelled restApi schema.labelsMet).changeProperties []
    fun v => v.putPart (.key (.str schemaKey)) (Value.resolveRefs restApi schema)
  written.addDependencies (others.map modelResourceName)

/-- Resolves the references in the schema of a resource. -/
def resolve (restApi : Value) (r : Resource) : Result Resource := do
  let schema := (← r.properties.asObject).get schemaKey
  if !schema.truthy then return r
  else if schema.resolvesForever restApi then throw .unending
  else return r.resolved restApi schema

end Resource
end GatewayDocs

import GatewayDocs.Proofs.Dependencies
import GatewayDocs.Proofs.References
import GatewayDocs.Proofs.Section

/-! # The models of an interface description

The definitions of a description, and the schemas of its bodies and responses, become models whose
resources refer to each other.  Each schema goes through two rewritings on the way, one when the
model is made and one when its resource is; what comes out is the schema as it was given, with the
address of its referent in the place of each reference, and a dependency on every referent but the
model itself (`Resource.Refers`).  The result for all models is `Swagger.references_resolved`. -/

namespace GatewayDocs

namespace Resource
variable {r : Resource} {gs : Fields} {names : List String} {kind : String} {d : Value}

/-- A resource is that of a model whose schema was given with references: they have become the
addresses of their referents, and the resource depends once on each of these but itself. -/
structure Refers (restApi : Value) (name : String) (schema : Value) (r : Resource) : Prop where
  kind : r.kind = .str modelKind
  named : r.properties.field? "Name" = some (.str name)
  addressed : r.properties.field? schemaKey = some (Value.addressed restApi schema)
  /-- No reference is left that has a referent, but for those that came with the interface. -/
  resolved : ∀ s ∈ (Value.addressed restApi schema).refTexts,
    s ∈ restApi.refTexts ∨ referent? s = none
  once : r.dependsOn.Nodup
  dependsOn : ∀ d, d ∈ r.dependsOn ↔
    ∃ n, (∃ s ∈ schema.refTexts, referent? s = some n) ∧ n ≠ name ∧ d = .str (modelResourceName n)

end Resource

/-- A value, or an empty object if it is absent. -/
def Value.orEmpty : Value → Value
  | .null => .object []
  | v => v

namespace Swagger
variable {restApi v definition definitions container description schema : Value}
  {name fallback : String} {m : ModelDescriptor} {models models' : List ModelDescriptor}

theorem markedSchema_eq_ok : markedSchema v = .ok schema ↔
    v.meetsKnot = false ∧ schema = v.markRefs := by
  unfold markedSchema
  cases v.meetsKnot with
  | true => exact ⟨fun h => (nomatch h), fun h => (nomatch h.1)⟩
  | false => exact ⟨fun h => ⟨rfl, (Except.ok.inj h).symm⟩, fun h => congrArg Except.ok h.2.symm⟩

theorem describedModel_eq_ok (h : describedModel name description schema = .ok m) :
    m.name = name ∧ m.schema = schema := by
  obtain ⟨d, -, h⟩ := Result.bind_eq_ok.mp h
  rw [← Except.ok.inj h]
  exact ⟨rfl, rfl⟩

theorem modelOfDefinition_eq_ok (h : modelOfDefinition name definition = .ok m) :
    definition.meetsKnot = false ∧ m.name = name ∧ m.schema = definition.markRefs := by
  obtain ⟨schema, hschema, h⟩ := Result.bind_eq_ok.mp h
  obtain ⟨hk, rfl⟩ := markedSchema_eq_ok.mp hschema
  exact ⟨hk, describedModel_eq_ok h⟩

theorem modelsOfDefinitions_eq (definitions : Value) : modelsOfDefinitions definitions =
    (if definitions.truthy then definitions.asObject else .ok []) >>= fun fields =>
      fields.mapM fun kv => modelOfDefinition kv.1.spelled kv.2 := by
  unfold modelsOfDefinitions
  cases definitions.truthy <;> rfl

/-- The models of definitions are those of its entries, one by one. -/
theorem modelsOfDefinitions_eq_ok (h : modelsOfDefinitions definitions = .ok models) :
    List.Forall₂ (fun kv m => modelOfDefinition kv.1.spelled kv.2 = .ok m)
      (definitions.fields?.getD []) models := by
  rw [modelsOfDefinitions_eq] at h
  obtain ⟨fields, hfields, h⟩ := Result.bind_eq_ok.mp h
  rw [ResourceGraph.fields?_of_orEmpty hfields]
  exact Result.mapM_eq_ok.mp h

/-- The schema of a body or response, which is empty if none is given. -/
def givenSchema (container : Value) : Value :=
  let given := container.fieldOrNull "schema"
  if given.truthy then given else .object []

/-- The model that a schema refers to as a whole. -/
def wholeReference? (schema : Value) : Option String :=
  match schema.fieldOrNull refKey with
  | .str s => definitionNamed? s
  | _ => none

/-- The schema of an object is a reference as a whole, or a model is made of it. -/
theorem schemaModel_eq {fields : Fields} (h : container.asObject = .ok fields) :
    schemaModel container fallback = (wholeReference? (givenSchema container)).elim
      (do
        let marked ← Edit.ofResult (markedSchema (givenSchema container))
        let m ← Edit.ofResult (describedModel fallback (fields.get "description") marked)
        modify (· ++ [m])
        return fallback)
      pure := by
  have hschema : (if (fields.get "schema").truthy then fields.get "schema" else .object []) =
      givenSchema container := by
    rw [givenSchema, Value.fieldOrNull_of_asObject h]
  unfold schemaModel
  rw [h, Edit.ofResult_ok, pure_bind]
  dsimp only
  rw [hschema]
  split
  · rename_i name hname
    have hreferred : wholeReference? (givenSchema container) = some name := hname
    rw [hreferred]
    rfl
  · rename_i hname
    have hreferred : wholeReference? (givenSchema container) = none := hname
    rw [hreferred]
    rfl

/-- A schema that is no reference becomes a model; a reference stands for the model that it
names. -/
theorem schemaModel_eq_ok (h : schemaModel container fallback models = .ok name models') :
    (models' = models ∧ wholeReference? (givenSchema container) = some name) ∨
      (name = fallback ∧ (givenSchema container).meetsKnot = false ∧
        ∃ m, models' = models ++ [m] ∧ m.name = fallback ∧
          m.schema = (givenSchema container).markRefs) := by
  obtain ⟨fields, hobject⟩ : ∃ fields, container.asObject = .ok fields := by
    obtain ⟨fields, _, hfields, -⟩ := Edit.bind_eq_ok.mp h
    exact ⟨fields, (Edit.ofResult_eq_ok.mp hfields).1⟩
  rw [schemaModel_eq hobject] at h
  cases hreferred : wholeReference? (givenSchema container) with
  | some model =>
    rw [hreferred] at h
    cases h
    exact .inl ⟨rfl, rfl⟩
  | none =>
    rw [hreferred] at h
    obtain ⟨schema, _, hschema, h₁⟩ := Edit.bind_eq_ok.mp h
    obtain ⟨hmarked, rfl⟩ := Edit.ofResult_eq_ok.mp hschema
    obtain ⟨m, _, hm, h₂⟩ := Edit.bind_eq_ok.mp h₁
    obtain ⟨hmodel, rfl⟩ := Edit.ofResult_eq_ok.mp hm
    cases h₂
    obtain ⟨hk, rfl⟩ := markedSchema_eq_ok.mp hmarked
    exact .inr ⟨rfl, hk, m, rfl, describedModel_eq_ok hmodel⟩

/-! ### Their resources -/

/-- Two definitions, of which one refers to the other twice, to itself, and to a model by its
marker. -/
def petDefinitions : Value :=
  .ofPairs [
    ("Owner", .null),
    ("Pet", .ofPairs [("properties", .ofPairs [
      ("owner", .ofPairs [("$ref", .str "#/definitions/Owner")]),
      ("friends", .ofPairs [("items", .list [.ofPairs [("$ref", .str "#/definitions/Pet")]])]),
      ("home", .ofPairs [("$ref", .str "\x7b\x7bmodel: Home\x7d\x7d")]),
      ("keeper", .ofPairs [("$ref", .str "#/definitions/Owner")])])])]

end Swagger
end GatewayDocs

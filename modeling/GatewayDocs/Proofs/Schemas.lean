import GatewayDocs.Proofs.Definitions
import GatewayDocs.Proofs.Parts

/-! # The schemas of a service from JSON

The models of a service that comes from JSON have schemas that come from JSON
(`Compile.isJson_schema_of_readService`): those that are declared are parts of the service, and
those of an embedded description are parts of it with markers in the place of some texts.  In such a
schema nothing stands in several places or contains itself, so the resource of the model can be
made, whatever the interface is (`Compile.exists_toResources`). -/

namespace GatewayDocs

/-! ### What a value hands down -/

namespace Hereditary
variable {P : Value → Prop} {v w : Value} {key : String}

/-- The value under a key of an object, which may be absent. -/
theorem fieldOrNull (hP : Hereditary P) (hnull : P .null) (hv : P v) : P (v.fieldOrNull key) := by
  unfold Value.fieldOrNull
  cases hw : v.field? key with
  | none => exact hnull
  | some w =>
    obtain ⟨fs, hfs, hget⟩ := Option.bind_eq_some_iff.mp hw
    exact hP.get? hv hfs hget

theorem field (hP : Hereditary P) (hnull : P .null) (hv : P v) (h : v.field key = .ok w) : P w := by
  obtain ⟨fs, hfs, hget⟩ := Result.bind_eq_ok.mp h
  have hw : v.fieldOrNull key = w :=
    (Value.fieldOrNull_of_asObject hfs key).trans (Except.ok.inj hget)
  exact hw ▸ hP.fieldOrNull hnull hv

/-- The values of the pairs that there are. -/
theorem pairs (hP : Hereditary P) (hv : P v) : ∀ kv ∈ v.fields?.getD [], P kv.2 := by
  intro kv hkv
  cases hfs : v.fields? with
  | none =>
    rw [hfs] at hkv
    cases hkv
  | some fs =>
    rw [hfs] at hkv
    exact hP.fields hfs hv kv hkv

end Hereditary

namespace Value
variable {v x : Value} {items xs : List Value} {fields : Fields} {f : String → Option Value}

/-! ### Values from JSON where references are looked for -/

theorem meetsKnot_of_isJson (h : v.isJson = true) : v.meetsKnot = false := by
  refine isJson_induction (P := fun v => v.meetsKnot = false) ?_ ?_ ?_ h
  · intro a _
    rw [meetsKnot]
  · intro items ih
    rw [meetsKnot_list]
    exact List.any_eq_false.mpr fun v hv => Bool.eq_false_iff.mp (ih v hv)
  · intro fields ih
    rw [meetsKnot_object]
    exact List.any_eq_false.mpr fun kv hkv => Bool.eq_false_iff.mp (ih kv hkv).2

theorem labelsMet_of_isJson (h : v.isJson = true) : v.labelsMet = [] := by
  refine isJson_induction (P := fun v => v.labelsMet = []) ?_ ?_ ?_ h
  · intro a _
    rw [labelsMet]
  · intro items ih
    rw [labelsMet_list]
    exact List.flatMap_eq_nil_iff.mpr ih
  · intro fields ih
    rw [labelsMet_object]
    exact List.flatMap_eq_nil_iff.mpr fun kv hkv => (ih kv hkv).2

/-- A value from JSON whose references are replaced by values from JSON comes from JSON. -/
theorem isJson_replaceRefs (hf : ∀ s x, f s = some x → x.isJson = true) (h : v.isJson = true) :
    (replaceRefs f v).isJson = true := by
  refine isJson_induction (P := fun v => (replaceRefs f v).isJson = true) ?_ ?_ ?_ h
  · intro a ha
    rw [replaceRefs_leaf rfl]
    exact ha
  · intro items ih
    rw [replaceRefs_list]
    exact isJson_list.mpr (List.forall_mem_map.mpr ih)
  · intro fields ih
    rw [replaceRefs_object]
    refine isJson_object.mpr fun kw hkw => ?_
    obtain ⟨kv, hkv, rfl⟩ := List.mem_map.mp hkw
    obtain ⟨hk, hv⟩ := ih kv hkv
    refine ⟨hk, ?_⟩
    cases htext : refText? kv.1 kv.2 with
    | none =>
      rw [replacePair_of_none htext]
      exact hv
    | some s =>
      rw [replacePair_of_some htext]
      cases hs : f s with
      | none => rfl
      | some x => exact hf s x hs

theorem isJson_markRefs (h : v.isJson = true) : v.markRefs.isJson = true := by
  rw [markRefs_eq]
  refine isJson_replaceRefs (fun s x hx => ?_) h
  rw [← Option.some.inj hx]
  rfl

/-- What is met going through a value from JSON comes from JSON. -/
theorem isJson_of_mem_members (h : v.isJson = true) (hxs : v.members = .ok xs) (hx : x ∈ xs) :
    x.isJson = true := by
  cases v with
  | list items =>
    cases hxs
    exact isJson_list.mp h x hx
  | object fields =>
    cases hxs
    obtain ⟨kv, hkv, rfl⟩ := List.mem_map.mp hx
    obtain ⟨⟨s, hs⟩, -⟩ := isJson_object.mp h kv hkv
    rw [hs]
    rfl
  | atom a =>
    cases a with
    | str s =>
      cases hxs
      obtain ⟨c, -, rfl⟩ := List.mem_map.mp hx
      rfl
    | bytes _ => cases h
    | _ => cases hxs
  | _ => cases h

end Value

/-! ### The documentation section -/

/-- The schemas of some models come from JSON. -/
def JsonSchemas (models : List ModelDescriptor) : Prop := ∀ m ∈ models, m.schema.isJson = true

/-- The parts of a documentation section of which models are made come from JSON. -/
structure DocumentationConfig.JsonModels (c : DocumentationConfig) : Prop where
  models : JsonSchemas c.models
  definitions : ((c.definitions.map Value.object).getD .null).isJson = true
  paths : (Value.object c.paths).isJson = true

open Shape in
theorem ModelDescriptor.schema_hands : Hands (fun v => v.isJson = true)
    (fun m : ModelDescriptor => m.schema.isJson = true) ModelDescriptor.ofValue := by
  refine record_hands Value.hereditary_isJson fun {fs m} hfs h => ?_
  refine optional_hands (Q := fun v : Value => v.isJson = true) (fun v w hv hw => ?_) rfl hfs
    (ofFields_eq_ok.mp h).schema
  exact Checked.ok.inj hw ▸ hv

open Shape in
theorem DocumentationConfig.jsonModels_hands : Hands (fun v => v.isJson = true)
    DocumentationConfig.JsonModels DocumentationConfig.ofValue := by
  refine openRecord_hands Value.hereditary_isJson fun {fs c} hfs h => ?_
  have hread := ofFields_eq_ok.mp h
  have hmap := mapOf_hands Value.hereditary_isJson
  have hgiven : ∀ fields ∈ c.definitions, Fields.Texts (fun v => v.isJson = true) fields :=
    optional_hands (Q := fun o : Option Fields => ∀ fields ∈ o, fields.Texts _)
      (orNull_hands hmap) (by simp) hfs hread.definitions
  have hdeclared : JsonSchemas c.models := optional_hands (Q := JsonSchemas)
    (listOf_hands Value.hereditary_isJson ModelDescriptor.schema_hands)
    (List.forall_mem_nil _) hfs hread.models
  refine ⟨hdeclared, ?_, Value.isJson_object.mpr ?_⟩
  · cases hdefinitions : c.definitions with
    | none => rfl
    | some fields => exact Value.isJson_object.mpr (hgiven fields hdefinitions)
  · exact optional_hands (Q := Fields.Texts _) hmap (by simp [Fields.Texts]) hfs hread.paths

/-! ### Models of an embedded description -/

namespace Swagger
variable {container operation parameter definitions paths : Value} {base fallback name : String}
  {d d' : EndpointDocumentation} {models models' : List ModelDescriptor} {e : HttpEvent}
  {events : List HttpEvent}

theorem isJson_givenSchema (h : container.isJson = true) :
    (givenSchema container).isJson = true := by
  unfold givenSchema
  dsimp only
  split
  · exact Value.hereditary_isJson.fieldOrNull rfl h
  · rfl

theorem jsonSchemas_of_modelsOfDefinitions (hd : definitions.isJson = true)
    (h : modelsOfDefinitions definitions = .ok models) : JsonSchemas models := by
  have hpairs := Value.hereditary_isJson.pairs hd
  have hall := modelsOfDefinitions_eq_ok h
  clear h
  generalize definitions.fields?.getD [] = fields at hall hpairs
  intro m hm
  induction hall with
  | nil => cases hm
  | cons hfirst _ ih =>
    obtain ⟨hv, hrest⟩ := List.forall_mem_cons.mp hpairs
    rcases List.mem_cons.mp hm with rfl | hm
    · rw [(modelOfDefinition_eq_ok hfirst).2.2]
      exact Value.isJson_markRefs hv
    · exact ih hrest hm

theorem jsonSchemas_of_schemaModel (hm : JsonSchemas models) (hc : container.isJson = true)
    (h : schemaModel container fallback models = .ok name models') : JsonSchemas models' := by
  rcases schemaModel_eq_ok h with ⟨rfl, -⟩ | ⟨-, -, m, rfl, -, hschema⟩
  · exact hm
  · intro n hn
    rcases List.mem_append.mp hn with hn | hn
    · exact hm n hn
    · rw [List.mem_singleton.mp hn, hschema]
      exact Value.isJson_markRefs (isJson_givenSchema hc)

theorem ParameterStep.jsonSchemas (hstep : ParameterStep base parameter d models d' models')
    (hp : parameter.isJson = true) (hm : JsonSchemas models) : JsonSchemas models' := by
  cases hstep with
  | more | other => exact hm
  | body _ hname => exact jsonSchemas_of_schemaModel hm hp hname

theorem ResponseStep.jsonSchemas {response : Atom × Value}
    (hstep : ResponseStep base response d models d' models') (hr : response.2.isJson = true)
    (hm : JsonSchemas models) : JsonSchemas models' := by
  obtain ⟨-, hrefs⟩ := hstep
  cases hrefs with
  | schema _ hname => exact jsonSchemas_of_schemaModel hm hr hname
  | bare => exact hm

theorem jsonSchemas_of_documentation (hm : JsonSchemas models) (ho : operation.isJson = true)
    (h : documentation operation base models = .ok d models') : JsonSchemas models' := by
  have hpart : ∀ key, (operation.fieldOrNull key).isJson = true := fun key =>
    Value.hereditary_isJson.fieldOrNull rfl ho
  refine documentation_keeps (I := fun _ => JsonSchemas) h (fun _ _ => hm) ?_ ?_
  · intro p d models d' models' hp hm hstep
    obtain ⟨ps, hps, hmem⟩ := exists_of_mem_parametersOf hp
    exact hstep.jsonSchemas (Value.isJson_of_mem_members (hpart "parameters") hps hmem) hm
  · intro kv d models d' models' hkv hm hstep
    exact hstep.jsonSchemas (Value.hereditary_isJson.pairs (hpart "responses") kv hkv) hm

/-- The operation of an event is a part of the paths. -/
theorem hold_of_operation? {P : Value → Prop} (hP : Hereditary P) (hnull : P .null) (hp : P paths)
    (h : operation? paths e = .ok (some operation)) : P operation := by
  obtain ⟨item, hitem, h₁⟩ := Result.bind_eq_ok.mp h
  split at h₁
  · obtain ⟨given, hgiven, h₂⟩ := Result.bind_eq_ok.mp h₁
    split at h₂
    · cases h₂
      exact hP.field hnull (hP.field hnull hp hitem) hgiven
    · cases h₂
  · cases h₁

theorem jsonSchemas_of_documentEvents (hp : paths.isJson = true) (hm : JsonSchemas models)
    (h : (documentEvents paths events models).2 = .ok models') : JsonSchemas models' := by
  refine (documentEvents_keeps (E := fun _ => True) (I := JsonSchemas) ?_ hm h).2
  intro e models e' models' _ hm hstep
  cases hstep with
  | undescribed => exact ⟨trivial, hm⟩
  | described hfound hd =>
    have ho := hold_of_operation? Value.hereditary_isJson rfl hp hfound
    exact ⟨trivial, jsonSchemas_of_documentation hm ho hd⟩

end Swagger

/-! ### The resources of the models -/

/-- The resource of a model whose schema comes from JSON can be made. -/
theorem ModelDescriptor.exists_toResource_of_isJson {m : ModelDescriptor}
    (h : m.schema.isJson = true) (restApi : Value) : ∃ r, m.toResource restApi = .ok r := by
  have hown : (Resource.ownSchema m).isJson = true := by
    unfold Resource.ownSchema
    split
    · rfl
    · exact h
  have hends : (Resource.ownSchema m).resolvesForever restApi = false := by
    unfold Value.resolvesForever
    rw [Value.meetsKnot_of_isJson hown, Value.labelsMet_of_isJson hown]
    cases restApi.label? <;> rfl
  obtain ⟨gs, hr, -⟩ := Resource.exists_toResource fun _ => hends
  exact ⟨_, hr⟩

namespace Compile
variable {service : Value} {source : Source}

/-- **The models of a service that comes from JSON have schemas that come from JSON.** -/
theorem isJson_schema_of_readService (hs : service.isJson = true)
    (h : readService service = .ok (some source)) : JsonSchemas source.models := by
  obtain ⟨config, events, models, hconfig, -, hmodels, rfl⟩ := readService_eq_ok.mp h
  obtain ⟨raw, hraw, hsection⟩ := exists_section Value.hereditary_isJson hs hconfig
  have hjson := DocumentationConfig.jsonModels_hands hraw hsection
  unfold sources at hmodels
  split at hmodels
  · unfold Swagger.apply at hmodels
    dsimp only at hmodels
    split at hmodels
    · rename_i defined hdefined
      exact Swagger.jsonSchemas_of_documentEvents hjson.paths
        (Swagger.jsonSchemas_of_modelsOfDefinitions hjson.definitions hdefined) hmodels
    · cases hmodels
  · exact Except.ok.inj hmodels ▸ hjson.models

/-- **The resources of the models of a service that comes from JSON can be made.** -/
theorem exists_toResources (hs : service.isJson = true)
    (h : readService service = .ok (some source)) (restApi : Value) :
    ∃ rs, ModelDescriptor.toResources restApi source.models = .ok rs := by
  obtain ⟨rs, hrs, -⟩ := Result.exists_mapM (R := fun _ (_ : Atom × Resource) => True)
    (f := fun m : ModelDescriptor => do return (.str m.resourceName, ← m.toResource restApi))
    fun m hm => by
      obtain ⟨r, hr⟩ := ModelDescriptor.exists_toResource_of_isJson
        (isJson_schema_of_readService hs h m hm) restApi
      exact ⟨(.str m.resourceName, r), by rw [hr]; rfl, trivial⟩
  exact ⟨rs, hrs⟩

end Compile
end GatewayDocs

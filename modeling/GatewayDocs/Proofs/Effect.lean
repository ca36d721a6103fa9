import GatewayDocs.Proofs.Merge

/-! # The effect of documenting a method

A documentation writes into three parts of the properties of a method: the responses, the models of
the request and the parameters of the request (`performs_augment`).  What it does to each of them,
to the dependencies and to nothing else is its effect (`Resource.Effect`,
`Resource.effect_of_augment`).

The writes of request parameters come last and stay under one key, so a run in safe mode is a run
without safe mode that stops before them: it succeeds where the other one does, and differs from it
in the request parameters alone (`Resource.exists_safe`).

What stands in two places has its effect in both: request parameters that are those of another
property too change that property (`Resource.augment_reaches_shared`). -/

namespace GatewayDocs
open CompileSettings (subsection)

/-! ### What a documentation gives -/

namespace EndpointDocumentation

/-- Whether a documentation tells any request parameters. -/
def tellsParameters (d : EndpointDocumentation) : Bool :=
  !d.headers.isEmpty || (!d.queryParameters.isEmpty || !d.pathParameters.isEmpty)

/-- Whether a parameter is told to be required. -/
def isRequired (p : Parameter) : Bool := p.required = some true

/-- The value that a documentation gives to a request parameter. -/
def parameterValue? (d : EndpointDocumentation) (key : String) : Option Value :=
  (Parameter.value? Resource.requestHeaderPlace isRequired d.headers key).or
    ((Parameter.value? Resource.queryPlace isRequired d.queryParameters key).or
      (Parameter.value? Resource.pathPlace isRequired d.pathParameters key))

/-- The writes of all request parameters. -/
def parameterWrites (d : EndpointDocumentation) : List Write :=
  requestWrites Resource.requestHeaderPlace d.headers ++
    (requestWrites Resource.queryPlace d.queryParameters ++
      requestWrites Resource.pathPlace d.pathParameters)

/-- The writes of the request parameters that are added, which in safe mode are none. -/
def addedWrites (safeMode : Bool) (d : EndpointDocumentation) : List Write :=
  if safeMode then [] else d.parameterWrites

theorem writes_eq (safeMode : Bool) (d : EndpointDocumentation) :
    d.writes safeMode = d.responseWrites ++ (d.modelWrites ++ d.addedWrites safeMode) :=
  List.append_assoc _ _ _

/-- Without safe mode the writes of request parameters come after those of safe mode. -/
theorem writes_false (d : EndpointDocumentation) :
    d.writes false = d.writes true ++ d.parameterWrites := by
  rw [writes_eq, writes_eq]
  unfold addedWrites
  rw [if_pos rfl, List.append_nil, List.append_assoc]
  rfl

end EndpointDocumentation

namespace Write
variable {keys : List String} {key : String} {ws : List Write} {u v : Value}

/-- Writes under some keys make an object of an object. -/
theorem exists_object_of_under {fs : Fields} (hws : ∀ w ∈ ws, w.Under keys)
    (h : runAll ws (.object fs) = .ok u) : ∃ gs, u = .object gs := by
  induction ws generalizing fs with
  | nil => exact ⟨fs, (Except.ok.inj h).symm⟩
  | cons w ws ih =>
    obtain ⟨x, hx, hrest⟩ := runAll_cons_iff.mp h
    obtain ⟨k, -, d, inner, rfl⟩ := hws w List.mem_cons_self
    obtain ⟨_, _, -, -, rfl⟩ := run_field_iff.mp hx
    exact ih (fun w hw => hws w (List.mem_cons_of_mem _ hw)) hrest

/-- Writes under some keys leave what is under another one. -/
theorem field?_runAll (hws : ∀ w ∈ ws, w.Under keys) (hkey : key ∉ keys)
    (h : runAll ws v = .ok u) : u.field? key = v.field? key :=
  Value.field?_of_others hkey (others_runAll hws h)

end Write

/-! ### The three parts -/

namespace EndpointDocumentation
variable {d : EndpointDocumentation} {safeMode : Bool} {u v : Value}

theorem under_responseWrites : ∀ w ∈ d.responseWrites, w.Under [Resource.responsesKey] := by
  intro w hw
  unfold responseWrites at hw
  by_cases hne : d.responses.isEmpty = true
  · rw [if_pos hne] at hw
    cases hw
  · rw [if_neg hne] at hw
    rcases List.mem_cons.mp hw with rfl | hw
    · exact ⟨_, List.mem_cons_self, _, _, rfl⟩
    · obtain ⟨m, -, hw⟩ := List.mem_flatMap.mp hw
      exact Write.under_map_field _ List.mem_cons_self w hw

theorem under_modelWrites : ∀ w ∈ d.modelWrites, w.Under ["RequestModels"] := by
  intro w hw
  unfold modelWrites at hw
  by_cases hne : d.models.isEmpty = true
  · rw [if_pos hne] at hw
    cases hw
  · rw [if_neg hne] at hw
    exact ⟨_, List.mem_cons_self, _, _, List.mem_singleton.mp hw⟩

theorem under_parameterWrites : ∀ w ∈ d.parameterWrites, w.Under ["RequestParameters"] := by
  intro w hw
  rcases List.mem_append.mp hw with hw | hw
  · exact Write.under_map_field _ List.mem_cons_self w hw
  · rcases List.mem_append.mp hw with hw | hw
    · exact Write.under_map_field _ List.mem_cons_self w hw
    · exact Write.under_map_field _ List.mem_cons_self w hw

/-- The models of the request are replaced, if there are any. -/
theorem field?_modelWrites (h : Write.runAll d.modelWrites v = .ok u) :
    u.field? "RequestModels" =
      if d.models.isEmpty then v.field? "RequestModels" else some (.object d.models.targets) := by
  unfold modelWrites at h
  by_cases hne : d.models.isEmpty = true
  · rw [if_pos hne] at h ⊢
    rw [Except.ok.inj h]
  · rw [if_neg hne, Write.runAll_singleton] at h
    obtain ⟨fs, x, rfl, hput, rfl⟩ := Write.run_field_iff.mp h
    obtain rfl : Value.object d.models.targets = x := Except.ok.inj hput
    rw [if_neg hne]
    exact Pairs.lookup_put_self

/-- The request parameters keep what is there, and get what the documentation gives. -/
theorem partBecomes_parameterWrites (h : Write.runAll d.parameterWrites v = .ok u) :
    Value.PartBecomes "RequestParameters" d.tellsParameters
      (fun name old => old.or (d.parameterValue? name)) v u := by
  obtain ⟨x, hheaders, hrest⟩ := Write.runAll_append_iff.mp h
  obtain ⟨y, hquery, hpath⟩ := Write.runAll_append_iff.mp hrest
  have hall := (Value.partBecomes_parameters hheaders).trans
    ((Value.partBecomes_parameters hquery).trans (Value.partBecomes_parameters hpath))
  refine hall.congr fun name old => ?_
  rw [Option.or_assoc, Option.or_assoc]
  rfl

theorem under_addedWrites : ∀ w ∈ d.addedWrites safeMode, w.Under ["RequestParameters"] := by
  intro w hw
  unfold addedWrites at hw
  by_cases hsafe : safeMode = true
  · rw [if_pos hsafe] at hw
    cases hw
  · rw [if_neg hsafe] at hw
    exact under_parameterWrites w hw

/-- In safe mode the request parameters are left alone. -/
theorem partBecomes_addedWrites (h : Write.runAll (d.addedWrites safeMode) v = .ok u) :
    Value.PartBecomes "RequestParameters" (!safeMode && d.tellsParameters)
      (fun name old => old.or (if safeMode then none else d.parameterValue? name)) v u := by
  unfold addedWrites at h
  by_cases hsafe : safeMode = true
  · subst hsafe
    rw [if_pos rfl] at h
    obtain rfl : v = u := Except.ok.inj h
    exact (Value.PartBecomes.of_field?_eq rfl).congr fun name old => Option.or_none.symm
  · obtain rfl : safeMode = false := Bool.eq_false_iff.mpr hsafe
    exact partBecomes_parameterWrites h

end EndpointDocumentation

/-! ### The effect -/

namespace Resource
variable {r r' r₁ r₂ : Resource} {d : EndpointDocumentation} {safeMode : Bool}

/-- What a documentation does to a method resource. -/
structure Effect (d : EndpointDocumentation) (safeMode : Bool) (r r' : Resource) : Prop where
  kind : r'.kind = r.kind
  extra : r'.extra = r.extra
  object : ∀ fs, r.properties = .object fs → ∃ gs, r'.properties = .object gs
  /-- Properties but for three are as they were. -/
  own : r'.ownProperties = r.ownProperties
  /-- What is referred to directly and not listed yet is depended on, once each; what is imported
  is not. -/
  dependsOn : r'.dependsOn =
    r.dependsOn ++ (r.newNames (d.references.map modelResourceName)).map .str
  models : r'.properties.field? "RequestModels" =
    if d.models.isEmpty then r.properties.field? "RequestModels"
    else some (.object d.models.targets)
  /-- What is imported for the request is written as its identifier. -/
  imported : ∀ contentType identifier, (contentType, .imported identifier) ∈ d.models →
    ∃ gs, r'.properties.field? "RequestModels" = some (.object gs) ∧
      (contentType, identifier.copied) ∈ gs
  /-- Parameters that are there keep their values; in safe mode none are added. -/
  parameters : Value.PartBecomes "RequestParameters" (!safeMode && d.tellsParameters)
    (fun name old => old.or (if safeMode then none else d.parameterValue? name))
    r.properties r'.properties
  responses : ∀ items, (r.properties.field? responsesKey).getD (.list []) = .list items →
    ∃ items', (r'.properties.field? responsesKey).getD (.list []) = .list items' ∧
      Response.MergedInto d.responses items items'

/-- A resource that was documented in safe mode differs from one that was documented without it in
the request parameters alone, which are as they were. -/
structure Spares (r r₁ r₂ : Resource) : Prop where
  untouched : r₁.properties.field? "RequestParameters" = r.properties.field? "RequestParameters"
  others : Fields.others ["RequestParameters"] (r₁.properties.fields?.getD []) =
    Fields.others ["RequestParameters"] (r₂.properties.fields?.getD [])
  kind : r₁.kind = r₂.kind
  extra : r₁.extra = r₂.extra
  dependsOn : r₁.dependsOn = r₂.dependsOn

theorem mem_targets_of_imported {refs : ModelRefs} {contentType : Atom} {identifier : Value}
    (h : (contentType, ModelRef.imported identifier) ∈ refs) :
    (contentType, identifier.copied) ∈ refs.targets :=
  List.mem_map.mpr ⟨_, h, rfl⟩

/-- Documentation that succeeds has its effect. -/
theorem effect_of_augment (ht : d.Texts) (hc : methodOutline.Clear r.properties)
    (h : augment d safeMode r = .ok () r') : Effect d safeMode r r' := by
  obtain ⟨v, hv, rfl⟩ := (augment_iff ht hc).mp h
  have hproperties : ((r.setProperties v).addDependencies d.dependencies).properties = v :=
    properties_addDependencies
  have hsplit := hv
  rw [d.writes_eq] at hsplit
  obtain ⟨x, hresponses, hrest⟩ := Write.runAll_append_iff.mp hsplit
  obtain ⟨y, hmodels, hparameters⟩ := Write.runAll_append_iff.mp hrest
  -- each part is written once, and the writes of the other parts leave it
  have hfield : v.field? "RequestModels" =
      if d.models.isEmpty then r.properties.field? "RequestModels"
      else some (.object d.models.targets) := by
    rw [Write.field?_runAll EndpointDocumentation.under_addedWrites (by decide) hparameters,
      EndpointDocumentation.field?_modelWrites hmodels,
      Write.field?_runAll EndpointDocumentation.under_responseWrites (by decide) hresponses]
  have hbefore : y.field? "RequestParameters" = r.properties.field? "RequestParameters" := by
    rw [Write.field?_runAll EndpointDocumentation.under_modelWrites (by decide) hmodels,
      Write.field?_runAll EndpointDocumentation.under_responseWrites (by decide) hresponses]
  have hafter : v.field? responsesKey = x.field? responsesKey := by
    rw [Write.field?_runAll EndpointDocumentation.under_addedWrites (by decide) hparameters,
      Write.field?_runAll EndpointDocumentation.under_modelWrites (by decide) hmodels]
  constructor
  · rw [kind_addDependencies]
    rfl
  · rw [extra_addDependencies]
    rfl
  · intro fs hfs
    rw [hproperties]
    exact Write.exists_object_of_under EndpointDocumentation.under_writes (hfs ▸ hv)
  · unfold ownProperties
    rw [hproperties]
    exact Write.others_runAll EndpointDocumentation.under_writes hv
  · rw [dependsOn_addDependencies, EndpointDocumentation.dependencies_eq]
    rfl
  · rw [hproperties]
    exact hfield
  · intro contentType identifier hmem
    have hne : ¬ d.models.isEmpty = true := by
      rw [List.isEmpty_iff]
      exact List.ne_nil_of_mem hmem
    rw [hproperties]
    exact ⟨_, hfield.trans (if_neg hne), mem_targets_of_imported hmem⟩
  · rw [hproperties]
    exact (EndpointDocumentation.partBecomes_addedWrites hparameters).of_fields hbefore.symm rfl
  · intro items hitems
    rw [hproperties, hafter]
    exact Response.mergedInto_of_responseWrites ht.2 hitems hresponses

/-- Where documentation succeeds, it does so in safe mode too. -/
theorem exists_safe (ht : d.Texts) (hc : methodOutline.Clear r.properties)
    (h : augment d false r = .ok () r₂) : ∃ r₁, augment d true r = .ok () r₁ ∧ Spares r r₁ r₂ := by
  obtain ⟨v, hv, rfl⟩ := (augment_iff ht hc).mp h
  rw [d.writes_false] at hv
  obtain ⟨x, hx, hparameters⟩ := Write.runAll_append_iff.mp hv
  have hok := (augment_iff ht hc).mpr ⟨x, hx, rfl⟩
  refine ⟨_, hok, (effect_of_augment ht hc hok).parameters.untouched rfl, ?_, ?_, ?_, ?_⟩
  · rw [properties_addDependencies, properties_addDependencies]
    exact (Write.others_runAll EndpointDocumentation.under_parameterWrites hparameters).symm
  · rw [kind_addDependencies, kind_addDependencies]
    rfl
  · rw [extra_addDependencies, extra_addDependencies]
    rfl
  · rw [dependsOn_addDependencies, dependsOn_addDependencies]
    rfl

/-- **The exact effect of documenting a method**, with and without safe mode, and how the two
differ. -/
theorem augment_effect (ht : d.Texts) (hc : methodOutline.Clear r.properties) :
    (∀ safeMode r', augment d safeMode r = .ok () r' → Effect d safeMode r r') ∧
      ∀ r₂, augment d false r = .ok () r₂ →
        ∃ r₁, augment d true r = .ok () r₁ ∧ Spares r r₁ r₂ :=
  ⟨fun _ _ => effect_of_augment ht hc, fun _ => exists_safe ht hc⟩

theorem shaped_shopMethod : methodOutline.Shaped shopMethod.properties := by
  have hj : shopMethod.properties.isJson = true := by decide +kernel
  refine ShapedProperties.shaped hj ⟨⟨_, rfl⟩, fun x hx => ?_, fun x hx => ?_⟩
  · cases hx
  · cases hx
    exact ⟨_, rfl, shaped_shopResponses⟩

/-- The model that is listed is not added again, nor that which is imported; of two parameters of
one name the first one counts, and it is added without safe mode only. -/
theorem augment_effect_shop : shopDocs.Texts ∧ methodOutline.Clear shopMethod.properties ∧
    ∃ r₁ r₂, augment shopDocs true shopMethod = .ok () r₁ ∧
      augment shopDocs false shopMethod = .ok () r₂ ∧
      Effect shopDocs true shopMethod r₁ ∧ Effect shopDocs false shopMethod r₂ ∧
      Spares shopMethod r₁ r₂ ∧
      r₂.dependsOn = [.str "ProblemModel", .str "PetModel", .str "OrderModel"] ∧
      r₁.properties.field? "RequestParameters" = none ∧
      Fields.get? "method.request.path.shop" (subsection ["RequestParameters"] r₂.properties) =
        some (.bool true) := by
  have hc : methodOutline.Clear shopMethod.properties := shaped_shopMethod.clear
  obtain ⟨heffect, hspares⟩ := augment_effect texts_shopDocs hc
  obtain ⟨r₂, hdocumented, -⟩ := exists_documented texts_shopDocs shaped_shopMethod false
  have h₂ := documented_iff.mp hdocumented
  obtain ⟨r₁, h₁, hspared⟩ := hspares r₂ h₂
  have hpath := (heffect false r₂ h₂).parameters.values "method.request.path.shop"
  exact ⟨texts_shopDocs, hc, r₁, r₂, h₁, h₂, heffect true r₁ h₁, heffect false r₂ h₂, hspared,
    (heffect false r₂ h₂).dependsOn.trans rfl, hspared.untouched.trans rfl, hpath.trans rfl⟩

/-- A method whose request parameters are those of its integration too. -/
def integratedMethod : Resource :=
  let parameters : Value := .shared 0 (.ofPairs [("method.request.header.Trace", .bool false)])
  { kind := .str "AWS::ApiGateway::Method"
    properties := .ofPairs [("Integration", .ofPairs [("RequestParameters", parameters)]),
      ("RequestParameters", parameters)]
    dependsOn := []
    extra := [] }

/-- A documentation of one parameter. -/
def limitDocs : EndpointDocumentation :=
  { EndpointDocumentation.empty with queryParameters := [⟨"limit", none, none⟩] }

/-- The parameter that is added comes to stand in the integration. -/
theorem augment_reaches_shared : limitDocs.Texts ∧ ∃ r',
    augment limitDocs false integratedMethod = .ok () r' ∧
      Fields.get? "method.request.querystring.limit"
        (subsection ["Integration", "RequestParameters"] r'.properties) = some (.bool false) ∧
      r'.ownProperties ≠ integratedMethod.ownProperties := by
  refine ⟨⟨fun _ h => (nomatch h), fun _ h => (nomatch h)⟩, _, rfl, rfl, fun h => ?_⟩
  have hparameters := congrArg (fun fields : Fields =>
    Pairs.keys (subsection ["Integration", "RequestParameters"] (.object fields))) h
  cases hparameters

end Resource
end GatewayDocs

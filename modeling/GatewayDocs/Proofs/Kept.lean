import GatewayDocs.Proofs.Frame

/-! # What every resource keeps

Documentation writes under three keys of the properties of a resource and adds dependencies
(`Resource.keeps_documentAll`); chaining changes dependencies alone.  So a resource keeps its kind
and all other properties, unless a declared model has its name (`compile_keeps_resource`).

That exception is real.  The resource of a model is named after the model, and nothing checks that
the name is free: a resource that has it is lost, whatever its kind (`compile_loses_table`). -/

namespace GatewayDocs
open CompileSettings (subsection)

/-- The keys of the properties that documentation writes. -/
def documentationKeys : List String :=
  [Resource.responsesKey, "RequestModels", "RequestParameters"]

/-! ### Writes under some keys -/

namespace Write
variable {keys : List String} {w : Write} {ws : List Write} {u v : Value}

/-- A write goes into the part under one of some keys. -/
def Under (keys : List String) (w : Write) : Prop := ∃ k ∈ keys, ∃ d inner, w = field k d inner

/-- Writes under some keys leave what is under the others. -/
theorem others_run (hw : w.Under keys) (h : w.run v = .ok u) :
    Fields.others keys (u.fields?.getD []) = Fields.others keys (v.fields?.getD []) := by
  obtain ⟨k, hk, d, inner, rfl⟩ := hw
  obtain ⟨fs, x, rfl, -, rfl⟩ := run_field_iff.mp h
  exact Fields.others_put hk

theorem others_runAll (hws : ∀ w ∈ ws, w.Under keys) (h : runAll ws v = .ok u) :
    Fields.others keys (u.fields?.getD []) = Fields.others keys (v.fields?.getD []) := by
  induction ws generalizing v with
  | nil => rw [Except.ok.inj h]
  | cons w ws ih =>
    obtain ⟨x, hx, hrest⟩ := runAll_cons_iff.mp h
    rw [ih (fun w hw => hws w (List.mem_cons_of_mem _ hw)) hrest,
      others_run (hws w List.mem_cons_self) hx]

end Write

theorem under_requestWrites {place : String} {ps : List Parameter} :
    ∀ w ∈ requestWrites place ps, w.Under documentationKeys := by
  intro w hw
  obtain ⟨inner, -, rfl⟩ := List.mem_map.mp hw
  exact ⟨_, by simp [documentationKeys], _, _, rfl⟩

/-- A documentation writes under three keys. -/
theorem EndpointDocumentation.under_writes {d : EndpointDocumentation} {safeMode : Bool} :
    ∀ w ∈ d.writes safeMode, w.Under documentationKeys := by
  intro w hw
  unfold writes at hw
  rcases List.mem_append.mp hw with hw | hw
  · rcases List.mem_append.mp hw with hw | hw
    · unfold responseWrites at hw
      split at hw
      · cases hw
      · rcases List.mem_cons.mp hw with rfl | hw
        · exact ⟨_, List.mem_cons_self, _, _, rfl⟩
        · obtain ⟨response, -, hw⟩ := List.mem_flatMap.mp hw
          obtain ⟨inner, -, rfl⟩ := List.mem_map.mp hw
          exact ⟨_, List.mem_cons_self, _, _, rfl⟩
    · unfold modelWrites at hw
      split at hw
      · cases hw
      · rw [List.mem_singleton] at hw
        exact ⟨_, by simp [documentationKeys], _, _, hw⟩
  · split at hw
    · cases hw
    · rcases List.mem_append.mp hw with hw | hw
      · exact under_requestWrites w hw
      · rcases List.mem_append.mp hw with hw | hw
        · exact under_requestWrites w hw
        · exact under_requestWrites w hw

/-! ### One resource -/

namespace Resource
variable {r r' : Resource} {docs : List EndpointDocumentation} {safeMode : Bool} {entry : Value}

/-- The properties of a resource that documentation does not write. -/
def ownProperties (r : Resource) : Fields :=
  Fields.others documentationKeys (r.properties.fields?.getD [])

/-- Documentation leaves the kind of a resource and the properties of its own. -/
theorem keeps_documentAll (ht : ∀ d ∈ docs, d.Texts)
    (hc : docs ≠ [] → methodOutline.Clear r.properties)
    (h : documentAll safeMode docs r = .ok r') :
    r'.kind = r.kind ∧ r'.ownProperties = r.ownProperties := by
  refine ⟨(Compile.kind_of_documentAll ht hc h).1, ?_⟩
  obtain ⟨v, hv, rfl⟩ := (documentAll_iff ht hc).mp h
  unfold ownProperties
  rw [properties_addDependencies]
  refine Write.others_runAll (fun w hw => ?_) hv
  obtain ⟨d, -, hw⟩ := List.mem_flatMap.mp hw
  exact EndpointDocumentation.under_writes w hw

/-- What the kind and the own properties of a resource are in the entry that it is read from. -/
theorem own_of_ofEntry (h : ofEntry entry = .ok r) :
    r.kind = (entry.field? "Type").getD (.str "") ∧
      r.ownProperties = Fields.others documentationKeys (subsection ["Properties"] entry) := by
  obtain ⟨fields, hfields, h₁⟩ := Result.bind_eq_ok.mp h
  obtain ⟨listed, -, h₂⟩ := Result.bind_eq_ok.mp h₁
  have hentry := Value.asObject_eq_ok_iff.mp hfields
  have hsub : subsection ["Properties"] entry =
      (Fields.get "Properties" fields).fields?.getD [] := by
    unfold subsection subsection Value.field?
    rw [hentry]
    rfl
  rw [← Except.ok.inj h₂]
  constructor
  · unfold Value.field?
    rw [hentry]
    rfl
  · unfold ownProperties
    rw [hsub]
    cases ht : (Fields.get "Properties" fields).truthy with
    | true => rfl
    | false => rw [ResourceGraph.fields?_of_falsy ht]; rfl

/-- What they are in the entry that it is written to. -/
theorem own_toEntry (h : r.Normal) : r.toEntry.field? "Type" = some r.kind ∧
    Fields.others documentationKeys (subsection ["Properties"] r.toEntry) = r.ownProperties := by
  have hfield : ∀ key, r.toEntry.field? key = Fields.get? key r.toFields := fun _ => rfl
  have hkind : r.toEntry.field? "Type" = some r.kind := by
    rw [hfield, toFields_eq h]
    rfl
  have hproperties : r.toEntry.field? "Properties" = some r.properties := by
    rw [hfield, toFields_eq h]
    rfl
  refine ⟨hkind, ?_⟩
  unfold subsection subsection
  rw [hproperties]
  rfl

end Resource

/-! ### A compilation -/

namespace Compile
variable {g g' : ResourceGraph} {models : List ModelDescriptor} {events : List HttpEvent}
  {settings : CompileSettings} {s : String} {r : Resource}

/-- A resource whose name no model has keeps its kind and the properties of its own. -/
theorem keeps_arranged (hg : g.Proper) (hready : Ready events g) (ht : EventTexts events)
    (h : documentation g models events settings = .ok g')
    (hs : ∀ m ∈ models, s ≠ m.resourceName) (hr : g.get? (.str s) = some r) :
    ∃ r', (settings.arrange g').get? (.str s) = some r' ∧ r'.kind = r.kind ∧
      r'.ownProperties = r.ownProperties := by
  obtain ⟨-, rs, hrs, haug⟩ := documentation_eq_ok.mp h
  have htext := exists_text_of_toResources hrs
  have hadded := (get?_added_of_undeclared hrs hs).trans hr
  obtain ⟨r₁, hr₁, hdoc⟩ := ((augmentEvents_iff (hg.addAll htext)).mp haug).2.2 s r hadded
  obtain ⟨hkind, hown⟩ := Resource.keeps_documentAll (texts_docsOf ht) (hready.clear hr) hdoc
  obtain ⟨parents, hget, -⟩ := (proper_of_documentation hg h).exists_arranged settings hr₁
  exact ⟨_, hget, hkind, hown⟩

end Compile

open Compile in
/-- **What every resource keeps.**  After a compilation every resource is still there with its kind
and with all properties that documentation does not write, unless a declared model has its name.
Names and keys of resources are texts, and what documentation goes down into stands in one place. -/
theorem compile_keeps_resource {service : Value} {settings : CompileSettings} {w w' : Workspace}
    {c : Compiled} {config : DocumentationConfig} {name : String} {entry : Value}
    (hk : TextKeys w.template) (hc : ClearParts w.template c.events)
    (hservice : DocumentationConfig.ofService service = .ok (some config))
    (h : compile service settings w = .ok c w')
    (hentry : Fields.get? name (resourcesOf w.template) = some entry)
    (hname : ∀ m ∈ c.models, name ≠ m.resourceName) :
    ∃ entry', Fields.get? name (resourcesOf w'.template) = some entry' ∧
      entry'.field? "Type" = some ((entry.field? "Type").getD (.str "")) ∧
      Fields.others documentationKeys (subsection ["Properties"] entry') =
        Fields.others documentationKeys (subsection ["Properties"] entry) := by
  obtain ⟨g, ga, hread, hg, ht, hdoc, hcommit⟩ := exists_course hk.names hservice h
  have hready := ready_of_readGraph hk hc hread
  obtain ⟨r, hr, hget⟩ := (readFrom_of_readGraph hread).get? hentry
  obtain ⟨r', hget', hkind, hown⟩ := keeps_arranged hg hready ht hdoc hname hget
  have hnormal : r'.Normal := (normal_of_documentation hg hready ht hdoc).arrange settings _
    (ResourceGraph.mem_of_get? hget')
  obtain ⟨hentryKind, hentryOwn⟩ := Resource.own_of_ofEntry hr
  obtain ⟨hkind', hown'⟩ := Resource.own_toEntry hnormal
  refine ⟨r'.toEntry, ?_, ?_, ?_⟩
  · rw [resourcesOf_of_commit hcommit, ResourceGraph.get?_toSection, hget', Option.map_some]
  · rw [hkind', hkind, hentryKind]
  · rw [hown', hown, hentryOwn]

namespace Compile

/-- A table under the name that the resource of the model `Pet` gets. -/
def tableTemplate : Value :=
  .ofPairs [("Resources", .ofPairs [
    ("ApiGatewayMethodGet", .ofPairs [("Type", .str "AWS::ApiGateway::Method"),
      ("Properties", .ofPairs [("HttpMethod", .str "GET")])]),
    ("PetModel", .ofPairs [("Type", .str "AWS::DynamoDB::Table"),
      ("Properties", .ofPairs [("TableName", .str "pets")])])])]

/-- The method resource keeps its kind and its other property. -/
theorem compile_keeps_resource_method : ∃ config c w' entry entry',
    TextKeys tableTemplate ∧ ClearParts tableTemplate c.events ∧
      DocumentationConfig.ofService petService = .ok (some config) ∧
      compile petService .standard ⟨tableTemplate, .empty⟩ = .ok c w' ∧
      Fields.get? "ApiGatewayMethodGet" (resourcesOf tableTemplate) = some entry ∧
      (∀ m ∈ c.models, "ApiGatewayMethodGet" ≠ m.resourceName) ∧
      Fields.get? "ApiGatewayMethodGet" (resourcesOf w'.template) = some entry' ∧
      entry'.field? "Type" = some (.str "AWS::ApiGateway::Method") ∧
      Fields.others documentationKeys (subsection ["Properties"] entry') =
        [(.str "HttpMethod", .str "GET")] := by
  obtain ⟨config, hservice⟩ :
      ∃ config, DocumentationConfig.ofService petService = .ok (some config) := ⟨_, rfl⟩
  obtain ⟨c, w', h, hmodels⟩ : ∃ c w',
      compile petService .standard ⟨tableTemplate, .empty⟩ = .ok c w' ∧
        c.models.map (·.resourceName) = ["PetModel", "PetsModel"] := ⟨_, _, rfl, rfl⟩
  have hname : ∀ m ∈ c.models, "ApiGatewayMethodGet" ≠ m.resourceName := by
    intro m hm he
    have hmem : "ApiGatewayMethodGet" ∈ c.models.map (·.resourceName) :=
      he ▸ List.mem_map_of_mem hm
    rw [hmodels] at hmem
    revert hmem
    decide
  have hk : TextKeys tableTemplate := textKeys_of_isPlain rfl
  have hc : ClearParts tableTemplate c.events := clearParts_of_isPlain rfl _
  obtain ⟨entry', hentry', hkind, hown⟩ := compile_keeps_resource hk hc hservice h rfl hname
  exact ⟨config, c, w', _, entry', hk, hc, hservice, h, rfl, hname, hentry', hkind, hown⟩

/-- A table that has the name of the resource of a declared model is replaced by that resource. -/
theorem compile_loses_table : ∃ c w',
    compile petService .standard ⟨tableTemplate, .empty⟩ = .ok c w' ∧
      (Fields.get? "PetModel" (resourcesOf tableTemplate)).bind (·.field? "Type") =
        some (.str "AWS::DynamoDB::Table") ∧
      (Fields.get? "PetModel" (resourcesOf w'.template)).bind (·.field? "Type") =
        some (.str "AWS::ApiGateway::Model") ∧
      ∀ entry, Fields.get? "PetModel" (resourcesOf w'.template) = some entry →
        Fields.get? "TableName" (subsection ["Properties"] entry) = none := by
  refine ⟨_, _, rfl, rfl, rfl, fun entry hentry => ?_⟩
  cases hentry
  rfl

end Compile
end GatewayDocs

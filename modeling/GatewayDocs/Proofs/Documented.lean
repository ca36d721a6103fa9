import GatewayDocs.Proofs.Effect

/-! # Methods that have documentation already

A method may come with responses, parameters and request models of its own, or from an earlier run.
Documenting it a second time changes nothing (`Resource.augment_again`): what the first time has
written is there, and what it has written over is written over again.

This needs parts that stand in one place each.  If a part stands in two places, writing one of them
may change where another write finds its own: documentation that gives a content type the name
`StatusCode` can rename the status code of a response, which is then added once more
(`Resource.augment_again_adds_shared`).

Request models are the one part in which what is there does not count: they are exchanged for those
of the documentation, and content types that it does not mention are lost
(`Resource.addRequestModels_replaces`, `Resource.addRequestModels_drops`). -/

namespace GatewayDocs
open CompileSettings (subsection)

/-! ### A second time -/

namespace Resource
variable {r r' : Resource} {d : EndpointDocumentation} {safeMode : Bool}

/-- **Documenting a method again changes nothing**, in safe mode or without it. -/
theorem augment_again (ht : d.Texts) (hc : methodOutline.Clear r.properties)
    (h : augment d safeMode r = .ok () r') : augment d safeMode r' = .ok () r' := by
  have hone : ∀ {s s' : Resource},
      documentAll safeMode [d] s = .ok s' ↔ augment d safeMode s = .ok () s' := fun {s s'} => by
    rw [documentAll_cons_iff, ← documented_iff]
    exact ⟨fun ⟨t, ht, he⟩ => Except.ok.inj he ▸ ht, fun hs => ⟨s', hs, rfl⟩⟩
  have hts : ∀ d' ∈ [d], d'.Texts := List.forall_mem_singleton.mpr ht
  exact hone.mp (documentAll_again hts (fun _ => hc) (hone.mpr h))

/-- Two codes are declared twice, with different models, and a parameter is declared twice; the
second run leaves the order of the entries and of the dependencies. -/
theorem augment_again_shop : shopDocs.Texts ∧ methodOutline.Clear shopMethod.properties ∧
    ∃ r', augment shopDocs false shopMethod = .ok () r' ∧
      augment shopDocs false r' = .ok () r' ∧
      r'.dependsOn = [.str "ProblemModel", .str "PetModel", .str "OrderModel"] := by
  have hc : methodOutline.Clear shopMethod.properties := shaped_shopMethod.clear
  obtain ⟨r', hdocumented, -⟩ := exists_documented texts_shopDocs shaped_shopMethod false
  have h := documented_iff.mp hdocumented
  exact ⟨texts_shopDocs, hc, r', h, augment_again texts_shopDocs hc h,
    (effect_of_augment texts_shopDocs hc h).dependsOn.trans rfl⟩

/-- A response that is also the models of the response before it. -/
def sharedResponse : Value := .shared 0 (.ofPairs [("StatusCode", .str "404")])

/-- A method with that response. -/
def sharedMethod : Resource where
  kind := .str "AWS::ApiGateway::Method"
  properties := .ofPairs [(responsesKey, .list [
    .ofPairs [("StatusCode", .str "200"), (responseModelsKey, sharedResponse)], sharedResponse])]
  dependsOn := []
  extra := []

/-- A documentation in which the name of a content type is that of the status code. -/
def statusDocs : EndpointDocumentation :=
  { EndpointDocumentation.empty with
    responses := [⟨"404", none, none, [], []⟩,
      ⟨"200", none, none, [], [(.str "StatusCode", .direct "Pet")]⟩] }

/-- The first run finds the shared response by its code and then writes another one over it; the
second run finds it no more, and adds a third response. -/
theorem augment_again_adds_shared : ∃ r₁ r₂,
    augment statusDocs false sharedMethod = .ok () r₁ ∧ augment statusDocs false r₁ = .ok () r₂ ∧
      (responseList r₁.properties).map List.length = .ok 2 ∧
      (responseList r₂.properties).map List.length = .ok 3 ∧ r₂ ≠ r₁ := by
  refine ⟨_, _, rfl, rfl, rfl, rfl, fun h => ?_⟩
  have hlength := congrArg (fun r : Resource => (responseList r.properties).map List.length) h
  cases hlength

end Resource

/-! ### Request models -/

/-- What a reference is written as. -/
def ModelRef.target : ModelRef → Value
  | .direct name => .str name
  | .imported identifier => identifier.copied

theorem ModelRefs.lookup_targets (refs : ModelRefs) (contentType : String) :
    Pairs.lookup (.str contentType) refs.targets =
      (Pairs.lookup (.str contentType) refs).map ModelRef.target := by
  have htargets : refs.targets = refs.map fun kr => (kr.1, kr.2.target) := rfl
  rw [htargets, Pairs.lookup_map]

namespace Resource
variable {r r' : Resource} {d : EndpointDocumentation} {fs : Fields}

theorem addRequestModels_eq (hfs : r.properties = .object fs) (hne : d.models ≠ []) :
    addRequestModels d r = .ok () ((r.setProperties
      (.object (fs.put "RequestModels" (.object d.models.targets)))).addDependencies
        d.models.dependencies) := by
  have hsome : (!d.models.isEmpty) = true := by simpa using hne
  have hproperties : (r.addDependencies d.models.dependencies).properties.Leads []
      (.object fs) := by
    rw [properties_addDependencies, hfs]
    exact .here _
  unfold addRequestModels
  rw [if_pos hsome]
  refine Edit.bind_eq_ok.mpr ⟨_, _, rfl, (editAt_iff hproperties rfl).mpr ⟨fs, rfl, ?_⟩⟩
  rw [replaceAt_addDependencies, replaceAt, hfs, Value.replace_nil rfl]

/-- **Request models are exchanged for those of the documentation**, if it has any: a content type
that it mentions has what its reference is written as, and any other one has nothing, whatever it
had before.  Other properties stay, and the models that are referred to directly are depended on. -/
theorem addRequestModels_replaces (hfs : r.properties = .object fs) (hne : d.models ≠ []) :
    ∃ r', addRequestModels d r = .ok () r' ∧ r'.kind = r.kind ∧ r'.extra = r.extra ∧
      Fields.others ["RequestModels"] (r'.properties.fields?.getD []) =
        Fields.others ["RequestModels"] fs ∧
      r'.dependsOn = r.dependsOn ++ (r.newNames d.models.dependencies).map .str ∧
      ∀ contentType, Fields.get? contentType (subsection ["RequestModels"] r'.properties) =
        (Pairs.lookup (.str contentType) d.models).map ModelRef.target := by
  refine ⟨_, addRequestModels_eq hfs hne, ?_, ?_, ?_, ?_, fun contentType => ?_⟩
  · rw [kind_addDependencies]
    rfl
  · rw [extra_addDependencies]
    rfl
  · rw [properties_addDependencies]
    exact Fields.others_put List.mem_cons_self
  · rw [dependsOn_addDependencies]
    rfl
  · have hput : Fields.get? "RequestModels"
        (fs.put "RequestModels" (.object d.models.targets)) = some (.object d.models.targets) :=
      Pairs.lookup_put_self
    have hpart : subsection ["RequestModels"]
        (.object (fs.put "RequestModels" (.object d.models.targets))) = d.models.targets :=
      Value.subsection_of_getD (by rw [hput]; rfl)
    rw [properties_addDependencies]
    exact (congrArg (Fields.get? contentType) hpart).trans (d.models.lookup_targets contentType)

/-- A method whose requests in XML are checked against a model. -/
def checkedMethod : Resource where
  kind := .str "AWS::ApiGateway::Method"
  properties := .ofPairs [("HttpMethod", .str "POST"),
    ("RequestModels", .ofPairs [("application/xml", .str "PetXml")])]
  dependsOn := []
  extra := []

/-- A documentation of its requests in JSON. -/
def jsonDocs : EndpointDocumentation :=
  { EndpointDocumentation.empty with models := [(.str "application/json", .direct "Pet")] }

/-- The documented content type is there, and the method depends on its model. -/
theorem addRequestModels_replaces_json : jsonDocs.models ≠ [] ∧
    ∃ fs r', checkedMethod.properties = .object fs ∧
      addRequestModels jsonDocs checkedMethod = .ok () r' ∧
      r'.dependsOn = [.str "PetModel"] ∧
      Fields.get? "application/json" (subsection ["RequestModels"] r'.properties) =
        some (.str "Pet") := by
  have hne : jsonDocs.models ≠ [] := List.cons_ne_nil _ _
  obtain ⟨r', hok, -, -, -, hdepends, hmodels⟩ :=
    addRequestModels_replaces (r := checkedMethod) rfl hne
  exact ⟨hne, _, r', rfl, hok, hdepends.trans rfl, (hmodels "application/json").trans rfl⟩

/-- A content type that is not mentioned does not keep its model. -/
theorem addRequestModels_drops : ∃ r', addRequestModels jsonDocs checkedMethod = .ok () r' ∧
    Pairs.lookup (.str "application/xml") jsonDocs.models = none ∧
    Fields.get? "application/xml" (subsection ["RequestModels"] checkedMethod.properties) =
      some (.str "PetXml") ∧
    Fields.get? "application/xml" (subsection ["RequestModels"] r'.properties) = none :=
  ⟨_, rfl, rfl, rfl, rfl⟩

end Resource
end GatewayDocs

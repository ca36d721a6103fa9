import GatewayDocs.Proofs.Dependencies
import GatewayDocs.Proofs.Recompile

/-! # What a compilation leaves alone

A compilation writes two sections of a template.  Among the outputs it writes one
(`Compile.others_of_commit`); among the resources it writes those of the declared models and those
that events document (`Compile.get?_augmented`), and chaining gives a free model at most one parent
(`ResourceGraph.Proper.exists_arranged`).  Everything else is as it was given, each entry in its
normal form (`compile_frame`).

Several descriptors of one name make one resource, that of the last of them
(`Compile.get?_added_last`). -/

namespace GatewayDocs
open CompileSettings (subsection)

/-! ### Arranging -/

namespace ResourceGraph
variable {g : ResourceGraph} {s : String} {r : Resource}

/-- Chaining gives a free model at most one parent, and changes nothing else. -/
theorem Proper.exists_chained (hg : g.Proper) (width : Nat) (h : g.get? (.str s) = some r) :
    ∃ parents, (g.chained width).get? (.str s) = some { r with dependsOn := parents } ∧
      (parents = r.dependsOn ∨
        r.isFree = true ∧ ∃ t, parents = [.str t] ∧ g.contains (.str t) = true) := by
  cases hf : r.isFree with
  | false => exact ⟨r.dependsOn, hg.get?_chained_of_not_free h hf, .inl rfl⟩
  | true =>
    have hmem : (Atom.str s, r) ∈ g.freeModels := List.mem_filter.mpr ⟨mem_of_get? h, hf⟩
    obtain ⟨i, hi⟩ := List.mem_iff_getElem?.mp hmem
    rw [hg.get?_chained hi]
    unfold link
    split
    · split
      · rename_i p hp
        have hparent := mem_of_mem_freeModels (List.mem_of_getElem? hp)
        obtain ⟨t, ht⟩ := hg.text p.1 (List.mem_map_of_mem hparent)
        refine ⟨_, rfl, .inr ⟨rfl, t, by rw [ht], contains_iff.mpr ?_⟩⟩
        exact ht ▸ List.mem_map_of_mem hparent
      · exact ⟨r.dependsOn, rfl, .inl rfl⟩
    · exact ⟨r.dependsOn, rfl, .inl rfl⟩

/-- Arranging chains the free models if that is wanted, and changes nothing else. -/
theorem Proper.exists_arranged (hg : g.Proper) (settings : CompileSettings)
    (h : g.get? (.str s) = some r) :
    ∃ parents, (settings.arrange g).get? (.str s) = some { r with dependsOn := parents } ∧
      (parents = r.dependsOn ∨ settings.chunking.enabled = true ∧
        r.isFree = true ∧ ∃ t, parents = [.str t] ∧ g.contains (.str t) = true) := by
  unfold CompileSettings.arrange
  cases settings.chunking.enabled with
  | false => exact ⟨r.dependsOn, h, .inl rfl⟩
  | true =>
    obtain ⟨parents, hget, hparents⟩ := hg.exists_chained settings.chunking.width.val.toNat h
    exact ⟨parents, hget, hparents.imp_right fun hp => ⟨rfl, hp⟩⟩

theorem mem_names_arrange (settings : CompileSettings) (n : Atom) :
    n ∈ (settings.arrange g).names ↔ n ∈ g.names := by
  unfold CompileSettings.arrange
  split
  · exact (names_chained_perm _ g).mem_iff
  · exact Iff.rfl

end ResourceGraph

namespace Compile
variable {g g' : ResourceGraph} {models earlier later : List ModelDescriptor}
  {events : List HttpEvent} {settings : CompileSettings} {service t t' restApi : Value}
  {w w' : Workspace} {c : Compiled} {s : String} {r : Resource} {m : ModelDescriptor}
  {rs : List (Atom × Resource)}

/-! ### Models of one name -/

/-- Of several descriptors of one name, the last one gives the resource. -/
theorem get?_added_last
    (hrs : ModelDescriptor.toResources settings.restApi (earlier ++ m :: later) = .ok rs)
    (hlast : ∀ n ∈ later, n.name ≠ m.name) :
    ∃ r, m.toResource settings.restApi = .ok r ∧
      (g.addAll rs).get? (.str m.resourceName) = some r := by
  unfold ModelDescriptor.toResources at hrs
  rw [List.mapM_append, Result.bind_eq_ok] at hrs
  obtain ⟨before, -, hrs⟩ := hrs
  obtain ⟨rest, hrest, hrs⟩ := Result.bind_eq_ok.mp hrs
  rw [List.mapM_cons, Result.bind_eq_ok] at hrest
  obtain ⟨nr, hnr, hrest⟩ := hrest
  obtain ⟨after, hafter, hrest⟩ := Result.bind_eq_ok.mp hrest
  obtain ⟨r, hr, hnr⟩ := Result.bind_eq_ok.mp hnr
  cases hnr
  cases hrest
  cases hrs
  have hlater : ModelDescriptor.toResources settings.restApi later = .ok after := hafter
  refine ⟨r, hr, ?_⟩
  have hundeclared : ∀ n ∈ later, m.resourceName ≠ n.resourceName := fun n hn he =>
    hlast n hn (modelResourceName_injective he).symm
  have hsplit : g.addAll (before ++ (.str m.resourceName, r) :: after) =
      ((g.addAll before).add (.str m.resourceName) r).addAll after := by
    unfold ResourceGraph.addAll ResourceGraph.add Pairs.putAll
    rw [List.foldl_append, List.foldl_cons]
  rw [hsplit, get?_added_of_undeclared hlater hundeclared]
  exact ResourceGraph.get?_add_self

/-! ### The resources -/

/-- What no event documents is not changed by documenting. -/
theorem get?_augmented (hg : g.Proper) (h : augmentEvents settings.safeMode g events = .ok g')
    (hs : ¬ IsDocumented events s) (hr : g.get? (.str s) = some r) : g'.get? (.str s) = some r := by
  obtain ⟨r', hr', hdoc⟩ := ((augmentEvents_iff hg).mp h).2.2 s r hr
  rw [docsOf_of_not_isDocumented hs] at hdoc
  cases hdoc
  exact hr'

/-- What is neither declared nor documented is as it was. -/
theorem get?_documented_of_untouched (hg : g.Proper)
    (h : documentation g models events settings = .ok g')
    (hs : ∀ m ∈ models, s ≠ m.resourceName) (hevents : ¬ IsDocumented events s)
    (hr : g.get? (.str s) = some r) : g'.get? (.str s) = some r := by
  obtain ⟨-, rs, hrs, haug⟩ := documentation_eq_ok.mp h
  have hadded := (get?_added_of_undeclared hrs hs).trans hr
  exact get?_augmented (hg.addAll (exists_text_of_toResources hrs)) haug hevents hadded

/-- The resource of a model that no event documents is built from the last descriptor of its
name. -/
theorem get?_documented_of_declared (hg : g.Proper)
    (h : documentation g (earlier ++ m :: later) events settings = .ok g')
    (hlast : ∀ n ∈ later, n.name ≠ m.name) (hevents : ¬ IsDocumented events m.resourceName) :
    ∃ r, m.toResource settings.restApi = .ok r ∧ g'.get? (.str m.resourceName) = some r := by
  obtain ⟨-, rs, hrs, haug⟩ := documentation_eq_ok.mp h
  obtain ⟨r, hr, hadded⟩ := get?_added_last (g := g) hrs hlast
  exact ⟨r, hr, get?_augmented (hg.addAll (exists_text_of_toResources hrs)) haug hevents hadded⟩

/-- What is written under a name is the documented resource, with the parent it may have got. -/
theorem exists_written (hg : g.Proper)
    (h : commit (settings.arrange g) settings.restApi t = .ok () t')
    (hr : g.get? (.str s) = some r) :
    ∃ parents, Fields.get? s (resourcesOf t') = some { r with dependsOn := parents }.toEntry ∧
      (parents = r.dependsOn ∨ settings.chunking.enabled = true ∧ r.isFree = true ∧
        ∃ name, parents = [.str name] ∧ g.contains (.str name) = true) := by
  obtain ⟨parents, hget, hparents⟩ := hg.exists_arranged settings hr
  refine ⟨parents, ?_, hparents⟩
  rw [resourcesOf_of_commit h, ResourceGraph.get?_toSection, hget, Option.map_some]

/-- The names that are written are those of the documented graph. -/
theorem keys_written (h : commit (settings.arrange g) settings.restApi t = .ok () t') :
    Pairs.keys (resourcesOf t') = (settings.arrange g).names := by
  rw [resourcesOf_of_commit h, ResourceGraph.keys_toSection]

/-- The names of a documented graph are those that were there, and those of the models. -/
theorem mem_names_documentation (hg : g.Proper)
    (h : documentation g models events settings = .ok g') :
    .str s ∈ g'.names ↔ .str s ∈ g.names ∨ ∃ m ∈ models, s = m.resourceName := by
  obtain ⟨-, rs, hrs, haug⟩ := documentation_eq_ok.mp h
  have htext := exists_text_of_toResources hrs
  rw [((augmentEvents_iff (hg.addAll htext)).mp haug).2.1, ResourceGraph.mem_names_addAll htext,
    mem_keys_toResources hrs]

/-! ### The whole course -/

/-- The course of a compilation that documents: what was read, documented and written. -/
theorem exists_course {config : DocumentationConfig} (hn : Pairs.Keyed (resourcesOf w.template))
    (hservice : DocumentationConfig.ofService service = .ok (some config))
    (h : compile service settings w = .ok c w') :
    ∃ g ga, readGraph w.template = .ok g ∧ g.Proper ∧ EventTexts c.events ∧
      documentation g c.models c.events settings = .ok ga ∧
      commit (settings.arrange ga) settings.restApi w.template = .ok () w'.template := by
  obtain ⟨g, hread, hg, ⟨hnone, -, -⟩ | ⟨source, ga, -, ht, hdoc, hfinish, hcommit⟩⟩ :=
    compile_course hn h
  · obtain ⟨config?, hconfig, hnone⟩ := Result.bind_eq_ok.mp hnone
    cases hservice.symm.trans hconfig
    obtain ⟨_, -, hnone⟩ := Result.bind_eq_ok.mp hnone
    obtain ⟨_, -, hnone⟩ := Result.bind_eq_ok.mp hnone
    cases hnone
  · obtain ⟨hmodels, hevents⟩ := told_of_finish hfinish
    rw [← hmodels, ← hevents] at hdoc
    rw [← hevents] at ht
    exact ⟨g, ga, hread, hg, ht, hdoc, hcommit⟩

/-- What a compilation that documents leaves alone in a template, and what it makes of the rest. -/
structure Framed (settings : CompileSettings) (c : Compiled) (t t' : Value) : Prop where
  /-- The sections other than resources and outputs are as they were, in their order. -/
  sections : Fields.others [resourcesKey, outputsKey] (subsection [] t') =
    Fields.others [resourcesKey, outputsKey] (subsection [] t)
  /-- So are the outputs other than the one that tells the interface. -/
  outputs : Fields.others [apiOutput] (outputsOf t') = Fields.others [apiOutput] (outputsOf t)
  api : Fields.get? apiOutput (outputsOf t') =
    some (.ofPairs [("Description", .str "API ID"), ("Value", settings.restApi)])
  /-- The resources have distinct texts for names, those that were there and those of models. -/
  keyed : Pairs.Keyed (resourcesOf t')
  names : ∀ name, .str name ∈ Pairs.keys (resourcesOf t') ↔
    .str name ∈ Pairs.keys (resourcesOf t) ∨ ∃ m ∈ c.models, name = m.resourceName
  /-- Every resource is an object, and is written as it was given unless it is declared,
  documented or chained. -/
  objects : ∀ kv ∈ resourcesOf t, ∃ entry, kv.2.fields? = some entry
  untouched : ∀ name given entry, Fields.get? name (resourcesOf t) = some given →
    given.fields? = some entry → (∀ m ∈ c.models, name ≠ m.resourceName) →
    ¬ IsDocumented c.events name →
    ¬ (settings.chunking.enabled = true ∧ Resource.IsFreeEntry entry) →
    Fields.get? name (resourcesOf t') = some (.object (Resource.normalEntry entry))
  /-- The resource of a declared model is built from its last descriptor, whatever was there
  before, and chaining gives it at most one parent. -/
  declared : ∀ earlier m later, c.models = earlier ++ m :: later →
    (∀ n ∈ later, n.name ≠ m.name) → ¬ IsDocumented c.events m.resourceName →
    ∃ r parents, m.toResource settings.restApi = .ok r ∧
      Fields.get? m.resourceName (resourcesOf t') =
        some { r with dependsOn := parents }.toEntry ∧
      (parents = r.dependsOn ∨ settings.chunking.enabled = true ∧ r.dependsOn = [] ∧
        ∃ parent, parents = [.str parent] ∧ .str parent ∈ Pairs.keys (resourcesOf t'))

end Compile

open Compile in
/-- **The frame of a compilation.**  A compilation that documents a template leaves its other
sections and outputs alone, adds the resources of the declared models and no others, and writes
every resource that is not declared, documented or chained as it was given.  Names and keys of
resources are texts, and the outputs stand in one place. -/
theorem compile_frame {service : Value} {settings : CompileSettings} {w w' : Workspace}
    {c : Compiled} {config : DocumentationConfig} (hk : TextKeys w.template)
    (hopen : ((w.template.field? outputsKey).getD .null).isOpen = true)
    (hstated : ∀ kv ∈ resourcesOf w.template, Resource.statesDependencies kv.2 = true)
    (hservice : DocumentationConfig.ofService service = .ok (some config))
    (h : compile service settings w = .ok c w') :
    Framed settings c w.template w'.template := by
  obtain ⟨g, ga, hread, hg, -, hdoc, hcommit⟩ := exists_course hk.names hservice h
  have hfrom := readFrom_of_readGraph hread
  have hga := proper_of_documentation hg hdoc
  have hkeys := keys_written hcommit
  obtain ⟨hsections, houtputs, hapi⟩ := others_of_commit hopen hcommit
  refine ⟨hsections, houtputs, hapi, ?_, fun name => ?_, ?_, ?_, ?_⟩
  · have hproper := hga.arrange settings
    exact ⟨hkeys ▸ hproper.text, hkeys ▸ hproper.nodup⟩
  · rw [hkeys, ResourceGraph.mem_names_arrange, mem_names_documentation hg hdoc, hfrom.names]
  · intro kv hkv
    obtain ⟨entry, hentry⟩ := hfrom.exists_asObject hkv
    exact ⟨entry, Value.asObject_eq_ok_iff.mp hentry⟩
  · intro name given entry hgiven hentry hmodels hevents hfree
    obtain ⟨r, hr, hget⟩ := hfrom.get? hgiven
    rw [Resource.ofEntry_of_fields? hentry] at hr
    have hmem := Pairs.mem_of_lookup hgiven
    have hs : Resource.statesDependencies (.object entry) = true :=
      Resource.statesDependencies_of_fields? hentry ▸ hstated _ hmem
    have hkeyed : Pairs.Keyed entry := by
      have hentries := hk.entries _ hmem
      rwa [hentry] at hentries
    obtain ⟨parents, hafter, hparents⟩ := exists_written hga hcommit
      (get?_documented_of_untouched hg hdoc hmodels hevents hget)
    obtain rfl : parents = r.dependsOn := hparents.resolve_right fun ⟨hon, hisFree, _⟩ =>
      hfree ⟨hon, Resource.isFreeEntry_of_isFree hs hr hisFree⟩
    rw [hafter, ← Resource.toEntry_of_ofEntry hkeyed hs hr]
  · intro earlier m later hmodels hlast hevents
    rw [hmodels] at hdoc
    obtain ⟨r, hr, hget⟩ := get?_documented_of_declared hg hdoc hlast hevents
    obtain ⟨parents, hafter, hparents⟩ := exists_written hga hcommit hget
    refine ⟨r, parents, hr, hafter, hparents.imp_right fun ⟨hon, hfree, t, hparent, ht⟩ => ?_⟩
    refine ⟨hon, List.isEmpty_iff.mp (Bool.and_eq_true_iff.mp hfree).2, t, hparent, ?_⟩
    rw [hkeys, ResourceGraph.mem_names_arrange]
    exact ResourceGraph.contains_iff.mp ht

namespace Compile

/-- The template of that endpoint with a bucket, and with a section and an output that no
compilation is about. -/
def bucketTemplate : Value :=
  .ofPairs [
    ("Description", .str "Pets"),
    ("Resources", .ofPairs [
      ("ApiGatewayMethodGet", .ofPairs [("Type", .str "AWS::ApiGateway::Method")]),
      ("Photos", .ofPairs [("Type", .str "AWS::S3::Bucket"), ("Condition", .str "IsProd"),
        ("DependsOn", .list [.str "ApiGatewayMethodGet", .str "ApiGatewayMethodGet"])])]),
    ("Outputs", .ofPairs [("Url", .ofPairs [("Value", .str "pets")])])]

/-- The bucket is written with its dependency once, and with its condition. -/
theorem compile_frame_bucket : ∃ config c w',
    TextKeys bucketTemplate ∧
      ((bucketTemplate.field? outputsKey).getD .null).isOpen = true ∧
      (∀ kv ∈ resourcesOf bucketTemplate, Resource.statesDependencies kv.2 = true) ∧
      DocumentationConfig.ofService petService = .ok (some config) ∧
      compile petService petSettings ⟨bucketTemplate, .empty⟩ = .ok c w' ∧
      Framed petSettings c bucketTemplate w'.template ∧
      Fields.get? "Photos" (resourcesOf w'.template) = some (.ofPairs [
        ("Type", .str "AWS::S3::Bucket"), ("Properties", .object []),
        ("DependsOn", .list [.str "ApiGatewayMethodGet"]), ("Condition", .str "IsProd")]) := by
  have hk : TextKeys bucketTemplate := textKeys_of_isPlain rfl
  have hopen : ((bucketTemplate.field? outputsKey).getD .null).isOpen = true := rfl
  have hstated : ∀ kv ∈ resourcesOf bucketTemplate, Resource.statesDependencies kv.2 = true :=
    List.all_eq_true.mp rfl
  obtain ⟨config, hservice⟩ :
      ∃ config, DocumentationConfig.ofService petService = .ok (some config) := ⟨_, rfl⟩
  obtain ⟨c, w', h, hphotos⟩ : ∃ c w',
      compile petService petSettings ⟨bucketTemplate, .empty⟩ = .ok c w' ∧
        Fields.get? "Photos" (resourcesOf w'.template) = some (.ofPairs [
          ("Type", .str "AWS::S3::Bucket"), ("Properties", .object []),
          ("DependsOn", .list [.str "ApiGatewayMethodGet"]), ("Condition", .str "IsProd")]) :=
    ⟨_, _, rfl, rfl⟩
  exact ⟨config, c, w', hk, hopen, hstated, hservice, h,
    compile_frame hk hopen hstated hservice h, hphotos⟩

/-- A template whose outputs are its metadata too. -/
def describedTemplate : Value :=
  let shared : Value := .shared 0 (.ofPairs [("Url", .ofPairs [("Value", .str "pets")])])
  .ofPairs [
    ("Metadata", shared),
    ("Resources", .ofPairs [
      ("ApiGatewayMethodGet", .ofPairs [("Type", .str "AWS::ApiGateway::Method")])]),
    ("Outputs", shared)]

/-- The output that is written comes to stand in the metadata. -/
theorem compile_changes_metadata : TextKeys describedTemplate ∧
    (∀ kv ∈ resourcesOf describedTemplate, Resource.statesDependencies kv.2 = true) ∧
    ∃ config c w', DocumentationConfig.ofService petService = .ok (some config) ∧
      compile petService .standard ⟨describedTemplate, .empty⟩ = .ok c w' ∧
      Pairs.keys (subsection ["Metadata"] describedTemplate) = [.str "Url"] ∧
      Pairs.keys (subsection ["Metadata"] w'.template) = [.str "Url", .str apiOutput] ∧
      Fields.others [resourcesKey, outputsKey] (subsection [] w'.template) ≠
        Fields.others [resourcesKey, outputsKey] (subsection [] describedTemplate) := by
  have hk : TextKeys describedTemplate := by
    refine ⟨Pairs.keyed_cons.mpr ⟨List.not_mem_nil, Pairs.Keyed.nil⟩, ?_⟩
    refine List.forall_mem_singleton.mpr (Pairs.keyed_cons.mpr ⟨List.not_mem_nil, ?_⟩)
    exact Pairs.Keyed.nil
  have hstated : ∀ kv ∈ resourcesOf describedTemplate,
      Resource.statesDependencies kv.2 = true := List.all_eq_true.mp rfl
  refine ⟨hk, hstated, _, _, _, rfl, rfl, rfl, rfl, fun h => ?_⟩
  have hmetadata := congrArg (fun fields : Fields =>
    Pairs.keys ((fields.get "Metadata").fields?.getD [])) h
  cases hmetadata

end Compile
end GatewayDocs

import GatewayDocs.Proofs.Fingerprint
import GatewayDocs.Proofs.Intake
import GatewayDocs.Proofs.Outcome
import GatewayDocs.Proofs.Parts

/-! # What a compilation makes is without loss

Resources without loss stay so: those of models are made of what is declared
(`Resource.lossless_of_toResource`), and a documentation writes nothing else into those that are
there (`Write.lossless_run`, `Resource.Lossless.documentAll`).  So a compilation of a service and a
template without loss leaves a template without loss and tells parts without loss
(`compile_lossless`). -/

namespace GatewayDocs
open GatewayDocs.Units

/-! ### Values -/

namespace Value
variable {v w restApi : Value} {s : String}

theorem labelsMet_of_lossless (h : v.Lossless) : v.labelsMet = [] := by
  induction h with
  | list _ ih =>
    rw [labelsMet_list]
    exact List.flatMap_eq_nil_iff.mpr ih
  | object _ _ _ ih =>
    rw [labelsMet_object]
    exact List.flatMap_eq_nil_iff.mpr ih
  | _ => rw [labelsMet]

theorem lossless_putPart_key (h : v.Lossless) (hs : Unpaired s.toList) (hw : w.Lossless) :
    (v.putPart (.key (.str s)) w).Lossless := by
  cases h with
  | object keyed keys values =>
    exact lossless_object.mpr (Fields.Lossless.put ⟨keyed, keys, values⟩ hs hw)
  | list h => exact .list h
  | str hs => exact .str hs
  | null => exact .null
  | bool b => exact .bool b
  | int n => exact .int n

/-! ### Markers -/

theorem unpaired_of_modelNamed? {model : String} (h : Unpaired s.toList)
    (hm : modelNamed? s = some model) : Unpaired model.toList := by
  obtain ⟨name, hname, rfl⟩ := Option.map_eq_some_iff.mp hm
  obtain ⟨before, space, after, hin, -⟩ := markerName?_eq_some_iff_namesFirst.mp hname
  rw [String.toList_ofList]
  exact h.of_infix hin.isInfix

theorem lossless_modelAddress {model : String} (ha : restApi.Lossless)
    (hm : Unpaired model.toList) : (modelAddress restApi model).Lossless := by
  have hparts : ∀ v ∈ [Value.str modelsBase, restApi, .str "models", .str model], v.Lossless := by
    simp only [List.mem_cons, List.not_mem_nil, or_false, forall_eq_or_imp, forall_eq]
    exact ⟨.str (by decide), ha, .str (by decide), .str hm⟩
  refine lossless_object.mpr (.cons List.not_mem_nil (by decide) ?_ .nil)
  refine .list (List.forall_mem_cons.mpr ⟨.str (by decide), ?_⟩)
  exact List.forall_mem_singleton.mpr (.list hparts)

theorem lossless_resolveRefs (ha : restApi.Lossless) (h : v.Lossless) :
    (resolveRefs restApi v).Lossless := by
  rw [resolveRefs_eq]
  refine lossless_replaceRefs (fun s x hs hx => ?_) h
  obtain ⟨model, hmodel, rfl⟩ := Option.map_eq_some_iff.mp hx
  exact lossless_modelAddress ha (unpaired_of_modelNamed? hs hmodel)

theorem unpaired_of_mem_namedModels {model : String} (h : v.Lossless)
    (hm : model ∈ v.namedModels) : Unpaired model.toList := by
  rw [namedModels_eq] at hm
  obtain ⟨s, hs, hmodel⟩ := List.mem_filterMap.mp hm
  exact unpaired_of_modelNamed? (unpaired_of_mem_refTexts h hs) hmodel

end Value

/-! ### Resources -/

theorem unpaired_modelResourceName {model : String} (h : Unpaired model.toList) :
    Unpaired (modelResourceName model).toList := by
  rw [modelResourceName, String.toList_append]
  exact h.append_clear (by decide)

/-- All values of a resource are without loss. -/
structure Resource.Lossless (r : Resource) : Prop where
  kind : r.kind.Lossless
  properties : r.properties.Lossless
  dependsOn : ∀ v ∈ r.dependsOn, v.Lossless
  extra : r.extra.Lossless

namespace Resource
variable {r r' : Resource} {entry v restApi : Value} {names : List String} {m : ModelDescriptor}
  {docs : List EndpointDocumentation} {safeMode : Bool}

theorem Lossless.addDependencies (h : r.Lossless) (hn : ∀ n ∈ names, Unpaired n.toList) :
    (r.addDependencies names).Lossless := by
  induction names generalizing r with
  | nil => exact h
  | cons n names ih =>
    obtain ⟨hfirst, hrest⟩ := List.forall_mem_cons.mp hn
    refine ih { h with dependsOn := fun v hv => ?_ } hrest
    exact (of_mem_insertNew hv).elim (h.dependsOn v) fun he => he ▸ .str hfirst

/-- A change of the properties that keeps values without loss keeps the resource. -/
theorem Lossless.changeProperties {path : List Step} {f : Value → Value} (h : r.Lossless)
    (hf : ∀ w : Value, w.Lossless → (f w).Lossless) : (r.changeProperties path f).Lossless := by
  unfold Resource.changeProperties
  dsimp only
  rw [Value.labelOn?_of_lossless (h.properties.change hf)]
  exact { h with properties := h.properties.change hf }

theorem lossless_of_ofEntry (he : entry.Lossless) (h : ofEntry entry = .ok r) : r.Lossless := by
  obtain ⟨fields, hfields, h₁⟩ := Result.bind_eq_ok.mp h
  obtain ⟨listed, hlisted, h₂⟩ := Result.bind_eq_ok.mp h₁
  obtain rfl := Except.ok.inj h₂
  have hfs := Value.lossless_of_asObject he hfields
  have hall : ∀ v ∈ listed, v.Lossless := by
    have hgiven := hfs.get "DependsOn"
    unfold listedDependencies at hlisted
    split at hlisted
    · rename_i s hs
      cases hlisted
      rw [hs] at hgiven
      exact List.forall_mem_singleton.mpr hgiven
    · split at hlisted
      · exact fun v hv => Value.lossless_of_mem_members hgiven hlisted hv
      · cases hlisted
        exact List.forall_mem_nil _
  refine ⟨?_, ?_, fun v hv => ?_, hfs.sublist List.filter_sublist⟩
  · show ((fields.get? "Type").getD (.str "")).Lossless
    cases ht : fields.get? "Type" with
    | none => exact .str unpaired_nil
    | some v => exact hfs.get? ht
  · show (if _ then _ else _ : Value).Lossless
    split
    · exact hfs.get _
    · exact Value.lossless_object.mpr .nil
  · rcases of_mem_foldl_insertNew hv with hnil | hv
    · cases hnil
    · exact hall v hv

theorem Lossless.toEntry (h : r.Lossless) : r.toEntry.Lossless := by
  have hown : Fields.Lossless [(.str "Type", r.kind), (.str "Properties", r.properties)] :=
    .cons (by simp) (by decide) h.kind
      (.cons (by simp) (by decide) h.properties .nil)
  refine Value.lossless_object.mpr (Fields.Lossless.putAll (hown.append ?_ ?_) h.extra)
  · split
    · exact .nil
    · exact .cons (by simp) (by decide) (.list h.dependsOn) .nil
  · split
    · exact fun _ _ h => nomatch h
    · simp

/-! ### Resources of models -/

theorem lossless_properties (hm : m.Lossless) (ha : restApi.Lossless) :
    (m.properties restApi).Lossless ∧ (ownSchema m).Lossless := by
  have hschema : (ownSchema m).Lossless := by
    unfold ownSchema
    split
    · exact Value.lossless_object.mpr .nil
    · exact hm.schema
  have hown : Fields.Lossless [(.str "RestApiId", restApi),
      (.str "ContentType", .str m.contentType), (.str "Name", .str m.name),
      (.str "Schema", ownSchema m)] :=
    .cons (by simp) (by decide) ha
      (.cons (by simp) (by decide) (.str hm.contentType)
        (.cons (by simp) (by decide) (.str hm.name)
          (.cons (by simp) (by decide) hschema .nil)))
  refine ⟨?_, hschema⟩
  unfold ModelDescriptor.properties
  cases hd : m.description with
  | none => exact hown
  | some d =>
    dsimp only
    split
    · exact hown
    · exact hown.append (.cons (by simp) (by decide) (.str (hm.description d hd)) .nil)
        (by simp)

theorem lossless_of_toResource (hm : m.Lossless) (ha : restApi.Lossless)
    (h : m.toResource restApi = .ok r) : r.Lossless := by
  obtain ⟨hproperties, hschema⟩ := lossless_properties hm ha
  have hmade : (ofProperties modelKind (m.properties restApi)).Lossless :=
    ⟨.str (by decide), Value.lossless_object.mpr hproperties, List.forall_mem_nil _, .nil⟩
  rw [toResource_cases] at h
  split at h
  · exact Except.ok.inj h ▸ hmade
  · split at h
    · cases h
    · obtain rfl := Except.ok.inj h
      unfold resolved
      dsimp only
      rw [Value.labelsMet_of_lossless hschema]
      refine Lossless.addDependencies ?_ (List.forall_mem_map.mpr fun n hn => ?_)
      · refine hmade.changeProperties fun w hw => ?_
        exact Value.lossless_putPart_key hw (by decide) (Value.lossless_resolveRefs ha hschema)
      · exact unpaired_modelResourceName
          (Value.unpaired_of_mem_namedModels hschema (List.mem_filter.mp hn).1)

end Resource

/-! ### Writes -/

namespace Write
variable {w : Write} {ws : List Write} {u v : Value}

/-- What a write writes is without loss, and so are the names of the places. -/
def Lossless : Write → Prop
  | .keep => True
  | .put v => v.Lossless
  | .field k d inner => Unpaired k.toList ∧ d.Lossless ∧ Lossless inner
  | .response c inner => Unpaired c.toList ∧ Lossless inner

theorem lossless_new {c : String} (h : Unpaired c.toList) : (Response.new c).Lossless :=
  Value.lossless_object.mpr (.cons (by simp) (by decide) (.str h) .nil)

/-- **A write without loss keeps a value without loss.** -/
theorem lossless_run (hw : w.Lossless) (hv : v.Lossless) (h : w.run v = .ok u) : u.Lossless := by
  induction w generalizing v u with
  | keep => exact Except.ok.inj h ▸ hv
  | put x => exact Except.ok.inj h ▸ hw
  | field k d w ih =>
    obtain ⟨hk, hd, hinner⟩ := hw
    obtain ⟨fs, x, rfl, hx, rfl⟩ := run_field_iff.mp h
    have hfs := Value.lossless_object.mp hv
    refine Value.lossless_object.mpr (hfs.put hk (ih hinner ?_ hx))
    cases hpart : Pairs.lookup (.str k) fs with
    | none => exact hd
    | some part => exact hfs.lookup hpart
  | response c w ih =>
    obtain ⟨hc, hinner⟩ := hw
    obtain ⟨items, found, x, rfl, hfound, hx, rfl⟩ := run_response_iff.mp h
    have hitems := Value.lossless_list.mp hv
    have hentry : (found.getD (Response.new c)).Lossless := by
      cases found with
      | none => exact lossless_new hc
      | some x => exact hitems x (Response.mem_of_found? hfound)
    exact .list fun y hy => (Slot.mem_fill hy).elim (fun he => he ▸ ih hinner hentry hx) (hitems y)

theorem lossless_runAll (hw : ∀ w ∈ ws, w.Lossless) (hv : v.Lossless)
    (h : runAll ws v = .ok u) : u.Lossless := by
  induction ws generalizing v with
  | nil => exact Except.ok.inj h ▸ hv
  | cons w ws ih =>
    obtain ⟨hfirst, hrest⟩ := List.forall_mem_cons.mp hw
    obtain ⟨x, hx, hall⟩ := runAll_cons_iff.mp h
    exact ih hrest (lossless_run hfirst hv hx) hall

end Write

/-! ### Documentation -/

theorem lossless_empty : (Value.object []).Lossless := Value.lossless_object.mpr .nil

theorem Parameter.lossless_writes {place : String} {value : Parameter → Bool}
    {ps : List Parameter} (hplace : Clear place.toList) (hps : ∀ p ∈ ps, p.Lossless) :
    ∀ w ∈ writes place value ps, w.Lossless := by
  refine List.forall_mem_map.mpr fun p hp => ⟨?_, .bool _, trivial⟩
  rw [Resource.placedName, String.toList_append, String.toList_append]
  exact (hplace.append (by decide)).append_unpaired (hps p hp).name

theorem Fields.lossless_writes {fields : Fields} (h : fields.Lossless) :
    ∀ w ∈ fields.writes, w.Lossless := by
  intro w hw
  obtain ⟨⟨k, v⟩, hkv, he⟩ := List.mem_filterMap.mp hw
  cases k with
  | str s =>
    cases he
    exact ⟨h.keys s (List.mem_map_of_mem hkv), .null, h.values _ hkv⟩
  | _ => cases he

theorem Write.lossless_map_field {k : String} {d : Value} {ws : List Write}
    (hk : Unpaired k.toList) (hd : d.Lossless) (h : ∀ w ∈ ws, w.Lossless) :
    ∀ w ∈ ws.map (field k d), w.Lossless :=
  List.forall_mem_map.mpr fun w hw => ⟨hk, hd, h w hw⟩

theorem MethodResponse.lossless_writes {r : MethodResponse} (h : r.Lossless) :
    ∀ w ∈ r.writes, w.Lossless := by
  have hentry : ∀ w ∈ r.entryWrites, w.Lossless := List.forall_mem_append.mpr
    ⟨Write.lossless_map_field (by decide) lossless_empty
      (Parameter.lossless_writes (by decide) h.headers),
     Write.lossless_map_field (by decide) lossless_empty (Fields.lossless_writes h.models)⟩
  have hall : ∀ w ∈ Write.keep :: r.entryWrites, w.Lossless :=
    List.forall_mem_cons.mpr ⟨(trivial : Write.Lossless .keep), hentry⟩
  refine Write.lossless_map_field (by decide) .null ?_
  exact List.forall_mem_map.mpr fun w hw => ⟨h.statusCode, hall w hw⟩

namespace EndpointDocumentation
variable {d : EndpointDocumentation}

theorem Lossless.texts (h : d.Lossless) : d.Texts := by
  have htexts : ∀ {refs : ModelRefs}, refs.targets.Lossless → refs.Texts := fun hrefs kr hkr =>
    hrefs.keyed.text kr.1 (ModelRefs.keys_targets _ ▸ List.mem_map_of_mem hkr)
  exact ⟨htexts h.models, fun r hr => htexts (h.responses r hr).models⟩

theorem lossless_writes (h : d.Lossless) (safeMode : Bool) :
    ∀ w ∈ d.writes safeMode, w.Lossless := by
  have hrequest : ∀ {place : String} {ps : List Parameter}, Clear place.toList →
      (∀ p ∈ ps, p.Lossless) → ∀ w ∈ requestWrites place ps, w.Lossless := fun hplace hps =>
    Write.lossless_map_field (by decide) lossless_empty (Parameter.lossless_writes hplace hps)
  refine List.forall_mem_append.mpr ⟨List.forall_mem_append.mpr ⟨?_, ?_⟩, ?_⟩
  · unfold responseWrites
    split
    · exact List.forall_mem_nil _
    · refine List.forall_mem_cons.mpr
        ⟨⟨by decide, .list (List.forall_mem_nil _), trivial⟩, fun w hw => ?_⟩
      obtain ⟨r, hr, hmem⟩ := List.mem_flatMap.mp hw
      exact MethodResponse.lossless_writes (h.responses r hr) w hmem
  · unfold modelWrites
    split
    · exact List.forall_mem_nil _
    · exact List.forall_mem_singleton.mpr
        ⟨by decide, .null, Value.lossless_object.mpr h.models⟩
  · split
    · exact List.forall_mem_nil _
    · exact List.forall_mem_append.mpr ⟨hrequest (by decide) h.headers,
        List.forall_mem_append.mpr ⟨hrequest (by decide) h.queryParameters,
          hrequest (by decide) h.pathParameters⟩⟩

theorem unpaired_of_mem_dependencies (h : d.Lossless) {n : String} (hn : n ∈ d.dependencies) :
    Unpaired n.toList := by
  have hrefs : ∀ {refs : ModelRefs}, refs.targets.Lossless → n ∈ refs.dependencies →
      Unpaired n.toList := fun hrefs hn => by
    obtain ⟨model, hmodel, rfl⟩ := List.mem_map.mp hn
    exact unpaired_modelResourceName (ModelRefs.unpaired_of_mem_directNames hrefs hmodel)
  rcases List.mem_append.mp hn with hn | hn
  · obtain ⟨r, hr, hmem⟩ := List.mem_flatMap.mp hn
    exact hrefs (h.responses r hr).models hmem
  · exact hrefs h.models hn

end EndpointDocumentation

/-- Documentation without loss keeps a resource without loss. -/
theorem Resource.Lossless.documentAll {r r' : Resource} {docs : List EndpointDocumentation}
    {safeMode : Bool} (hr : r.Lossless) (hd : ∀ d ∈ docs, d.Lossless)
    (h : documentAll safeMode docs r = .ok r') : r'.Lossless := by
  have hclear : methodOutline.Clear r.properties :=
    Value.clear_of_isPlain (Value.isPlain_of_lossless hr.properties)
  obtain ⟨v, hv, rfl⟩ := (documentAll_iff (fun d hd' => (hd d hd').texts) fun _ => hclear).mp h
  refine Lossless.addDependencies { hr with properties := ?_ } fun n hn => ?_
  · refine Write.lossless_runAll (fun w hw => ?_) hr.properties hv
    obtain ⟨d, hmem, hw⟩ := List.mem_flatMap.mp hw
    exact EndpointDocumentation.lossless_writes (hd d hmem) safeMode w hw
  · obtain ⟨d, hmem, hn⟩ := List.mem_flatMap.mp hn
    exact EndpointDocumentation.unpaired_of_mem_dependencies (hd d hmem) hn

/-! ### The graph -/

namespace ResourceGraph
variable {g : ResourceGraph} {v : Value}

/-- The names of the resources are without loss, and so are the resources. -/
def Lossless (g : ResourceGraph) : Prop :=
  ∀ nr ∈ g.entries, (Value.atom nr.1).Lossless ∧ nr.2.Lossless

theorem Lossless.toSection (hg : g.Proper) (h : g.Lossless) : g.toSection.Lossless := by
  have hkeys : Pairs.keys (g.entries.map fun nr => (nr.1, nr.2.toEntry)) =
      Pairs.keys g.entries := by
    rw [Pairs.keys, List.map_map]
    rfl
  refine Value.lossless_object.mpr ⟨⟨hkeys ▸ hg.text, hkeys ▸ hg.nodup⟩, fun s hs => ?_,
    List.forall_mem_map.mpr fun nr hnr => (h nr hnr).2.toEntry⟩
  obtain ⟨nr, hnr, hname⟩ := List.mem_map.mp (hkeys ▸ hs : .str s ∈ Pairs.keys g.entries)
  have hatom := (h nr hnr).1
  rw [hname] at hatom
  exact Value.lossless_str.mp hatom

theorem lossless_of_ofSection (hv : v.Lossless) (h : ofSection v = .ok g) : g.Lossless := by
  have hfields := Value.lossless_pairs hv
  intro nr hnr
  obtain ⟨kv, hkv, hname, hr⟩ := (readFrom_of_ofSection h).exists_entry hnr
  rw [hname]
  exact ⟨hfields.key (List.mem_map_of_mem hkv),
    Resource.lossless_of_ofEntry (hfields.values kv hkv) hr⟩

theorem Lossless.chained (h : g.Lossless) (width : Nat) : (g.chained width).Lossless := by
  intro nr hnr
  rcases mem_chained hnr with hmem | ⟨mr, hmr, pr, hpr, rfl⟩
  · exact h nr hmem
  · obtain ⟨hname, hr⟩ := h mr (mem_of_mem_freeModels hmr)
    have hparent := (h pr (mem_of_mem_freeModels hpr)).1
    exact ⟨hname, { hr with dependsOn := List.forall_mem_singleton.mpr hparent }⟩

theorem Lossless.arrange (h : g.Lossless) (settings : CompileSettings) :
    (settings.arrange g).Lossless := by
  unfold CompileSettings.arrange
  split
  · exact h.chained _
  · exact h

end ResourceGraph

namespace Compile
variable {g g' : ResourceGraph} {models : List ModelDescriptor} {events : List HttpEvent}
  {settings : CompileSettings} {t t' restApi : Value} {rs : List (Atom × Resource)}

theorem lossless_of_toResources (hm : Swagger.LosslessModels models) (ha : restApi.Lossless)
    (h : ModelDescriptor.toResources restApi models = .ok rs) :
    ∀ nr ∈ rs, (Value.atom nr.1).Lossless ∧ nr.2.Lossless := by
  intro nr hnr
  obtain ⟨m, hmem, hread⟩ := Result.exists_of_mem_mapM h hnr
  obtain ⟨r, hr, he⟩ := Result.bind_eq_ok.mp hread
  cases he
  exact ⟨.str (unpaired_modelResourceName (hm m hmem).name),
    Resource.lossless_of_toResource (hm m hmem) ha hr⟩

/-- Resources without loss are documented without loss. -/
theorem lossless_of_documentation (hg : g.Proper) (hl : g.Lossless)
    (hm : Swagger.LosslessModels models) (he : ∀ e ∈ events, e.Lossless)
    (ha : settings.restApi.Lossless) (h : documentation g models events settings = .ok g') :
    g'.Lossless := by
  have hg' := proper_of_documentation hg h
  obtain ⟨-, rs, hrs, haug⟩ := documentation_eq_ok.mp h
  have hproper := hg.addAll (exists_text_of_toResources hrs)
  have hadded : (g.addAll rs).Lossless := Pairs.forall_putAll
    (K := fun k => (Value.atom k).Lossless) (Q := Resource.Lossless) hl
    (lossless_of_toResources hm ha hrs)
  intro nr hnr
  obtain ⟨s, hs⟩ := hg'.text nr.1 (List.mem_map_of_mem hnr)
  have hget : g'.get? (.str s) = some nr.2 := hg'.get?_iff.mpr (hs ▸ hnr)
  obtain ⟨r₀, hr₀, hdoc⟩ := exists_origin hproper haug hget
  obtain ⟨hname, hr⟩ := hadded _ (ResourceGraph.mem_of_get? hr₀)
  refine ⟨hs ▸ hname, hr.documentAll (fun d hd => ?_) hdoc⟩
  obtain ⟨e, hmem, -, hgiven⟩ := mem_docsOf hd
  exact (he e hmem).documentation d hgiven

theorem lossless_of_commit (hg : g.Proper) (hl : g.Lossless) (ht : t.Lossless)
    (ha : restApi.Lossless) (h : commit g restApi t = .ok () t') : t'.Lossless := by
  obtain ⟨fields, pairs, hfields, hgiven, rfl⟩ := commit_iff.mp h
  have hfs : Fields.Lossless fields := Value.lossless_of_fields? ht hfields
  have houtputs : (givenOutputs fields).Lossless := by
    unfold givenOutputs
    split
    · exact hfs.get _
    · exact lossless_empty
  have houtput : (apiOutputValue restApi).Lossless := Value.lossless_object.mpr
    (.cons (by simp) (by decide) (.str (by decide))
      (.cons (by simp) (by decide) ha .nil))
  have hpairs : Fields.Lossless pairs := Value.lossless_of_fields? houtputs hgiven
  -- no part of the template stands in several places, so no change is carried
  have hwith : withOutput restApi pairs (givenOutputs fields) =
      .object (pairs.put apiOutput (apiOutputValue restApi)) :=
    Value.inside_of_isOpen (Value.isOpen_of_isPlain (Value.isPlain_of_lossless houtputs))
  rw [committed, hwith, carried_of_isOpen rfl]
  refine Value.lossless_object.mpr (Fields.Lossless.put ?_ (by decide)
    (Value.lossless_object.mpr (hpairs.put (by decide) houtput)))
  exact (hfs.put (by decide) (hl.toSection hg)).put (by decide) houtputs

end Compile

/-! ### Parts -/

namespace Parts
variable {fields : Fields} {location : List (String × Value)} {kind path method name code : String}
  {r : MethodResponse} {d : EndpointDocumentation}

theorem lossless_endpointPlace (hk : Unpaired kind.toList) (hp : Unpaired path.toList)
    (hm : Unpaired method.toList) : (pairs (endpointPlace kind path method)).Lossless :=
  .cons (by simp) (by decide) (.str hk) (.cons (by simp) (by decide) (.str hp)
    (.cons (by simp) (by decide) (.str hm) .nil))

theorem lossless_parameterPlace (hk : Unpaired kind.toList) (hp : Unpaired path.toList)
    (hm : Unpaired method.toList) (hn : Unpaired name.toList) :
    (pairs (parameterPlace kind path method name)).Lossless :=
  .cons (by simp) (by decide) (.str hk) (.cons (by simp) (by decide) (.str hp)
    (.cons (by simp) (by decide) (.str hm) (.cons (by simp) (by decide) (.str hn) .nil)))

theorem lossless_responsePlace (hk : Unpaired kind.toList) (hp : Unpaired path.toList)
    (hm : Unpaired method.toList) (hc : Unpaired code.toList) :
    (pairs (responsePlace kind path method code)).Lossless :=
  .cons (by simp) (by decide) (.str hk) (.cons (by simp) (by decide) (.str hp)
    (.cons (by simp) (by decide) (.str hm) (.cons (by simp) (by decide) (.str hc) .nil)))

theorem lossless_headerPlace (hp : Unpaired path.toList) (hm : Unpaired method.toList)
    (hc : Unpaired code.toList) (hn : Unpaired name.toList) :
    (pairs (headerPlace path method code name)).Lossless :=
  .cons (by simp) (by decide) (.str (by decide)) (.cons (by simp) (by decide) (.str hn)
    (.cons (by simp) (by decide) (.str hp) (.cons (by simp) (by decide) (.str hm)
      (.cons (by simp) (by decide) (.str hc) .nil))))

theorem lossless_descriptionFields {s? : Option String} (h : ∀ s ∈ s?, Unpaired s.toList) :
    (descriptionFields s?).Lossless :=
  .cons (by simp) (by decide) (Value.lossless_textOrNull h) .nil

theorem lossless_parameterFields {x : Parameter} (h : x.Lossless) : (parameterFields x).Lossless :=
  .cons (by simp) (by decide) (Value.lossless_textOrNull h.description)
    (.cons (by simp) (by decide) (Value.lossless_flagOrNull _) .nil)

theorem lossless_endpointFields (hd : d.Lossless) : (endpointFields d).Lossless := by
  have htags : (Value.list (d.tags.map .str)).Lossless :=
    .list (List.forall_mem_map.mpr fun s hs => .str (hd.tags s hs))
  exact .cons (by simp) (by decide) (Value.lossless_textOrNull hd.summary)
    (.cons (by simp) (by decide) (Value.lossless_textOrNull hd.description)
      (.cons (by simp) (by decide) htags .nil))

/-- What is told, and the place where it is told, are without loss. -/
structure LosslessAt (location : List (String × Value)) (fields : Fields) : Prop where
  location : (pairs location).Lossless
  fields : fields.Lossless

theorem ResponseTells.lossless (hp : Unpaired path.toList) (hm : Unpaired method.toList)
    (hr : r.Lossless) (h : ResponseTells path method r location fields) :
    LosslessAt location fields := by
  cases h with
  | response =>
    exact ⟨lossless_responsePlace (by decide) hp hm hr.statusCode,
      lossless_descriptionFields hr.description⟩
  | body hb =>
    exact ⟨lossless_responsePlace (by decide) hp hm hr.statusCode, hr.body _ hb⟩
  | header hx =>
    exact ⟨lossless_headerPlace hp hm hr.statusCode (hr.headers _ hx).name,
      lossless_descriptionFields (hr.headers _ hx).description⟩

theorem EndpointTells.lossless (hp : Unpaired path.toList) (hm : Unpaired method.toList)
    (hd : d.Lossless) (h : EndpointTells path method d location fields) :
    LosslessAt location fields := by
  have hparameter {kind : String} {x : Parameter} (hk : Unpaired kind.toList) (hx : x.Lossless) :
      LosslessAt (parameterPlace kind path method x.name) (parameterFields x) :=
    ⟨lossless_parameterPlace hk hp hm hx.name, lossless_parameterFields hx⟩
  cases h with
  | endpoint => exact ⟨lossless_endpointPlace (by decide) hp hm, lossless_endpointFields hd⟩
  | query hx => exact hparameter (by decide) (hd.queryParameters _ hx)
  | path hx => exact hparameter (by decide) (hd.pathParameters _ hx)
  | header hx => exact hparameter (by decide) (hd.headers _ hx)
  | body hb => exact ⟨lossless_endpointPlace (by decide) hp hm, hd.body _ hb⟩
  | response hr h => exact h.lossless hp hm (hd.responses _ hr)

theorem unpaired_resourcePath (hf : fields.Lossless) (h : resourcePath fields = .ok path) :
    Unpaired path.toList := by
  obtain ⟨path, hpath, h⟩ := Result.bind_eq_ok.mp h
  obtain rfl := Except.ok.inj h
  have hgiven : ((fields.get? "path").getD (.str "")).Lossless := by
    cases hget : fields.get? "path" with
    | none => exact .str unpaired_nil
    | some v => exact hf.get? hget
  rw [String.toList_append]
  exact Clear.append_unpaired (by decide)
    (Text.unpaired_stripChar (Value.unpaired_of_text hgiven hpath))

theorem ServiceTells.lossless {source : Source} (hs : source.Lossless)
    (h : ServiceTells source.config source.models source.events location fields) :
    LosslessAt location fields := by
  cases h with
  | api => exact ⟨.cons (by simp) (by decide) (.str (by decide)) .nil, hs.config.api⟩
  | resource hf hpath =>
    have hfields := hs.config.resources _ hf
    exact ⟨.cons (by simp) (by decide) (.str (by decide))
      (.cons (by simp) (by decide) (.str (unpaired_resourcePath hfields hpath)) .nil),
      hfields.sublist List.filter_sublist⟩
  | model hmem =>
    exact ⟨.cons (by simp) (by decide) (.str (by decide))
      (.cons (by simp) (by decide) (.str (hs.models _ hmem).name) .nil),
      lossless_descriptionFields (hs.models _ hmem).description⟩
  | endpoint he hd h =>
    have hevent := hs.events _ he
    exact h.lossless (HttpEvent.unpaired_docPath hevent) (Text.unpaired_upper hevent.method)
      (hevent.documentation _ hd)

/-- **The parts of a service without loss are without loss.** -/
theorem lossless_of_serviceParts {source : Source} {parts : List Part} (hs : source.Lossless)
    (h : serviceParts source.config source.models source.events = .ok parts) :
    ∀ p ∈ parts, p.Lossless := by
  intro p hp
  obtain ⟨location, fields, tells, hp⟩ := (mem_serviceParts_iff h).mp hp
  obtain ⟨-, rfl⟩ := part?_eq_some_iff.mp hp
  have hat := tells.lossless hs
  exact ⟨hat.location.sublist List.filter_sublist, hat.fields.sublist List.filter_sublist⟩

/-! ### The version -/

theorem clear_digest (message : ByteArray) : Clear (Sha256.digest message).toList := by
  unfold Sha256.digest
  dsimp only
  rw [String.toList_ofList]
  intro c hc
  obtain ⟨w, -, hw⟩ := List.mem_flatMap.mp hc
  obtain ⟨i, -, rfl⟩ := List.mem_map.mp hw
  dsimp only
  split
  · exact Text.clear_ofNat (Nat.lt_trans (by omega : _ < 58) (by decide)) _ List.mem_cons_self
  · exact Text.clear_ofNat (Nat.lt_trans (by omega : _ < 103) (by decide)) _ List.mem_cons_self

theorem unpaired_of_version {parts : List Part} {given : Value} {s : String}
    (hg : given.Lossless) (h : version parts given = .ok s) : Unpaired s.toList := by
  unfold version at h
  split at h
  · exact Value.unpaired_of_text hg h
  · obtain ⟨text, -, h₁⟩ := Result.bind_eq_ok.mp h
    exact Except.ok.inj h₁ ▸ (clear_digest _).unpaired

end Parts

/-! ### The whole course -/

/-- The version and the parts that are told are without loss. -/
structure Compiled.Lossless (c : Compiled) : Prop where
  version : ∀ s ∈ c.version, Unpaired s.toList
  parts : ∀ p ∈ c.parts, p.Lossless

open Compile in
/-- **A compilation of values without loss gives values without loss.** -/
theorem compile_lossless {service : Value} {settings : CompileSettings} {w w' : Workspace}
    {c : Compiled} (hs : service.Lossless) (ht : w.template.Lossless)
    (ha : settings.restApi.Lossless) (h : compile service settings w = .ok c w') :
    w'.template.Lossless ∧ c.Lossless := by
  have hk := textKeys_of_isPlain (Value.isPlain_of_lossless ht)
  obtain ⟨g, hread, hg, ⟨-, rfl, rfl⟩ | ⟨source, ga, hservice, -, hdoc, hfinish, hcommit⟩⟩ :=
    compile_course hk.names h
  · exact ⟨ht, by simp, List.forall_mem_nil _⟩
  · have hsource := lossless_of_readService hs hservice
    obtain ⟨v, hv, hsection⟩ := Result.bind_eq_ok.mp hread
    have hl : g.Lossless := ResourceGraph.lossless_of_ofSection
      (Value.hereditary_lossless.field .null ht hv) hsection
    have hga := lossless_of_documentation hg hl hsource.models hsource.events ha hdoc
    refine ⟨lossless_of_commit ((proper_of_documentation hg hdoc).arrange settings)
      (hga.arrange settings) ht ha hcommit, ?_⟩
    obtain ⟨parts, hparts, h₁⟩ := Result.bind_eq_ok.mp hfinish
    obtain ⟨version, hversion, h₂⟩ := Result.bind_eq_ok.mp h₁
    obtain rfl := Except.ok.inj h₂
    refine ⟨fun s hs => ?_, Parts.lossless_of_serviceParts hsource hparts⟩
    obtain rfl := Option.mem_some_iff.mp hs
    exact Parts.unpaired_of_version (Value.lossless_textOrNull hsource.config.version) hversion

/-! ### Settings -/

namespace CompileSettings

theorem lossless_subsection {v : Value} (hv : v.Lossless) (keys : List String) :
    (subsection keys v).Lossless := by
  induction keys generalizing v with
  | nil =>
    unfold subsection
    cases hfs : v.fields? with
    | none => exact .nil
    | some fs => exact Value.lossless_of_fields? hv hfs
  | cons key keys ih => exact ih (Value.lossless_fieldOrNull hv)

theorem lossless_defaultRestApi : defaultRestApi.Lossless := Value.lossless_object.mpr
  (.cons (by simp) (by decide) (.str (by decide)) .nil)

/-- The interface that a service without loss asks for is without loss. -/
theorem lossless_restApi {service options : Value} {env : SplitEnvironment}
    {settings : CompileSettings} (hs : service.Lossless)
    (h : ofService service options env = .ok settings) : settings.restApi.Lossless := by
  obtain ⟨chunking, -, h₁⟩ := Result.bind_eq_ok.mp h
  have hgateway := lossless_subsection hs ["provider", "apiGateway"]
  have hapi : (orElse (Fields.get "restApiId" (subsection ["provider", "apiGateway"] service))
      defaultRestApi).Lossless := by
    unfold orElse
    split
    · exact hgateway.get _
    · exact lossless_defaultRestApi
  have hcopied := Value.lossless_copied hapi
  split at h₁
  · obtain ⟨fields, -, h₂⟩ := Result.bind_eq_ok.mp h₁
    exact Except.ok.inj h₂ ▸ hcopied
  · obtain ⟨fields, -, h₂⟩ := Result.bind_eq_ok.mp h₁
    exact Except.ok.inj h₂ ▸ hcopied

end CompileSettings
end GatewayDocs

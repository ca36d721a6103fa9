import GatewayDocs.Proofs.Operation

/-! # What becomes of events under a description

An event without a described operation stays as it is; any other event gets the documentation of
its operation, whatever the description says of other events (`Swagger.Turns`).  The models of a
description are those of its definitions, and after them the models that the documentations add,
event by event (`Swagger.apply_eq_ok`).

So the result is closed (`Swagger.apply_closed`): a documentation refers only to definitions that
a schema refers to, and to models that are there. -/

namespace GatewayDocs

/-- The value under a key of an object, unless it counts as false. -/
def Value.given? (key : String) (v : Value) : Option Value := (v.field? key).filter Value.truthy

theorem Value.given?_of_field {key : String} {v w : Value} (h : v.field key = .ok w) :
    v.given? key = if w.truthy then some w else none := by
  obtain ⟨fields, hfields, hget⟩ := Result.bind_eq_ok.mp h
  rw [given?, field?, asObject_eq_ok_iff.mp hfields, ← Except.ok.inj hget, Option.bind_some,
    Fields.get]
  cases fields.get? key with
  | none => rfl
  | some w => rw [Option.filter_some, Option.getD_some]

/-- The names of the models to which a documentation refers directly. -/
def EndpointDocumentation.directNames (d : EndpointDocumentation) : List String :=
  (d.models ++ d.responses.flatMap fun r => r.models).filterMap fun kr => kr.2.name?

namespace Swagger
variable {definitions paths operation : Value} {base name : String} {d : EndpointDocumentation}
  {models models' own : List ModelDescriptor} {e e' : HttpEvent} {events es : List HttpEvent}

/-- The operation that is described for an event: what stands under its path and there under its
method in small letters, unless one of these counts as false. -/
def describedOperation? (paths : Value) (e : HttpEvent) : Option Value :=
  (paths.given? e.docPath).bind fun item => item.given? (Text.lower e.method)

theorem operation?_eq_ok {found : Option Value} (h : operation? paths e = .ok found) :
    found = describedOperation? paths e := by
  obtain ⟨item, hitem, h₁⟩ := Result.bind_eq_ok.mp h
  rw [describedOperation?, Value.given?_of_field hitem]
  split at h₁
  · rename_i htruthy
    obtain ⟨given, hgiven, h₂⟩ := Result.bind_eq_ok.mp h₁
    rw [if_pos htruthy, Option.bind_some, Value.given?_of_field hgiven]
    exact (Except.ok.inj h₂).symm
  · rename_i hfalsy
    rw [if_neg hfalsy]
    exact (Except.ok.inj h₁).symm

/-- What becomes of an event, and the models that are added with its documentation. -/
inductive Turns (paths : Value) (e : HttpEvent) : HttpEvent × List ModelDescriptor → Prop
  | undescribed (h : describedOperation? paths e = none) : Turns paths e (e, [])
  | described {operation : Value} {d : EndpointDocumentation} {own : List ModelDescriptor}
      (h : describedOperation? paths e = some operation)
      (hd : documentation operation (baseName e) [] = .ok d own) :
      Turns paths e ({ e with documentation := some d }, own)

theorem documentEvent_eq_ok (h : documentEvent paths e models = .ok e' models') :
    ∃ own, models' = models ++ own ∧ Turns paths e (e', own) := by
  cases eventStep_of_documentEvent h with
  | undescribed hfound =>
    exact ⟨[], (List.append_nil _).symm, .undescribed (operation?_eq_ok hfound).symm⟩
  | described hfound hd =>
    obtain ⟨own, hmodels, hown, -⟩ := documentation_eq_ok hd
    exact ⟨own, hmodels, .described (operation?_eq_ok hfound).symm hown⟩

theorem documentEvents_eq_ok (h : documentEvents paths events models = (es, .ok models')) :
    ∃ turns, List.Forall₂ (Turns paths) events turns ∧ es = turns.map Prod.fst ∧
      models' = models ++ turns.flatMap Prod.snd := by
  induction events generalizing es models with
  | nil =>
    cases h
    exact ⟨[], .nil, rfl, (List.append_nil _).symm⟩
  | cons e events ih =>
    unfold documentEvents at h
    cases hfirst : documentEvent paths e models with
    | ok e' models₁ =>
      rw [hfirst] at h
      dsimp only at h
      obtain ⟨rest, hrest⟩ : ∃ rest, documentEvents paths events models₁ = (rest, .ok models') :=
        ⟨_, Prod.ext rfl (Prod.ext_iff.mp h).2⟩
      rw [hrest] at h
      obtain rfl := (Prod.ext_iff.mp h).1
      obtain ⟨own, rfl, hturn⟩ := documentEvent_eq_ok hfirst
      obtain ⟨turns, hturns, rfl, hmodels⟩ := ih hrest
      refine ⟨(e', own) :: turns, .cons hturn hturns, rfl, ?_⟩
      rw [hmodels, List.flatMap_cons, List.append_assoc]
    | error f models₁ =>
      rw [hfirst] at h
      cases h

/-- A model is that of a definition. -/
structure IsDefined (kv : Atom × Value) (m : ModelDescriptor) : Prop where
  name : m.name = kv.1.spelled
  contentType : m.contentType = jsonType
  schema : m.schema = kv.2.markRefs

theorem isDefined_of_modelOfDefinition {kv : Atom × Value} {m : ModelDescriptor}
    (h : modelOfDefinition kv.1.spelled kv.2 = .ok m) : IsDefined kv m := by
  obtain ⟨schema, hschema, h₁⟩ := Result.bind_eq_ok.mp h
  obtain ⟨-, rfl⟩ := markedSchema_eq_ok.mp hschema
  obtain ⟨description, -, h₂⟩ := Result.bind_eq_ok.mp h₁
  rw [← Except.ok.inj h₂]
  exact ⟨rfl, rfl, rfl⟩

theorem names_of_isDefined {fields : Fields} (h : List.Forall₂ IsDefined fields models) :
    models.map (fun m => m.name) = fields.map fun kv => kv.1.spelled := by
  induction h with
  | nil => rfl
  | cons hm _ ih => rw [List.map_cons, List.map_cons, hm.name, ih]

/-- The models of a description are those of its definitions, in order, and after them those that
the events add, one event after the other. -/
theorem apply_eq_ok (h : apply definitions paths events = (es, .ok models)) :
    ∃ defined turns, List.Forall₂ IsDefined (definitions.fields?.getD []) defined ∧
      List.Forall₂ (Turns paths) events turns ∧ es = turns.map Prod.fst ∧
      models = defined ++ turns.flatMap Prod.snd := by
  unfold apply at h
  split at h
  · rename_i defined hdefined
    obtain ⟨turns, hturns, hes, hmodels⟩ := documentEvents_eq_ok h
    exact ⟨defined, turns,
      (modelsOfDefinitions_eq_ok hdefined).imp fun _ _ => isDefined_of_modelOfDefinition,
      hturns, hes, hmodels⟩
  · cases h

/-! ### The names in a documentation -/

/-- A name is that of the definition to which a schema refers at its top, or of a model. -/
def NamesModel (models : List ModelDescriptor) (container : Value) (name : String) : Prop :=
  (givenSchema container).fieldOrNull refKey = .str (definitionsPath ++ name) ∨
    name ∈ models.map fun m => m.name

/-- The model of a schema is one of the models that are made of an operation, unless the schema
refers to a definition. -/
theorem Documents.namesModel (hd : Documents base operation d own) {s : Described}
    (hs : s ∈ schemasOf base operation) (hown : own ⊆ models) :
    NamesModel models s.2 s.modelName := by
  unfold NamesModel Described.modelName
  rw [← wholeReference?_eq_some]
  cases hreferred : wholeReference? (givenSchema s.2) with
  | some name => exact .inl rfl
  | none =>
    have hmade : (s.1, (givenSchema s.2).markRefs) ∈ own.map entry := by
      rw [hd.own]
      exact List.mem_filterMap.mpr ⟨s, hs, by rw [Described.model?, hreferred]; rfl⟩
    obtain ⟨m, hm, he⟩ := List.mem_map.mp hmade
    exact .inr (List.mem_map.mpr ⟨m, hown hm, (Prod.ext_iff.mp he).1⟩)

theorem mem_refs {s? : Option Described} {kr : Atom × ModelRef} (h : kr ∈ Described.refs s?) :
    ∃ s, s? = some s ∧ kr = (.str jsonType, .direct s.modelName) := by
  cases s? with
  | none => cases h
  | some s => exact ⟨s, rfl, List.mem_singleton.mp h⟩

/-- The references of a documentation that is derived from an operation are direct, and each names
the definition to which its own schema refers or one of some models. -/
structure Refers (models : List ModelDescriptor) (base : String) (operation : Value)
    (d : EndpointDocumentation) : Prop where
  request : ∀ kr ∈ d.models, ∃ s name,
    (bodySchemas base (parametersOf operation)).getLast? = some s ∧
      kr.2 = .direct name ∧ NamesModel models s.2 name
  responses : List.Forall₂ (fun kv r => r.statusCode = kv.1.spelled ∧ ∀ kr ∈ r.models, ∃ name,
    kr.2 = .direct name ∧ NamesModel models kv.2 name) (responsesOf operation) d.responses

/-- The responses of a documentation, one for each response of the operation. -/
theorem Documents.forall₂_responses (hd : Documents base operation d own) :
    List.Forall₂ (fun kv r => kv ∈ responsesOf operation ∧ r.statusCode = kv.1.spelled ∧
      r.models = Described.refs (responseSchema? base kv)) (responsesOf operation) d.responses := by
  have h : List.Forall₂ Eq _ _ := List.forall₂_eq_eq_eq ▸ hd.responses.symm
  rw [List.forall₂_map_left_iff, List.forall₂_map_right_iff] at h
  refine (List.forall₂_and_left _ _).mpr ⟨fun kv hkv => hkv, h.imp fun kv r he => ?_⟩
  exact ⟨(Prod.ext_iff.mp he).1.symm, (Prod.ext_iff.mp he).2.symm⟩

theorem responseSchema?_eq_some {kv : Atom × Value} {s : Described}
    (h : responseSchema? base kv = some s) : s = (base ++ "Response" ++ kv.1.spelled, kv.2) := by
  unfold responseSchema? at h
  split at h
  · exact (Option.some.inj h).symm
  · cases h

theorem Documents.refers (hd : Documents base operation d own) (hown : own ⊆ models) :
    Refers models base operation d := by
  constructor
  · intro kr hkr
    rw [hd.models] at hkr
    obtain ⟨s, hlast, rfl⟩ := mem_refs hkr
    have hs : s ∈ schemasOf base operation :=
      List.mem_append_left _ (List.mem_of_getLast? hlast)
    exact ⟨s, s.modelName, hlast, rfl, hd.namesModel hs hown⟩
  · refine hd.forall₂_responses.imp fun kv r hresponse => ?_
    obtain ⟨hkv, hcode, hmodels⟩ := hresponse
    refine ⟨hcode, fun kr hkr => ?_⟩
    rw [hmodels] at hkr
    obtain ⟨s, hs, rfl⟩ := mem_refs hkr
    have hmem : s ∈ schemasOf base operation :=
      List.mem_append_right _ (List.mem_filterMap.mpr ⟨kv, hkv, hs⟩)
    refine ⟨s.modelName, rfl, ?_⟩
    have hnames := hd.namesModel hmem hown
    rwa [responseSchema?_eq_some hs] at hnames ⊢

/-- Every model to which a documentation refers is that of one of the operation's schemas. -/
theorem Documents.exists_of_mem_directNames (hd : Documents base operation d own)
    (h : name ∈ d.directNames) : ∃ s ∈ schemasOf base operation, s.modelName = name := by
  obtain ⟨kr, hkr, hname⟩ := List.mem_filterMap.mp h
  rcases List.mem_append.mp hkr with hkr | hkr
  · rw [hd.models] at hkr
    obtain ⟨s, hlast, rfl⟩ := mem_refs hkr
    exact ⟨s, List.mem_append_left _ (List.mem_of_getLast? hlast), Option.some.inj hname⟩
  · obtain ⟨r, hr, hkr⟩ := List.mem_flatMap.mp hkr
    have hentry : (r.statusCode, r.models) ∈ d.responses.map fun r => (r.statusCode, r.models) :=
      List.mem_map_of_mem hr
    rw [hd.responses] at hentry
    obtain ⟨kv, hkv, he⟩ := List.mem_map.mp hentry
    have hmodels : Described.refs (responseSchema? base kv) = r.models := (Prod.ext_iff.mp he).2
    rw [← hmodels] at hkr
    obtain ⟨s, hs, rfl⟩ := mem_refs hkr
    exact ⟨s, List.mem_append_right _ (List.mem_filterMap.mpr ⟨kv, hkv, hs⟩),
      Option.some.inj hname⟩

/-! ### Closed descriptions -/

/-- An event with a described operation has the documentation of the operation, which depends on
nothing but the operation and the start of the names and refers only to definitions and to some
models. -/
structure Derived (definitions : Value) (models : List ModelDescriptor) (base : String)
    (operation : Value) (d : EndpointDocumentation) : Prop where
  /-- The documentation is found from no models at all, so no other event has a part in it. -/
  alone : ∃ own, documentation operation base [] = .ok d own ∧ own ⊆ models
  refers : Refers models base operation d
  /-- If the schemas of the operation refer only to definitions, all models are there. -/
  closed : (∀ s ∈ schemasOf base operation, ∀ name,
      (givenSchema s.2).fieldOrNull refKey = .str (definitionsPath ++ name) →
      name ∈ (definitions.fields?.getD []).map fun kv => kv.1.spelled) →
    ∀ name ∈ d.directNames, name ∈ models.map fun m => m.name

/-- An event without a described operation stays as it is; any other one gets the documentation
that is derived from its own operation. -/
structure Follows (definitions paths : Value) (models : List ModelDescriptor) (e e' : HttpEvent) :
    Prop where
  kept : describedOperation? paths e = none → e' = e
  given : ∀ operation, describedOperation? paths e = some operation →
    ∃ d, e' = { e with documentation := some d } ∧
      Derived definitions models (baseName e) operation d

/-- **A description is closed and touches only the events that it describes.**  The models start
with those of the definitions, in order; every event follows what is described for it. -/
theorem apply_closed (h : apply definitions paths events = (es, .ok models)) :
    (∃ defined inline, models = defined ++ inline ∧
      List.Forall₂ IsDefined (definitions.fields?.getD []) defined) ∧
    List.Forall₂ (Follows definitions paths models) events es := by
  obtain ⟨defined, turns, hdefined, hturns, rfl, hmodels⟩ := apply_eq_ok h
  refine ⟨⟨defined, _, hmodels, hdefined⟩, ?_⟩
  have hnames : ∀ name ∈ (definitions.fields?.getD []).map fun kv => kv.1.spelled,
      name ∈ models.map fun m => m.name := by
    intro name hname
    rw [hmodels, List.map_append, names_of_isDefined hdefined]
    exact List.mem_append_left _ hname
  have hadded : ∀ t ∈ turns, t.2 ⊆ models := fun t ht m hm => by
    rw [hmodels]
    exact List.mem_append_right _ (List.mem_flatMap.mpr ⟨t, ht, hm⟩)
  clear hmodels
  rw [List.forall₂_map_right_iff]
  refine ((List.forall₂_and_left _ _).mpr ⟨hadded, hturns.flip⟩).flip.imp ?_
  rintro e _ ⟨hown, hnone | @⟨operation, d, own, hfound, hd⟩⟩
  · exact ⟨fun _ => rfl, fun operation hsome => absurd (hnone.symm.trans hsome) nofun⟩
  · refine ⟨fun hnone => absurd (hnone.symm.trans hfound) nofun, fun operation' hsome => ?_⟩
    obtain rfl : operation = operation' := Option.some.inj (hfound.symm.trans hsome)
    obtain ⟨own', hmodels, -, hdocuments⟩ := documentation_eq_ok hd
    obtain rfl : own = own' := hmodels
    refine ⟨d, rfl, ⟨own, hd, hown⟩, hdocuments.refers hown, fun hrefs name hname => ?_⟩
    obtain ⟨s, hs, rfl⟩ := hdocuments.exists_of_mem_directNames hname
    rcases hdocuments.namesModel hs hown with href | hthere
    · exact hnames _ (hrefs s hs _ href)
    · exact hthere

/-- A description of two methods of one path. -/
def petPaths : Value :=
  .ofPairs [("/pets", .ofPairs [
    ("get", .ofPairs [("responses", .ofPairs [
      ("200", .ofPairs [("description", .str "All pets"), ("schema", .ofPairs [
        ("items", .ofPairs [("$ref", .str "#/definitions/Pet")])])]),
      ("404", .ofPairs [("description", .str "None")])])]),
    ("post", .ofPairs [("parameters", .list [.ofPairs [("in", .str "body"),
      ("schema", .ofPairs [("$ref", .str "#/definitions/Pet")])]])])])]

/-- Three events of that path. -/
def petEvents : List HttpEvent :=
  [⟨"pets", "GET", none⟩, ⟨"/pets/", "post", none⟩,
    ⟨"/pets", "delete", some EndpointDocumentation.empty⟩]

/-- A response with a schema of its own adds a model, a body that refers to a definition does not,
and an event of another method stays as it is. -/
theorem apply_closed_pets : ∃ es models,
    apply petDefinitions petPaths petEvents = (es, .ok models) ∧
    models.map (fun m => m.name) = ["Owner", "Pet", "PetsGetResponse200"] ∧
    es.map (fun e => e.documentation.map fun d => d.directNames) =
      [some ["PetsGetResponse200"], some ["Pet"], some []] ∧
    List.Forall₂ (Follows petDefinitions petPaths models) petEvents es := by
  obtain ⟨es, models, h, hnames, hdirect⟩ : ∃ es models,
      apply petDefinitions petPaths petEvents = (es, .ok models) ∧
      models.map (fun m => m.name) = ["Owner", "Pet", "PetsGetResponse200"] ∧
      es.map (fun e => e.documentation.map fun d => d.directNames) =
        [some ["PetsGetResponse200"], some ["Pet"], some []] :=
    ⟨_, _, rfl, by decide +kernel, by decide +kernel⟩
  exact ⟨es, models, h, hnames, hdirect, (apply_closed h).2⟩

end Swagger
end GatewayDocs

import GatewayDocs.Compile
import GatewayDocs.Proofs.Derivation
import GatewayDocs.Proofs.Endpoint
import GatewayDocs.Proofs.Method

/-! # What is read from a service

A service is read before anything else: its documentation section, the events with their
documentation, and the declared models (`Compile.readService`).  Every documentation refers to
models under content types that are texts, and the pairs that are kept of its bodies have text
keys and values that are parts of the service (`EndpointDocumentation.Sound`); documentation that
is derived from an embedded description has no bodies at all. -/

namespace GatewayDocs
open Shape

/-- The pairs that are kept of a body have text keys, and their values a property. -/
def Body.Sound (P : Value → Prop) (b : Option Body) : Prop := ∀ body ∈ b, body.extra.Texts P

/-- The content types of a documentation are texts, and its bodies are sound. -/
structure EndpointDocumentation.Sound (P : Value → Prop) (d : EndpointDocumentation) : Prop where
  texts : d.Texts
  body : Body.Sound P d.body
  bodies : ∀ response ∈ d.responses, Body.Sound P response.body

/-- The documentation of an event is sound. -/
def HttpEvent.Sound (P : Value → Prop) (e : HttpEvent) : Prop :=
  ∀ d ∈ e.documentation, d.Sound P

variable {P : Value → Prop}

/-! ### Documentation that is read -/

theorem Body.ofValue_hands (hP : Hereditary P) :
    Hands P (fun b : Body => b.extra.Texts P) Body.ofValue := by
  refine openRecord_hands hP fun {fs b} hfs h => ?_
  exact extras_hands hfs (ofFields_eq_ok.mp h).extra

theorem ModelRefs.ofValue_hands : Hands P ModelRefs.Texts ModelRefs.ofValue := by
  intro v refs _ h
  unfold ModelRefs.ofValue at h
  split at h
  · cases h
    simp [ModelRefs.Texts]
  · split at h
    · split at h
      · exact fun kr hkr => (mapFrom_hands (Q := fun _ => True) (fun _ _ => trivial) h kr hkr).1
      · cases h
    · cases h

theorem MethodResponse.ofValue_hands (hP : Hereditary P) :
    Hands P (fun r : MethodResponse => r.models.Texts ∧ Body.Sound P r.body)
      MethodResponse.ofValue := by
  refine record_hands hP fun {fs r} hfs h => ?_
  have hread := ofFields_eq_ok.mp h
  constructor
  · exact optional_hands (Q := ModelRefs.Texts) ModelRefs.ofValue_hands (by simp [ModelRefs.Texts])
      hfs hread.models
  · exact optional_hands (Q := Body.Sound P) (orNull_hands (Body.ofValue_hands hP))
      (by simp [Body.Sound]) hfs hread.body

theorem EndpointDocumentation.ofValue_hands (hP : Hereditary P) :
    Hands P (EndpointDocumentation.Sound P) EndpointDocumentation.ofValue := by
  refine openRecord_hands hP fun {fs d} hfs h => ?_
  have hread := ofFields_eq_ok.mp h
  have hmodels := optional_hands (Q := ModelRefs.Texts) (P := P) ModelRefs.ofValue_hands
    (by simp [ModelRefs.Texts]) hfs hread.models
  have hresponses := optional_hands (listOf_hands hP (MethodResponse.ofValue_hands hP))
    (by simp) hfs hread.responses
  exact ⟨⟨hmodels, fun r hr => (hresponses r hr).1⟩,
    optional_hands (Q := Body.Sound P) (orNull_hands (Body.ofValue_hands hP))
      (by simp [Body.Sound]) hfs hread.body,
    fun r hr => (hresponses r hr).2⟩

theorem HttpEvent.ofValue_hands (hP : Hereditary P) :
    Hands P (HttpEvent.Sound P) HttpEvent.ofValue := by
  refine record_hands hP fun {fs e} hfs h => ?_
  exact optional_hands (Q := fun o : Option EndpointDocumentation => ∀ d ∈ o, d.Sound P)
    (orNull_hands (EndpointDocumentation.ofValue_hands hP)) (by simp) hfs
    (ofFields_eq_ok.mp h).documentation

theorem HttpEvent.sound_of_ofEvent (hP : Hereditary P) {v : Value} {e : HttpEvent} (hv : P v)
    (h : ofEvent v = .ok e) : e.Sound P := by
  unfold ofEvent at h
  split at h
  · rw [← Except.ok.inj h]
    simp [Sound, ofShort]
  · exact ofValue_hands hP hv (Checked.orInvalid_eq_ok.mp h)

/-! ### Events that are read -/

theorem Hereditary.get? (hP : Hereditary P) {v w : Value} {fs : Fields} {key : String}
    (hv : P v) (hf : v.fields? = some fs) (hw : Fields.get? key fs = some w) : P w :=
  hP.fields hf hv _ (Pairs.mem_of_lookup hw)

theorem FunctionDefinition.ofValue_hands (hP : Hereditary P) :
    Hands P (fun f : FunctionDefinition => ∀ v ∈ f.events, P v) FunctionDefinition.ofValue := by
  refine record_hands hP fun {fs f} hfs h => ?_
  obtain ⟨events, hevents, rfl⟩ := Checked.map_eq_ok.mp h
  refine optional_hands (Q := fun vs : List Value => ∀ v ∈ vs, P v) (P := P) ?_ (by simp) hfs
    hevents
  intro v vs hv hvs
  simp only at hvs
  split at hvs
  · refine listOf_hands hP (fun w a hw ha => ?_) hv hvs
    exact Checked.ok.inj ha ▸ hw
  · cases hvs
    simp

section Events
variable {Q : HttpEvent → Prop}

theorem FunctionDefinition.hold_of_httpEvents (hP : Hereditary P)
    (hread : ∀ {v e}, P v → HttpEvent.ofEvent v = .ok e → Q e) {f : FunctionDefinition}
    {events : List HttpEvent} (hf : ∀ v ∈ f.events, P v) (h : f.httpEvents = .ok events) :
    ∀ e ∈ events, Q e := by
  intro e he
  obtain ⟨v, hv, hgiven⟩ := Result.exists_of_mem_mapM h he
  obtain ⟨event, hevent, hhttp⟩ := List.mem_filterMap.mp hv
  obtain ⟨hfield, -⟩ := Option.filter_eq_some_iff.mp hhttp
  obtain ⟨fs, hfs, hget⟩ := Option.bind_eq_some_iff.mp hfield
  exact hread (hP.get? (hf event hevent) hfs hget) hgiven

/-- Reads the network events of a function, of which nothing may be there. -/
def readFunction (kv : Atom × Value) : Result (List HttpEvent) := do
  let f ← (FunctionDefinition.ofValue (if kv.2.truthy then kv.2 else .object [])).orInvalid
    "FunctionDefinition"
  f.httpEvents

theorem serviceEvents_eq (service : Value) : serviceEvents service =
    service.field "functions" >>= fun functions =>
      (if functions.truthy then functions.asObject else .ok []) >>= fun fields =>
        fields.mapM readFunction >>= fun lists => .ok lists.flatten := by
  unfold serviceEvents
  refine congrArg (service.field "functions" >>= ·) (funext fun functions => ?_)
  cases functions.truthy with
  | true => rfl
  | false => rfl

theorem hold_of_readFunction (hP : Hereditary P)
    (hread : ∀ {v e}, P v → HttpEvent.ofEvent v = .ok e → Q e) {kv : Atom × Value}
    {events : List HttpEvent} (hv : P kv.2) (h : readFunction kv = .ok events) :
    ∀ e ∈ events, Q e := by
  obtain ⟨f, hf, hhttp⟩ := Result.bind_eq_ok.mp h
  have hf' := Checked.orInvalid_eq_ok.mp hf
  refine FunctionDefinition.hold_of_httpEvents hP hread ?_ hhttp
  split at hf'
  · exact FunctionDefinition.ofValue_hands hP hv hf'
  · have hempty : FunctionDefinition.ofValue (.object []) = .ok ⟨[]⟩ := rfl
    cases hempty.symm.trans hf'
    simp

/-- What holds of every event that is read from a value with a property holds of the events of a
service with it. -/
theorem hold_of_serviceEvents (hP : Hereditary P)
    (hread : ∀ {v e}, P v → HttpEvent.ofEvent v = .ok e → Q e) {service : Value}
    {events : List HttpEvent} (hs : P service) (h : serviceEvents service = .ok events) :
    ∀ e ∈ events, Q e := by
  rw [serviceEvents_eq] at h
  obtain ⟨functions, hfunctions, h₁⟩ := Result.bind_eq_ok.mp h
  obtain ⟨fields, hfields, h₂⟩ := Result.bind_eq_ok.mp h₁
  obtain ⟨lists, hlists, h₃⟩ := Result.bind_eq_ok.mp h₂
  have hpart : ∀ kv ∈ fields, P kv.2 := by
    split at hfields
    · rename_i htruthy
      obtain ⟨fs, hfs, hget⟩ := Result.bind_eq_ok.mp hfunctions
      refine hP.fields (Value.asObject_eq_ok_iff.mp hfields) ?_
      rw [← Except.ok.inj hget, Fields.get] at htruthy ⊢
      cases hl : Fields.get? "functions" fs with
      | none =>
        rw [hl] at htruthy
        cases htruthy
      | some w => exact hP.get? hs (Value.asObject_eq_ok_iff.mp hfs) hl
    · cases hfields
      simp
  intro e he
  rw [← Except.ok.inj h₃] at he
  obtain ⟨events', hevents', hmem⟩ := List.mem_flatten.mp he
  obtain ⟨kv, hkv, hfunction⟩ := Result.exists_of_mem_mapM hlists hevents'
  exact hold_of_readFunction hP hread (hpart kv hkv) hfunction e hmem

end Events

/-- The events of a service have sound documentation. -/
theorem sound_of_serviceEvents (hP : Hereditary P) {service : Value} {events : List HttpEvent}
    (hs : P service) (h : serviceEvents service = .ok events) : ∀ e ∈ events, e.Sound P :=
  hold_of_serviceEvents hP (HttpEvent.sound_of_ofEvent hP) hs h

/-! ### Documentation that is derived -/

namespace Swagger
variable {d d' : EndpointDocumentation} {base : String} {ms ms' : List ModelDescriptor}

/-- Whatever the tags, the texts of an operation give neither a body nor models nor responses. -/
theorem startingFrom_eq_ok {fields : Fields} (h : startingFrom fields = .ok d) :
    d.body = none ∧ d.models = [] ∧ d.responses = [] := by
  have hread : ∃ tags, EndpointDocumentation.ofFields
      [(.str "summary", fields.get "summary"), (.str "description", fields.get "description"),
        (.str "tags", .list tags)] = .ok d := by
    unfold startingFrom at h
    simp only at h
    split at h
    · obtain ⟨tags, -, h₁⟩ := Result.bind_eq_ok.mp h
      exact ⟨tags, Checked.orInvalid_eq_ok.mp h₁⟩
    · obtain ⟨tags, -, h₁⟩ := Result.bind_eq_ok.mp h
      exact ⟨tags, Checked.orInvalid_eq_ok.mp h₁⟩
  obtain ⟨tags, htags⟩ := hread
  have hread := EndpointDocumentation.ofFields_eq_ok.mp htags
  exact ⟨(Checked.ok.inj hread.body).symm, (Checked.ok.inj hread.models).symm,
    (Checked.ok.inj hread.responses).symm⟩

theorem sound_of_startingFrom {fields : Fields} (h : startingFrom fields = .ok d) : d.Sound P := by
  obtain ⟨hbody, hmodels, hresponses⟩ := startingFrom_eq_ok h
  refine ⟨⟨?_, ?_⟩, ?_, ?_⟩
  · simp [hmodels, ModelRefs.Texts]
  · simp [hresponses]
  · simp [hbody, Body.Sound]
  · simp [hresponses]

theorem texts_jsonModel (name : String) : (jsonModel name).Texts := by
  intro kr hkr
  rw [List.mem_singleton.mp hkr]
  exact ⟨_, rfl⟩

theorem ParameterStep.sound {parameter : Value}
    (hstep : ParameterStep base parameter d ms d' ms') (hd : d.Sound P) : d'.Sound P := by
  cases hstep with
  | more _ _ _ hmore =>
    cases hmore with
    | header | path | query => exact ⟨hd.texts, hd.body, hd.bodies⟩
  | body => exact ⟨⟨texts_jsonModel _, hd.texts.2⟩, hd.body, hd.bodies⟩
  | other => exact hd

theorem ResponseRefs.texts {code : String} {response : Value} {refs : ModelRefs}
    (hrefs : ResponseRefs base code response ms refs ms') : refs.Texts := by
  cases hrefs with
  | schema => exact texts_jsonModel _
  | bare => exact List.forall_mem_nil _

theorem ResponseStep.sound {response : Atom × Value}
    (hstep : ResponseStep base response d ms d' ms') (hd : d.Sound P) : d'.Sound P := by
  cases hstep with
  | more _ hrefs =>
    exact ⟨⟨hd.texts.1,
        List.forall_mem_append.mpr ⟨hd.texts.2, List.forall_mem_singleton.mpr hrefs.texts⟩⟩,
      hd.body, List.forall_mem_append.mpr ⟨hd.bodies, by simp [Body.Sound]⟩⟩

theorem sound_of_documentation {operation : Value}
    (h : documentation operation base ms = .ok d ms') : d.Sound P :=
  documentation_keeps (I := fun d _ => d.Sound P) h (fun _ hstart => sound_of_startingFrom hstart)
    (fun _ hd hstep => hstep.sound hd) (fun _ hd hstep => hstep.sound hd)

theorem EventStep.sound {paths : Value} {e e' : HttpEvent} (hstep : EventStep paths e ms e' ms')
    (he : e.Sound P) : e'.Sound P := by
  cases hstep with
  | undescribed => exact he
  | described _ hd =>
    intro d hd'
    cases hd'
    exact sound_of_documentation hd

theorem sound_of_documentEvents {paths : Value} {events : List HttpEvent}
    (he : ∀ e ∈ events, e.Sound P) : ∀ e ∈ (documentEvents paths events ms).1, e.Sound P := by
  induction events generalizing ms with
  | nil => exact fun e h => (nomatch h)
  | cons e events ih =>
    have hevents : ∀ e ∈ events, e.Sound P := fun e h => he e (List.mem_cons_of_mem _ h)
    unfold documentEvents
    cases hdoc : documentEvent paths e ms with
    | ok e' ms' =>
      intro f hf
      rcases List.mem_cons.mp hf with rfl | hf
      · exact (eventStep_of_documentEvent hdoc).sound (he e List.mem_cons_self)
      · exact ih hevents f hf
    | error f ms' => exact he

theorem sound_of_apply {definitions paths : Value} {events : List HttpEvent}
    (he : ∀ e ∈ events, e.Sound P) : ∀ e ∈ (apply definitions paths events).1, e.Sound P := by
  unfold apply
  split
  · exact sound_of_documentEvents he
  · exact he

end Swagger

/-! ### The service -/

/-- The descriptions of the interface and of its resources have text keys, and values with a
property. -/
structure DocumentationConfig.Sound (P : Value → Prop) (c : DocumentationConfig) : Prop where
  api : c.api.Texts P
  resources : ∀ fs ∈ c.resources, Fields.Texts P fs

theorem DocumentationConfig.ofValue_hands (hP : Hereditary P) :
    Hands P (DocumentationConfig.Sound P) DocumentationConfig.ofValue := by
  refine openRecord_hands hP fun {fs c} hfs h => ?_
  have hread := ofFields_eq_ok.mp h
  constructor
  · exact optional_hands (Q := Fields.Texts P) (mapOf_hands hP) (by simp [Fields.Texts]) hfs
      hread.api
  · exact optional_hands (listOf_hands hP (mapOf_hands hP)) (by simp) hfs hread.resources

/-- What a compilation reads from a service that has documentation. -/
structure Source where
  config : DocumentationConfig
  events : List HttpEvent
  models : List ModelDescriptor

namespace Compile

/-- Reads the documentation of a service, its events and its models. -/
def readService (service : Value) : Result (Option Source) := do
  match ← DocumentationConfig.ofService service with
  | none => return none
  | some config =>
    let (events, models) := sources config (← serviceEvents service)
    return some ⟨config, events, ← models⟩

theorem sound_of_sources {config : DocumentationConfig} {events : List HttpEvent}
    (he : ∀ e ∈ events, e.Sound P) : ∀ e ∈ (sources config events).1, e.Sound P := by
  unfold sources
  split
  · exact Swagger.sound_of_apply he
  · exact he

theorem readService_eq_ok {service : Value} {source : Source} :
    readService service = .ok (some source) ↔ ∃ config events models,
      DocumentationConfig.ofService service = .ok (some config) ∧
        serviceEvents service = .ok events ∧ (sources config events).2 = .ok models ∧
          source = ⟨config, (sources config events).1, models⟩ := by
  unfold readService
  rw [Result.bind_eq_ok]
  constructor
  · rintro ⟨config?, hconfig, h⟩
    cases config? with
    | none => cases h
    | some config =>
      obtain ⟨events, hevents, h⟩ := Result.bind_eq_ok.mp h
      obtain ⟨models, hmodels, h⟩ := Result.bind_eq_ok.mp h
      cases h
      exact ⟨config, events, models, hconfig, hevents, hmodels, rfl⟩
  · rintro ⟨config, events, models, hconfig, hevents, hmodels, rfl⟩
    exact ⟨some config, hconfig, Result.bind_eq_ok.mpr ⟨events, hevents,
      Result.bind_eq_ok.mpr ⟨models, hmodels, rfl⟩⟩⟩

/-- The documentation of a service is sound. -/
theorem sound_of_readService (hP : Hereditary P) {service : Value} {source : Source}
    (hs : P service) (h : readService service = .ok (some source)) :
    ∀ e ∈ source.events, e.Sound P := by
  obtain ⟨config, events, models, -, hevents, -, rfl⟩ := readService_eq_ok.mp h
  exact sound_of_sources (sound_of_serviceEvents hP hs hevents)

/-- The documentation section of a service is a part of it. -/
theorem exists_section (hP : Hereditary P) {service : Value} {config : DocumentationConfig}
    (hs : P service) (h : DocumentationConfig.ofService service = .ok (some config)) :
    ∃ raw, P raw ∧ DocumentationConfig.ofValue raw = .ok config := by
  obtain ⟨custom, hcustom, h₁⟩ := Result.bind_eq_ok.mp h
  obtain ⟨fs, hfs, hget⟩ := Result.bind_eq_ok.mp hcustom
  simp only at h₁
  split at h₁
  · rename_i htruthy
    obtain ⟨c, hc, h₂⟩ := Result.bind_eq_ok.mp h₁
    cases h₂
    refine ⟨_, ?_, Checked.orInvalid_eq_ok.mp hc⟩
    cases hraw : custom.field? "documentation" with
    | none =>
      rw [hraw] at htruthy
      cases htruthy
    | some raw =>
      -- the section is a part of the service, so the part that it is found in is present
      obtain ⟨gs, hgs, hget'⟩ := Option.bind_eq_some_iff.mp hraw
      refine hP.get? ?_ hgs hget'
      rw [← Except.ok.inj hget, Fields.get] at hgs ⊢
      cases hl : Fields.get? "custom" fs with
      | none =>
        rw [hl] at hgs
        cases hgs
      | some w => exact hP.get? hs (Value.asObject_eq_ok_iff.mp hfs) hl
  · cases h₁

/-- The documentation section of a service is sound. -/
theorem sound_of_ofService (hP : Hereditary P) {service : Value} {config : DocumentationConfig}
    (hs : P service) (h : DocumentationConfig.ofService service = .ok (some config)) :
    config.Sound P := by
  obtain ⟨raw, hraw, hconfig⟩ := exists_section hP hs h
  exact DocumentationConfig.ofValue_hands hP hraw hconfig

end Compile
end GatewayDocs

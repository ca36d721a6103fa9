import GatewayDocs.Proofs.Json
import GatewayDocs.Proofs.Service
import GatewayDocs.Proofs.Sources

/-! # The parts of a service can be told

The parts of a service that comes from JSON can be told, and so can their version
(`exists_serviceParts`, `exists_version`): nothing in the service contains itself, every path of a
resource has a text, and everything in the parts can be written as JSON. -/

namespace GatewayDocs

/-- The location and the properties of a part come from JSON. -/
structure Part.Json (p : Part) : Prop where
  location : p.location.Texts (·.isJson)
  properties : p.properties.Texts (·.isJson)

theorem Part.isJson_toValue {p : Part} (h : p.Json) : p.toValue.isJson = true := by
  refine Value.isJson_object.mpr fun kv hkv => ?_
  simp only [List.map_cons, List.map_nil, List.mem_cons, List.not_mem_nil, or_false] at hkv
  rcases hkv with rfl | rfl
  · exact ⟨⟨_, rfl⟩, Value.isJson_object.mpr h.location⟩
  · exact ⟨⟨_, rfl⟩, Value.isJson_object.mpr h.properties⟩

theorem isJson_textOrNull (s : Option String) : (textOrNull s).isJson = true := by
  cases s <;> rfl

theorem isJson_flagOrNull (b : Option Bool) : (flagOrNull b).isJson = true := by
  cases b <;> rfl

theorem Body.texts_toFields {b : Body} (h : b.extra.Texts (·.isJson)) :
    b.toFields.Texts (·.isJson) := by
  refine Pairs.forall_putAll (K := fun k => ∃ s, k = .str s)
    (Q := fun v : Value => v.isJson = true) (fun kv hkv => ?_) h
  rw [List.mem_singleton.mp hkv]
  exact ⟨⟨_, rfl⟩, isJson_textOrNull _⟩

namespace Parts
variable {location : List (String × Value)} {fields : Fields} {path method : String} {p : Part}
  {r : MethodResponse} {d : EndpointDocumentation} {e : HttpEvent}

/-! ### What is told -/

theorem texts_pairs {xs : List (String × Value)} (h : ∀ kv ∈ xs, kv.2.isJson = true) :
    (pairs xs).Texts (·.isJson) := by
  intro kv hkv
  obtain ⟨lw, hlw, rfl⟩ := List.mem_map.mp hkv
  exact ⟨⟨_, rfl⟩, h lw hlw⟩

theorem texts_clean (h : fields.Texts (·.isJson)) : (clean fields).Texts (·.isJson) :=
  fun kv hkv => h kv (List.mem_filter.mp hkv).1

theorem IsPlace.texts (h : IsPlace location) : (pairs location).Texts (·.isJson) := by
  refine texts_pairs fun kv hkv => ?_
  obtain ⟨s, hs⟩ := h.2 kv hkv
  rw [hs]
  rfl

theorem texts_descriptionFields (s : Option String) :
    (descriptionFields s).Texts (·.isJson) :=
  texts_pairs (by simp [isJson_textOrNull])

theorem texts_parameterFields (x : Parameter) : (parameterFields x).Texts (·.isJson) :=
  texts_pairs (by simp [isJson_textOrNull, isJson_flagOrNull])

theorem texts_endpointFields (d : EndpointDocumentation) :
    (endpointFields d).Texts (·.isJson) := by
  have htags : (Value.list (d.tags.map .str)).isJson = true := by
    refine Value.isJson_list.mpr fun v hv => ?_
    obtain ⟨s, -, rfl⟩ := List.mem_map.mp hv
    rfl
  exact texts_pairs (by simp [isJson_textOrNull, htags])

theorem ResponseTells.json (hr : Body.Sound (·.isJson) r.body)
    (h : ResponseTells path method r location fields) : fields.Texts (·.isJson) := by
  cases h with
  | response => exact texts_descriptionFields _
  | body hb => exact Body.texts_toFields (hr _ hb)
  | header => exact texts_descriptionFields _

theorem EndpointTells.json (hd : d.Sound (·.isJson))
    (h : EndpointTells path method d location fields) : fields.Texts (·.isJson) := by
  cases h with
  | endpoint => exact texts_endpointFields d
  | query => exact texts_parameterFields _
  | path => exact texts_parameterFields _
  | header => exact texts_parameterFields _
  | body hb => exact Body.texts_toFields (hd.body _ hb)
  | response hr h => exact h.json (hd.bodies _ hr)

theorem ServiceTells.json {config : DocumentationConfig} {models : List ModelDescriptor}
    {events : List HttpEvent} (hc : config.Sound (·.isJson))
    (he : ∀ e ∈ events, e.Sound (·.isJson))
    (h : ServiceTells config models events location fields) : fields.Texts (·.isJson) := by
  cases h with
  | api => exact hc.api
  | resource hf => exact fun kv hkv => hc.resources _ hf kv (List.mem_filter.mp hkv).1
  | model => exact texts_descriptionFields _
  | endpoint hmem hd h => exact h.json (he _ hmem _ hd)

/-! ### The parts can be told -/

theorem exists_bodyFields {b : Option Body} (h : Body.Sound (·.isJson) b) :
    ∃ fs, bodyFields b = .ok fs := by
  cases b with
  | none => exact ⟨[], rfl⟩
  | some b =>
    have hfinite : b.toValue.isEndless = false :=
      Value.isEndless_of_isJson (Value.isJson_object.mpr (Body.texts_toFields (h b rfl)))
    exact ⟨b.toFields, bodyFields_eq_ok.mpr (.inr ⟨b, rfl, hfinite, rfl⟩)⟩

theorem exists_responsePartsOf (h : Body.Sound (·.isJson) r.body) :
    ∃ ps, responsePartsOf path method r = .ok ps := by
  obtain ⟨body, hbody⟩ := exists_bodyFields h
  exact ⟨_, Result.map_eq_ok.mpr ⟨body, hbody, rfl⟩⟩

theorem exists_ofEndpoint (h : d.Sound (·.isJson)) : ∃ ps, ofEndpoint e d = .ok ps := by
  have hall : ∀ r ∈ d.responses,
      ∃ ps, responsePartsOf e.docPath (Text.upper e.method) r = .ok ps :=
    fun r hr => exists_responsePartsOf (h.bodies r hr)
  obtain ⟨body, hbody⟩ := exists_bodyFields h.body
  obtain ⟨responses, hresponses⟩ := Result.exists_gather hall
  rw [ofEndpoint_eq, hbody, Result.ok_bind, hresponses]
  exact ⟨_, rfl⟩

theorem exists_ofAnyEvent (h : e.Sound (·.isJson)) : ∃ ps, ofAnyEvent e = .ok ps := by
  cases hd : e.documentation with
  | none => exact ⟨[], ofAnyEvent_eq_ok.mpr (.inl ⟨hd, rfl⟩)⟩
  | some d =>
    obtain ⟨ps, hps⟩ := exists_ofEndpoint (h d hd)
    exact ⟨ps, ofAnyEvent_eq_ok.mpr (.inr ⟨d, hd, hps⟩)⟩

theorem exists_ofResource (h : fields.Texts (·.isJson)) :
    ∃ ps, (ofResource fields).map Option.toList = .ok ps := by
  have hpath : ((fields.get? "path").getD (.str "")).isJson = true := by
    cases hget : fields.get? "path" with
    | none => rfl
    | some v => exact (h _ (Pairs.mem_of_lookup hget)).2
  unfold ofResource
  rw [Value.text_of_isJson hpath]
  exact ⟨_, rfl⟩

/-- **The parts of a service that comes from JSON can be told**, and come from JSON. -/
theorem exists_serviceParts {config : DocumentationConfig} {models : List ModelDescriptor}
    {events : List HttpEvent} (hc : config.Sound (·.isJson))
    (he : ∀ e ∈ events, e.Sound (·.isJson)) :
    ∃ ps, serviceParts config models events = .ok ps ∧ ∀ p ∈ ps, p.Json := by
  obtain ⟨resources, hresources⟩ :=
    Result.exists_gather fun fs hfs => exists_ofResource (hc.resources fs hfs)
  obtain ⟨endpoints, hendpoints⟩ := Result.exists_gather fun e h => exists_ofAnyEvent (he e h)
  obtain ⟨ps, hps⟩ : ∃ ps, serviceParts config models events = .ok ps := by
    rw [serviceParts_eq, hresources, Result.ok_bind, hendpoints, Result.ok_bind]
    exact ⟨_, rfl⟩
  refine ⟨ps, hps, fun p hp => ?_⟩
  obtain ⟨location, fields, tells, hp⟩ := (mem_serviceParts_iff hps).mp hp
  obtain ⟨-, rfl⟩ := part?_eq_some_iff.mp hp
  exact ⟨texts_clean tells.isPlace.texts, texts_clean (tells.json hc he)⟩

/-- **The version of parts that come from JSON can be told.** -/
theorem exists_version {ps : List Part} (h : ∀ p ∈ ps, p.Json) (given : Option String) :
    ∃ s, version ps (textOrNull given) = .ok s := by
  unfold version
  split
  · exact ⟨_, Value.text_of_isJson (isJson_textOrNull given)⟩
  · have hjson : (Value.list (ps.map Part.toValue)).isJson = true :=
      Value.isJson_list.mpr (List.forall_mem_map.mpr fun p hp => Part.isJson_toValue (h p hp))
    unfold fingerprint canonicalText
    rw [Value.writeSorted_of_isJson _ hjson]
    exact ⟨_, rfl⟩

end Parts
end GatewayDocs

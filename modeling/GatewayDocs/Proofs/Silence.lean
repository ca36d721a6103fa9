import GatewayDocs.Proofs.Numeral
import GatewayDocs.Proofs.Sources

/-! # What says nothing is no part

A value says nothing if it is absent, or an empty text, list or object (`Value.SaysNothing`).  What
has nothing else to say is no part: parameters, headers and models without a description, responses
without any content, resources with no more than a path, and events without documentation.

Such entries can stand anywhere in the lists of a service (`Padded`); the parts of the service, and
their version, are those of the service without them (`Parts.serviceParts_padded`).  In the parts
themselves nothing of the kind is left, while all else that a service tells is kept, a flag that is
false and a number that is zero included (`Parts.Tidy`). -/

namespace GatewayDocs

/-! ### Saying nothing -/

namespace Value

/-- A value is absent, or an empty text, list or object. -/
def SaysNothing (v : Value) : Prop :=
  v.unshared = .null ∨ v.unshared = .str "" ∨ v.unshared = .list [] ∨ v.unshared = .object []

theorem isBlank_unshared : ∀ v : Value, v.unshared.isBlank = v.isBlank
  | .shared _ v => isBlank_unshared v
  | .atom _ | .list _ | .tuple _ | .set _ | .object _ | .knot _ _ | .again _ => rfl

theorem unshared_of_shared : ∀ (v w : Value) (l : Nat), v.unshared ≠ .shared l w
  | .shared _ v, w, l => unshared_of_shared v w l
  | .atom _, _, _ | .list _, _, _ | .tuple _, _, _ | .set _, _, _ | .object _, _, _
  | .knot _ _, _, _ | .again _, _, _ => fun h => (nomatch h)

/-- What is blank says nothing. -/
theorem isBlank_iff {v : Value} : v.isBlank = true ↔ v.SaysNothing := by
  unfold SaysNothing
  rw [← isBlank_unshared]
  cases hv : v.unshared with
  | atom a => cases a <;> simp [isBlank]
  | shared l w => exact absurd hv (unshared_of_shared v w l)
  | list items => simp [isBlank]
  | object fields => simp [isBlank]
  | _ => simp [isBlank]

theorem isEndless_unshared : ∀ v : Value, v.unshared.isEndless = v.isEndless
  | .shared _ v => by
    rw [isEndless]
    exact isEndless_unshared v
  | .atom _ | .list _ | .tuple _ | .set _ | .object _ | .knot _ _ | .again _ => rfl

theorem SaysNothing.isEndless {v : Value} (h : v.SaysNothing) : v.isEndless = false := by
  rw [← isEndless_unshared]
  rcases h with h | h | h | h <;> rw [h] <;> rfl

theorem saysNothing_textOrNull {s : Option String} :
    (textOrNull s).SaysNothing ↔ s.getD "" = "" := by
  cases s with
  | none => exact iff_of_true (.inl rfl) rfl
  | some s => simp [textOrNull, SaysNothing, unshared]

theorem saysNothing_flagOrNull {b : Option Bool} : (flagOrNull b).SaysNothing ↔ b = none := by
  cases b with
  | none => exact iff_of_true (.inl rfl) rfl
  | some b => simp [flagOrNull, SaysNothing, unshared]

end Value

/-- Pairs whose values say nothing. -/
def Fields.SaysNothing (fields : Fields) : Prop := ∀ kv ∈ fields, kv.2.SaysNothing

/-- What a description says is nothing. -/
def Undescribed (description : Option String) : Prop := description.getD "" = ""

/-! ### Lists with more in them -/

/-- The second list is the first with silent items added anywhere, the items of the first being
replaced by related ones. -/
inductive Padded {α : Type} (R : α → α → Prop) (Silent : α → Prop) : List α → List α → Prop
  | nil : Padded R Silent [] []
  | keep {x y : α} {xs ys : List α} (h : R x y) (rest : Padded R Silent xs ys) :
      Padded R Silent (x :: xs) (y :: ys)
  | insert {y : α} {xs ys : List α} (h : Silent y) (rest : Padded R Silent xs ys) :
      Padded R Silent xs (y :: ys)

namespace Padded
variable {α β : Type} {R : α → α → Prop} {Silent : α → Prop} {xs ys : List α}

/-- Silent items make no difference where nothing is made of them. -/
theorem filterMap_eq {f : α → Option β} (h : Padded R Silent xs ys) (hR : ∀ x y, R x y → f y = f x)
    (hsilent : ∀ y, Silent y → f y = none) : ys.filterMap f = xs.filterMap f := by
  induction h with
  | nil => rfl
  | keep hxy _ ih => rw [List.filterMap_cons, List.filterMap_cons, hR _ _ hxy, ih]
  | insert hy _ ih => rw [List.filterMap_cons_none (hsilent _ hy), ih]

@[inherit_doc filterMap_eq]
theorem gather_eq {f : α → Result (List β)} (h : Padded R Silent xs ys)
    (hR : ∀ x y, R x y → f y = f x) (hsilent : ∀ y, Silent y → f y = .ok []) :
    Result.gather f ys = Result.gather f xs := by
  induction h with
  | nil => rfl
  | keep hxy _ ih => rw [Result.gather, Result.gather, hR _ _ hxy, ih]
  | insert hy _ ih =>
    rw [Result.gather, hsilent _ hy, ih]
    cases Result.gather f _ with
    | error e => rfl
    | ok ys => rfl

end Padded

/-! ### Silent entries -/

/-- A parameter that neither has a description nor is said to be required or not. -/
structure Parameter.Silent (x : Parameter) : Prop where
  description : Undescribed x.description
  required : x.required = none

/-- A response without a description, with no content in its body and with no described header. -/
structure MethodResponse.Silent (r : MethodResponse) : Prop where
  description : Undescribed r.description
  body : ∀ b, r.body = some b → b.toFields.SaysNothing
  headers : ∀ x ∈ r.headers, Undescribed x.description

/-- A model without a description. -/
def ModelDescriptor.Silent (m : ModelDescriptor) : Prop := Undescribed m.description

/-- An event without documentation. -/
def HttpEvent.Silent (e : HttpEvent) : Prop := e.documentation = none

/-- A resource that has no more to tell than its path, which has a text. -/
structure Parts.SilentResource (fields : Fields) : Prop where
  path : ∃ path, resourcePath fields = .ok path
  rest : (resourceFields fields).SaysNothing

/-! ### Services with silent entries -/

/-- A response with undescribed headers added. -/
structure MethodResponse.Pads (r r' : MethodResponse) : Prop where
  headers : Padded Eq (fun x => Undescribed x.description) r.headers r'.headers
  rest : r' = { r with headers := r'.headers }

/-- A documentation with silent parameters, silent responses and, in its responses, undescribed
headers added. -/
structure EndpointDocumentation.Pads (d d' : EndpointDocumentation) : Prop where
  query : Padded Eq Parameter.Silent d.queryParameters d'.queryParameters
  path : Padded Eq Parameter.Silent d.pathParameters d'.pathParameters
  headers : Padded Eq Parameter.Silent d.headers d'.headers
  responses : Padded MethodResponse.Pads MethodResponse.Silent d.responses d'.responses
  rest : d' = { d with
    queryParameters := d'.queryParameters
    pathParameters := d'.pathParameters
    headers := d'.headers
    responses := d'.responses }

/-- An event with silent entries added to its documentation, if it has one. -/
structure HttpEvent.Pads (e e' : HttpEvent) : Prop where
  documentation : Option.Rel EndpointDocumentation.Pads e.documentation e'.documentation
  rest : e' = { e with documentation := e'.documentation }

/-- A documentation section with silent resources added. -/
structure DocumentationConfig.Pads (c c' : DocumentationConfig) : Prop where
  resources : Padded Eq Parts.SilentResource c.resources c'.resources
  rest : c' = { c with resources := c'.resources }

namespace Parts
variable {location : List (String × Value)} {fields body : Fields} {path method : String}
  {r r' : MethodResponse} {d d' : EndpointDocumentation} {e e' : HttpEvent}

theorem part?_of_saysNothing (h : fields.SaysNothing) : part? location fields = none :=
  part?_eq_none_iff.mpr fun kv hkv => Value.isBlank_iff.mpr (h kv hkv)

theorem saysNothing_descriptionFields {s : Option String} (h : Undescribed s) :
    (descriptionFields s).SaysNothing := by
  intro kv hkv
  rw [descriptionFields, pairs, List.map_singleton, List.mem_singleton] at hkv
  exact hkv ▸ Value.saysNothing_textOrNull.mpr h

theorem parameterPart?_of_silent {kind : String} {x : Parameter} (h : x.Silent) :
    parameterPart? kind path method x = none := by
  refine part?_of_saysNothing fun kv hkv => ?_
  simp only [parameterFields, pairs, List.map_cons, List.map_nil, List.mem_cons, List.not_mem_nil,
    or_false] at hkv
  rcases hkv with rfl | rfl
  · exact Value.saysNothing_textOrNull.mpr h.description
  · exact Value.saysNothing_flagOrNull.mpr h.required

/-! ### The parts of an endpoint -/

theorem isEndlessInFields_of_saysNothing (h : fields.SaysNothing) :
    Value.isEndlessInFields fields = false := by
  induction fields with
  | nil => rfl
  | cons kv fields ih =>
    obtain ⟨hkv, hfields⟩ := List.forall_mem_cons.mp h
    rw [Value.isEndlessInFields, hkv.isEndless, ih hfields]
    rfl

/-- A body without content can be read, and says nothing. -/
theorem bodyFields_of_saysNothing {b : Option Body}
    (h : ∀ b', b = some b' → b'.toFields.SaysNothing) :
    ∃ fields, bodyFields b = .ok fields ∧ fields.SaysNothing := by
  cases b with
  | none => exact ⟨[], rfl, fun kv hkv => (nomatch hkv)⟩
  | some b =>
    have hfinite : b.toValue.isEndless = false := isEndlessInFields_of_saysNothing (h b rfl)
    exact ⟨b.toFields, bodyFields_eq_ok.mpr (.inr ⟨b, rfl, hfinite, rfl⟩), h b rfl⟩

/-- A silent response has no parts. -/
theorem responsePartsOf_of_silent (h : r.Silent) : responsePartsOf path method r = .ok [] := by
  -- the body has to be read before it is dropped, and could fail there
  obtain ⟨body, hbody, hempty⟩ := bodyFields_of_saysNothing h.body
  have hheaders : r.headers.filterMap (headerPart? path method r.statusCode) = [] :=
    List.filterMap_eq_nil_iff.mpr fun x hx =>
      part?_of_saysNothing (saysNothing_descriptionFields (h.headers x hx))
  have hparts : responseParts path method r body = [] := by
    unfold responseParts
    rw [part?_of_saysNothing (saysNothing_descriptionFields h.description),
      part?_of_saysNothing hempty, hheaders]
    rfl
  unfold responsePartsOf
  rw [hbody]
  exact congrArg Except.ok hparts

theorem responsePartsOf_of_pads (h : r.Pads r') :
    responsePartsOf path method r' = responsePartsOf path method r := by
  obtain ⟨hheaders, hrest⟩ := h
  have hparts : r'.headers.filterMap (headerPart? path method r.statusCode) =
      r.headers.filterMap (headerPart? path method r.statusCode) :=
    hheaders.filterMap_eq (fun _ _ hxy => hxy ▸ rfl)
      fun x hx => part?_of_saysNothing (saysNothing_descriptionFields hx)
  rw [hrest]
  unfold responsePartsOf responseParts
  rw [hparts]

theorem ofEndpoint_of_pads (h : d.Pads d') : ofEndpoint e d' = ofEndpoint e d := by
  have hparameters {kind : String} {xs ys : List Parameter} (h : Padded Eq Parameter.Silent xs ys) :
      ys.filterMap (parameterPart? kind e.docPath (Text.upper e.method)) =
        xs.filterMap (parameterPart? kind e.docPath (Text.upper e.method)) :=
    h.filterMap_eq (fun _ _ hxy => hxy ▸ rfl) fun _ => parameterPart?_of_silent
  have hresponses : Result.gather (responsePartsOf e.docPath (Text.upper e.method)) d'.responses =
      Result.gather (responsePartsOf e.docPath (Text.upper e.method)) d.responses :=
    h.responses.gather_eq (fun _ _ => responsePartsOf_of_pads) fun _ => responsePartsOf_of_silent
  obtain ⟨hquery, hpath, hheaders, -, hrest⟩ := h
  rw [ofEndpoint_eq, ofEndpoint_eq, hresponses, hrest]
  unfold endpointParts
  simp only [hparameters hquery, hparameters hpath, hparameters hheaders, endpointFields]

/-! ### The parts of a service -/

theorem ofAnyEvent_of_pads (h : e.Pads e') : ofAnyEvent e' = ofAnyEvent e := by
  obtain ⟨hdocumentation, hrest⟩ := h
  obtain ⟨path, method, documentation⟩ := e
  obtain ⟨path', method', documentation'⟩ := e'
  obtain ⟨rfl, rfl, -⟩ := HttpEvent.mk.inj hrest
  cases hdocumentation with
  | none => rfl
  | some hd => exact ofEndpoint_of_pads hd

theorem ofAnyEvent_of_silent (h : e.Silent) : ofAnyEvent e = .ok [] := by
  unfold ofAnyEvent
  rw [h]

theorem ofResource_of_silent (h : SilentResource fields) :
    (ofResource fields).map Option.toList = .ok [] := by
  obtain ⟨⟨path, hpath⟩, hrest⟩ := h
  obtain ⟨path, htext, -⟩ := Result.bind_eq_ok.mp hpath
  have hnone : ofResource fields = .ok none := by
    unfold ofResource
    rw [htext]
    exact congrArg Except.ok (part?_of_saysNothing hrest)
  rw [hnone]
  rfl

section
variable {config config' : DocumentationConfig} {models models' : List ModelDescriptor}
  {events events' : List HttpEvent} {parts : List Part}

theorem ofModels_of_padded (h : Padded Eq ModelDescriptor.Silent models models') :
    ofModels models' = ofModels models :=
  h.filterMap_eq (fun _ _ hxy => hxy ▸ rfl)
    fun _ hm => part?_of_saysNothing (saysNothing_descriptionFields hm)

theorem serviceParts_of_pads (hc : config.Pads config')
    (hm : Padded Eq ModelDescriptor.Silent models models')
    (he : Padded HttpEvent.Pads HttpEvent.Silent events events') :
    serviceParts config' models' events' = serviceParts config models events := by
  have hresources :
      Result.gather (fun fields => (ofResource fields).map Option.toList) config'.resources =
        Result.gather (fun fields => (ofResource fields).map Option.toList) config.resources :=
    hc.resources.gather_eq (fun _ _ hxy => hxy ▸ rfl) fun _ => ofResource_of_silent
  have hevents : Result.gather ofAnyEvent events' = Result.gather ofAnyEvent events :=
    he.gather_eq (fun _ _ => ofAnyEvent_of_pads) fun _ => ofAnyEvent_of_silent
  rw [serviceParts_eq, serviceParts_eq, hresources, hevents, ofModels_of_padded hm, hc.rest]

/-! ### What is left of what is told -/

/-- Each part has something to say and says nothing idle, and whatever a service tells is in a part
at the place where it is told unless it says nothing. -/
structure Tidy (config : DocumentationConfig) (models : List ModelDescriptor)
    (events : List HttpEvent) (parts : List Part) : Prop where
  nonempty : ∀ p ∈ parts, p.properties ≠ []
  location : ∀ p ∈ parts, ∀ kv ∈ p.location, ¬ kv.2.SaysNothing
  properties : ∀ p ∈ parts, ∀ kv ∈ p.properties, ¬ kv.2.SaysNothing
  kept : ∀ {location fields}, ServiceTells config models events location fields →
    ∀ kv ∈ fields, ¬ kv.2.SaysNothing →
      ∃ p ∈ parts, p.location = clean (pairs location) ∧ kv ∈ p.properties

theorem mem_clean_iff {kv : Atom × Value} :
    kv ∈ clean fields ↔ kv ∈ fields ∧ ¬ kv.2.SaysNothing := by
  unfold clean
  rw [List.mem_filter, ← Value.isBlank_iff]
  simp

theorem tidy_serviceParts (h : serviceParts config models events = .ok parts) :
    Tidy config models events parts := by
  have hmade : ∀ p ∈ parts, ∃ location fields,
      clean fields ≠ [] ∧ p = ⟨clean (pairs location), clean fields⟩ := by
    intro p hp
    obtain ⟨location, fields, -, hp⟩ := (mem_serviceParts_iff h).mp hp
    exact ⟨location, fields, part?_eq_some_iff.mp hp⟩
  constructor
  · intro p hp
    obtain ⟨location, fields, hne, rfl⟩ := hmade p hp
    exact hne
  · intro p hp kv hkv
    obtain ⟨location, fields, -, rfl⟩ := hmade p hp
    exact (mem_clean_iff.mp hkv).2
  · intro p hp kv hkv
    obtain ⟨location, fields, -, rfl⟩ := hmade p hp
    exact (mem_clean_iff.mp hkv).2
  · intro location fields tells kv hkv hsays
    have hmem : kv ∈ clean fields := mem_clean_iff.mpr ⟨hkv, hsays⟩
    have hpart : part? location fields = some ⟨clean (pairs location), clean fields⟩ :=
      part?_eq_some_iff.mpr ⟨List.ne_nil_of_mem hmem, rfl⟩
    exact ⟨_, (mem_serviceParts_iff h).mpr ⟨location, fields, tells, hpart⟩, rfl, hmem⟩

/-- Silent entries have no influence on the parts of a service and their version, and of what a
service tells just what says nothing is left out.  A flag says something even if it is false, and a
number even if it is zero: of the values without parts only the absent one and the empty text say
nothing. -/
theorem serviceParts_padded (hc : config.Pads config')
    (hm : Padded Eq ModelDescriptor.Silent models models')
    (he : Padded HttpEvent.Pads HttpEvent.Silent events events') :
    serviceParts config' models' events' = serviceParts config models events ∧
    (∀ given, (serviceParts config' models' events' >>= fun parts => version parts given) =
      serviceParts config models events >>= fun parts => version parts given) ∧
    (∀ parts, serviceParts config models events = .ok parts → Tidy config models events parts) ∧
    ∀ a : Atom, (Value.atom a).SaysNothing ↔ a = .null ∨ a = .str "" := by
  have hparts := serviceParts_of_pads hc hm he
  refine ⟨hparts, fun given => by rw [hparts], fun parts => tidy_serviceParts, fun a => ?_⟩
  simp [Value.SaysNothing, Value.unshared]

end

/-- An endpoint with a flag that is false and a number that is zero. -/
def plainEndpoint : EndpointDocumentation where
  summary := none
  description := none
  tags := []
  body := none
  headers := []
  pathParameters := []
  queryParameters := [⟨"limit", none, some false⟩]
  models := []
  responses := [⟨"200", none, some ⟨none, [(.str "minimum", .int 0)]⟩, [], []⟩]
  extra := []

/-- The same endpoint with a silent entry in each of its lists. -/
def paddedEndpoint : EndpointDocumentation :=
  { plainEndpoint with
    headers := [⟨"Accept", none, none⟩]
    pathParameters := [⟨"id", some "", none⟩]
    queryParameters := [⟨"page", none, none⟩, ⟨"limit", none, some false⟩]
    responses := [
      ⟨"200", none, some ⟨none, [(.str "minimum", .int 0)]⟩, [⟨"ETag", none, some true⟩], []⟩,
      ⟨"404", none, some ⟨none, [(.str "schema", .object [])]⟩, [⟨"ETag", none, none⟩], []⟩] }

/-- A documentation section with resources and nothing else. -/
def ofResources (resources : List Fields) : DocumentationConfig where
  version := none
  api := []
  resources := resources
  models := []
  swagger := false
  definitions := none
  paths := []
  extra := []

/-- A resource with nothing but its path. -/
def silentResource : Fields := [(.str "path", .str "pets"), (.str "description", .null)]

theorem paddedEndpoint_pads : plainEndpoint.Pads paddedEndpoint where
  query := .insert ⟨rfl, rfl⟩ (.keep rfl .nil)
  path := .insert ⟨rfl, rfl⟩ .nil
  headers := .insert ⟨rfl, rfl⟩ .nil
  responses := by
    refine .keep ⟨.insert rfl .nil, rfl⟩ (.insert ⟨rfl, fun b hb kv hkv => ?_, ?_⟩ .nil)
    · obtain rfl := Option.some.inj hb
      have hfields : Body.toFields ⟨none, [(.str "schema", .object [])]⟩ =
          [(.str "description", .null), (.str "schema", .object [])] := rfl
      rw [hfields, List.mem_cons, List.mem_singleton] at hkv
      rcases hkv with rfl | rfl
      · exact .inl rfl
      · exact .inr (.inr (.inr rfl))
    · exact List.forall_mem_singleton.mpr rfl
  rest := rfl

theorem serviceParts_padded_everywhere :
    serviceParts (ofResources [silentResource]) [⟨"Pet", none, "application/json", .null⟩]
        [⟨"pets", "post", none⟩, ⟨"pets", "get", some paddedEndpoint⟩] =
      serviceParts (ofResources []) [] [⟨"pets", "get", some plainEndpoint⟩] ∧
    ∃ parts, serviceParts (ofResources []) [] [⟨"pets", "get", some plainEndpoint⟩] = .ok parts ∧
      parts.length = 2 ∧ (∃ p ∈ parts, (.str "required", .bool false) ∈ p.properties) ∧
      ∃ p ∈ parts, (.str "minimum", .int 0) ∈ p.properties := by
  have hconfig : (ofResources []).Pads (ofResources [silentResource]) :=
    ⟨.insert ⟨⟨_, rfl⟩, List.forall_mem_singleton.mpr (.inl rfl)⟩ .nil, rfl⟩
  have hmodels : Padded Eq ModelDescriptor.Silent [] [⟨"Pet", none, "application/json", .null⟩] :=
    .insert rfl .nil
  have hevents : Padded HttpEvent.Pads HttpEvent.Silent [⟨"pets", "get", some plainEndpoint⟩]
      [⟨"pets", "post", none⟩, ⟨"pets", "get", some paddedEndpoint⟩] :=
    .insert rfl (.keep ⟨.some paddedEndpoint_pads, rfl⟩ .nil)
  obtain ⟨hsame, -, htidy, hatoms⟩ := serviceParts_padded hconfig hmodels hevents
  obtain ⟨parts, hparts, hlength⟩ : ∃ parts, serviceParts (ofResources []) []
      [⟨"pets", "get", some plainEndpoint⟩] = .ok parts ∧ parts.length = 2 := ⟨_, rfl, rfl⟩
  have hrequired : (Atom.str "required", Value.bool false) ∈
      parameterFields ⟨"limit", none, some false⟩ := List.mem_cons_of_mem _ List.mem_cons_self
  have hminimum : (Atom.str "minimum", Value.int 0) ∈
      Body.toFields ⟨none, [(.str "minimum", .int 0)]⟩ := List.mem_cons_of_mem _ List.mem_cons_self
  refine ⟨hsame, parts, hparts, hlength, ?_, ?_⟩
  · obtain ⟨p, hp, -, hmem⟩ := (htidy parts hparts).kept
      (.endpoint List.mem_cons_self rfl (.query List.mem_cons_self)) _ hrequired (by simp [hatoms])
    exact ⟨p, hp, hmem⟩
  · obtain ⟨p, hp, -, hmem⟩ := (htidy parts hparts).kept
      (.endpoint List.mem_cons_self rfl (.response List.mem_cons_self (.body rfl))) _ hminimum
      (by simp [hatoms])
    exact ⟨p, hp, hmem⟩

end Parts

/-! ### Paths without a text -/

namespace Parts

/-- A resource with nothing but a path of too many digits. -/
def longResource : Fields := [(.str "path", .int (10 ^ Decimal.digitLimit : Nat))]

/-- A resource that has nothing but a path makes a difference if the path has no text. -/
theorem serviceParts_longResource : resourceFields longResource = [] ∧
    (∃ parts, serviceParts (ofResources []) [] [] = .ok parts) ∧
    serviceParts (ofResources [longResource]) [] [] = .error .longInteger := by
  have hpath : (Fields.get? "path" longResource).getD (.str "") =
      .int (10 ^ Decimal.digitLimit : Nat) := rfl
  have hresource : ofResource longResource = .error .longInteger := by
    unfold ofResource
    rw [hpath, Value.text_pow (Nat.le_refl _)]
    rfl
  refine ⟨rfl, ⟨_, rfl⟩, ?_⟩
  unfold serviceParts ofResources
  rw [List.mapM_cons, hresource]
  rfl

end Parts
end GatewayDocs

import GatewayDocs.Parts
import GatewayDocs.Proofs.Edit

/-! # Where parts come from

The parts of a service come from what its documentation tells: the interface, its resources, the
models and the endpoints tell something at a place each (`Parts.ServiceTells`), and what is told is
a part if anything is left when blank entries are dropped (`Parts.mem_serviceParts_iff`).

The functions that make the parts are brought into one form for this: each of them makes some parts
of its own and then gathers those of its items, one item after the other (`Result.gather`,
`Parts.ofEndpoint_eq`, `Parts.serviceParts_eq`). -/

namespace GatewayDocs

/-! ### What the items of a list yield -/

namespace Result
variable {α β γ : Type} {f : α → Result (List β)} {x : α} {xs : List α} {y : β} {ys : List β}

/-- What the items of a list yield, one after the other. -/
def gather (f : α → Result (List β)) : List α → Result (List β)
  | [] => .ok []
  | x :: xs => do
    let own ← f x
    let rest ← gather f xs
    return own ++ rest

theorem gather_cons_eq_ok : gather f (x :: xs) = .ok ys ↔
    ∃ own rest, f x = .ok own ∧ gather f xs = .ok rest ∧ ys = own ++ rest := by
  constructor
  · intro h
    obtain ⟨own, hown, h₁⟩ := bind_eq_ok.mp h
    obtain ⟨rest, hrest, h₂⟩ := bind_eq_ok.mp h₁
    exact ⟨own, rest, hown, hrest, (Except.ok.inj h₂).symm⟩
  · rintro ⟨own, rest, hown, hrest, rfl⟩
    exact bind_eq_ok.mpr ⟨own, hown, bind_eq_ok.mpr ⟨rest, hrest, rfl⟩⟩

/-- Lists that the items yield in some other form are gathered in that form. -/
theorem mapM_map_flatMap (f : α → Result β) (g : β → List γ) (xs : List α) :
    (xs.mapM f).map (List.flatMap g) = gather (fun x => (f x).map g) xs := by
  induction xs with
  | nil => rfl
  | cons x xs ih =>
    rw [List.mapM_cons, gather, ← ih]
    cases f x with
    | error e => rfl
    | ok y =>
      rw [ok_bind]
      cases xs.mapM f with
      | error e => rfl
      | ok ys => rfl

theorem mapM_map_flatten (xs : List α) : (xs.mapM f).map List.flatten = gather f xs := by
  calc (xs.mapM f).map List.flatten
      _ = (xs.mapM f).map (List.flatMap id) :=
        congrArg ((xs.mapM f).map ·) (funext fun _ => List.flatMap_id.symm)
      _ = gather (fun x => (f x).map id) xs := mapM_map_flatMap f id xs
      _ = gather f xs := by simp only [Except.map_id, id]

theorem mem_gather_iff (h : gather f xs = .ok ys) :
    y ∈ ys ↔ ∃ x ∈ xs, ∃ own, f x = .ok own ∧ y ∈ own := by
  induction xs generalizing ys with
  | nil =>
    obtain rfl := Except.ok.inj h
    exact ⟨fun hy => (nomatch hy), fun ⟨_, hx, _⟩ => (nomatch hx)⟩
  | cons x xs ih =>
    obtain ⟨own, rest, hown, hrest, rfl⟩ := gather_cons_eq_ok.mp h
    rw [List.mem_append, ih hrest, List.exists_mem_cons_iff, hown]
    simp

theorem exists_of_gather (h : gather f xs = .ok ys) (hx : x ∈ xs) : ∃ own, f x = .ok own := by
  induction xs generalizing ys with
  | nil => cases hx
  | cons x' xs ih =>
    obtain ⟨own, rest, hown, hrest, -⟩ := gather_cons_eq_ok.mp h
    cases hx with
    | head => exact ⟨own, hown⟩
    | tail _ hx => exact ih hrest hx

theorem exists_gather (h : ∀ x ∈ xs, ∃ own, f x = .ok own) : ∃ ys, gather f xs = .ok ys := by
  induction xs with
  | nil => exact ⟨[], rfl⟩
  | cons x xs ih =>
    obtain ⟨hx, hxs⟩ := List.forall_mem_cons.mp h
    obtain ⟨own, hown⟩ := hx
    obtain ⟨rest, hrest⟩ := ih hxs
    exact ⟨_, gather_cons_eq_ok.mpr ⟨own, rest, hown, hrest, rfl⟩⟩

/-- Any two that are gathered are related if any two of one item are and any two of different items
are. -/
theorem pairwise_gather {R : β → β → Prop} (h : gather f xs = .ok ys)
    (hown : ∀ x ∈ xs, ∀ own, f x = .ok own → own.Pairwise R)
    (hcross : xs.Pairwise fun x x' => ∀ own own', f x = .ok own → f x' = .ok own' →
      ∀ y ∈ own, ∀ y' ∈ own', R y y') : ys.Pairwise R := by
  induction xs generalizing ys with
  | nil =>
    obtain rfl := Except.ok.inj h
    exact .nil
  | cons x xs ih =>
    -- what is gathered later comes from a later item, of which `hcross` speaks
    obtain ⟨own, rest, hx, hrest, rfl⟩ := gather_cons_eq_ok.mp h
    obtain ⟨hfirst, hcross⟩ := List.pairwise_cons.mp hcross
    obtain ⟨hownx, hown⟩ := List.forall_mem_cons.mp hown
    refine List.pairwise_append.mpr ⟨hownx own hx, ih hrest hown hcross, fun y hy y' hy' => ?_⟩
    obtain ⟨x', hx', own', hown', hy'⟩ := (mem_gather_iff hrest).mp hy'
    exact hfirst x' hx' own own' hx hown' y hy y' hy'

end Result

namespace Parts
variable {location : List (String × Value)} {fields body : Fields} {path method : String}
  {kind name code : String} {p : Part} {ps : List Part} {r : MethodResponse}
  {d : EndpointDocumentation} {e : HttpEvent}

/-! ### One part -/

theorem part?_eq_some_iff : part? location fields = some p ↔
    clean fields ≠ [] ∧ p = ⟨clean (pairs location), clean fields⟩ := by
  unfold part?
  by_cases hnone : clean fields = []
  · simp [hnone]
  · simp only [List.isEmpty_iff, hnone, if_false, ne_eq, not_false_eq_true, true_and,
      Option.some.injEq]
    exact eq_comm

/-- Only what is blank is no part. -/
theorem part?_eq_none_iff : part? location fields = none ↔ ∀ kv ∈ fields, kv.2.isBlank = true := by
  have hclean : clean fields = [] ↔ ∀ kv ∈ fields, kv.2.isBlank = true := by
    unfold clean
    rw [List.filter_eq_nil_iff]
    simp
  rw [← hclean]
  unfold part?
  by_cases hnone : clean fields = []
  · simp [hnone]
  · simp [hnone]

theorem bodyFields_eq_ok {b : Option Body} : bodyFields b = .ok fields ↔
    (b = none ∧ fields = []) ∨
      ∃ b', b = some b' ∧ b'.toValue.isEndless = false ∧ fields = b'.toFields := by
  cases b with
  | none =>
    constructor
    · intro h
      exact .inl ⟨rfl, (Except.ok.inj h).symm⟩
    · rintro (⟨-, rfl⟩ | ⟨_, h, -⟩)
      · rfl
      · cases h
  | some b =>
    cases hend : b.toValue.isEndless with
    | true => simp [bodyFields, hend]
    | false =>
      have hok : bodyFields (some b) = .ok b.toFields := by simp [bodyFields, hend]
      rw [hok]
      constructor
      · intro h
        exact .inr ⟨b, rfl, hend, (Except.ok.inj h).symm⟩
      · rintro (⟨h, -⟩ | ⟨_, h, -, rfl⟩)
        · cases h
        · cases h
          rfl

/-- A body that is absent is no part. -/
theorem part?_bodyFields {b : Option Body} (h : bodyFields b = .ok fields) :
    part? location fields = some p ↔ ∃ b', b = some b' ∧ part? location b'.toFields = some p := by
  rcases bodyFields_eq_ok.mp h with ⟨rfl, rfl⟩ | ⟨b', rfl, -, rfl⟩
  · exact ⟨fun hp => (nomatch hp), fun ⟨_, hb, _⟩ => (nomatch hb)⟩
  · exact ⟨fun hp => ⟨b', rfl, hp⟩, fun ⟨_, hb, hp⟩ => Option.some.inj hb ▸ hp⟩

/-! ### Places -/

/-- The place of an endpoint, for parts of a kind. -/
def endpointPlace (kind path method : String) : List (String × Value) :=
  [("type", .str kind), ("path", .str path), ("method", .str method)]

/-- The place of a parameter of a kind. -/
def parameterPlace (kind path method name : String) : List (String × Value) :=
  [("type", .str kind), ("path", .str path), ("method", .str method), ("name", .str name)]

/-- The place of a response, for parts of a kind. -/
def responsePlace (kind path method code : String) : List (String × Value) :=
  [("type", .str kind), ("path", .str path), ("method", .str method), ("statusCode", .str code)]

/-- The place of a header of a response. -/
def headerPlace (path method code name : String) : List (String × Value) :=
  [("type", .str "RESPONSE_HEADER"), ("name", .str name), ("path", .str path),
    ("method", .str method), ("statusCode", .str code)]

/-- What a parameter tells. -/
def parameterFields (x : Parameter) : Fields :=
  pairs [("description", textOrNull x.description), ("required", flagOrNull x.required)]

/-- What a description tells. -/
def descriptionFields (s : Option String) : Fields := pairs [("description", textOrNull s)]

/-- What the documentation of an endpoint tells of the endpoint as a whole. -/
def endpointFields (d : EndpointDocumentation) : Fields :=
  pairs [("summary", textOrNull d.summary), ("description", textOrNull d.description),
    ("tags", .list (d.tags.map .str))]

/-- The path of a resource of the interface. -/
def resourcePath (fields : Fields) : Result String := do
  let path ← ((fields.get? "path").getD (.str "")).text
  return "/" ++ Text.stripChar '/' path

/-- What a resource of the interface tells: all but its path. -/
def resourceFields (fields : Fields) : Fields := fields.filter fun kv => !isPath kv

/-! ### What is told -/

/-- What a response tells, and at which places. -/
inductive ResponseTells (path method : String) (r : MethodResponse) :
    List (String × Value) → Fields → Prop
  | response : ResponseTells path method r (responsePlace "RESPONSE" path method r.statusCode)
      (descriptionFields r.description)
  | body {b : Body} (hb : r.body = some b) : ResponseTells path method r
      (responsePlace "RESPONSE_BODY" path method r.statusCode) b.toFields
  | header {x : Parameter} (hx : x ∈ r.headers) : ResponseTells path method r
      (headerPlace path method r.statusCode x.name) (descriptionFields x.description)

/-- What the documentation of an endpoint tells, and at which places. -/
inductive EndpointTells (path method : String) (d : EndpointDocumentation) :
    List (String × Value) → Fields → Prop
  | endpoint : EndpointTells path method d (endpointPlace "METHOD" path method) (endpointFields d)
  | query {x : Parameter} (hx : x ∈ d.queryParameters) : EndpointTells path method d
      (parameterPlace "QUERY_PARAMETER" path method x.name) (parameterFields x)
  | path {x : Parameter} (hx : x ∈ d.pathParameters) : EndpointTells path method d
      (parameterPlace "PATH_PARAMETER" path method x.name) (parameterFields x)
  | header {x : Parameter} (hx : x ∈ d.headers) : EndpointTells path method d
      (parameterPlace "REQUEST_HEADER" path method x.name) (parameterFields x)
  | body {b : Body} (hb : d.body = some b) : EndpointTells path method d
      (endpointPlace "REQUEST_BODY" path method) b.toFields
  | response {r : MethodResponse} {location : List (String × Value)} {fields : Fields}
      (hr : r ∈ d.responses) (h : ResponseTells path method r location fields) :
      EndpointTells path method d location fields

/-- What a service tells, and at which places. -/
inductive ServiceTells (config : DocumentationConfig) (models : List ModelDescriptor)
    (events : List HttpEvent) : List (String × Value) → Fields → Prop
  | api : ServiceTells config models events [("type", .str "API")] config.api
  | resource {fields : Fields} {path : String} (hf : fields ∈ config.resources)
      (hp : resourcePath fields = .ok path) : ServiceTells config models events
      [("type", .str "RESOURCE"), ("path", .str path)] (resourceFields fields)
  | model {m : ModelDescriptor} (hm : m ∈ models) : ServiceTells config models events
      [("type", .str "MODEL"), ("name", .str m.name)] (descriptionFields m.description)
  | endpoint {e : HttpEvent} {d : EndpointDocumentation} {location : List (String × Value)}
      {fields : Fields} (he : e ∈ events) (hd : e.documentation = some d)
      (h : EndpointTells e.docPath (Text.upper e.method) d location fields) :
      ServiceTells config models events location fields

/-- A place has a text for each of its keys, which are distinct. -/
def IsPlace (location : List (String × Value)) : Prop :=
  (location.map (·.1)).Nodup ∧ ∀ kv ∈ location, ∃ s, kv.2 = .str s

theorem isPlace_endpointPlace : IsPlace (endpointPlace kind path method) := by
  simp [IsPlace, endpointPlace]

theorem isPlace_parameterPlace : IsPlace (parameterPlace kind path method name) := by
  simp [IsPlace, parameterPlace]

theorem isPlace_responsePlace : IsPlace (responsePlace kind path method code) := by
  simp [IsPlace, responsePlace]

theorem isPlace_headerPlace : IsPlace (headerPlace path method code name) := by
  simp [IsPlace, headerPlace]

theorem ResponseTells.isPlace (h : ResponseTells path method r location fields) :
    IsPlace location := by
  cases h with
  | response => exact isPlace_responsePlace
  | body => exact isPlace_responsePlace
  | header => exact isPlace_headerPlace

theorem EndpointTells.isPlace (h : EndpointTells path method d location fields) :
    IsPlace location := by
  cases h with
  | endpoint => exact isPlace_endpointPlace
  | query => exact isPlace_parameterPlace
  | path => exact isPlace_parameterPlace
  | header => exact isPlace_parameterPlace
  | body => exact isPlace_endpointPlace
  | response _ h => exact h.isPlace

/-- Whatever a service tells, it tells at a place. -/
theorem ServiceTells.isPlace {config : DocumentationConfig} {models : List ModelDescriptor}
    {events : List HttpEvent} (h : ServiceTells config models events location fields) :
    IsPlace location := by
  cases h with
  | api => simp [IsPlace]
  | resource => simp [IsPlace]
  | model => simp [IsPlace]
  | endpoint _ _ h => exact h.isPlace

/-- A part is made of something that is told. -/
def MadeOf (Tells : List (String × Value) → Fields → Prop) (p : Part) : Prop :=
  ∃ location fields, Tells location fields ∧ part? location fields = some p

/-! ### The parts of an endpoint -/

/-- The part of a parameter of a kind. -/
def parameterPart? (kind path method : String) (x : Parameter) : Option Part :=
  part? (parameterPlace kind path method x.name) (parameterFields x)

/-- The part of a header of a response. -/
def headerPart? (path method code : String) (x : Parameter) : Option Part :=
  part? (headerPlace path method code x.name) (descriptionFields x.description)

/-- The parts of a response whose body has some pairs. -/
def responseParts (path method : String) (r : MethodResponse) (body : Fields) : List Part :=
  (part? (responsePlace "RESPONSE" path method r.statusCode)
      (descriptionFields r.description)).toList ++
    ((part? (responsePlace "RESPONSE_BODY" path method r.statusCode) body).toList ++
      r.headers.filterMap (headerPart? path method r.statusCode))

/-- The parts of an endpoint whose body has some pairs, but for those of its responses. -/
def endpointParts (path method : String) (d : EndpointDocumentation) (body : Fields) : List Part :=
  (part? (endpointPlace "METHOD" path method) (endpointFields d)).toList ++
    (d.queryParameters.filterMap (parameterPart? "QUERY_PARAMETER" path method) ++
      (d.pathParameters.filterMap (parameterPart? "PATH_PARAMETER" path method) ++
        (d.headers.filterMap (parameterPart? "REQUEST_HEADER" path method) ++
          (part? (endpointPlace "REQUEST_BODY" path method) body).toList)))

/-- The parts of a response, without those that are absent. -/
def responsePartsOf (path method : String) (r : MethodResponse) : Result (List Part) :=
  (bodyFields r.body).map (responseParts path method r)

theorem filterMap_id_cons (o : Option Part) (os : List (Option Part)) :
    (o :: os).filterMap id = o.toList ++ os.filterMap id := by
  cases o <;> rfl

theorem ofResponse_eq :
    (ofResponse path method r).map (List.filterMap id) = responsePartsOf path method r := by
  unfold ofResponse responsePartsOf
  cases bodyFields r.body with
  | error e => rfl
  | ok body =>
    refine congrArg Except.ok ?_
    rw [filterMap_id_cons, filterMap_id_cons, List.filterMap_map]
    rfl

/-- The parts of an endpoint are its own and those of its responses. -/
theorem ofEndpoint_eq : ofEndpoint e d = (do
    let body ← bodyFields d.body
    let responses ← Result.gather (responsePartsOf e.docPath (Text.upper e.method)) d.responses
    return endpointParts e.docPath (Text.upper e.method) d body ++ responses) := by
  have hgather : Result.gather (responsePartsOf e.docPath (Text.upper e.method)) d.responses =
      (d.responses.mapM (ofResponse e.docPath (Text.upper e.method))).map
        (List.flatMap (List.filterMap id)) := by
    rw [Result.mapM_map_flatMap]
    exact congrArg (Result.gather · d.responses) (funext fun r => ofResponse_eq.symm)
  unfold ofEndpoint
  rw [hgather]
  cases bodyFields d.body with
  | error _ => rfl
  | ok body =>
    rw [Result.ok_bind, Result.ok_bind]
    cases d.responses.mapM (ofResponse e.docPath (Text.upper e.method)) with
    | error _ => rfl
    | ok responses =>
      refine congrArg Except.ok ?_
      unfold ofParameters endpointParts
      simp only [List.cons_append, List.filterMap_append, filterMap_id_cons, List.filterMap_map,
        List.append_assoc, List.filterMap_flatten, List.flatMap]
      rfl

/-- The parts of a service are those of the interface, its resources, its models and its
endpoints. -/
theorem serviceParts_eq {config : DocumentationConfig} {models : List ModelDescriptor}
    {events : List HttpEvent} : serviceParts config models events = (do
      let resources ← Result.gather (fun fields => (ofResource fields).map Option.toList)
        config.resources
      let endpoints ← Result.gather ofAnyEvent events
      return (part? [("type", .str "API")] config.api).toList ++
        (resources ++ (ofModels models ++ endpoints))) := by
  rw [← Result.mapM_map_flatMap, ← Result.mapM_map_flatten]
  unfold serviceParts
  cases config.resources.mapM ofResource with
  | error _ => rfl
  | ok resources =>
    cases events.mapM ofAnyEvent with
    | error _ => rfl
    | ok endpoints =>
      refine congrArg Except.ok ?_
      rw [List.append_assoc, List.append_assoc, List.filterMap_eq_flatMap_toList]
      rfl

/-! ### What parts are made of -/

/-- The parts of a response are made of what it tells. -/
theorem mem_responsePartsOf_iff (h : responsePartsOf path method r = .ok ps) :
    p ∈ ps ↔ MadeOf (ResponseTells path method r) p := by
  obtain ⟨body, hbody, rfl⟩ := Result.map_eq_ok.mp h
  simp only [responseParts, List.mem_append, Option.mem_toList,
    List.mem_filterMap, part?_bodyFields hbody]
  constructor
  · rintro (hp | ⟨b, hb, hp⟩ | ⟨x, hx, hp⟩)
    · exact ⟨_, _, .response, hp⟩
    · exact ⟨_, _, .body hb, hp⟩
    · exact ⟨_, _, .header hx, hp⟩
  · rintro ⟨_, _, tells, hp⟩
    cases tells with
    | response => exact .inl hp
    | body hb => exact .inr (.inl ⟨_, hb, hp⟩)
    | header hx => exact .inr (.inr ⟨_, hx, hp⟩)

theorem mem_endpointParts_iff (hbody : bodyFields d.body = .ok body) :
    p ∈ endpointParts path method d body ↔
      part? (endpointPlace "METHOD" path method) (endpointFields d) = some p ∨
      (∃ x ∈ d.queryParameters, parameterPart? "QUERY_PARAMETER" path method x = some p) ∨
      (∃ x ∈ d.pathParameters, parameterPart? "PATH_PARAMETER" path method x = some p) ∨
      (∃ x ∈ d.headers, parameterPart? "REQUEST_HEADER" path method x = some p) ∨
      ∃ b, d.body = some b ∧
        part? (endpointPlace "REQUEST_BODY" path method) b.toFields = some p := by
  simp only [endpointParts, List.mem_append, Option.mem_toList,
    List.mem_filterMap, part?_bodyFields hbody]

/-- The parts of an endpoint are made of what its documentation tells. -/
theorem mem_ofEndpoint_iff (h : ofEndpoint e d = .ok ps) :
    p ∈ ps ↔ MadeOf (EndpointTells e.docPath (Text.upper e.method) d) p := by
  rw [ofEndpoint_eq] at h
  obtain ⟨body, hbody, h⟩ := Result.bind_eq_ok.mp h
  obtain ⟨responses, hresponses, h⟩ := Result.bind_eq_ok.mp h
  obtain rfl := Except.ok.inj h
  rw [List.mem_append, mem_endpointParts_iff hbody, Result.mem_gather_iff hresponses]
  constructor
  · rintro ((hp | ⟨x, hx, hp⟩ | ⟨x, hx, hp⟩ | ⟨x, hx, hp⟩ | ⟨b, hb, hp⟩) | ⟨r, hr, own, hown, hp⟩)
    · exact ⟨_, _, .endpoint, hp⟩
    · exact ⟨_, _, .query hx, hp⟩
    · exact ⟨_, _, .path hx, hp⟩
    · exact ⟨_, _, .header hx, hp⟩
    · exact ⟨_, _, .body hb, hp⟩
    · obtain ⟨location, fields, tells, hp⟩ := (mem_responsePartsOf_iff hown).mp hp
      exact ⟨location, fields, .response hr tells, hp⟩
  · rintro ⟨location, fields, tells, hp⟩
    cases tells with
    | endpoint => exact .inl (.inl hp)
    | query hx => exact .inl (.inr (.inl ⟨_, hx, hp⟩))
    | path hx => exact .inl (.inr (.inr (.inl ⟨_, hx, hp⟩)))
    | header hx => exact .inl (.inr (.inr (.inr (.inl ⟨_, hx, hp⟩))))
    | body hb => exact .inl (.inr (.inr (.inr (.inr ⟨_, hb, hp⟩))))
    | response hr tells =>
      obtain ⟨own, hown⟩ := Result.exists_of_gather hresponses hr
      exact .inr ⟨_, hr, own, hown, (mem_responsePartsOf_iff hown).mpr ⟨_, _, tells, hp⟩⟩

/-- An event has the parts of its endpoint, or none without documentation. -/
theorem ofAnyEvent_eq_ok : ofAnyEvent e = .ok ps ↔
    (e.documentation = none ∧ ps = []) ∨
      ∃ d, e.documentation = some d ∧ ofEndpoint e d = .ok ps := by
  unfold ofAnyEvent
  cases e.documentation with
  | none =>
    constructor
    · intro h
      exact .inl ⟨rfl, (Except.ok.inj h).symm⟩
    · rintro (⟨-, rfl⟩ | ⟨d, hd, -⟩)
      · rfl
      · cases hd
  | some d => simp

/-- The parts of an event are made of what its documentation tells. -/
theorem mem_ofAnyEvent_iff (h : ofAnyEvent e = .ok ps) :
    p ∈ ps ↔ ∃ d, e.documentation = some d ∧
      MadeOf (EndpointTells e.docPath (Text.upper e.method) d) p := by
  rcases ofAnyEvent_eq_ok.mp h with ⟨hd, rfl⟩ | ⟨d, hd, h⟩
  · simp [hd]
  · rw [mem_ofEndpoint_iff h, hd]
    simp

theorem mem_ofResource_iff {resource : Fields}
    (h : (ofResource resource).map Option.toList = .ok ps) :
    p ∈ ps ↔ ∃ path, resourcePath resource = .ok path ∧
      part? [("type", .str "RESOURCE"), ("path", .str path)] (resourceFields resource) =
        some p := by
  obtain ⟨part, hpart, rfl⟩ := Result.map_eq_ok.mp h
  obtain ⟨path, hpath, hpart⟩ := Result.bind_eq_ok.mp hpart
  obtain rfl := Except.ok.inj hpart
  have hresource : resourcePath resource = .ok ("/" ++ Text.stripChar '/' path) := by
    unfold resourcePath
    rw [hpath]
    rfl
  rw [hresource, Option.mem_toList]
  simp [resourceFields]

section
variable {config : DocumentationConfig} {models : List ModelDescriptor} {events : List HttpEvent}

/-- The parts of a service are made of what it tells. -/
theorem mem_serviceParts_iff (h : serviceParts config models events = .ok ps) :
    p ∈ ps ↔ MadeOf (ServiceTells config models events) p := by
  rw [serviceParts_eq] at h
  obtain ⟨resources, hresources, h⟩ := Result.bind_eq_ok.mp h
  obtain ⟨endpoints, hendpoints, h⟩ := Result.bind_eq_ok.mp h
  obtain rfl := Except.ok.inj h
  simp only [List.mem_append, Option.mem_toList, ofModels, List.mem_filterMap,
    Result.mem_gather_iff hresources, Result.mem_gather_iff hendpoints]
  constructor
  · rintro (hp | ⟨resource, hf, own, hown, hp⟩ | ⟨m, hm, hp⟩ | ⟨e, he, own, hown, hp⟩)
    · exact ⟨_, _, .api, hp⟩
    · obtain ⟨path, hpath, hp⟩ := (mem_ofResource_iff hown).mp hp
      exact ⟨_, _, .resource hf hpath, hp⟩
    · exact ⟨_, _, .model hm, hp⟩
    · obtain ⟨d, hd, location, fields, tells, hp⟩ := (mem_ofAnyEvent_iff hown).mp hp
      exact ⟨location, fields, .endpoint he hd tells, hp⟩
  · rintro ⟨location, fields, tells, hp⟩
    cases tells with
    | api => exact .inl hp
    | resource hf hpath =>
      obtain ⟨own, hown⟩ := Result.exists_of_gather hresources hf
      exact .inr (.inl ⟨_, hf, own, hown, (mem_ofResource_iff hown).mpr ⟨_, hpath, hp⟩⟩)
    | model hm => exact .inr (.inr (.inl ⟨_, hm, hp⟩))
    | endpoint he hd tells =>
      obtain ⟨own, hown⟩ := Result.exists_of_gather hendpoints he
      exact .inr (.inr (.inr ⟨_, he, own, hown,
        (mem_ofAnyEvent_iff hown).mpr ⟨_, hd, _, _, tells, hp⟩⟩))

end

end Parts
end GatewayDocs

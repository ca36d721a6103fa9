import GatewayDocs.Proofs.Pairs
import GatewayDocs.Proofs.Sources
import Mathlib.Data.List.Perm.Subperm

/-! # Locations are distinct

A location tells up to five texts: the kind of a part, a path, a method, a name and a status code.
Empty texts are dropped from it, so a text that it does not tell is taken for empty, and the five
together are its address (`Fields.address`).  Locations that are the same as data have one address
(`Fields.Located.address_eq`), and dropping empty texts does not change it
(`Fields.Located.address_clean`).

So parts are told apart by what their places are made of.  Parts of different kinds have different
addresses, parts of one kind differ by the path and method of their endpoint, by their name or by
their status code; no two parts of a service stand at one location (`Parts.serviceParts_apart`). -/

namespace GatewayDocs

/-! ### Addresses -/

/-- What a location may tell. -/
structure Address where
  kind : String
  path : String
  method : String
  name : String
  code : String
  deriving DecidableEq

namespace Fields

/-- The text that a location tells under a key, empty if it tells none. -/
def told (key : String) (location : Fields) : String :=
  match location.get? key with
  | some (.str s) => s
  | _ => ""

/-- All that a location tells. -/
def address (location : Fields) : Address :=
  ⟨location.told "type", location.told "path", location.told "method", location.told "name",
    location.told "statusCode"⟩

/-- A location has a text under each of its keys, which are distinct. -/
structure Located (location : Fields) : Prop where
  keyed : Pairs.Keyed location
  texts : ∀ kv ∈ location, ∃ s, kv.2 = .str s

variable {key s : String} {xs ys : Fields}

theorem Located.told_iff (h : xs.Located) (hs : s ≠ "") :
    xs.told key = s ↔ (.str key, .str s) ∈ xs := by
  rw [← h.keyed.lookup_iff]
  unfold told get?
  cases hl : Pairs.lookup (.str key) xs with
  | none => simp [hs.symm]
  | some v =>
    obtain ⟨t, rfl⟩ := h.texts _ (Pairs.mem_of_lookup hl)
    simp

/-- Locations with the same pairs but for empty texts tell the same. -/
theorem Located.told_eq (hx : xs.Located) (hy : ys.Located)
    (h : ∀ s, s ≠ "" → ((.str key, .str s) ∈ xs ↔ (.str key, .str s) ∈ ys)) :
    xs.told key = ys.told key := by
  have hiff : ∀ s, s ≠ "" → (xs.told key = s ↔ ys.told key = s) := fun s hs => by
    rw [hx.told_iff hs, hy.told_iff hs, h s hs]
  -- the empty text is told by what has no such pair, so it is the one case left over
  by_cases hempty : xs.told key = ""
  · by_contra hne
    exact hne ((hiff _ fun hy => hne (hempty.trans hy.symm)).mpr rfl)
  · exact ((hiff _ hempty).mp rfl).symm

theorem address_eq (h : ∀ key, xs.told key = ys.told key) : xs.address = ys.address := by
  simp only [address, h]

theorem Located.clean (h : xs.Located) : Located (Parts.clean xs) where
  keyed := ⟨fun k hk => h.keyed.text k ((List.filter_sublist.map Prod.fst).subset hk),
    h.keyed.nodup.sublist (List.filter_sublist.map Prod.fst)⟩
  texts kv hkv := h.texts kv (List.mem_filter.mp hkv).1

/-- Dropping what is empty does not change what is told. -/
theorem Located.address_clean (h : xs.Located) : (Parts.clean xs).address = xs.address := by
  refine address_eq fun key => h.clean.told_eq h fun s hs => ?_
  unfold Parts.clean
  rw [List.mem_filter, and_iff_left_iff_imp]
  intro _
  simp [Value.isBlank, hs]

theorem sameFields_iff : Value.sameFields xs ys = true ↔
    ∀ kv ∈ xs, ∃ w, Pairs.lookup kv.1 ys = some w ∧ kv.2.same w = true := by
  induction xs with
  | nil => simp [Value.sameFields]
  | cons kv xs ih =>
    obtain ⟨k, v⟩ := kv
    rw [Value.sameFields, Bool.and_eq_true, ih, List.forall_mem_cons]
    cases Pairs.lookup k ys with
    | none => simp
    | some w => simp

/-- Locations that are the same as data have the same pairs. -/
theorem Located.perm_of_same (hx : xs.Located) (hy : ys.Located)
    (h : (Value.object xs).same (.object ys) = true) : xs.Perm ys := by
  simp only [Value.same, Value.unshared, Bool.and_eq_true, decide_eq_true_eq] at h
  obtain ⟨hlength, hfields⟩ := h
  -- what is found under a key of the first is a text, and texts are the same only if they are equal
  have hsub : xs ⊆ ys := by
    intro kv hkv
    obtain ⟨k, v⟩ := kv
    obtain ⟨key, rfl⟩ := hx.keyed.text k (List.mem_map_of_mem hkv)
    obtain ⟨s, rfl⟩ := hx.texts _ hkv
    obtain ⟨w, hw, hsame⟩ := sameFields_iff.mp hfields _ hkv
    obtain ⟨t, rfl⟩ := hy.texts _ (Pairs.mem_of_lookup hw)
    obtain rfl : s = t := by simpa [Value.same, Value.unshared] using hsame
    exact Pairs.mem_of_lookup hw
  have hnodup : xs.Nodup := .of_map _ hx.keyed.nodup
  exact (hnodup.subperm hsub).perm_of_length_le (Nat.le_of_eq hlength.symm)

/-- Locations that are the same as data have one address. -/
theorem Located.address_eq (hx : xs.Located) (hy : ys.Located)
    (h : (Value.object xs).same (.object ys) = true) : xs.address = ys.address :=
  Fields.address_eq fun _ => hx.told_eq hy fun _ _ => (hx.perm_of_same hy h).mem_iff

end Fields

namespace Part
variable {p q : Part}

/-- The address of a part. -/
def address (p : Part) : Address := p.location.address

/-- Whether two parts stand at one location, whatever the order of its keys. -/
def SameLocation (p q : Part) : Prop :=
  (Value.object p.location).same (.object q.location) = true

theorem SameLocation.address_eq (h : p.SameLocation q) (hp : p.location.Located)
    (hq : q.location.Located) : p.address = q.address :=
  hp.address_eq hq h

end Part

/-- The parameters of each kind, the responses, and the headers of each response have distinct
names. -/
structure EndpointDocumentation.DistinctNames (d : EndpointDocumentation) : Prop where
  query : (d.queryParameters.map (·.name)).Nodup
  path : (d.pathParameters.map (·.name)).Nodup
  headers : (d.headers.map (·.name)).Nodup
  codes : (d.responses.map (·.statusCode)).Nodup
  responseHeaders : ∀ r ∈ d.responses, (r.headers.map (·.name)).Nodup

/-- The method and path of an event that is documented. -/
def HttpEvent.documented? (e : HttpEvent) : Option (String × String) :=
  e.documentation.map fun _ => (Text.upper e.method, e.docPath)

namespace Parts
variable {location : List (String × Value)} {fields body : Fields}
  {kind path method name code : String} {p : Part} {ps qs : List Part} {r : MethodResponse}
  {rs : List MethodResponse} {d : EndpointDocumentation} {e : HttpEvent}

/-! ### The address of what is told -/

theorem IsPlace.located (h : IsPlace location) : Fields.Located (pairs location) where
  keyed := by
    have hkeys : Pairs.keys (pairs location) = (location.map (·.1)).map .str := by
      unfold Pairs.keys pairs
      rw [List.map_map, List.map_map]
      rfl
    refine ⟨fun k hk => ?_, ?_⟩
    · rw [hkeys] at hk
      obtain ⟨s, -, rfl⟩ := List.mem_map.mp hk
      exact ⟨s, rfl⟩
    · rw [hkeys]
      exact h.1.map fun _ _ => Atom.str.inj
  texts kv hkv := by
    obtain ⟨lw, hlw, rfl⟩ := List.mem_map.mp hkv
    exact h.2 lw hlw

/-- The address of a part is that of the place where it is made. -/
theorem address_of_part? (hl : IsPlace location) (h : part? location fields = some p) :
    p.address = (pairs location).address := by
  obtain ⟨-, rfl⟩ := part?_eq_some_iff.mp h
  exact hl.located.address_clean

/-- The kinds of the parts of responses. -/
def responseKinds : List String := ["RESPONSE", "RESPONSE_BODY", "RESPONSE_HEADER"]

/-- The kinds of the parts of endpoints. -/
def endpointKinds : List String :=
  ["METHOD", "QUERY_PARAMETER", "PATH_PARAMETER", "REQUEST_HEADER", "REQUEST_BODY"] ++ responseKinds

/-- What a response tells stands at an address with the status code of the response. -/
theorem ResponseTells.address (h : ResponseTells path method r location fields) :
    ∃ kind ∈ responseKinds, ∃ name,
      (pairs location).address = ⟨kind, path, method, name, r.statusCode⟩ := by
  cases h with
  | response => exact ⟨"RESPONSE", by decide, "", rfl⟩
  | body => exact ⟨"RESPONSE_BODY", by decide, "", rfl⟩
  | header => exact ⟨"RESPONSE_HEADER", by decide, _, rfl⟩

/-- What the documentation of an endpoint tells stands at an address of the endpoint. -/
theorem EndpointTells.address (h : EndpointTells path method d location fields) :
    ∃ kind ∈ endpointKinds, ∃ name code,
      (pairs location).address = ⟨kind, path, method, name, code⟩ := by
  cases h with
  | endpoint => exact ⟨"METHOD", by decide, "", "", rfl⟩
  | query => exact ⟨"QUERY_PARAMETER", by decide, _, "", rfl⟩
  | path => exact ⟨"PATH_PARAMETER", by decide, _, "", rfl⟩
  | header => exact ⟨"REQUEST_HEADER", by decide, _, "", rfl⟩
  | body => exact ⟨"REQUEST_BODY", by decide, "", "", rfl⟩
  | response _ h =>
    obtain ⟨kind, hkind, name, haddress⟩ := h.address
    exact ⟨kind, List.mem_append_right _ hkind, name, _, haddress⟩

/-! ### Parts at different addresses -/

/-- Parts of some kinds, no two of them at one address. -/
structure Spread (kinds : List String) (ps : List Part) : Prop where
  kinds : ∀ p ∈ ps, p.address.kind ∈ kinds
  apart : ps.Pairwise fun p q => p.address ≠ q.address

/-- Parts of different kinds are at different addresses. -/
theorem Spread.append {ks ls : List String} (hp : Spread ks ps) (hq : Spread ls qs)
    (hkinds : ∀ k ∈ ks, k ∉ ls) : Spread (ks ++ ls) (ps ++ qs) where
  kinds p hmem := by
    rw [List.mem_append] at hmem ⊢
    exact hmem.imp (hp.kinds p) (hq.kinds p)
  apart := by
    refine List.pairwise_append.mpr ⟨hp.apart, hq.apart, fun p hpmem q hqmem he => ?_⟩
    exact hkinds _ (hp.kinds p hpmem) (he ▸ hq.kinds q hqmem)

/-- What is told at one place is at most one part. -/
theorem Spread.ofPart? (hl : IsPlace location) (hkind : (pairs location).address.kind = kind) :
    Spread [kind] (part? location fields).toList where
  kinds p hp := by
    rw [List.mem_singleton, address_of_part? hl (Option.mem_toList.mp hp), hkind]
  apart := by cases part? location fields <;> simp

/-- Parts of one kind are at different addresses if they have different names. -/
theorem Spread.ofNames {α : Type} {f : α → Option Part} {nameOf : α → String} {xs : List α}
    (hnames : (xs.map nameOf).Nodup)
    (h : ∀ x p, f x = some p → p.address.kind = kind ∧ p.address.name = nameOf x) :
    Spread [kind] (xs.filterMap f) where
  kinds p hp := by
    obtain ⟨x, -, hx⟩ := List.mem_filterMap.mp hp
    exact List.mem_singleton.mpr (h x p hx).1
  apart := by
    refine (List.pairwise_map.mp hnames).filterMap f fun x y hxy p hp q hq he => hxy ?_
    rw [← (h x p hp).2, ← (h y q hq).2, he]

/-- Parts of the items of a list are at different addresses if those of one item and those of two
items are. -/
theorem Spread.gather {α : Type} {f : α → Result (List Part)} {xs : List α} {kinds : List String}
    (h : Result.gather f xs = .ok ps) (hown : ∀ x ∈ xs, ∀ own, f x = .ok own → Spread kinds own)
    (hcross : xs.Pairwise fun x y => ∀ own own', f x = .ok own → f y = .ok own' →
      ∀ p ∈ own, ∀ q ∈ own', p.address ≠ q.address) : Spread kinds ps where
  kinds p hp := by
    obtain ⟨x, hx, own, hfx, hp⟩ := (Result.mem_gather_iff h).mp hp
    exact (hown x hx own hfx).kinds p hp
  apart := Result.pairwise_gather h (fun x hx own hfx => (hown x hx own hfx).apart) hcross

/-! ### The parts of an endpoint -/

/-- The parts of a response have its status code in their address. -/
theorem address_of_mem_responsePartsOf (h : responsePartsOf path method r = .ok ps) (hp : p ∈ ps) :
    p.address.code = r.statusCode := by
  obtain ⟨location, fields, tells, hp⟩ := (mem_responsePartsOf_iff h).mp hp
  obtain ⟨kind, -, name, haddress⟩ := tells.address
  rw [address_of_part? tells.isPlace hp, haddress]

/-- The parts of an endpoint have its path and method in their address. -/
theorem address_of_mem_ofEndpoint (h : ofEndpoint e d = .ok ps) (hp : p ∈ ps) :
    p.address.path = e.docPath ∧ p.address.method = Text.upper e.method := by
  obtain ⟨location, fields, tells, hp⟩ := (mem_ofEndpoint_iff h).mp hp
  obtain ⟨kind, -, name, code, haddress⟩ := tells.address
  rw [address_of_part? tells.isPlace hp, haddress]
  exact ⟨rfl, rfl⟩

theorem spread_responsePartsOf (h : responsePartsOf path method r = .ok ps)
    (hnames : (r.headers.map (·.name)).Nodup) : Spread responseKinds ps := by
  obtain ⟨body, -, rfl⟩ := Result.map_eq_ok.mp h
  have hheaders : Spread ["RESPONSE_HEADER"]
      (r.headers.filterMap (headerPart? path method r.statusCode)) :=
    .ofNames hnames fun x p hp => by
      rw [address_of_part? isPlace_headerPlace hp]
      exact ⟨rfl, rfl⟩
  have hresponse {kind : String} {fields : Fields} :
      Spread [kind] (part? (responsePlace kind path method r.statusCode) fields).toList :=
    .ofPart? isPlace_responsePlace rfl
  exact hresponse.append (hresponse.append hheaders (by decide)) (by decide)

theorem spread_responses (h : Result.gather (responsePartsOf path method) rs = .ok ps)
    (hcodes : (rs.map (·.statusCode)).Nodup)
    (hnames : ∀ r ∈ rs, (r.headers.map (·.name)).Nodup) : Spread responseKinds ps := by
  refine .gather h (fun r hr own hown => spread_responsePartsOf hown (hnames r hr))
    ((List.pairwise_map.mp hcodes).imp fun hcode own own' hown hown' p hp q hq he => hcode ?_)
  rw [← address_of_mem_responsePartsOf hown hp, ← address_of_mem_responsePartsOf hown' hq, he]

theorem spread_endpointParts (hd : d.DistinctNames) :
    Spread ["METHOD", "QUERY_PARAMETER", "PATH_PARAMETER", "REQUEST_HEADER", "REQUEST_BODY"]
      (endpointParts path method d body) := by
  have hparameters {kind : String} {xs : List Parameter} (hnames : (xs.map (·.name)).Nodup) :
      Spread [kind] (xs.filterMap (parameterPart? kind path method)) :=
    .ofNames hnames fun x p hp => by
      rw [address_of_part? isPlace_parameterPlace hp]
      exact ⟨rfl, rfl⟩
  have hendpoint {kind : String} {fields : Fields} :
      Spread [kind] (part? (endpointPlace kind path method) fields).toList :=
    .ofPart? isPlace_endpointPlace rfl
  exact hendpoint.append ((hparameters hd.query).append ((hparameters hd.path).append
    ((hparameters hd.headers).append hendpoint (by decide)) (by decide)) (by decide)) (by decide)

theorem spread_ofEndpoint (h : ofEndpoint e d = .ok ps) (hd : d.DistinctNames) :
    Spread endpointKinds ps := by
  rw [ofEndpoint_eq] at h
  obtain ⟨body, hbody, h⟩ := Result.bind_eq_ok.mp h
  obtain ⟨responses, hresponses, h⟩ := Result.bind_eq_ok.mp h
  obtain rfl := Except.ok.inj h
  exact (spread_endpointParts hd).append
    (spread_responses hresponses hd.codes hd.responseHeaders) (by decide)

/-! ### The parts of a service -/

section
variable {config : DocumentationConfig} {models : List ModelDescriptor} {events : List HttpEvent}
  {parts : List Part}

theorem spread_events (h : Result.gather ofAnyEvent events = .ok ps)
    (hevents : (events.filterMap HttpEvent.documented?).Nodup)
    (hnames : ∀ e ∈ events, ∀ d, e.documentation = some d → d.DistinctNames) :
    Spread endpointKinds ps := by
  refine .gather h (fun e he own hown => ?_) ((List.pairwise_filterMap.mp hevents).imp
    fun {e e'} hne own own' hown hown' p hp q hq he => ?_)
  · rcases ofAnyEvent_eq_ok.mp hown with ⟨-, rfl⟩ | ⟨d, hd, hown⟩
    · exact ⟨fun p hp => (nomatch hp), .nil⟩
    · exact spread_ofEndpoint hown (hnames e he d hd)
  · -- only events that are documented have parts to compare
    rcases ofAnyEvent_eq_ok.mp hown with ⟨-, rfl⟩ | ⟨d, hd, hown⟩
    · cases hp
    rcases ofAnyEvent_eq_ok.mp hown' with ⟨-, rfl⟩ | ⟨d', hd', hown'⟩
    · cases hq
    obtain ⟨hpath, hmethod⟩ := address_of_mem_ofEndpoint hown hp
    obtain ⟨hpath', hmethod'⟩ := address_of_mem_ofEndpoint hown' hq
    refine hne (Text.upper e.method, e.docPath) ?_ (Text.upper e'.method, e'.docPath) ?_ ?_
    · rw [HttpEvent.documented?, hd]
      rfl
    · rw [HttpEvent.documented?, hd']
      rfl
    · rw [← hpath, ← hmethod, ← hpath', ← hmethod', he]

theorem spread_resources {resources : List Fields}
    (h : Result.gather (fun fields => (ofResource fields).map Option.toList) resources = .ok ps)
    (hpaths : (resources.map resourcePath).Nodup) : Spread ["RESOURCE"] ps := by
  have hown {resource : Fields} {own : List Part}
      (h : (ofResource resource).map Option.toList = .ok own) : ∀ p ∈ own,
      p.address.kind = "RESOURCE" ∧ resourcePath resource = .ok p.address.path := by
    intro p hp
    obtain ⟨path, hpath, hp⟩ := (mem_ofResource_iff h).mp hp
    rw [address_of_part? (by simp [IsPlace]) hp]
    exact ⟨rfl, hpath⟩
  refine .gather h (fun resource _ own hresource => ?_) ((List.pairwise_map.mp hpaths).imp
    fun hne own own' hresource hresource' p hp q hq he => hne ?_)
  · obtain ⟨part, -, rfl⟩ := Result.map_eq_ok.mp hresource
    exact ⟨fun p hp => List.mem_singleton.mpr (hown hresource p hp).1, by cases part <;> simp⟩
  · rw [(hown hresource p hp).2, (hown hresource' q hq).2, he]

theorem spread_ofModels (hnames : (models.map (·.name)).Nodup) :
    Spread ["MODEL"] (ofModels models) := by
  refine .ofNames hnames fun m p hp => ?_
  rw [address_of_part? (by simp [IsPlace]) hp]
  exact ⟨rfl, rfl⟩

theorem located_of_mem_serviceParts (h : serviceParts config models events = .ok parts)
    {p : Part} (hp : p ∈ parts) : p.location.Located := by
  obtain ⟨location, fields, tells, hp⟩ := (mem_serviceParts_iff h).mp hp
  obtain ⟨-, rfl⟩ := part?_eq_some_iff.mp hp
  exact tells.isPlace.located.clean

/-- The addresses of the parts of a service are distinct. -/
theorem nodup_addresses (hevents : (events.filterMap HttpEvent.documented?).Nodup)
    (hnames : ∀ e ∈ events, ∀ d, e.documentation = some d → d.DistinctNames)
    (hmodels : (models.map (·.name)).Nodup)
    (hresources : (config.resources.map resourcePath).Nodup)
    (h : serviceParts config models events = .ok parts) : (parts.map Part.address).Nodup := by
  rw [serviceParts_eq] at h
  obtain ⟨resources, hgather, h⟩ := Result.bind_eq_ok.mp h
  obtain ⟨endpoints, hendpoints, h⟩ := Result.bind_eq_ok.mp h
  obtain rfl := Except.ok.inj h
  have hapi : Spread ["API"] (part? [("type", .str "API")] config.api).toList :=
    .ofPart? (by simp [IsPlace]) rfl
  exact List.pairwise_map.mpr (hapi.append ((spread_resources hgather hresources).append
    ((spread_ofModels hmodels).append (spread_events hendpoints hevents hnames) (by decide))
    (by decide)) (by decide)).apart

/-- No two parts of a service stand at one location if its documented endpoints, the names that
each of them declares, its models and the paths of its resources are distinct. -/
theorem serviceParts_apart (hevents : (events.filterMap HttpEvent.documented?).Nodup)
    (hnames : ∀ e ∈ events, ∀ d, e.documentation = some d → d.DistinctNames)
    (hmodels : (models.map (·.name)).Nodup)
    (hresources : (config.resources.map resourcePath).Nodup)
    (h : serviceParts config models events = .ok parts) {i j : Nat} {p q : Part}
    (hp : parts[i]? = some p) (hq : parts[j]? = some q) (hpq : p.SameLocation q) : i = j := by
  have haddress : p.address = q.address :=
    hpq.address_eq (located_of_mem_serviceParts h (List.mem_of_getElem? hp))
      (located_of_mem_serviceParts h (List.mem_of_getElem? hq))
  have hsame : (parts.map Part.address)[i]? = (parts.map Part.address)[j]? := by
    rw [List.getElem?_map, List.getElem?_map, hp, hq]
    exact congrArg some haddress
  have hbound : i < (parts.map Part.address).length := by
    rw [List.length_map]
    exact (List.getElem?_eq_some_iff.mp hp).1
  exact (List.getElem?_inj hbound
    (nodup_addresses hevents hnames hmodels hresources h)).mp hsame

end

/-- An endpoint of which everything that has a name is called by the empty text. -/
def unnamedEndpoint : EndpointDocumentation where
  summary := some "Pets"
  description := none
  tags := []
  body := some ⟨some "A pet", []⟩
  headers := [⟨"", some "A header", none⟩]
  pathParameters := [⟨"", none, some false⟩]
  queryParameters := [⟨"", none, some true⟩]
  models := []
  responses := [⟨"", some "Found", some ⟨some "The pets", []⟩, [⟨"", some "A header", none⟩], []⟩]
  extra := []

/-- Two documented endpoints at one path, one of them without a method. -/
def unnamedEvents : List HttpEvent :=
  [⟨"pets", "", some unnamedEndpoint⟩, ⟨"pets", "get", some unnamedEndpoint⟩, ⟨"pets", "", none⟩]

/-- The root and one more resource of the interface. -/
def describedResources : DocumentationConfig where
  version := none
  api := [(.str "title", .str "Pets")]
  resources := [[(.str "description", .str "The root")],
    [(.str "path", .str "pets/"), (.str "description", .str "All pets")]]
  models := []
  swagger := false
  definitions := none
  paths := []
  extra := []

/-- A model without a name. -/
def unnamedModels : List ModelDescriptor := [⟨"", some "A model", "application/json", .null⟩]

theorem serviceParts_apart_unnamed : ∃ parts,
    serviceParts describedResources unnamedModels unnamedEvents = .ok parts ∧ parts.length = 20 ∧
    ∀ (i j : Nat) (p q : Part), parts[i]? = some p → parts[j]? = some q →
      p.SameLocation q → i = j := by
  have hevents : (unnamedEvents.filterMap HttpEvent.documented?).Nodup := by decide
  have hdistinct : unnamedEndpoint.DistinctNames :=
    ⟨by decide, by decide, by decide, by decide, by decide⟩
  have hnames : ∀ e ∈ unnamedEvents, ∀ d, e.documentation = some d → d.DistinctNames := by
    intro e he d hd
    simp only [unnamedEvents, List.mem_cons, List.not_mem_nil, or_false] at he
    rcases he with rfl | rfl | rfl
    · exact Option.some.inj hd ▸ hdistinct
    · exact Option.some.inj hd ▸ hdistinct
    · cases hd
  have hmodels : (unnamedModels.map (·.name)).Nodup := by decide
  have hresources : (describedResources.resources.map resourcePath).Nodup := by
    rw [show describedResources.resources.map resourcePath = [.ok "/", .ok "/pets"] from rfl]
    simp
  exact ⟨_, rfl, rfl, fun i j p q => serviceParts_apart hevents hnames hmodels hresources rfl⟩

end Parts
end GatewayDocs

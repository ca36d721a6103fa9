import GatewayDocs.Endpoint.Configuration
import GatewayDocs.Endpoint.Event
import GatewayDocs.Proofs.Checked

/-! # What records are read from

A record is read field by field, so what it is read from is told by one reading for each of its
fields: those of the documentation of an endpoint (`EndpointDocumentation.ReadFrom`) and of its
parts, of an event (`HttpEvent.ReadFrom`), of a declared model (`ModelDescriptor.ReadFrom`) and of
the documentation section of a service (`DocumentationConfig.ReadFrom`). -/

namespace GatewayDocs
open Shape

/-- The fields of a parameter are read from some pairs. -/
structure Parameter.ReadFrom (fs : Fields) (p : Parameter) : Prop where
  name : Shape.required ["name"] text fs = .ok p.name
  description : optional ["description"] none (orNull text) fs = .ok p.description
  required : optional ["required"] none (orNull flag) fs = .ok p.required

/-- The fields of a body are read from some pairs, and the others are kept. -/
structure Body.ReadFrom (fs : Fields) (b : Body) : Prop where
  description : optional ["description"] none (orNull text) fs = .ok b.description
  extra : extras names fs = .ok b.extra

/-- The fields of a response are read from some pairs. -/
structure MethodResponse.ReadFrom (fs : Fields) (r : MethodResponse) : Prop where
  statusCode : Shape.required ["statusCode", "status_code"] spelled fs = .ok r.statusCode
  description : optional ["description"] none (orNull text) fs = .ok r.description
  body : optional ["responseBody", "response_body"] none (orNull Body.ofValue) fs = .ok r.body
  headers : optional ["responseHeaders", "response_headers"] [] (listOf Parameter.ofValue) fs =
    .ok r.headers
  models : optional ["responseModels", "response_models"] [] ModelRefs.ofValue fs = .ok r.models

/-- The fields of a documentation are read from some pairs, and the others are kept. -/
structure EndpointDocumentation.ReadFrom (fs : Fields) (d : EndpointDocumentation) : Prop where
  summary : optional ["summary"] none (orNull text) fs = .ok d.summary
  description : optional ["description"] none (orNull text) fs = .ok d.description
  tags : optional ["tags"] [] (listOf text) fs = .ok d.tags
  body : optional ["requestBody", "request_body"] none (orNull Body.ofValue) fs = .ok d.body
  headers : optional ["requestHeaders", "request_headers"] [] (listOf Parameter.ofValue) fs =
    .ok d.headers
  pathParameters : optional ["pathParams", "path_params"] [] (listOf Parameter.ofValue) fs =
    .ok d.pathParameters
  queryParameters : optional ["queryParams", "query_params"] [] (listOf Parameter.ofValue) fs =
    .ok d.queryParameters
  models : optional ["requestModels", "request_models"] [] ModelRefs.ofValue fs = .ok d.models
  responses : optional ["methodResponses", "method_responses"] [] (listOf MethodResponse.ofValue)
    fs = .ok d.responses
  extra : extras names fs = .ok d.extra

/-- The fields of an event are read from some pairs. -/
structure HttpEvent.ReadFrom (fs : Fields) (e : HttpEvent) : Prop where
  path : Shape.required ["path"] text fs = .ok e.path
  method : Shape.required ["method"] text fs = .ok e.method
  documentation : optional ["documentation"] none (orNull EndpointDocumentation.ofValue) fs =
    .ok e.documentation

/-- The fields of a declared model are read from some pairs. -/
structure ModelDescriptor.ReadFrom (fs : Fields) (m : ModelDescriptor) : Prop where
  name : Shape.required ["name"] text fs = .ok m.name
  description : optional ["description"] none (orNull text) fs = .ok m.description
  contentType : Shape.required ["contentType", "content_type"] text fs = .ok m.contentType
  schema : optional ["schema", "schema_"] .null (fun v => .ok v) fs = .ok m.schema

/-- The fields of a documentation section are read from some pairs, and the others are kept. -/
structure DocumentationConfig.ReadFrom (fs : Fields) (c : DocumentationConfig) : Prop where
  version : optional ["version"] none versionOf fs = .ok c.version
  api : optional ["api"] [] mapOf fs = .ok c.api
  resources : optional ["resources"] [] (listOf mapOf) fs = .ok c.resources
  models : optional ["models"] [] (listOf ModelDescriptor.ofValue) fs = .ok c.models
  swagger : optional ["swagger"] false flag fs = .ok c.swagger
  definitions : optional ["definitions"] none (orNull mapOf) fs = .ok c.definitions
  paths : optional ["paths"] [] mapOf fs = .ok c.paths
  extra : extras names fs = .ok c.extra

variable {fs : Fields}

theorem Parameter.ofFields_eq_ok {p : Parameter} : ofFields fs = .ok p ↔ p.ReadFrom fs := by
  constructor
  · intro h
    obtain ⟨_, required, h₁, hrequired, rfl⟩ := Checked.seq_eq_ok.mp h
    obtain ⟨_, description, h₂, hdescription, rfl⟩ := Checked.seq_eq_ok.mp h₁
    obtain ⟨name, hname, rfl⟩ := Checked.map_eq_ok.mp h₂
    exact ⟨hname, hdescription, hrequired⟩
  · intro h
    rw [ofFields, h.name, h.description, h.required]
    rfl

theorem Body.ofFields_eq_ok {b : Body} : ofFields fs = .ok b ↔ b.ReadFrom fs := by
  constructor
  · intro h
    obtain ⟨_, extra, h₁, hextra, rfl⟩ := Checked.seq_eq_ok.mp h
    obtain ⟨description, hdescription, rfl⟩ := Checked.map_eq_ok.mp h₁
    exact ⟨hdescription, hextra⟩
  · intro h
    rw [ofFields, h.description, h.extra]
    rfl

theorem MethodResponse.ofFields_eq_ok {r : MethodResponse} :
    ofFields fs = .ok r ↔ r.ReadFrom fs := by
  constructor
  · intro h
    obtain ⟨_, models, h₁, hmodels, rfl⟩ := Checked.seq_eq_ok.mp h
    obtain ⟨_, headers, h₂, hheaders, rfl⟩ := Checked.seq_eq_ok.mp h₁
    obtain ⟨_, body, h₃, hbody, rfl⟩ := Checked.seq_eq_ok.mp h₂
    obtain ⟨_, description, h₄, hdescription, rfl⟩ := Checked.seq_eq_ok.mp h₃
    obtain ⟨code, hcode, rfl⟩ := Checked.map_eq_ok.mp h₄
    exact ⟨hcode, hdescription, hbody, hheaders, hmodels⟩
  · intro h
    rw [ofFields, h.statusCode, h.description, h.body, h.headers, h.models]
    rfl

theorem EndpointDocumentation.ofFields_eq_ok {d : EndpointDocumentation} :
    ofFields fs = .ok d ↔ d.ReadFrom fs := by
  constructor
  · intro h
    obtain ⟨_, extra, h₁, hextra, rfl⟩ := Checked.seq_eq_ok.mp h
    obtain ⟨_, responses, h₂, hresponses, rfl⟩ := Checked.seq_eq_ok.mp h₁
    obtain ⟨_, models, h₃, hmodels, rfl⟩ := Checked.seq_eq_ok.mp h₂
    obtain ⟨_, query, h₄, hquery, rfl⟩ := Checked.seq_eq_ok.mp h₃
    obtain ⟨_, path, h₅, hpath, rfl⟩ := Checked.seq_eq_ok.mp h₄
    obtain ⟨_, headers, h₆, hheaders, rfl⟩ := Checked.seq_eq_ok.mp h₅
    obtain ⟨_, body, h₇, hbody, rfl⟩ := Checked.seq_eq_ok.mp h₆
    obtain ⟨_, tags, h₈, htags, rfl⟩ := Checked.seq_eq_ok.mp h₇
    obtain ⟨_, description, h₉, hdescription, rfl⟩ := Checked.seq_eq_ok.mp h₈
    obtain ⟨summary, hsummary, rfl⟩ := Checked.map_eq_ok.mp h₉
    exact ⟨hsummary, hdescription, htags, hbody, hheaders, hpath, hquery, hmodels, hresponses,
      hextra⟩
  · intro h
    rw [ofFields, h.summary, h.description, h.tags, h.body, h.headers, h.pathParameters,
      h.queryParameters, h.models, h.responses, h.extra]
    rfl

theorem HttpEvent.ofFields_eq_ok {e : HttpEvent} : ofFields fs = .ok e ↔ e.ReadFrom fs := by
  constructor
  · intro h
    obtain ⟨_, documentation, h₁, hdocumentation, rfl⟩ := Checked.seq_eq_ok.mp h
    obtain ⟨_, method, h₂, hmethod, rfl⟩ := Checked.seq_eq_ok.mp h₁
    obtain ⟨path, hpath, rfl⟩ := Checked.map_eq_ok.mp h₂
    exact ⟨hpath, hmethod, hdocumentation⟩
  · intro h
    rw [ofFields, h.path, h.method, h.documentation]
    rfl

theorem ModelDescriptor.ofFields_eq_ok {m : ModelDescriptor} :
    ofFields fs = .ok m ↔ m.ReadFrom fs := by
  constructor
  · intro h
    obtain ⟨_, schema, h₁, hschema, rfl⟩ := Checked.seq_eq_ok.mp h
    obtain ⟨_, contentType, h₂, hcontentType, rfl⟩ := Checked.seq_eq_ok.mp h₁
    obtain ⟨_, description, h₃, hdescription, rfl⟩ := Checked.seq_eq_ok.mp h₂
    obtain ⟨name, hname, rfl⟩ := Checked.map_eq_ok.mp h₃
    exact ⟨hname, hdescription, hcontentType, hschema⟩
  · intro h
    rw [ofFields, h.name, h.description, h.contentType, h.schema]
    rfl

theorem DocumentationConfig.ofFields_eq_ok {c : DocumentationConfig} :
    ofFields fs = .ok c ↔ c.ReadFrom fs := by
  constructor
  · intro h
    obtain ⟨_, extra, h₁, hextra, rfl⟩ := Checked.seq_eq_ok.mp h
    obtain ⟨_, paths, h₂, hpaths, rfl⟩ := Checked.seq_eq_ok.mp h₁
    obtain ⟨_, definitions, h₃, hdefinitions, rfl⟩ := Checked.seq_eq_ok.mp h₂
    obtain ⟨_, swagger, h₄, hswagger, rfl⟩ := Checked.seq_eq_ok.mp h₃
    obtain ⟨_, models, h₅, hmodels, rfl⟩ := Checked.seq_eq_ok.mp h₄
    obtain ⟨_, resources, h₆, hresources, rfl⟩ := Checked.seq_eq_ok.mp h₅
    obtain ⟨_, api, h₇, hapi, rfl⟩ := Checked.seq_eq_ok.mp h₆
    obtain ⟨version, hversion, rfl⟩ := Checked.map_eq_ok.mp h₇
    exact ⟨hversion, hapi, hresources, hmodels, hswagger, hdefinitions, hpaths, hextra⟩
  · intro h
    rw [ofFields, h.version, h.api, h.resources, h.models, h.swagger, h.definitions, h.paths,
      h.extra]
    rfl

end GatewayDocs

import GatewayDocs.Proofs.Checked
import GatewayDocs.Proofs.Section
import GatewayDocs.Swagger

/-! # The steps of an embedded description

A description is gone through event by event, and an operation parameter by parameter and response
by response.  Each step hands on a documentation and the models that were found so far.  What a step
makes of them is said once here, as a relation with a constructor for each way that it can go:
`ParameterStep`, `ResponseStep` and `EventStep`.

What the start and all steps of an operation keep, its documentation keeps (`documentation_keeps`),
and what all events keep, the whole description keeps (`documentEvents_keeps`).  So a property of
the documentation or of the models is proved by the cases of a step. -/

namespace GatewayDocs
open Shape

theorem Value.fieldOrNull_of_asObject {v : Value} {fields : Fields} (h : v.asObject = .ok fields)
    (key : String) : v.fieldOrNull key = fields.get key := by
  rw [fieldOrNull, field?, asObject_eq_ok_iff.mp h]
  rfl

namespace Swagger
variable {operation parameter paths : Value} {base : String} {d d' : EndpointDocumentation}
  {models models' : List ModelDescriptor} {response : Atom × Value} {e e' : HttpEvent}
  {events : List HttpEvent}

/-! ### Parameters -/

/-- Whether a parameter is a body. -/
def isBody (parameter : Value) : Bool :=
  match parameter.fieldOrNull "in" with
  | .str place => place = "body"
  | _ => false

/-- A documentation with one more parameter, among those of its place. -/
inductive HasMore (p : Parameter) (d : EndpointDocumentation) : EndpointDocumentation → Prop where
  | header : HasMore p d { d with headers := d.headers ++ [p] }
  | path : HasMore p d { d with pathParameters := d.pathParameters ++ [p] }
  | query : HasMore p d { d with queryParameters := d.queryParameters ++ [p] }

/-- What a parameter makes of a documentation and the models. -/
inductive ParameterStep (base : String) (parameter : Value) (d : EndpointDocumentation)
    (models : List ModelDescriptor) : EndpointDocumentation → List ModelDescriptor → Prop where
  /-- A parameter of the header, the path or the query is one more of its place. -/
  | more {fields : Fields} {p : Parameter} {d' : EndpointDocumentation}
      (hbody : isBody parameter = false) (hfields : parameter.asObject = .ok fields)
      (hp : parameterOf fields = .ok p) (hmore : HasMore p d d') :
      ParameterStep base parameter d models d' models
  /-- A body gives the only reference. -/
  | body {name : String} {models' : List ModelDescriptor} (hbody : isBody parameter = true)
      (hname : schemaModel parameter (base ++ "Request") models = .ok name models') :
      ParameterStep base parameter d models { d with models := jsonModel name } models'
  /-- A parameter of any other place is left out. -/
  | other (hbody : isBody parameter = false) : ParameterStep base parameter d models d models

theorem parameterStep_of_addParameter
    (h : addParameter base d parameter models = .ok d' models') :
    ParameterStep base parameter d models d' models' := by
  obtain ⟨fields, hobject, h₁⟩ := Edit.ofResult_bind_eq_ok.mp h
  have hbody : isBody parameter = match fields.get "in" with
      | .str place => decide (place = "body")
      | _ => false := by
    rw [isBody, Value.fieldOrNull_of_asObject hobject]
  have hread : ∀ {set : Parameter → EndpointDocumentation},
      (do return set (← Edit.ofResult (parameterOf fields)) : Finding EndpointDocumentation)
        models = .ok d' models' → isBody parameter = false → (∀ p, HasMore p d (set p)) →
      ParameterStep base parameter d models d' models' := by
    intro set h hbody hmore
    obtain ⟨p, hp, h₂⟩ := Edit.ofResult_bind_eq_ok.mp h
    obtain ⟨rfl, rfl⟩ := Edit.pure_eq_ok.mp h₂
    exact .more hbody hobject hp (hmore p)
  generalize fields.get "in" = place at h₁ hbody
  split at h₁
  · exact hread h₁ hbody fun _ => .header
  · exact hread h₁ hbody fun _ => .path
  · exact hread h₁ hbody fun _ => .query
  · obtain ⟨name, _, hname, h₂⟩ := Edit.bind_eq_ok.mp h₁
    obtain ⟨rfl, rfl⟩ := Edit.pure_eq_ok.mp h₂
    exact .body hbody hname
  · rename_i hno
    obtain ⟨rfl, rfl⟩ := Edit.pure_eq_ok.mp h₁
    refine .other (hbody.trans ?_)
    split
    · rename_i place hplace
      exact decide_eq_false fun he => hno (Value.atom.inj (he ▸ hplace))
    · rfl
  · obtain ⟨rfl, rfl⟩ := Edit.pure_eq_ok.mp h₁
    exact .other hbody
  · cases h₁

/-! ### Responses -/

/-- The references of a response, and the models that are found with them. -/
inductive ResponseRefs (base code : String) (response : Value) (models : List ModelDescriptor) :
    ModelRefs → List ModelDescriptor → Prop where
  | schema {name : String} {models' : List ModelDescriptor}
      (hgiven : (response.fieldOrNull "schema").truthy = true)
      (hname : schemaModel response (base ++ "Response" ++ code) models = .ok name models') :
      ResponseRefs base code response models (jsonModel name) models'
  | bare (hblank : (response.fieldOrNull "schema").truthy = false) :
      ResponseRefs base code response models [] models

/-- A response is one more response of a documentation, under its status code. -/
inductive ResponseStep (base : String) (response : Atom × Value) (d : EndpointDocumentation)
    (models : List ModelDescriptor) : EndpointDocumentation → List ModelDescriptor → Prop where
  | more {description : Option String} {refs : ModelRefs} {models' : List ModelDescriptor}
      (hdescription : orNull text (response.2.fieldOrNull "description") = .ok description)
      (hrefs : ResponseRefs base response.1.spelled response.2 models refs models') :
      ResponseStep base response d models
        { d with
          responses := d.responses ++ [⟨response.1.spelled, description, none, [], refs⟩] } models'

theorem responseStep_of_addResponse
    (h : addResponse base d response models = .ok d' models') :
    ResponseStep base response d models d' models' := by
  obtain ⟨code, hcode, h₁⟩ := Edit.ofResult_bind_eq_ok.mp h
  obtain ⟨fields, hobject, h₂⟩ := Edit.ofResult_bind_eq_ok.mp h₁
  obtain ⟨description, hdescription, h₃⟩ := Edit.ofResult_bind_eq_ok.mp h₂
  rw [← Value.fieldOrNull_of_asObject hobject] at hdescription h₃
  obtain rfl : response.1.spelled = code := by
    unfold Atom.text at hcode
    split at hcode
    · exact Except.ok.inj hcode
    · cases hcode
  have htext := Checked.within_eq_ok.mp (Checked.orInvalid_eq_ok.mp hdescription)
  split at h₃
  · rename_i hgiven
    obtain ⟨name, _, hname, h₄⟩ := Edit.bind_eq_ok.mp h₃
    obtain ⟨refs, _, hrefs, h₅⟩ := Edit.bind_eq_ok.mp h₄
    obtain ⟨rfl, rfl⟩ := Edit.pure_eq_ok.mp hrefs
    obtain ⟨rfl, rfl⟩ := Edit.pure_eq_ok.mp h₅
    exact .more htext (.schema hgiven hname)
  · rename_i hblank
    obtain ⟨refs, _, hrefs, h₄⟩ := Edit.bind_eq_ok.mp h₃
    obtain ⟨rfl, rfl⟩ := Edit.pure_eq_ok.mp hrefs
    obtain ⟨rfl, rfl⟩ := Edit.pure_eq_ok.mp h₄
    exact .more htext (.bare (Bool.eq_false_iff.mpr hblank))

/-! ### Operations -/

/-- The parameters of an operation. -/
def parametersOf (operation : Value) : List Value :=
  let given := operation.fieldOrNull "parameters"
  (if given.truthy then given.members else .ok []).toOption.getD []

/-- The responses of an operation by their status codes. -/
def responsesOf (operation : Value) : Fields := (operation.fieldOrNull "responses").fields?.getD []

theorem exists_of_mem_parametersOf {p : Value} (h : p ∈ parametersOf operation) :
    ∃ ps, (operation.fieldOrNull "parameters").members = .ok ps ∧ p ∈ ps := by
  unfold parametersOf at h
  dsimp only at h
  split at h
  · cases hps : (operation.fieldOrNull "parameters").members with
    | ok ps =>
      rw [hps] at h
      exact ⟨ps, rfl, h⟩
    | error f =>
      rw [hps] at h
      cases h
  · cases h

/-- The course of an operation: its texts, its parameters, and its responses. -/
theorem documentation_course (h : documentation operation base models = .ok d models') :
    ∃ fields d₀ d₁ models₁, operation.asObject = .ok fields ∧ startingFrom fields = .ok d₀ ∧
      (parametersOf operation).foldlM (addParameter base) d₀ models = .ok d₁ models₁ ∧
      (responsesOf operation).foldlM (addResponse base) d₁ models₁ = .ok d models' := by
  obtain ⟨fields, hobject, h₁⟩ := Edit.ofResult_bind_eq_ok.mp h
  obtain ⟨d₀, hstart, h₂⟩ := Edit.ofResult_bind_eq_ok.mp h₁
  obtain ⟨parameters, hgiven, h₃⟩ := Edit.ofResult_bind_eq_ok.mp h₂
  obtain ⟨d₁, models₁, hd₁, h₄⟩ := Edit.bind_eq_ok.mp h₃
  obtain ⟨responses, hdescribed, hd₂⟩ := Edit.ofResult_bind_eq_ok.mp h₄
  have hparameters : parametersOf operation = parameters := by
    rw [parametersOf, Value.fieldOrNull_of_asObject hobject]
    exact congrArg (fun r : Result (List Value) => r.toOption.getD []) hgiven
  have hresponses : responsesOf operation = responses := by
    rw [responsesOf, Value.fieldOrNull_of_asObject hobject]
    exact ResourceGraph.fields?_of_orEmpty hdescribed
  rw [hparameters, hresponses]
  exact ⟨fields, d₀, d₁, models₁, hobject, hstart, hd₁, hd₂⟩

/-- **What the start and the steps of an operation keep, its documentation keeps.** -/
theorem documentation_keeps {I : EndpointDocumentation → List ModelDescriptor → Prop}
    (h : documentation operation base models = .ok d models')
    (hstart : ∀ {fields d}, operation.asObject = .ok fields → startingFrom fields = .ok d →
      I d models)
    (hparameter : ∀ {p d models d' models'}, p ∈ parametersOf operation → I d models →
      ParameterStep base p d models d' models' → I d' models')
    (hresponse : ∀ {kv d models d' models'}, kv ∈ responsesOf operation → I d models →
      ResponseStep base kv d models d' models' → I d' models') : I d models' := by
  obtain ⟨fields, d₀, d₁, models₁, hobject, hd₀, hd₁, hd₂⟩ := documentation_course h
  have hI₁ : I d₁ models₁ := Edit.foldlM_keeps
    (fun hI hp h => hparameter hp hI (parameterStep_of_addParameter h)) (hstart hobject hd₀) hd₁
  exact Edit.foldlM_keeps (fun hI hkv h => hresponse hkv hI (responseStep_of_addResponse h)) hI₁ hd₂

/-! ### Events -/

/-- An event gets the documentation of its operation, if one is described. -/
inductive EventStep (paths : Value) (e : HttpEvent) (models : List ModelDescriptor) :
    HttpEvent → List ModelDescriptor → Prop where
  | undescribed (h : operation? paths e = .ok none) : EventStep paths e models e models
  | described {operation : Value} {d : EndpointDocumentation} {models' : List ModelDescriptor}
      (h : operation? paths e = .ok (some operation))
      (hd : documentation operation (baseName e) models = .ok d models') :
      EventStep paths e models { e with documentation := some d } models'

theorem eventStep_of_documentEvent
    (h : documentEvent paths e models = .ok e' models') :
    EventStep paths e models e' models' := by
  obtain ⟨found, hoperation, h₁⟩ := Edit.ofResult_bind_eq_ok.mp h
  cases found with
  | none =>
    obtain ⟨rfl, rfl⟩ := Edit.pure_eq_ok.mp h₁
    exact .undescribed hoperation
  | some operation =>
    obtain ⟨d, _, hd, h₂⟩ := Edit.bind_eq_ok.mp h₁
    obtain ⟨rfl, rfl⟩ := Edit.pure_eq_ok.mp h₂
    exact .described hoperation hd

/-- **What every event keeps of the models, and makes of itself, the events keep.** -/
theorem documentEvents_keeps {E : HttpEvent → Prop} {I : List ModelDescriptor → Prop}
    (hstep : ∀ {e models e' models'}, e ∈ events → I models →
      EventStep paths e models e' models' → E e' ∧ I models')
    (hm : I models) (h : (documentEvents paths events models).2 = .ok models') :
    (∀ e ∈ (documentEvents paths events models).1, E e) ∧ I models' := by
  induction events generalizing models with
  | nil => exact ⟨List.forall_mem_nil _, Except.ok.inj h ▸ hm⟩
  | cons e events ih =>
    unfold documentEvents at h ⊢
    cases hdoc : documentEvent paths e models with
    | ok e' models₁ =>
      rw [hdoc] at h
      obtain ⟨he, hm₁⟩ := hstep List.mem_cons_self hm (eventStep_of_documentEvent hdoc)
      obtain ⟨hevents, hall⟩ := ih (fun he => hstep (List.mem_cons_of_mem _ he)) hm₁ h
      exact ⟨List.forall_mem_cons.mpr ⟨he, hevents⟩, hall⟩
    | error f models₁ =>
      rw [hdoc] at h
      cases h

end Swagger
end GatewayDocs

import GatewayDocs.Proofs.Definitions
import GatewayDocs.Proofs.Service

/-! # The documentation of an operation

The documentation of an operation is made while the models of its schemas are added to those that
were found before.  Nothing looks at what was found before (`Edit.Appends`), so the documentation
and the models that are added depend only on the operation and on the start of the names
(`Swagger.documentation_eq_ok`).

They can be read off the operation: its schemas are those of its bodies and responses, in order,
each with the name that its model would have (`Swagger.schemasOf`).  A schema that is no reference
is a model of its own, any other one stands for the definition to which it refers
(`Swagger.Documents`). -/

namespace GatewayDocs

/-! ### Lists that only grow -/

namespace Edit
variable {ι α β : Type} {x : Edit (List ι) α} {f : α → Edit (List ι) β} {s t u : List ι} {a : α}

/-- What a computation that starts without items comes to if other items stand before them. -/
def after (s : List ι) : EStateM.Result Failure (List ι) α → EStateM.Result Failure (List ι) α
  | .ok a t => .ok a (s ++ t)
  | .error e t => .error e (s ++ t)

theorem after_after (r : EStateM.Result Failure (List ι) α) :
    after s (after t r) = after (s ++ t) r := by
  cases r with
  | ok a u => rw [after, after, after, List.append_assoc]
  | error e u => rw [after, after, after, List.append_assoc]

/-- A computation adds to the end of a list and does not look at what stands before. -/
def Appends (x : Edit (List ι) α) : Prop := ∀ s, x s = after s (x [])

theorem appends_pure (a : α) : (pure a : Edit (List ι) α).Appends := fun s =>
  congrArg (EStateM.Result.ok a) (List.append_nil s).symm

theorem appends_throw (e : Failure) : (throw e : Edit (List ι) α).Appends := fun s =>
  congrArg (EStateM.Result.error e) (List.append_nil s).symm

theorem appends_ofResult (r : Result α) : (ofResult r : Edit (List ι) α).Appends := by
  cases r with
  | ok a => exact appends_pure a
  | error e => exact appends_throw e

theorem appends_modify (new : List ι) : (modify (· ++ new) : Edit (List ι) Unit).Appends :=
  fun _ => rfl

theorem Appends.bind (hx : x.Appends) (hf : ∀ a, (f a).Appends) : (x >>= f).Appends := by
  intro s
  rw [bind_apply, bind_apply, hx s]
  cases x [] with
  | ok a t =>
    show f a (s ++ t) = after s (f a t)
    rw [hf a (s ++ t), hf a t, after_after]
  | error e t => rfl

theorem Appends.foldlM {f : β → α → Edit (List ι) β} (hf : ∀ b a, (f b a).Appends) (xs : List α)
    (b : β) : (xs.foldlM f b).Appends := by
  induction xs generalizing b with
  | nil => exact appends_pure b
  | cons a xs ih =>
    rw [List.foldlM_cons]
    exact (hf b a).bind ih

/-- A computation that only adds comes to the same wherever it starts. -/
theorem Appends.exists_own (hx : x.Appends) (h : x s = .ok a t) :
    ∃ own, x [] = .ok a own ∧ t = s ++ own := by
  rw [hx s] at h
  cases hown : x [] with
  | ok b own =>
    rw [hown] at h
    cases h
    exact ⟨own, rfl, rfl⟩
  | error e own =>
    rw [hown] at h
    cases h

end Edit

namespace Swagger
variable {container operation : Value} {base fallback name : String}
  {d d' : EndpointDocumentation} {models models' own : List ModelDescriptor}
  {response : Atom × Value}

theorem appends_schemaModel (container : Value) (fallback : String) :
    (schemaModel container fallback).Appends := by
  refine (Edit.appends_ofResult _).bind fun fields => ?_
  dsimp only
  split
  · exact Edit.appends_pure _
  · exact (Edit.appends_ofResult _).bind fun _ => (Edit.appends_ofResult _).bind fun m =>
      (Edit.appends_modify [m]).bind fun _ => Edit.appends_pure _

theorem appends_addParameter (base : String) (d : EndpointDocumentation) (parameter : Value) :
    (addParameter base d parameter).Appends := by
  refine (Edit.appends_ofResult _).bind fun fields => ?_
  generalize fields.get "in" = place
  split
  · exact (Edit.appends_ofResult _).bind fun _ => Edit.appends_pure _
  · exact (Edit.appends_ofResult _).bind fun _ => Edit.appends_pure _
  · exact (Edit.appends_ofResult _).bind fun _ => Edit.appends_pure _
  · exact (appends_schemaModel _ _).bind fun _ => Edit.appends_pure _
  · exact Edit.appends_pure _
  · exact Edit.appends_pure _
  · exact Edit.appends_throw _

theorem appends_addResponse (base : String) (d : EndpointDocumentation)
    (response : Atom × Value) : (addResponse base d response).Appends := by
  refine (Edit.appends_ofResult _).bind fun code => (Edit.appends_ofResult _).bind fun fields =>
    (Edit.appends_ofResult _).bind fun description => ?_
  split
  · exact (appends_schemaModel _ _).bind fun _ => (Edit.appends_pure _).bind fun _ =>
      Edit.appends_pure _
  · exact (Edit.appends_pure _).bind fun _ => Edit.appends_pure _

/-- The documentation of an operation does not look at the models that were found before. -/
theorem appends_documentation (operation : Value) (base : String) :
    (documentation operation base).Appends := by
  refine (Edit.appends_ofResult _).bind fun fields => (Edit.appends_ofResult _).bind fun d =>
    (Edit.appends_ofResult _).bind fun parameters => ?_
  refine (Edit.Appends.foldlM (fun d p => appends_addParameter base d p) _ _).bind fun d =>
    (Edit.appends_ofResult _).bind fun responses => ?_
  exact Edit.Appends.foldlM (fun d kv => appends_addResponse base d kv) _ _

/-! ### The schemas of an operation -/

theorem definitionNamed?_eq_some {s : String} :
    definitionNamed? s = some name ↔ s = definitionsPath ++ name := by
  unfold definitionNamed?
  rw [← String.toList_inj, String.toList_append]
  constructor
  · intro h
    split at h
    · rename_i hprefix
      obtain ⟨rest, hrest⟩ := List.isPrefixOf_iff_prefix.mp hprefix
      have hname : s.toList.drop definitionsPath.length = rest := by
        rw [← hrest]
        exact List.drop_left
      rw [← Option.some.inj h, hname, String.toList_ofList, hrest]
    · cases h
  · intro h
    rw [if_pos (List.isPrefixOf_iff_prefix.mpr ⟨_, h.symm⟩), h, Option.some.injEq]
    have hname : (definitionsPath.toList ++ name.toList).drop definitionsPath.length =
        name.toList := List.drop_left
    rw [hname, String.ofList_toList]

/-- A schema stands for a definition if it refers to it at its top. -/
theorem wholeReference?_eq_some {schema : Value} : wholeReference? schema = some name ↔
    schema.fieldOrNull refKey = .str (definitionsPath ++ name) := by
  unfold wholeReference?
  split
  · rename_i s hs
    rw [hs, definitionNamed?_eq_some]
    exact ⟨fun h => h ▸ rfl, fun h => by cases h; rfl⟩
  · rename_i hs
    exact ⟨fun h => (nomatch h), fun h => absurd h (hs _)⟩

/-- A body or response that may have a schema, and the name that a model of it would have. -/
abbrev Described := String × Value

/-- The schemas of the bodies among some parameters. -/
def bodySchemas (base : String) (parameters : List Value) : List Described :=
  (parameters.filter isBody).map fun p => (base ++ "Request", p)

/-- The schema of a response, if it has one. -/
def responseSchema? (base : String) (response : Atom × Value) : Option Described :=
  if (response.2.fieldOrNull "schema").truthy then
    some (base ++ "Response" ++ response.1.spelled, response.2)
  else none

/-- The schemas of an operation, in the order in which they are met. -/
def schemasOf (base : String) (operation : Value) : List Described :=
  bodySchemas base (parametersOf operation) ++
    (responsesOf operation).filterMap (responseSchema? base)

namespace Described

/-- The name of the model that a schema stands for. -/
def modelName (s : Described) : String := (wholeReference? (givenSchema s.2)).getD s.1

/-- The model that is made of a schema, as its name and its schema, unless that is a reference. -/
def model? (s : Described) : Option (String × Value) :=
  if (wholeReference? (givenSchema s.2)).isNone then some (s.1, (givenSchema s.2).markRefs)
  else none

/-- The only reference of a body or response with a schema. -/
def refs (s? : Option Described) : ModelRefs := s?.elim [] fun s => jsonModel s.modelName

end Described

/-- A model as its name and its schema. -/
def entry (m : ModelDescriptor) : String × Value := (m.name, m.schema)

/-- A documentation refers to the models of an operation's schemas, and some models are those that
are made of them. -/
structure Documents (base : String) (operation : Value) (d : EndpointDocumentation)
    (own : List ModelDescriptor) : Prop where
  /-- Of several bodies the last one counts. -/
  models : d.models = Described.refs (bodySchemas base (parametersOf operation)).getLast?
  responses : d.responses.map (fun r => (r.statusCode, r.models)) =
    (responsesOf operation).map fun kv => (kv.1.spelled, Described.refs (responseSchema? base kv))
  own : own.map entry = (schemasOf base operation).filterMap Described.model?

/-! ### What is found -/

theorem schemaModel_found (h : schemaModel container fallback models = .ok name models') :
    name = Described.modelName (fallback, container) ∧
      models'.map entry = models.map entry ++ (Described.model? (fallback, container)).toList := by
  obtain ⟨fields, hobject⟩ : ∃ fields, container.asObject = .ok fields := by
    obtain ⟨fields, _, hfields, -⟩ := Edit.bind_eq_ok.mp h
    exact ⟨fields, (Edit.ofResult_eq_ok.mp hfields).1⟩
  unfold Described.modelName Described.model?
  dsimp only
  cases hreferred : wholeReference? (givenSchema container) with
  | some model =>
    rw [schemaModel_eq hobject, hreferred] at h
    cases h
    exact ⟨rfl, (List.append_nil _).symm⟩
  | none =>
    rcases schemaModel_eq_ok h with ⟨-, hnone⟩ | ⟨rfl, -, m, rfl, hname, hschema⟩
    · rw [hreferred] at hnone
      cases hnone
    · rw [List.map_append, List.map_singleton, entry, hname, hschema]
      exact ⟨rfl, rfl⟩

theorem addParameters_found {parameters : List Value}
    (h : parameters.foldlM (addParameter base) d models = .ok d' models') :
    d'.responses = d.responses ∧
      d'.models = (bodySchemas base parameters).getLast?.elim d.models
        (fun s => jsonModel s.modelName) ∧
      models'.map entry =
        models.map entry ++ (bodySchemas base parameters).filterMap Described.model? := by
  induction parameters generalizing d models with
  | nil =>
    obtain ⟨rfl, rfl⟩ := Edit.pure_eq_ok.mp h
    exact ⟨rfl, rfl, (List.append_nil _).symm⟩
  | cons p parameters ih =>
    obtain ⟨d₁, models₁, hfirst, hrest⟩ := Edit.bind_eq_ok.mp h
    obtain ⟨hresponses, hmodels, hentries⟩ := ih hrest
    have hbodies : isBody p = false → bodySchemas base (p :: parameters) =
        bodySchemas base parameters := fun hbody => by
      rw [bodySchemas, List.filter_cons_of_neg (Bool.not_eq_true _ ▸ hbody)]
      rfl
    cases parameterStep_of_addParameter hfirst with
    | more hbody _ _ hmore =>
      rw [hbodies hbody]
      cases hmore with
      | header | path | query => exact ⟨hresponses, hmodels, hentries⟩
    | other hbody =>
      rw [hbodies hbody]
      exact ⟨hresponses, hmodels, hentries⟩
    | body hbody hname =>
      obtain ⟨rfl, hfound⟩ := schemaModel_found hname
      have hcons : bodySchemas base (p :: parameters) =
          (base ++ "Request", p) :: bodySchemas base parameters := by
        rw [bodySchemas, List.filter_cons_of_pos hbody]
        rfl
      rw [hcons, List.getLast?_cons, List.filterMap_cons]
      refine ⟨hresponses, ?_, ?_⟩
      · rw [hmodels]
        cases (bodySchemas base parameters).getLast? <;> rfl
      · rw [hentries, hfound, List.append_assoc]
        cases Described.model? (base ++ "Request", p) <;> rfl

theorem addResponse_found (h : addResponse base d response models = .ok d' models') :
    d'.models = d.models ∧
      d'.responses.map (fun r => (r.statusCode, r.models)) =
        d.responses.map (fun r => (r.statusCode, r.models)) ++
          [(response.1.spelled, Described.refs (responseSchema? base response))] ∧
      models'.map entry =
        models.map entry ++ ((responseSchema? base response).bind Described.model?).toList := by
  obtain ⟨-, hrefs⟩ := responseStep_of_addResponse h
  unfold responseSchema?
  cases hrefs with
  | schema hgiven hname =>
    obtain ⟨rfl, hfound⟩ := schemaModel_found hname
    rw [if_pos hgiven]
    exact ⟨rfl, List.map_append, hfound⟩
  | bare hblank =>
    rw [if_neg (Bool.eq_false_iff.mp hblank)]
    exact ⟨rfl, List.map_append, (List.append_nil _).symm⟩

theorem addResponses_found {responses : Fields}
    (h : responses.foldlM (addResponse base) d models = .ok d' models') :
    d'.models = d.models ∧
      d'.responses.map (fun r => (r.statusCode, r.models)) =
        d.responses.map (fun r => (r.statusCode, r.models)) ++
          responses.map (fun kv => (kv.1.spelled, Described.refs (responseSchema? base kv))) ∧
      models'.map entry = models.map entry ++
        (responses.filterMap (responseSchema? base)).filterMap Described.model? := by
  induction responses generalizing d models with
  | nil =>
    obtain ⟨rfl, rfl⟩ := Edit.pure_eq_ok.mp h
    exact ⟨rfl, (List.append_nil _).symm, (List.append_nil _).symm⟩
  | cons kv responses ih =>
    obtain ⟨d₁, models₁, hfirst, hrest⟩ := Edit.bind_eq_ok.mp h
    obtain ⟨hmodels, hresponses, hentries⟩ := ih hrest
    obtain ⟨hm, hr, he⟩ := addResponse_found hfirst
    refine ⟨hmodels.trans hm, ?_, ?_⟩
    · rw [hresponses, hr, List.append_assoc]
      rfl
    · rw [hentries, he, List.append_assoc, List.filterMap_cons]
      cases responseSchema? base kv with
      | none => rfl
      | some s =>
        rw [Option.bind_some, List.filterMap_cons]
        cases s.model? <;> rfl

/-- **The documentation of an operation depends on the operation and the start of the names
alone**, and so do the models that it adds. -/
theorem documentation_eq_ok (h : documentation operation base models = .ok d models') :
    ∃ own, models' = models ++ own ∧ documentation operation base [] = .ok d own ∧
      Documents base operation d own := by
  obtain ⟨own, hown, hmodels⟩ := (appends_documentation operation base).exists_own h
  refine ⟨own, hmodels, hown, ?_⟩
  obtain ⟨fields, d₀, d₁, models₁, -, hstart, hd₁, hd₂⟩ := documentation_course hown
  obtain ⟨hr₁, hm₁, he₁⟩ := addParameters_found hd₁
  obtain ⟨hm₂, hr₂, he₂⟩ := addResponses_found hd₂
  obtain ⟨-, hmodels₀, hresponses₀⟩ := startingFrom_eq_ok hstart
  refine ⟨?_, ?_, ?_⟩
  · rw [hm₂, hm₁, hmodels₀]
    rfl
  · rw [hr₂, hr₁, hresponses₀]
    rfl
  · rw [he₂, he₁, schemasOf, List.filterMap_append]
    rfl

end Swagger
end GatewayDocs

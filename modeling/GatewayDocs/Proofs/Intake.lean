import GatewayDocs.Proofs.Endpoint
import GatewayDocs.Proofs.Lossless
import GatewayDocs.Proofs.Names
import GatewayDocs.Proofs.PathName

/-! # What is read from a service without loss

From a service without loss only texts are read whose units make no pairs, and values without loss:
of a parameter (`Parameter.lossless_hands`), of a documentation
(`EndpointDocumentation.lossless_hands`), of an operation of an embedded description
(`Swagger.lossless_of_documentation`), and so of the service as a whole
(`Compile.lossless_of_readService`).  The names that are made for models are joined with words
between their parts. -/

namespace GatewayDocs
open GatewayDocs.Units

/-! ### Texts -/

theorem Units.Unpaired.of_clear_append {before after s t : String}
    (hbefore : Clear before.toList) (hafter : Clear after.toList) (h : Unpaired s.toList)
    (ht : t = before ++ s ++ after) : Unpaired t.toList := by
  rw [ht, String.toList_append, String.toList_append]
  exact (hbefore.append_unpaired h).append_clear hafter

namespace Text
variable {c : Char} {s : String}

theorem trimBoth_isInfix (p : Char → Bool) (cs : List Char) : trimBoth p cs <:+: cs := by
  obtain ⟨front, back, hcs, -, -⟩ := exists_of_trimBoth p cs
  exact ⟨front, back, by rw [List.append_assoc, ← hcs]⟩

theorem unpaired_strip (h : Unpaired s.toList) : Unpaired (strip s).toList := by
  rw [strip, String.toList_ofList]
  exact h.of_infix (trimBoth_isInfix _ _)

theorem unpaired_stripChar (h : Unpaired s.toList) :
    Unpaired (stripChar c s).toList := by
  rw [stripChar, String.toList_ofList]
  exact h.of_infix (trimBoth_isInfix _ _)

end Text

namespace Value

theorem lossless_textOrNull {s? : Option String} (h : ∀ s ∈ s?, Unpaired s.toList) :
    (textOrNull s?).Lossless := by
  cases s? with
  | none => exact .null
  | some s => exact .str (h s rfl)

theorem lossless_flagOrNull (b? : Option Bool) : (flagOrNull b?).Lossless := by
  cases b? with
  | none => exact .null
  | some b => exact .bool b

end Value

/-! ### Readings -/

namespace Shape
variable {α : Type} {Q : α → Prop} {readFields : Fields → Checked α} {fs kept : Fields}
  {names : List String}

theorem text_hands : Hands Value.Lossless (fun s : String => Unpaired s.toList) text := by
  intro v s hv h
  cases hv with
  | str hs => exact Checked.ok.inj h ▸ hs
  | _ => cases h

theorem spelled_hands : Hands Value.Lossless (fun s : String => Unpaired s.toList) spelled := by
  intro v s hv h
  unfold spelled at h
  split at h
  · rename_i t ht
    exact Checked.ok.inj h ▸ Value.unpaired_of_text hv ht
  · cases h

theorem given_hands : Hands Value.Lossless Value.Lossless fun v => .ok v :=
  fun _ _ hv h => Checked.ok.inj h ▸ hv

theorem requiredText_hands {s : String} (hfs : fs.Lossless)
    (h : Shape.required names text fs = .ok s) : Unpaired s.toList :=
  required_hands (Q := fun s : String => Unpaired s.toList) text_hands hfs.values h

theorem optionalText_hands {s? : Option String} (hfs : fs.Lossless)
    (h : optional names none (orNull text) fs = .ok s?) : ∀ s ∈ s?, Unpaired s.toList :=
  optional_hands (Q := fun s? : Option String => ∀ s ∈ s?, Unpaired s.toList)
    (orNull_hands text_hands) (by simp) hfs.values h

theorem record_lossless (h : ∀ {fs a}, Fields.Lossless fs → readFields fs = .ok a → Q a) :
    Hands Value.Lossless Q (record readFields) := by
  intro v a hv ha
  obtain ⟨fs, hfs, hread⟩ := record_eq_ok.mp ha
  exact h (Value.lossless_of_fields? hv hfs) hread

theorem openRecord_lossless (h : ∀ {fs a}, Fields.Lossless fs → readFields fs = .ok a → Q a) :
    Hands Value.Lossless Q (openRecord readFields) := by
  intro v a hv ha
  obtain ⟨fs, hfs, -, hread⟩ := openRecord_eq_ok.mp ha
  exact h (Value.lossless_of_fields? hv hfs) hread


theorem mapOf_lossless : Hands Value.Lossless Fields.Lossless mapOf := by
  intro v fs hv h
  unfold mapOf at h
  split at h
  · have hfs := Value.lossless_of_fields? hv ‹_›
    rw [mapFrom_of_keyed hfs.keyed] at h
    exact Checked.ok.inj h ▸ hfs
  · cases h

/-- The pairs that are kept of distinct texts are some of them. -/
theorem extras_sublist {table : List (List String)} (hk : Pairs.Keyed fs)
    (h : extras table fs = .ok kept) : kept.Sublist fs := by
  rw [extras_of_keyed hk] at h
  exact Checked.ok.inj h ▸ List.filter_sublist

end Shape

open Shape

/-! ### Documentation of an endpoint -/

/-- The texts of a parameter make no pairs. -/
structure Parameter.Lossless (p : Parameter) : Prop where
  name : Unpaired p.name.toList
  description : ∀ s ∈ p.description, Unpaired s.toList

/-- All that is told of a response is without loss. -/
structure MethodResponse.Lossless (r : MethodResponse) : Prop where
  statusCode : Unpaired r.statusCode.toList
  description : ∀ s ∈ r.description, Unpaired s.toList
  body : ∀ b ∈ r.body, b.toFields.Lossless
  headers : ∀ p ∈ r.headers, p.Lossless
  models : r.models.targets.Lossless

/-- All that a documentation tells of an endpoint is without loss. -/
structure EndpointDocumentation.Lossless (d : EndpointDocumentation) : Prop where
  summary : ∀ s ∈ d.summary, Unpaired s.toList
  description : ∀ s ∈ d.description, Unpaired s.toList
  tags : ∀ s ∈ d.tags, Unpaired s.toList
  body : ∀ b ∈ d.body, b.toFields.Lossless
  headers : ∀ p ∈ d.headers, p.Lossless
  pathParameters : ∀ p ∈ d.pathParameters, p.Lossless
  queryParameters : ∀ p ∈ d.queryParameters, p.Lossless
  models : d.models.targets.Lossless
  responses : ∀ r ∈ d.responses, r.Lossless

/-- An event is without loss, and so is its documentation. -/
structure HttpEvent.Lossless (e : HttpEvent) : Prop where
  path : Unpaired e.path.toList
  method : Unpaired e.method.toList
  documentation : ∀ d ∈ e.documentation, d.Lossless

theorem Parameter.lossless_of_ofFields {fs : Fields} {p : Parameter} (hfs : fs.Lossless)
    (h : ofFields fs = .ok p) : p.Lossless := by
  have hread := ofFields_eq_ok.mp h
  exact ⟨requiredText_hands hfs hread.name, optionalText_hands hfs hread.description⟩

theorem Parameter.lossless_hands : Hands Value.Lossless Parameter.Lossless Parameter.ofValue :=
  record_lossless lossless_of_ofFields

theorem optionalParameters_hands {fs : Fields} {names : List String} {ps : List Parameter}
    (hfs : fs.Lossless) (h : optional names [] (listOf Parameter.ofValue) fs = .ok ps) :
    ∀ p ∈ ps, p.Lossless :=
  optional_hands (listOf_hands Value.hereditary_lossless Parameter.lossless_hands)
    (List.forall_mem_nil _) hfs.values h

theorem Body.lossless_hands :
    Hands Value.Lossless (fun b : Body => b.toFields.Lossless) Body.ofValue := by
  refine openRecord_lossless fun {fs b} hfs h => ?_
  have hread := ofFields_eq_ok.mp h
  have htext := Value.lossless_textOrNull (optionalText_hands hfs hread.description)
  refine Fields.Lossless.putAll ?_ (hfs.sublist (extras_sublist hfs.keyed hread.extra))
  exact .cons List.not_mem_nil (by decide) htext .nil

theorem optionalBody_hands {fs : Fields} {names : List String} {b? : Option Body}
    (hfs : fs.Lossless) (h : optional names none (orNull Body.ofValue) fs = .ok b?) :
    ∀ b ∈ b?, b.toFields.Lossless :=
  optional_hands (Q := fun b? : Option Body => ∀ b ∈ b?, b.toFields.Lossless)
    (orNull_hands Body.lossless_hands) (by simp) hfs.values h

namespace ModelRefs

/-- What a reference is written as. -/
def target : ModelRef → Value
  | .direct name => .str name
  | .imported identifier => identifier.copied

theorem lossless_target {v : Value} {r : ModelRef} (hv : v.Lossless)
    (h : ModelRef.ofValue v = .ok r) : (target r).Lossless := by
  unfold ModelRef.ofValue at h
  split at h
  · have hfs := Value.lossless_of_fields? hv ‹_›
    split at h
    · cases h
      exact Value.lossless_copied (hfs.get? ‹_›)
    · dsimp only at h
      split at h
      · cases h
        exact Value.lossless_copied (hfs.get _)
      · split at h
        · obtain ⟨name, hname, rfl⟩ := Result.map_eq_ok.mp h
          exact .str (Value.unpaired_of_text (hfs.get _) hname)
        · cases h
  · obtain ⟨name, hname, rfl⟩ := Result.map_eq_ok.mp h
    exact .str (Value.unpaired_of_text hv hname)

theorem keys_targets (refs : ModelRefs) : Pairs.keys refs.targets = Pairs.keys refs := by
  rw [targets, Pairs.keys, List.map_map]
  rfl

theorem ofFields_eq_ok {fs : Fields} {refs : ModelRefs} (h : ofFields fs = .ok refs) :
    Pairs.keys refs = Pairs.keys fs ∧
      ∀ kr ∈ refs, ∃ kv ∈ fs, ModelRef.ofValue kv.2 = .ok kr.2 := by
  induction fs generalizing refs with
  | nil =>
    cases h
    exact ⟨rfl, List.forall_mem_nil _⟩
  | cons kv fs ih =>
    obtain ⟨k, v⟩ := kv
    obtain ⟨r, hr, h₁⟩ := Result.bind_eq_ok.mp h
    obtain ⟨rest, hrest, h₂⟩ := Result.bind_eq_ok.mp h₁
    obtain rfl := Except.ok.inj h₂
    obtain ⟨hkeys, hall⟩ := ih hrest
    refine ⟨congrArg (k :: ·) hkeys, List.forall_mem_cons.mpr
      ⟨⟨_, List.mem_cons_self, hr⟩, fun kr hkr => ?_⟩⟩
    obtain ⟨kw, hkw, hread⟩ := hall kr hkr
    exact ⟨kw, List.mem_cons_of_mem _ hkw, hread⟩

theorem lossless_hands : Hands Value.Lossless (fun refs => refs.targets.Lossless) ofValue := by
  intro v refs hv h
  unfold ofValue at h
  split at h
  · cases h
    exact .nil
  · split at h
    · have hfs := Value.lossless_of_fields? hv ‹_›
      split at h
      · obtain ⟨hkeys, hall⟩ := ofFields_eq_ok ‹_›
        rw [mapFrom_of_keyed ⟨hkeys ▸ hfs.keyed.text, hkeys ▸ hfs.keyed.nodup⟩] at h
        obtain rfl := (Checked.ok.inj h).symm
        have hnames := (keys_targets refs).trans hkeys
        refine ⟨⟨hnames ▸ hfs.keyed.text, hnames ▸ hfs.keyed.nodup⟩, hnames ▸ hfs.keys,
          List.forall_mem_map.mpr fun kr hkr => ?_⟩
        obtain ⟨kv, hkv, hread⟩ := hall kr hkr
        exact lossless_target (hfs.values kv hkv) hread
      · cases h
    · cases h

/-- The names of the models that are referred to are unpaired. -/
theorem unpaired_of_mem_directNames {refs : ModelRefs} {name : String}
    (h : refs.targets.Lossless) (hn : name ∈ refs.directNames) : Unpaired name.toList := by
  obtain ⟨kr, hkr, hname⟩ := List.mem_filterMap.mp hn
  have htarget := h.values _ (List.mem_map_of_mem hkr)
  obtain ⟨k, r⟩ := kr
  cases r with
  | direct n =>
    cases hname
    exact Value.lossless_str.mp htarget
  | imported identifier => cases hname

end ModelRefs

theorem optionalModels_hands {fs : Fields} {names : List String} {refs : ModelRefs}
    (hfs : fs.Lossless) (h : optional names [] ModelRefs.ofValue fs = .ok refs) :
    refs.targets.Lossless :=
  optional_hands (Q := fun refs : ModelRefs => refs.targets.Lossless) ModelRefs.lossless_hands
    (show Fields.Lossless (ModelRefs.targets []) from .nil) hfs.values h

theorem MethodResponse.lossless_hands :
    Hands Value.Lossless MethodResponse.Lossless MethodResponse.ofValue := by
  refine record_lossless fun {fs r} hfs h => ?_
  have hread := ofFields_eq_ok.mp h
  have hspelled := required_hands (Q := fun s : String => Unpaired s.toList) spelled_hands
    hfs.values hread.statusCode
  exact ⟨hspelled, optionalText_hands hfs hread.description, optionalBody_hands hfs hread.body,
    optionalParameters_hands hfs hread.headers, optionalModels_hands hfs hread.models⟩

theorem EndpointDocumentation.lossless_of_ofFields {fs : Fields} {d : EndpointDocumentation}
    (hfs : fs.Lossless) (h : ofFields fs = .ok d) : d.Lossless := by
  have hread := ofFields_eq_ok.mp h
  exact {
    summary := optionalText_hands hfs hread.summary
    description := optionalText_hands hfs hread.description
    tags := optional_hands (listOf_hands Value.hereditary_lossless text_hands)
      (List.forall_mem_nil _) hfs.values hread.tags
    body := optionalBody_hands hfs hread.body
    headers := optionalParameters_hands hfs hread.headers
    pathParameters := optionalParameters_hands hfs hread.pathParameters
    queryParameters := optionalParameters_hands hfs hread.queryParameters
    models := optionalModels_hands hfs hread.models
    responses := optional_hands
      (listOf_hands Value.hereditary_lossless MethodResponse.lossless_hands)
      (List.forall_mem_nil _) hfs.values hread.responses }

theorem EndpointDocumentation.lossless_hands :
    Hands Value.Lossless EndpointDocumentation.Lossless EndpointDocumentation.ofValue :=
  openRecord_lossless lossless_of_ofFields

/-! ### Events -/

namespace HttpEvent
variable {e : HttpEvent}

theorem lossless_hands : Hands Value.Lossless HttpEvent.Lossless HttpEvent.ofValue := by
  refine record_lossless fun {fs e} hfs h => ?_
  have hread := ofFields_eq_ok.mp h
  exact ⟨requiredText_hands hfs hread.path, requiredText_hands hfs hread.method,
    optional_hands (Q := fun o : Option EndpointDocumentation => ∀ d ∈ o, d.Lossless)
      (orNull_hands EndpointDocumentation.lossless_hands) (by simp) hfs.values hread.documentation⟩

theorem lossless_ofShort {s : String} (h : Unpaired s.toList) : (ofShort s).Lossless := by
  have htrimmed := h.of_infix (Text.trimBoth_isInfix Text.isBlank s.toList)
  refine ⟨?_, ?_, by simp [ofShort]⟩
  · unfold ofShort
    dsimp only
    refine Text.unpaired_strip ?_
    rw [String.toList_ofList, List.span_eq_takeWhile_dropWhile]
    refine htrimmed.of_infix (List.IsSuffix.isInfix ?_)
    exact (List.drop_suffix 1 _).trans (List.dropWhile_suffix _)
  · unfold ofShort
    dsimp only
    rw [String.toList_ofList, List.span_eq_takeWhile_dropWhile]
    exact htrimmed.of_infix (List.takeWhile_prefix _).isInfix

theorem lossless_of_ofEvent {v : Value} (hv : v.Lossless) (h : ofEvent v = .ok e) :
    e.Lossless := by
  unfold ofEvent at h
  split at h
  · exact Except.ok.inj h ▸ lossless_ofShort (Value.lossless_str.mp hv)
  · exact lossless_hands hv (Checked.orInvalid_eq_ok.mp h)

theorem unpaired_docPath (h : e.Lossless) : Unpaired e.docPath.toList := by
  rw [docPath, String.toList_append]
  exact Clear.append_unpaired (by decide) (Text.unpaired_stripChar h.path)

end HttpEvent

/-! ### Models -/

/-- All that is declared of a model is without loss. -/
structure ModelDescriptor.Lossless (m : ModelDescriptor) : Prop where
  name : Unpaired m.name.toList
  description : ∀ s ∈ m.description, Unpaired s.toList
  contentType : Unpaired m.contentType.toList
  schema : m.schema.Lossless

theorem ModelDescriptor.lossless_hands :
    Hands Value.Lossless ModelDescriptor.Lossless ModelDescriptor.ofValue := by
  refine record_lossless fun {fs m} hfs h => ?_
  have hread := ofFields_eq_ok.mp h
  exact ⟨requiredText_hands hfs hread.name, optionalText_hands hfs hread.description,
    requiredText_hands hfs hread.contentType,
    optional_hands given_hands .null hfs.values hread.schema⟩

/-! ### Embedded descriptions -/

namespace Value
variable {v : Value} {s : String}

theorem unpaired_of_definitionNamed? {name : String} (h : Unpaired s.toList)
    (hname : definitionNamed? s = some name) : Unpaired name.toList := by
  rw [Swagger.definitionNamed?_eq_some.mp hname, String.toList_append] at h
  exact h.of_infix (List.suffix_append _ _).isInfix

theorem unpaired_markedText (h : Unpaired s.toList) : Unpaired (markedText s).toList := by
  unfold markedText
  cases hname : definitionNamed? s with
  | none => exact h
  | some name =>
    exact (unpaired_of_definitionNamed? h hname).of_clear_append (by decide) (by decide) rfl

theorem lossless_markRefs (h : v.Lossless) : v.markRefs.Lossless := by
  rw [markRefs_eq]
  refine lossless_replaceRefs (fun s x hs hx => ?_) h
  exact Option.some.inj hx ▸ .str (unpaired_markedText hs)

end Value

theorem Naming.clear_pathName (path : String) : Clear (pathName path).toList := by
  rw [pathName, String.toList_ofList]
  exact clear_of_lt fun c hc => Nat.lt_trans
    (Text.toNat_lt_of_isAsciiAlnum (isAsciiAlnum_of_mem_pathNameChars hc)) (by decide)

namespace Swagger
variable {container operation parameter definitions paths description schema : Value}
  {base fallback name : String} {d d' : EndpointDocumentation} {fields : Fields}
  {m : ModelDescriptor} {models models' : List ModelDescriptor} {e e' : HttpEvent}
  {events : List HttpEvent} {p : Parameter}

/-- All that is declared of some models is without loss. -/
def LosslessModels (models : List ModelDescriptor) : Prop := ∀ m ∈ models, m.Lossless

theorem unpaired_baseName (h : e.Lossless) : Unpaired (baseName e).toList := by
  rw [baseName, String.toList_append]
  refine (Naming.clear_pathName e.path).append_unpaired ?_
  rw [Naming.methodName, String.toList_ofList]
  exact Text.unpaired_upperFirst (Text.unpaired_lower h.method)

theorem lossless_of_describedModel (hname : Unpaired name.toList) (hd : description.Lossless)
    (hs : schema.Lossless) (h : describedModel name description schema = .ok m) : m.Lossless := by
  obtain ⟨text?, htext, h₁⟩ := Result.bind_eq_ok.mp h
  obtain rfl := Except.ok.inj h₁
  have hread := Checked.within_eq_ok.mp (Checked.orInvalid_eq_ok.mp htext)
  have htype : Clear jsonType.toList := by decide
  exact ⟨hname, orNull_hands text_hands hd hread, htype.unpaired, hs⟩

theorem lossless_of_modelOfDefinition {definition : Value} (hname : Unpaired name.toList)
    (hd : definition.Lossless) (h : modelOfDefinition name definition = .ok m) : m.Lossless := by
  obtain ⟨schema, hschema, h₁⟩ := Result.bind_eq_ok.mp h
  obtain ⟨-, rfl⟩ := markedSchema_eq_ok.mp hschema
  have hmarked := Value.lossless_markRefs hd
  exact lossless_of_describedModel hname (Value.lossless_fieldOrNull hmarked) hmarked h₁

theorem lossless_of_modelsOfDefinitions (hd : definitions.Lossless)
    (h : modelsOfDefinitions definitions = .ok models) : LosslessModels models := by
  have hfields := Value.lossless_pairs hd
  intro m hm
  obtain ⟨kv, hkv, hread⟩ := exists_of_forall₂_right (modelsOfDefinitions_eq_ok h) hm
  exact lossless_of_modelOfDefinition
    (Value.unpaired_spelled (hfields.key (List.mem_map_of_mem hkv))) (hfields.values kv hkv) hread

/-! #### Operations -/

theorem lossless_givenSchema (h : container.Lossless) : (givenSchema container).Lossless := by
  unfold givenSchema
  dsimp only
  split
  · exact Value.lossless_fieldOrNull h
  · exact Value.lossless_object.mpr .nil

theorem lossless_of_schemaModel (hm : LosslessModels models) (hc : container.Lossless)
    (hf : Unpaired fallback.toList) (h : schemaModel container fallback models = .ok name models') :
    Unpaired name.toList ∧ LosslessModels models' := by
  obtain ⟨fields, hobject, -⟩ := Edit.ofResult_bind_eq_ok.mp h
  have hgiven := lossless_givenSchema hc
  rw [schemaModel_eq hobject] at h
  cases hreferred : wholeReference? (givenSchema container) with
  | some model =>
    rw [hreferred] at h
    cases h
    have hpath : Unpaired (definitionsPath ++ name).toList :=
      Value.lossless_str.mp (wholeReference?_eq_some.mp hreferred ▸
        Value.lossless_fieldOrNull hgiven)
    rw [String.toList_append] at hpath
    exact ⟨hpath.of_infix (List.suffix_append _ _).isInfix, hm⟩
  | none =>
    rw [hreferred] at h
    obtain ⟨schema, hmarked, h₁⟩ := Edit.ofResult_bind_eq_ok.mp h
    obtain ⟨m, hdescribed, h₂⟩ := Edit.ofResult_bind_eq_ok.mp h₁
    cases h₂
    obtain ⟨-, rfl⟩ := markedSchema_eq_ok.mp hmarked
    have hnew := lossless_of_describedModel hf
      ((Value.lossless_of_asObject hc hobject).get _) (Value.lossless_markRefs hgiven) hdescribed
    exact ⟨hf, List.forall_mem_append.mpr ⟨hm, List.forall_mem_singleton.mpr hnew⟩⟩

theorem lossless_jsonModel (h : Unpaired name.toList) : (jsonModel name).targets.Lossless :=
  .cons List.not_mem_nil (by decide) (.str h) .nil

theorem lossless_of_parameterOf (hfs : fields.Lossless) (h : parameterOf fields = .ok p) :
    p.Lossless := by
  unfold parameterOf at h
  split at h
  · cases h
  · refine Parameter.lossless_of_ofFields ?_ (Checked.orInvalid_eq_ok.mp h)
    exact .cons (by simp) (by decide) (hfs.get? ‹_›)
      (.cons (by simp) (by decide) (hfs.get _)
        (.cons (by simp) (by decide) (hfs.get _) .nil))

theorem HasMore.lossless (hmore : HasMore p d d') (hp : p.Lossless) (hd : d.Lossless) :
    d'.Lossless := by
  have hall : ∀ {ps : List Parameter}, (∀ p ∈ ps, p.Lossless) → ∀ q ∈ ps ++ [p], q.Lossless :=
    fun hps => List.forall_mem_append.mpr ⟨hps, List.forall_mem_singleton.mpr hp⟩
  cases hmore with
  | header => exact { hd with headers := hall hd.headers }
  | path => exact { hd with pathParameters := hall hd.pathParameters }
  | query => exact { hd with queryParameters := hall hd.queryParameters }

theorem ParameterStep.lossless (hstep : ParameterStep base parameter d models d' models')
    (hb : Unpaired base.toList) (hp : parameter.Lossless)
    (hI : d.Lossless ∧ LosslessModels models) : d'.Lossless ∧ LosslessModels models' := by
  obtain ⟨hd, hm⟩ := hI
  cases hstep with
  | more _ hfields hread hmore =>
    have hfs := Value.lossless_of_asObject hp hfields
    exact ⟨hmore.lossless (lossless_of_parameterOf hfs hread) hd, hm⟩
  | body _ hname =>
    have hrequest : Unpaired (base ++ "Request").toList :=
      String.toList_append ▸ hb.append_clear (by decide)
    obtain ⟨hnamed, hmodels⟩ := lossless_of_schemaModel hm hp hrequest hname
    exact ⟨{ hd with models := lossless_jsonModel hnamed }, hmodels⟩
  | other => exact ⟨hd, hm⟩

theorem ResponseRefs.lossless {code : String} {response : Value} {refs : ModelRefs}
    (hrefs : ResponseRefs base code response models refs models') (hb : Unpaired base.toList)
    (hcode : Unpaired code.toList) (hr : response.Lossless) (hm : LosslessModels models) :
    refs.targets.Lossless ∧ LosslessModels models' := by
  cases hrefs with
  | schema _ hname =>
    -- the code comes after a word, so it makes no pair with the start of the name
    have hresponse : Unpaired (base ++ "Response" ++ code).toList := by
      rw [String.toList_append, String.toList_append]
      exact hb.append_between (by decide) (by decide) hcode
    obtain ⟨hnamed, hmodels⟩ := lossless_of_schemaModel hm hr hresponse hname
    exact ⟨lossless_jsonModel hnamed, hmodels⟩
  | bare => exact ⟨.nil, hm⟩

theorem ResponseStep.lossless {response : Atom × Value}
    (hstep : ResponseStep base response d models d' models') (hb : Unpaired base.toList)
    (hk : (Value.atom response.1).Lossless) (hr : response.2.Lossless)
    (hI : d.Lossless ∧ LosslessModels models) : d'.Lossless ∧ LosslessModels models' := by
  obtain ⟨hd, hm⟩ := hI
  obtain ⟨hdescribed, hrefs⟩ := hstep
  have hcode := Value.unpaired_spelled hk
  have htexts := orNull_hands text_hands (Value.lossless_fieldOrNull hr) hdescribed
  obtain ⟨hnamed, hmodels⟩ := hrefs.lossless hb hcode hr hm
  exact ⟨{ hd with
    responses := List.forall_mem_append.mpr ⟨hd.responses, List.forall_mem_singleton.mpr
      ⟨hcode, htexts, by simp, List.forall_mem_nil _, hnamed⟩⟩ }, hmodels⟩

theorem lossless_of_startingFrom (hfs : fields.Lossless) (h : startingFrom fields = .ok d) :
    d.Lossless := by
  have hread : ∀ {tags : List Value}, (∀ v ∈ tags, v.Lossless) →
      (EndpointDocumentation.ofFields
        [(.str "summary", fields.get "summary"), (.str "description", fields.get "description"),
          (.str "tags", .list tags)]).orInvalid "EndpointDocumentation" = .ok d → d.Lossless := by
    intro tags htags h
    refine EndpointDocumentation.lossless_of_ofFields ?_ (Checked.orInvalid_eq_ok.mp h)
    exact .cons (by simp) (by decide) (hfs.get _)
      (.cons (by simp) (by decide) (hfs.get _)
        (.cons (by simp) (by decide) (.list htags) .nil))
  unfold startingFrom at h
  dsimp only at h
  split at h
  · obtain ⟨tags, htags, h₁⟩ := Result.bind_eq_ok.mp h
    exact hread (fun v hv => Value.lossless_of_mem_members (hfs.get "tags") htags hv) h₁
  · obtain ⟨tags, htags, h₁⟩ := Result.bind_eq_ok.mp h
    cases htags
    exact hread (List.forall_mem_nil _) h₁

/-- **An operation without loss gives documentation and models without loss.** -/
theorem lossless_of_documentation (hb : Unpaired base.toList) (hm : LosslessModels models)
    (ho : operation.Lossless) (h : documentation operation base models = .ok d models') :
    d.Lossless ∧ LosslessModels models' := by
  have hpart : ∀ key, (operation.fieldOrNull key).Lossless := fun _ =>
    Value.lossless_fieldOrNull ho
  refine documentation_keeps (I := fun d models => d.Lossless ∧ LosslessModels models) h ?_ ?_ ?_
  · intro fields d hobject hstart
    exact ⟨lossless_of_startingFrom (Value.lossless_of_asObject ho hobject) hstart, hm⟩
  · intro p d models d' models' hp hI hstep
    obtain ⟨ps, hps, hmem⟩ := exists_of_mem_parametersOf hp
    exact hstep.lossless hb (Value.lossless_of_mem_members (hpart "parameters") hps hmem) hI
  · intro kv d models d' models' hkv hI hstep
    have hresponses := Value.lossless_pairs (hpart "responses")
    exact hstep.lossless hb (hresponses.key (List.mem_map_of_mem hkv)) (hresponses.values kv hkv) hI

/-! #### Events -/

theorem EventStep.lossless (hstep : EventStep paths e models e' models') (hp : paths.Lossless)
    (he : e.Lossless) (hm : LosslessModels models) : e'.Lossless ∧ LosslessModels models' := by
  cases hstep with
  | undescribed => exact ⟨he, hm⟩
  | described hfound hd =>
    have ho := hold_of_operation? Value.hereditary_lossless .null hp hfound
    obtain ⟨hlossless, hmodels⟩ := lossless_of_documentation (unpaired_baseName he) hm ho hd
    exact ⟨⟨he.path, he.method, fun d' hd' => Option.mem_some_iff.mp hd' ▸ hlossless⟩, hmodels⟩

theorem lossless_of_documentEvents (hp : paths.Lossless) (hm : LosslessModels models)
    (he : ∀ e ∈ events, e.Lossless) (h : (documentEvents paths events models).2 = .ok models') :
    (∀ e ∈ (documentEvents paths events models).1, e.Lossless) ∧ LosslessModels models' :=
  documentEvents_keeps (fun hmem hm hstep => hstep.lossless hp (he _ hmem) hm) hm h

theorem lossless_of_apply (hd : definitions.Lossless) (hp : paths.Lossless)
    (he : ∀ e ∈ events, e.Lossless) (h : (apply definitions paths events).2 = .ok models) :
    (∀ e ∈ (apply definitions paths events).1, e.Lossless) ∧ LosslessModels models := by
  unfold apply at h ⊢
  split at h
  · rename_i defined hdefined
    exact lossless_of_documentEvents hp (lossless_of_modelsOfDefinitions hd hdefined) he h
  · cases h

end Swagger

/-! ### The service -/

/-- What a documentation section tells of a service is without loss. -/
structure DocumentationConfig.Lossless (c : DocumentationConfig) : Prop where
  version : ∀ s ∈ c.version, Unpaired s.toList
  api : c.api.Lossless
  resources : ∀ fs ∈ c.resources, Fields.Lossless fs
  models : Swagger.LosslessModels c.models
  definitions : ((c.definitions.map Value.object).getD .null).Lossless
  paths : c.paths.Lossless

theorem DocumentationConfig.lossless_hands :
    Hands Value.Lossless DocumentationConfig.Lossless DocumentationConfig.ofValue := by
  refine openRecord_lossless fun {fs c} hfs h => ?_
  have hread := ofFields_eq_ok.mp h
  have hgiven : ∀ fields ∈ c.definitions, Fields.Lossless fields :=
    optional_hands (Q := fun o : Option Fields => ∀ fields ∈ o, fields.Lossless)
      (orNull_hands mapOf_lossless) (by simp) hfs.values hread.definitions
  exact {
    version := optional_hands (Q := fun s? : Option String => ∀ s ∈ s?, Unpaired s.toList)
      (orNull_hands spelled_hands) (by simp) hfs.values hread.version
    api := optional_hands mapOf_lossless .nil hfs.values hread.api
    resources := optional_hands (listOf_hands Value.hereditary_lossless mapOf_lossless)
      (List.forall_mem_nil _) hfs.values hread.resources
    models := optional_hands (Q := Swagger.LosslessModels)
      (listOf_hands Value.hereditary_lossless ModelDescriptor.lossless_hands)
      (List.forall_mem_nil _) hfs.values hread.models
    definitions := by
      cases hdefinitions : c.definitions with
      | none => exact .null
      | some fields => exact Value.lossless_object.mpr (hgiven fields hdefinitions)
    paths := optional_hands mapOf_lossless .nil hfs.values hread.paths }

/-- All that a compilation reads from a service is without loss. -/
structure Source.Lossless (source : Source) : Prop where
  config : source.config.Lossless
  events : ∀ e ∈ source.events, e.Lossless
  models : Swagger.LosslessModels source.models

/-- **From a service without loss everything is read without loss.** -/
theorem Compile.lossless_of_readService {service : Value} {source : Source} (hs : service.Lossless)
    (h : readService service = .ok (some source)) : source.Lossless := by
  obtain ⟨config, events, models, hconfig, hevents, hmodels, rfl⟩ := readService_eq_ok.mp h
  obtain ⟨raw, hraw, hsection⟩ := exists_section Value.hereditary_lossless hs hconfig
  have hc := DocumentationConfig.lossless_hands hraw hsection
  have he := hold_of_serviceEvents Value.hereditary_lossless HttpEvent.lossless_of_ofEvent hs
    hevents
  suffices hall : (∀ e ∈ (sources config events).1, e.Lossless) ∧ Swagger.LosslessModels models from
    ⟨hc, hall.1, hall.2⟩
  unfold sources at hmodels ⊢
  split at hmodels
  · rename_i hswagger
    rw [if_pos hswagger]
    exact Swagger.lossless_of_apply hc.definitions (Value.lossless_object.mpr hc.paths) he hmodels
  · rename_i hswagger
    rw [if_neg hswagger]
    exact ⟨he, Except.ok.inj hmodels ▸ hc.models⟩

end GatewayDocs

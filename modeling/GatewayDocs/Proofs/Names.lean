import Mathlib.Data.List.Infix
import GatewayDocs.Proofs.Description

/-! # Names of models

The model of a schema is named after the path and method of its event, the word for a request or
response, and the status code (`Swagger.schemasOf`), and all models of a description share one
space of names with its definitions.  Such a name tells its parts as long as the status code
neither contains the word for a response nor ends in the word for a request
(`Swagger.responseName_inj`, `Swagger.requestName_ne_responseName`): the words begin with a letter
that they do not repeat, so that a word does not overlap with itself (`eq_nil_or_suffix`).

Paths lose some of their characters in names, so events of distinct paths may still share the
start of their names; if they do not, and no definition has such a name, all names are distinct
(`Swagger.apply_names_distinct`). -/

namespace GatewayDocs

/-! ### Words that do not overlap with themselves -/

section Words
variable {α : Type} {c : α} {t u p q x y : List α}

/-- A word whose first letter does not come again does not start inside itself. -/
theorem suffix_of_not_mem (hc : c ∉ t) (h : c :: u <:+ t ++ y) : c :: u <:+ y := by
  induction t with
  | nil => exact h
  | cons b t ih =>
    rcases List.suffix_cons_iff.mp h with he | hs
    · exact absurd (List.cons.inj he).1 (List.ne_of_not_mem_cons hc)
    · exact ih (List.not_mem_of_not_mem_cons hc) hs

/-- If a word ends a text and also stands before its rest, the rest ends with it too. -/
theorem eq_nil_or_suffix (hc : c ∉ u) (h : p ++ c :: u = q ++ c :: u ++ x) :
    x = [] ∨ c :: u <:+ x := by
  have hs : c :: u <:+ c :: (u ++ x) := by
    refine List.suffix_of_suffix_length_le (List.suffix_append p (c :: u)) ?_ ?_
    · rw [h, List.append_assoc]
      exact List.suffix_append q _
    · rw [List.length_cons, List.length_cons, List.length_append]
      omega
  rcases List.suffix_cons_iff.mp hs with he | hs
  · exact .inl (List.self_eq_append_right.mp (List.cons.inj he).2)
  · exact .inr (suffix_of_not_mem hc hs)

/-- Two texts are cut alike at a word that does not come again after the cut. -/
theorem cut_inj (hc : c ∉ u) (hx : ¬ c :: u <:+: x) (hy : ¬ c :: u <:+: y)
    (h : p ++ c :: u ++ x = q ++ c :: u ++ y) : p = q ∧ x = y := by
  have hnone : ∀ {p q z w : List α}, ¬ c :: u <:+: z ++ w →
      p ++ c :: u = q ++ c :: u ++ z → z = [] :=
    fun hno he => (eq_nil_or_suffix hc he).resolve_right fun hs =>
      hno (hs.isInfix.trans (List.prefix_append _ _).isInfix)
  rcases List.append_eq_append_iff.mp h with ⟨z, hq, rfl⟩ | ⟨z, hp, rfl⟩
  · obtain rfl := hnone hx hq
    rw [List.append_nil] at hq
    exact ⟨(List.append_cancel_right hq).symm, rfl⟩
  · obtain rfl := hnone hy hp
    rw [List.append_nil] at hp
    exact ⟨List.append_cancel_right hp, rfl⟩

end Words

namespace Swagger

/-- A status code that cannot be taken for a part of a name: the word for a response is not in it,
and it does not end in the word for a request. -/
structure PlainCode (code : String) : Prop where
  response : ¬ "Response".toList <:+: code.toList
  request : ¬ "Request".toList <:+ code.toList

variable {base base' code code' : String}

instance : Decidable (PlainCode code) :=
  decidable_of_iff (_ ∧ _) ⟨fun h => ⟨h.1, h.2⟩, fun h => ⟨h.response, h.request⟩⟩

theorem responseName_inj (hc : PlainCode code) (hc' : PlainCode code')
    (h : base ++ "Response" ++ code = base' ++ "Response" ++ code') :
    base = base' ∧ code = code' := by
  rw [← String.toList_inj, String.toList_append, String.toList_append, String.toList_append,
    String.toList_append] at h
  obtain ⟨hbase, hcode⟩ := cut_inj (c := 'R') (u := "esponse".toList) (by decide) hc.response
    hc'.response h
  exact ⟨String.toList_inj.mp hbase, String.toList_inj.mp hcode⟩

theorem requestName_ne_responseName (hc : PlainCode code) :
    base ++ "Request" ≠ base' ++ "Response" ++ code := by
  intro h
  rw [← String.toList_inj, String.toList_append, String.toList_append, String.toList_append,
    List.append_assoc] at h
  have hshort : "Request".toList <:+ 'R' :: ("esponse".toList ++ code.toList) := by
    refine List.suffix_of_suffix_length_le (List.suffix_append base.toList _) ?_ ?_
    · rw [h]
      exact List.suffix_append base'.toList _
    · rw [List.length_cons, List.length_append]
      show 7 ≤ 7 + code.toList.length + 1
      omega
  rcases List.suffix_cons_iff.mp hshort with he | hs
  · exact absurd he (by simp)
  · exact hc.request (suffix_of_not_mem (c := 'R') (u := "equest".toList) (by decide) hs)

/-! ### Names of one operation -/

variable {definitions paths operation schema : Value} {name : String} {s : Described}
  {d : EndpointDocumentation} {models own : List ModelDescriptor} {m : ModelDescriptor}
  {e : HttpEvent} {events es : List HttpEvent} {turns : List (HttpEvent × List ModelDescriptor)}

/-- An operation has at most one body, and no two responses of one status code. -/
structure Regular (operation : Value) : Prop where
  body : ((parametersOf operation).filter isBody).length ≤ 1
  codes : ((responsesOf operation).map fun kv => kv.1.spelled).Nodup

instance : Decidable (Regular operation) :=
  decidable_of_iff (_ ∧ _) ⟨fun h => ⟨h.1, h.2⟩, fun h => ⟨h.body, h.codes⟩⟩

/-- No status code of an operation can be taken for a part of a name. -/
def PlainCodes (operation : Value) : Prop :=
  ∀ kv ∈ responsesOf operation, PlainCode kv.1.spelled

instance : Decidable (PlainCodes operation) :=
  inferInstanceAs (Decidable (∀ kv ∈ responsesOf operation, PlainCode kv.1.spelled))

/-- The names of the models that are made of the schemas of an operation. -/
def ownNames (base : String) (operation : Value) : List String :=
  ((schemasOf base operation).filterMap Described.model?).map Prod.fst

/-- What is read off the items of a list that are kept is read off some of its items, in order. -/
theorem map_filterMap_sublist {α β γ : Type} {f : α → Option β} {g : β → γ} {k : α → γ}
    (h : ∀ a b, f a = some b → g b = k a) (xs : List α) :
    ((xs.filterMap f).map g).Sublist (xs.map k) := by
  induction xs with
  | nil => exact .slnil
  | cons a xs ih =>
    rw [List.filterMap_cons, List.map_cons]
    cases hb : f a with
    | none => exact ih.cons _
    | some b =>
      rw [List.map_cons, h a b hb]
      exact ih.cons_cons _

theorem Described.model?_eq_some (h : s.model? = some (name, schema)) :
    wholeReference? (givenSchema s.2) = none ∧
      name = s.1 ∧ schema = (givenSchema s.2).markRefs := by
  unfold Described.model? at h
  split at h
  · rename_i hnone
    cases h
    exact ⟨Option.isNone_iff_eq_none.mp hnone, rfl, rfl⟩
  · cases h

theorem ownNames_sublist :
    (ownNames base operation).Sublist ((schemasOf base operation).map Prod.fst) :=
  map_filterMap_sublist (fun _ _ h => (Described.model?_eq_some h).2.1) _

theorem responseNames_sublist (responses : Fields) :
    ((responses.filterMap (responseSchema? base)).map Prod.fst).Sublist
      (responses.map fun kv => base ++ "Response" ++ kv.1.spelled) :=
  map_filterMap_sublist (fun _ _ h => by rw [responseSchema?_eq_some h]) _

/-- A name is for the request or for one of the responses. -/
theorem of_mem_schemaNames (h : name ∈ (schemasOf base operation).map Prod.fst) :
    name = base ++ "Request" ∨
      ∃ kv ∈ responsesOf operation, name = base ++ "Response" ++ kv.1.spelled := by
  rw [schemasOf, List.map_append] at h
  rcases List.mem_append.mp h with hbody | hresponse
  · obtain ⟨s, hs, rfl⟩ := List.mem_map.mp hbody
    obtain ⟨p, -, rfl⟩ := List.mem_map.mp hs
    exact .inl rfl
  · obtain ⟨kv, hkv, rfl⟩ := List.mem_map.mp ((responseNames_sublist _).subset hresponse)
    exact .inr ⟨kv, hkv, rfl⟩

theorem nodup_ownNames (hr : Regular operation) (hc : PlainCodes operation) :
    (ownNames base operation).Nodup := by
  refine ownNames_sublist.nodup ?_
  rw [schemasOf, List.map_append, List.nodup_append]
  refine ⟨?_, (responseNames_sublist _).nodup ?_, ?_⟩
  · rw [bodySchemas, List.map_map]
    cases hbodies : (parametersOf operation).filter isBody with
    | nil => exact .nil
    | cons p rest =>
      obtain rfl : rest = [] := by
        have := hr.body
        rw [hbodies, List.length_cons] at this
        exact List.eq_nil_of_length_eq_zero (by omega)
      exact List.nodup_singleton _
  · have hinjective : Function.Injective fun code => base ++ "Response" ++ code := fun _ _ h =>
      String.append_right_inj (base ++ "Response") |>.mp h
    have := hr.codes.map hinjective
    rwa [List.map_map] at this
  · rintro _ hbody _ hresponse rfl
    obtain ⟨s, hs, he⟩ := List.mem_map.mp hbody
    obtain ⟨p, -, rfl⟩ := List.mem_map.mp hs
    obtain ⟨kv, hkv, he'⟩ := List.mem_map.mp ((responseNames_sublist _).subset hresponse)
    exact requestName_ne_responseName (hc kv hkv) (he.trans he'.symm)

/-- Operations whose names start differently have no name in common. -/
theorem disjoint_ownNames {operation' : Value} (hne : base ≠ base') (hc : PlainCodes operation)
    (hc' : PlainCodes operation') (h : name ∈ ownNames base operation) :
    name ∉ ownNames base' operation' := by
  intro h'
  rcases of_mem_schemaNames (ownNames_sublist.subset h) with rfl | ⟨kv, hkv, rfl⟩
  · rcases of_mem_schemaNames (ownNames_sublist.subset h') with he | ⟨kv', hkv', he⟩
    · exact hne (String.append_left_inj "Request" |>.mp he)
    · exact requestName_ne_responseName (hc' kv' hkv') he
  · rcases of_mem_schemaNames (ownNames_sublist.subset h') with he | ⟨kv', hkv', he⟩
    · exact requestName_ne_responseName (hc kv hkv) he.symm
    · exact hne (responseName_inj (hc kv hkv) (hc' kv' hkv') he).1

theorem Documents.names (hd : Documents base operation d own) :
    own.map (fun m => m.name) = ownNames base operation := by
  rw [ownNames, ← hd.own, List.map_map]
  rfl

/-! ### Names of a description -/

/-- The parts of which the names of a description are made keep them apart. -/
structure Apart (definitions paths : Value) (events : List HttpEvent) : Prop where
  defined : ((definitions.fields?.getD []).map fun kv => kv.1.spelled).Nodup
  /-- Events with a described operation differ in the names of their methods. -/
  methods : events.Pairwise fun e f => (describedOperation? paths e).isSome →
    (describedOperation? paths f).isSome → Compile.methodId e ≠ Compile.methodId f
  regular : ∀ e ∈ events, ∀ operation ∈ describedOperation? paths e, Regular operation
  plain : ∀ e ∈ events, ∀ operation ∈ describedOperation? paths e, PlainCodes operation
  /-- No definition has the name of a model that is made of a schema. -/
  undefined : ∀ e ∈ events, ∀ operation ∈ describedOperation? paths e,
    ∀ name ∈ ownNames (baseName e) operation,
      name ∉ (definitions.fields?.getD []).map fun kv => kv.1.spelled

theorem methodId_eq (e : HttpEvent) : Compile.methodId e = "ApiGatewayMethod" ++ baseName e :=
  String.append_assoc

/-- The models that an event adds have the names of its operation. -/
theorem Turns.names {t : HttpEvent × List ModelDescriptor} (h : Turns paths e t) :
    t.2 = [] ∨ ∃ operation ∈ describedOperation? paths e,
      t.2.map (fun m => m.name) = ownNames (baseName e) operation := by
  cases h with
  | undescribed h => exact .inl rfl
  | described h hd =>
    obtain ⟨own, hmodels, -, hdocuments⟩ := documentation_eq_ok hd
    exact .inr ⟨_, h, by rw [hmodels]; exact hdocuments.names⟩

theorem exists_of_mem_names (hturns : List.Forall₂ (Turns paths) events turns)
    (h : name ∈ (turns.flatMap Prod.snd).map fun m => m.name) :
    ∃ e ∈ events, ∃ operation ∈ describedOperation? paths e,
      name ∈ ownNames (baseName e) operation := by
  induction hturns with
  | nil => cases h
  | cons hturn _ ih =>
    rw [List.flatMap_cons, List.map_append] at h
    rcases List.mem_append.mp h with h | h
    · rcases hturn.names with hnone | ⟨operation, hfound, hnames⟩
      · rw [hnone] at h
        cases h
      · exact ⟨_, List.mem_cons_self, operation, hfound, hnames ▸ h⟩
    · obtain ⟨e, he, hrest⟩ := ih h
      exact ⟨e, List.mem_cons_of_mem _ he, hrest⟩

theorem nodup_names (hturns : List.Forall₂ (Turns paths) events turns)
    (ha : Apart definitions paths events) :
    ((turns.flatMap Prod.snd).map fun m => m.name).Nodup := by
  have hevents := ha.methods
  have hregular := ha.regular
  have hplain := ha.plain
  clear ha
  induction hturns with
  | nil => exact .nil
  | @cons e t events turns hturn hturns ih =>
    obtain ⟨hfirst, hevents⟩ := List.pairwise_cons.mp hevents
    obtain ⟨hr, hregular⟩ := List.forall_mem_cons.mp hregular
    obtain ⟨hp, hplain⟩ := List.forall_mem_cons.mp hplain
    have hrest := ih hevents hregular hplain
    rw [List.flatMap_cons, List.map_append]
    rcases hturn.names with hnone | ⟨operation, hfound, hnames⟩
    · rwa [hnone]
    · rw [hnames, List.nodup_append]
      refine ⟨nodup_ownNames (hr operation hfound) (hp operation hfound), hrest, ?_⟩
      rintro name hname _ hlater rfl
      obtain ⟨f, hf, operation', hfound', hname'⟩ := exists_of_mem_names hturns hlater
      refine disjoint_ownNames (fun hbase => ?_) (hp operation hfound)
        (hplain f hf operation' hfound') hname hname'
      refine hfirst f hf (Option.isSome_of_mem hfound) (Option.isSome_of_mem hfound') ?_
      rw [methodId_eq, methodId_eq, hbase]

/-- A name stands for exactly one of some models, which has a schema. -/
def Denotes (models : List ModelDescriptor) (name : String) (schema : Value) : Prop :=
  ∃ m, (models.filter fun m => m.name = name) = [m] ∧ m.schema = schema

theorem filter_name_eq (h : (models.map fun m => m.name).Nodup) (hm : m ∈ models) :
    (models.filter fun n => n.name = m.name) = [m] := by
  induction models with
  | nil => cases hm
  | cons a models ih =>
    obtain ⟨ha, hrest⟩ := List.nodup_cons.mp h
    have hother : ∀ n ∈ models, n.name ≠ a.name := fun n hn he =>
      ha (List.mem_map.mpr ⟨n, hn, he⟩)
    rcases List.mem_cons.mp hm with rfl | hm
    · rw [List.filter_cons_of_pos (by rw [decide_eq_true_eq])]
      refine congrArg _ (List.filter_eq_nil_iff.mpr fun n hn => ?_)
      rw [decide_eq_true_eq]
      exact hother n hn
    · rw [List.filter_cons_of_neg (by rw [decide_eq_true_eq]; exact (hother m hm).symm)]
      exact ih hrest hm

theorem denotes_of_mem (h : (models.map fun m => m.name).Nodup) (hm : m ∈ models) :
    Denotes models m.name m.schema := ⟨m, filter_name_eq h hm, rfl⟩

/-- The model that is written for a schema of an operation is one of some models, the only one of
its name. -/
theorem Documents.denotes (hd : Documents base operation d own) (hown : own ⊆ models)
    (h : (models.map fun m => m.name).Nodup) (hs : s ∈ schemasOf base operation)
    (hm : s.model? = some (name, schema)) : Denotes models name schema := by
  have hmade : (name, schema) ∈ own.map entry := by
    rw [hd.own]
    exact List.mem_filterMap.mpr ⟨s, hs, hm⟩
  obtain ⟨m, hmem, he⟩ := List.mem_map.mp hmade
  cases he
  exact denotes_of_mem h (hown hmem)

/-- The models that are made of the schemas of an operation are those to which its documentation
refers in their places, and each of their names stands for nothing else. -/
structure Named (models : List ModelDescriptor) (base : String) (operation : Value)
    (d : EndpointDocumentation) : Prop where
  request : ∀ s ∈ bodySchemas base (parametersOf operation), ∀ name schema,
    s.model? = some (name, schema) → d.models = jsonModel name ∧ Denotes models name schema
  responses : List.Forall₂ (fun kv r => ∀ s ∈ responseSchema? base kv, ∀ name schema,
    s.model? = some (name, schema) → r.models = jsonModel name ∧ Denotes models name schema)
    (responsesOf operation) d.responses

theorem Documents.named (hd : Documents base operation d own) (hr : Regular operation)
    (hown : own ⊆ models) (h : (models.map fun m => m.name).Nodup) :
    Named models base operation d := by
  have hname : ∀ {s : Described} {name schema}, s.model? = some (name, schema) →
      Described.refs (some s) = jsonModel name := fun hm => by
    obtain ⟨hnone, rfl, -⟩ := Described.model?_eq_some hm
    show jsonModel (Described.modelName _) = _
    rw [Described.modelName, hnone]
    rfl
  constructor
  · intro s hs name schema hm
    refine ⟨?_, hd.denotes hown h (List.mem_append_left _ hs) hm⟩
    obtain ⟨p, hp, -⟩ := List.mem_map.mp hs
    have hlength : (bodySchemas base (parametersOf operation)).length ≤ 1 := by
      rw [bodySchemas, List.length_map]
      exact hr.body
    have hone : bodySchemas base (parametersOf operation) = [s] := by
      cases hbodies : bodySchemas base (parametersOf operation) with
      | nil =>
        rw [hbodies] at hs
        cases hs
      | cons b rest =>
        rw [hbodies] at hs hlength
        rw [List.length_cons] at hlength
        obtain rfl : rest = [] := List.eq_nil_of_length_eq_zero (by omega)
        rw [List.mem_singleton.mp hs]
    rw [hd.models, hone]
    exact hname hm
  · refine hd.forall₂_responses.imp fun kv r hresponse s hs name schema hm => ?_
    obtain ⟨hkv, -, hmodels⟩ := hresponse
    constructor
    · rw [hmodels, Option.mem_def.mp hs]
      exact hname hm
    · exact hd.denotes hown h
        (List.mem_append_right _ (List.mem_filterMap.mpr ⟨kv, hkv, hs⟩)) hm

/-- **Models do not collide if the parts of their names are kept apart.**  Then all models of a
description have distinct names: the name of a definition stands for its own model alone, and so
does every name that is written into a documentation for a schema that is no reference. -/
theorem apply_names_distinct (h : apply definitions paths events = (es, .ok models))
    (ha : Apart definitions paths events) :
    (models.map fun m => m.name).Nodup ∧
    (∀ kv ∈ definitions.fields?.getD [], Denotes models kv.1.spelled kv.2.markRefs) ∧
    List.Forall₂ (fun e e' => ∀ operation ∈ describedOperation? paths e,
      ∃ d, e'.documentation = some d ∧ Named models (baseName e) operation d) events es := by
  obtain ⟨defined, turns, hdefined, hturns, rfl, hmodels⟩ := apply_eq_ok h
  have hnodup : (models.map fun m => m.name).Nodup := by
    rw [hmodels, List.map_append, List.nodup_append, names_of_isDefined hdefined]
    refine ⟨ha.defined, nodup_names hturns ha, ?_⟩
    rintro name hdefinition _ hname rfl
    obtain ⟨e, he, operation, hfound, hown⟩ := exists_of_mem_names hturns hname
    exact ha.undefined e he operation hfound name hown hdefinition
  refine ⟨hnodup, fun kv hkv => ?_, ?_⟩
  · obtain ⟨m, hm, hd⟩ := exists_of_forall₂_left hdefined hkv
    rw [← hd.name, ← hd.schema]
    exact denotes_of_mem hnodup (hmodels ▸ List.mem_append_left _ hm)
  · have hadded : ∀ t ∈ turns, t.2 ⊆ models := fun t ht m hm => by
      rw [hmodels]
      exact List.mem_append_right _ (List.mem_flatMap.mpr ⟨t, ht, hm⟩)
    have hall := (List.forall₂_and_left _ _).mpr ⟨ha.regular,
      ((List.forall₂_and_left _ _).mpr ⟨hadded, hturns.flip⟩).flip⟩
    rw [List.forall₂_map_right_iff]
    refine hall.imp ?_
    rintro e _ ⟨hr, hown, hnone | @⟨operation, d, own, hfound, hd⟩⟩ operation' hsome
    · cases hnone.symm.trans hsome
    · obtain rfl : operation = operation' := Option.some.inj (hfound.symm.trans hsome)
      obtain ⟨own', hmade, -, hdocuments⟩ := documentation_eq_ok hd
      obtain rfl : own = own' := hmade
      exact ⟨d, rfl, hdocuments.named (hr operation hsome) hown hnodup⟩

/-- The name of a response's model stands for nothing else. -/
theorem apply_names_distinct_pets : Apart petDefinitions petPaths petEvents ∧
    ∃ es models, apply petDefinitions petPaths petEvents = (es, .ok models) ∧
      (models.map fun m => m.name) = ["Owner", "Pet", "PetsGetResponse200"] ∧
      List.Forall₂ (fun e e' => ∀ operation ∈ describedOperation? petPaths e,
        ∃ d, e'.documentation = some d ∧ Named models (baseName e) operation d) petEvents es := by
  have ha : Apart petDefinitions petPaths petEvents :=
    ⟨by decide +kernel, by decide +kernel, by decide +kernel, by decide +kernel,
      by decide +kernel⟩
  obtain ⟨es, models, h, hnames⟩ : ∃ es models,
      apply petDefinitions petPaths petEvents = (es, .ok models) ∧
      (models.map fun m => m.name) = ["Owner", "Pet", "PetsGetResponse200"] :=
    ⟨_, _, rfl, by decide +kernel⟩
  exact ⟨ha, es, models, h, hnames, (apply_names_distinct h ha).2.2⟩

/-- A schema that is a type. -/
def typed (name : String) : Value := .ofPairs [("schema", .ofPairs [("type", .str name)])]

/-- A definition with the name of a response's model. -/
def shadowedDefinitions : Value :=
  .ofPairs [("PetsGetResponse200", .ofPairs [("type", .str "object")])]

/-- Paths and status codes of which equal names are made: two paths with one name, a response with
the name of a definition, and status codes that contain the word for a response or end in the word
for a request. -/
def mistakenPaths : Value :=
  .ofPairs [
    ("/a-b", .ofPairs [("get", .ofPairs [("responses", .ofPairs [("200", typed "string")])])]),
    ("/aDashb", .ofPairs [("get", .ofPairs [("responses", .ofPairs [("200", typed "integer")])])]),
    ("/pets", .ofPairs [("get", .ofPairs [("responses", .ofPairs [("200", typed "array")])])]),
    ("/a", .ofPairs [("get", .ofPairs [("responses", .ofPairs [
      ("1GetResponse200", typed "number"), ("1PostRequest", typed "boolean")])])]),
    ("/AGetResponse1", .ofPairs [
      ("get", .ofPairs [("responses", .ofPairs [("200", typed "null")])]),
      ("post", .ofPairs [("parameters", .list [.ofPairs [("in", .str "body"),
        ("name", .str "body"), ("schema", .ofPairs [("type", .str "string")])]])])])]

/-- The events of these paths. -/
def mistakenEvents : List HttpEvent :=
  [⟨"/a-b", "get", none⟩, ⟨"/aDashb", "get", none⟩, ⟨"/pets", "get", none⟩, ⟨"/a", "get", none⟩,
    ⟨"/AGetResponse1", "get", none⟩, ⟨"/AGetResponse1", "post", none⟩]

/-- Distinct paths and methods, definitions and status codes are not enough: here every name is
that of two models. -/
theorem names_collide :
    ((shadowedDefinitions.fields?.getD []).map fun kv => kv.1.spelled).Nodup ∧
    (mistakenEvents.map fun e => (Text.lower e.method, e.docPath)).Nodup ∧
    (∀ e ∈ mistakenEvents, ∀ operation ∈ describedOperation? mistakenPaths e,
      Regular operation) ∧
    ∃ es models, apply shadowedDefinitions mistakenPaths mistakenEvents = (es, .ok models) ∧
      (models.map fun m => m.name) =
        ["PetsGetResponse200", "ADashbGetResponse200", "ADashbGetResponse200",
          "PetsGetResponse200", "AGetResponse1GetResponse200", "AGetResponse1PostRequest",
          "AGetResponse1GetResponse200", "AGetResponse1PostRequest"] ∧
      ¬ (models.map fun m => m.name).Nodup :=
  ⟨by decide +kernel, by decide +kernel, by decide +kernel, _, _, rfl, by decide +kernel,
    by decide +kernel⟩

end Swagger
end GatewayDocs

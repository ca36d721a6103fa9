import GatewayDocs.Proofs.Entry
import GatewayDocs.Proofs.Schemas

/-! # Resources that can be documented

A value is shaped by an outline if it is an object or a list wherever the outline has parts, and if
every response in it has a status code that can be told (`Outline.Shaped`).  Writes whose defaults
are shaped as well succeed on such a value and leave it shaped (`Write.exists_run`), and so
documenting never fails on a resource with shaped properties (`Resource.exists_documented`), be it
one that was read from a template (`Resource.exists_ofEntry`) or that of a model
(`Resource.shaped_of_toResource`). -/

namespace GatewayDocs

/-- A value is an object or a list wherever an outline has parts, and responses have status codes
that can be told. -/
def Outline.Shaped : Outline → Value → Prop
  | .leaf, _ => True
  | .object parts, v => ∃ fs, v = .object fs ∧
    ∀ k x, Pairs.lookup (.str k) fs = some x → (parts k).Shaped x
  | .responses entry, v => ∃ items, v = .list items ∧
    ∀ x ∈ items, (∃ c, Response.code x = .ok c) ∧ entry.Shaped x

namespace Outline
variable {o entry : Outline} {parts : String → Outline} {v x : Value} {fs : Fields} {k : String}
  {items : List Value}

theorem Shaped.clear (h : o.Shaped v) : o.Clear v := by
  induction o generalizing v with
  | leaf => trivial
  | object parts ih =>
    obtain ⟨fs, rfl, hparts⟩ := h
    refine ⟨rfl, fun _ k x he hx => ?_⟩
    cases he
    exact ih k (hparts k x hx)
  | responses entry ih =>
    obtain ⟨items, rfl, hitems⟩ := h
    refine ⟨rfl, fun _ he x hx => ?_⟩
    cases he
    exact ih (hitems x hx).2

theorem shaped_empty : (object parts).Shaped (.object []) :=
  ⟨[], rfl, fun _ _ h => nomatch h⟩

theorem shaped_nil : (responses entry).Shaped (.list []) :=
  ⟨[], rfl, List.forall_mem_nil _⟩

/-- An object stays shaped when a shaped part is put into it. -/
theorem shaped_put (h : (object parts).Shaped (.object fs)) (hx : (parts k).Shaped x) :
    (object parts).Shaped (.object (Pairs.put (.str k) x fs)) := by
  obtain ⟨_, he, hparts⟩ := h
  cases he
  refine ⟨_, rfl, fun l y hy => ?_⟩
  by_cases hl : k = l
  · subst hl
    rw [Pairs.lookup_put_self] at hy
    exact Option.some.inj hy ▸ hx
  · rw [Pairs.lookup_put_of_ne hl] at hy
    exact hparts l y hy

end Outline

namespace Write
variable {o : Outline} {parts : String → Outline} {w : Write} {vs ws : List Write}
  {v d : Value} {k : String}

/-- A write goes down where an outline has parts, and what it makes on the way is shaped. -/
def Shapes : Outline → Write → Prop
  | _, .keep => True
  | .leaf, .put _ => True
  | .object parts, .field k d inner => (parts k).Shaped d ∧ Shapes (parts k) inner
  | .responses entry, .response c inner =>
    inner.keepsCode = true ∧ entry.Shaped (Response.new c) ∧ Shapes entry inner
  | _, _ => False

theorem exists_found {c : String} {items : List Value}
    (h : ∀ x ∈ items, ∃ d, Response.code x = .ok d) :
    ∃ found, Response.found? c items = .ok found := by
  induction items with
  | nil => exact ⟨none, rfl⟩
  | cons x items ih =>
    obtain ⟨⟨d, hd⟩, hrest⟩ := List.forall_mem_cons.mp h
    by_cases hdc : d = c
    · exact ⟨some x, Response.found?_cons_of_code (hdc ▸ hd)⟩
    · rw [Response.found?_cons_of_ne hd hdc]
      exact ih hrest

/-- **A write succeeds on a shaped value, and leaves it shaped.** -/
theorem exists_run (hw : w.Shapes o) (hv : o.Shaped v) :
    ∃ u, w.run v = .ok u ∧ o.Shaped u := by
  induction w generalizing o v with
  | keep => exact ⟨v, rfl, hv⟩
  | put u =>
    cases o with
    | leaf => exact ⟨u, rfl, trivial⟩
    | _ => cases hw
  | field k d w ih =>
    cases o with
    | object parts =>
      obtain ⟨fs, rfl, hparts⟩ := hv
      have hpart : (parts k).Shaped ((Pairs.lookup (.str k) fs).getD d) := by
        cases hx : Pairs.lookup (.str k) fs with
        | none => exact hw.1
        | some x => exact hparts k x hx
      obtain ⟨u, hu, hshaped⟩ := ih hw.2 hpart
      exact ⟨_, run_field_iff.mpr ⟨fs, u, rfl, hu, rfl⟩,
        Outline.shaped_put ⟨fs, rfl, hparts⟩ hshaped⟩
    | _ => cases hw
  | response c w ih =>
    cases o with
    | responses entry =>
      obtain ⟨items, rfl, hitems⟩ := hv
      obtain ⟨found, hfound⟩ := exists_found (c := c) fun x hx => (hitems x hx).1
      have hentry : entry.Shaped (found.getD (Response.new c)) := by
        cases found with
        | none => exact hw.2.1
        | some x => exact (hitems x (Response.mem_of_found? hfound)).2
      obtain ⟨u, hu, hshaped⟩ := ih hw.2.2 hentry
      refine ⟨_, run_response_iff.mpr ⟨items, found, u, rfl, hfound, hu, rfl⟩, _, rfl, ?_⟩
      intro x hx
      rcases Slot.mem_fill hx with rfl | hx
      · exact ⟨⟨c, code_run_entry hw.1 hfound hu⟩, hshaped⟩
      · exact hitems x hx
    | _ => cases hw

/-- Writes succeed on every shaped value, and leave it shaped. -/
def KeepShape (o : Outline) (ws : List Write) : Prop :=
  ∀ v, o.Shaped v → ∃ u, runAll ws v = .ok u ∧ o.Shaped u

theorem KeepShape.append (hvs : KeepShape o vs) (hws : KeepShape o ws) :
    KeepShape o (vs ++ ws) := by
  intro v hv
  obtain ⟨x, hx, hshaped⟩ := hvs v hv
  obtain ⟨u, hu, hresult⟩ := hws x hshaped
  exact ⟨u, runAll_append_iff.mpr ⟨x, hx, hu⟩, hresult⟩

theorem keepShape_nil : KeepShape o [] := fun v hv => ⟨v, rfl, hv⟩

theorem keepShape_of_shapes (h : ∀ w ∈ ws, w.Shapes o) : KeepShape o ws := by
  induction ws with
  | nil => exact keepShape_nil
  | cons w ws ih =>
    obtain ⟨hw, hws⟩ := List.forall_mem_cons.mp h
    intro v hv
    obtain ⟨x, hx, hshaped⟩ := exists_run hw hv
    obtain ⟨u, hu, hresult⟩ := ih hws x hshaped
    exact ⟨u, runAll_cons_iff.mpr ⟨x, hx, hu⟩, hresult⟩

/-- Writes into a part that has just been made need no default for it. -/
theorem keepShape_made {d' : Value} (hd : (parts k).Shaped d) (hws : ∀ w ∈ ws, w.Shapes (parts k)) :
    KeepShape (.object parts) (field k d keep :: ws.map (field k d')) := by
  rintro v ⟨fs, rfl, hparts⟩
  obtain ⟨x, hx, hpart⟩ : ∃ x, (Pairs.lookup (.str k) fs).getD d = x ∧ (parts k).Shaped x := by
    cases hx : Pairs.lookup (.str k) fs with
    | none => exact ⟨d, rfl, hd⟩
    | some x => exact ⟨x, rfl, hparts k x hx⟩
  have hfirst : (field k d keep).run (.object fs) = .ok (.object (Pairs.put (.str k) x fs)) :=
    run_field_iff.mpr ⟨fs, x, rfl, congrArg Except.ok hx, rfl⟩
  by_cases hne : ws = []
  · subst hne
    exact ⟨_, runAll_cons_iff.mpr ⟨_, hfirst, rfl⟩, Outline.shaped_put ⟨fs, rfl, hparts⟩ hpart⟩
  · obtain ⟨u, hu, hshaped⟩ := keepShape_of_shapes hws x hpart
    have hrest : runAll (ws.map (field k d')) (.object (Pairs.put (.str k) x fs)) =
        .ok (.object (Pairs.put (.str k) u fs)) := by
      refine (runAll_map_field hne).mpr ⟨_, u, rfl, ?_, by rw [Pairs.put_put_self]⟩
      rw [Pairs.lookup_put_self]
      exact hu
    exact ⟨_, runAll_cons_iff.mpr ⟨_, hfirst, hrest⟩,
      Outline.shaped_put ⟨fs, rfl, hparts⟩ hshaped⟩

end Write

/-! ### The writes of a documentation -/

open Write in
theorem Parameter.shapes_writes {place : String} {value : Parameter → Bool} {ps : List Parameter} :
    ∀ w ∈ writes place value ps, w.Shapes (.object fun _ => .leaf) := by
  intro w hw
  obtain ⟨p, -, rfl⟩ := List.mem_map.mp hw
  exact ⟨trivial, trivial⟩

theorem Fields.shapes_writes {fields : Fields} :
    ∀ w ∈ fields.writes, w.Shapes (.object fun _ => .leaf) := by
  intro w hw
  obtain ⟨⟨k, v⟩, -, h⟩ := List.mem_filterMap.mp hw
  cases k with
  | str s =>
    cases h
    exact ⟨trivial, trivial⟩
  | _ => cases h

theorem MethodResponse.shapes_entryWrites {declared : MethodResponse} :
    ∀ w ∈ declared.entryWrites, w.Shapes (.object entryParts) := by
  intro w hw
  rcases List.mem_append.mp hw with hw | hw
  · obtain ⟨inner, hinner, rfl⟩ := List.mem_map.mp hw
    exact ⟨Outline.shaped_empty, Parameter.shapes_writes inner hinner⟩
  · obtain ⟨inner, hinner, rfl⟩ := List.mem_map.mp hw
    exact ⟨Outline.shaped_empty, Fields.shapes_writes inner hinner⟩

theorem Response.shaped_new (c : String) : (Outline.object entryParts).Shaped (new c) := by
  refine ⟨[(.str "StatusCode", .str c)], rfl, fun k x hx => ?_⟩
  have hmem := Pairs.mem_of_lookup hx
  rw [List.mem_singleton, Prod.mk.injEq, Atom.str.injEq] at hmem
  obtain ⟨rfl, -⟩ := hmem
  trivial

namespace EndpointDocumentation

/-- The declared responses can be written wherever an outline has the parts of responses. -/
theorem keepShape_responseWrites {parts : String → Outline}
    (hparts : parts Resource.responsesKey = .responses (.object entryParts))
    (d : EndpointDocumentation) : Write.KeepShape (.object parts) d.responseWrites := by
  unfold responseWrites
  split
  · exact Write.keepShape_nil
  · have hwrites : d.responses.flatMap MethodResponse.writes =
        (d.responses.flatMap fun declared => (Write.keep :: declared.entryWrites).map
          (Write.response declared.statusCode)).map (Write.field Resource.responsesKey .null) := by
      rw [List.map_flatMap]
      rfl
    rw [hwrites]
    refine Write.keepShape_made (hparts ▸ Outline.shaped_nil) fun w hw => ?_
    rw [hparts]
    obtain ⟨declared, -, hw⟩ := List.mem_flatMap.mp hw
    obtain ⟨inner, hinner, rfl⟩ := List.mem_map.mp hw
    refine ⟨Resource.keepsCode_of_mem_entryWrites declared inner hinner, Response.shaped_new _, ?_⟩
    rcases List.mem_cons.mp hinner with rfl | hinner
    · trivial
    · exact MethodResponse.shapes_entryWrites inner hinner

theorem keepShape_modelWrites (d : EndpointDocumentation) :
    Write.KeepShape methodOutline d.modelWrites := by
  unfold modelWrites
  split
  · exact Write.keepShape_nil
  · refine Write.keepShape_of_shapes fun w hw => ?_
    rw [List.mem_singleton.mp hw]
    exact ⟨trivial, trivial⟩

theorem keepShape_requestWrites (place : String) (ps : List Parameter) :
    Write.KeepShape methodOutline (requestWrites place ps) := by
  refine Write.keepShape_of_shapes fun w hw => ?_
  obtain ⟨inner, hinner, rfl⟩ := List.mem_map.mp hw
  exact ⟨Outline.shaped_empty, Parameter.shapes_writes inner hinner⟩

theorem keepShape_writes (d : EndpointDocumentation) (safeMode : Bool) :
    Write.KeepShape methodOutline (d.writes safeMode) := by
  unfold writes
  refine ((keepShape_responseWrites rfl d).append d.keepShape_modelWrites).append ?_
  split
  · exact Write.keepShape_nil
  · exact (keepShape_requestWrites _ _).append
      ((keepShape_requestWrites _ _).append (keepShape_requestWrites _ _))

end EndpointDocumentation

namespace Resource
variable {r r' : Resource} {d : EndpointDocumentation} {entry v : Value}

/-- **Documenting never fails on shaped properties**, and leaves them shaped. -/
theorem exists_documented (ht : d.Texts) (hr : methodOutline.Shaped r.properties)
    (safeMode : Bool) :
    ∃ r', documented safeMode d r = .ok r' ∧ methodOutline.Shaped r'.properties := by
  obtain ⟨u, hu, hshaped⟩ := d.keepShape_writes safeMode r.properties hr
  refine ⟨_, documented_iff.mpr ((augment_iff ht hr.clear).mpr ⟨u, hu, rfl⟩), ?_⟩
  rw [properties_addDependencies]
  exact hshaped

/-! ### Shaped entries -/

/-- The value under a key is an object, if it is there. -/
def ObjectUnder (key : String) (v : Value) : Prop :=
  ∀ x, v.field? key = some x → ∃ fs, x = .object fs

/-- A response is an object, and so are its parameters and its models. -/
structure ShapedResponse (v : Value) : Prop where
  object : ∃ fs, v = .object fs
  parameters : ObjectUnder "ResponseParameters" v
  models : ObjectUnder responseModelsKey v

/-- The properties of a resource are an object, its request parameters are one, and its responses
are a list. -/
structure ShapedProperties (v : Value) : Prop where
  object : ∃ fs, v = .object fs
  parameters : ObjectUnder "RequestParameters" v
  responses : ∀ x, v.field? responsesKey = some x →
    ∃ items, x = .list items ∧ ∀ item ∈ items, ShapedResponse item

/-- An entry of a template is an object, and so are its properties; it depends on a name or on those
of a list. -/
structure ShapedEntry (entry : Value) : Prop where
  object : ∃ fs, entry = .object fs
  properties : ∀ x, entry.field? "Properties" = some x → ShapedProperties x
  dependsOn : ∀ x, entry.field? "DependsOn" = some x →
    (∃ s, x = .str s) ∨ ∃ items, x = .list items

theorem shaped_of_objectUnder {fs : Fields} {key : String} {x : Value}
    (h : ObjectUnder key (.object fs)) (hx : Pairs.lookup (.str key) fs = some x) :
    (Outline.object fun _ => .leaf).Shaped x := by
  obtain ⟨gs, rfl⟩ := h x hx
  exact ⟨gs, rfl, fun _ _ _ => trivial⟩

theorem ShapedResponse.shaped (h : ShapedResponse v) : (Outline.object entryParts).Shaped v := by
  obtain ⟨fs, rfl⟩ := h.object
  refine ⟨fs, rfl, fun k x hx => ?_⟩
  unfold entryParts
  split
  · rename_i hk
    rcases hk with rfl | rfl
    · exact shaped_of_objectUnder h.parameters hx
    · exact shaped_of_objectUnder h.models hx
  · trivial

/-- The status code of a response from JSON can be told. -/
theorem ShapedResponse.exists_code (hj : v.isJson = true) (h : ShapedResponse v) :
    ∃ c, Response.code v = .ok c := by
  obtain ⟨fs, rfl⟩ := h.object
  have hcode : (Fields.get "StatusCode" fs).isJson = true :=
    Value.hereditary_isJson.fieldOrNull (v := .object fs) rfl hj
  exact ⟨_, Value.text_of_isJson hcode⟩

theorem ShapedProperties.shaped (hj : v.isJson = true) (h : ShapedProperties v) :
    methodOutline.Shaped v := by
  obtain ⟨fs, rfl⟩ := h.object
  refine ⟨fs, rfl, fun k x hx => ?_⟩
  unfold methodParts
  split
  · rename_i hk
    subst hk
    obtain ⟨items, rfl, hitems⟩ := h.responses x hx
    have hlist := Value.hereditary_isJson.get? hj rfl hx
    exact ⟨items, rfl, fun item hitem =>
      ⟨(hitems item hitem).exists_code (Value.isJson_list.mp hlist item hitem),
        (hitems item hitem).shaped⟩⟩
  · split
    · rename_i hk
      subst hk
      exact shaped_of_objectUnder h.parameters hx
    · trivial

/-- **A shaped entry can be read**, and its properties are shaped. -/
theorem exists_ofEntry (hj : entry.isJson = true) (h : ShapedEntry entry) :
    ∃ r, ofEntry entry = .ok r ∧ methodOutline.Shaped r.properties := by
  obtain ⟨fs, rfl⟩ := h.object
  obtain ⟨listed, hlisted⟩ : ∃ listed,
      listedDependencies (Fields.get "DependsOn" fs) = .ok listed := by
    cases hd : Fields.get? "DependsOn" fs with
    | none => exact ⟨[], by rw [Fields.get, hd]; rfl⟩
    | some x =>
      rw [Fields.get, hd, Option.getD_some]
      rcases h.dependsOn x hd with ⟨s, rfl⟩ | ⟨items, rfl⟩
      · exact ⟨_, rfl⟩
      · cases items <;> exact ⟨_, rfl⟩
  refine ⟨_, ofEntry_object.mpr ⟨listed, hlisted, rfl⟩, ?_⟩
  dsimp only
  split
  · rename_i htruthy
    cases hp : Fields.get? "Properties" fs with
    | none =>
      rw [Fields.get, hp] at htruthy
      cases htruthy
    | some x =>
      rw [Fields.get, hp, Option.getD_some]
      exact (h.properties x hp).shaped (Value.hereditary_isJson.get? hj rfl hp)
  · exact Outline.shaped_empty

/-- The properties of the resource of a model are shaped: they have no parts at all. -/
theorem shaped_of_toResource {m : ModelDescriptor} {restApi : Value}
    (h : m.toResource restApi = .ok r) : methodOutline.Shaped r.properties := by
  obtain ⟨gs, names, hgs, rfl, -⟩ := toResource_eq h
  obtain ⟨-, -, hkeys⟩ := properties_of_model m restApi
  rw [← hgs] at hkeys
  rw [properties_addDependencies]
  refine ⟨gs, rfl, fun k x hx => ?_⟩
  obtain ⟨s, hs, he⟩ := hkeys _ (Pairs.mem_keys_of_lookup hx)
  cases he
  rw [methodParts_of_mem_modelKeys hs]
  trivial

end Resource
end GatewayDocs

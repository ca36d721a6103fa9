import GatewayDocs.Proofs.Place
import GatewayDocs.Proofs.Repetition
import GatewayDocs.Template.Method

/-! # Documentation as writes

What documentation does to a method resource is a sequence of writes into its properties and of
new dependencies (`Resource.augment_iff`), if the properties have no labels where documentation
goes down into them (`methodOutline`).

Each part of documenting is shown to perform its writes at a place (`Resource.Performs`), and
parts one after the other perform their writes one after the other (`Performs.seq`). -/

namespace GatewayDocs

/-- Where the parts of an entry of a response are. -/
def entryParts : String → Outline := fun k =>
  if k = "ResponseParameters" ∨ k = "ResponseModels" then .object fun _ => .leaf else .leaf

/-- Where the parts of the properties of a method are. -/
def methodParts : String → Outline := fun k =>
  if k = Resource.responsesKey then .responses (.object entryParts)
  else if k = "RequestParameters" then .object fun _ => .leaf
  else .leaf

/-- The properties of a method, as documentation goes down into them. -/
def methodOutline : Outline := .object methodParts

/-- The content types of references are texts. -/
def ModelRefs.Texts (refs : ModelRefs) : Prop := ∀ kr ∈ refs, ∃ s, kr.1 = .str s

/-- The content types of all references of a documentation are texts. -/
def EndpointDocumentation.Texts (d : EndpointDocumentation) : Prop :=
  d.models.Texts ∧ ∀ response ∈ d.responses, response.models.Texts

/-- The names that a documented endpoint depends on. -/
def EndpointDocumentation.dependencies (d : EndpointDocumentation) : List String :=
  (d.responses.flatMap fun r => r.models.dependencies) ++ d.models.dependencies

/-! ### The writes -/

open Write in
/-- The writes of parameters at a place, which keep the values that are there. -/
def Parameter.writes (place : String) (value : Parameter → Bool) (ps : List Parameter) :
    List Write :=
  ps.map fun p => field (Resource.placedName place p.name) (.bool (value p)) keep

/-- The writes of pairs with text keys. -/
def Fields.writes (fields : Fields) : List Write :=
  fields.filterMap fun
    | (.str s, v) => some (.field s .null (.put v))
    | _ => none

open Write in
/-- The writes of a declared response into its entry. -/
def MethodResponse.entryWrites (declared : MethodResponse) : List Write :=
  (Parameter.writes Resource.responseHeaderPlace (fun _ => true) declared.headers).map
      (field "ResponseParameters" (.object [])) ++
    (Fields.writes declared.models.targets).map
      (field Resource.responseModelsKey (.object []))

open Write in
/-- The writes of a declared response: its entry is made, and written into. -/
def MethodResponse.writes (declared : MethodResponse) : List Write :=
  ((keep :: declared.entryWrites).map (response declared.statusCode)).map
    (field Resource.responsesKey .null)

open Write in
/-- The writes of the declared responses. -/
def EndpointDocumentation.responseWrites (d : EndpointDocumentation) : List Write :=
  if d.responses.isEmpty then []
  else field Resource.responsesKey (.list []) keep :: d.responses.flatMap MethodResponse.writes

open Write in
/-- The write of the request models. -/
def EndpointDocumentation.modelWrites (d : EndpointDocumentation) : List Write :=
  if d.models.isEmpty then []
  else [field "RequestModels" .null (put (.object d.models.targets))]

open Write in
/-- The writes of request parameters at a place. -/
def requestWrites (place : String) (ps : List Parameter) : List Write :=
  (Parameter.writes place (fun p => p.required = some true) ps).map
    (field "RequestParameters" (.object []))

/-- The writes of a documentation. -/
def EndpointDocumentation.writes (safeMode : Bool) (d : EndpointDocumentation) : List Write :=
  d.responseWrites ++ d.modelWrites ++
    if safeMode then []
    else requestWrites Resource.requestHeaderPlace d.headers ++
      (requestWrites Resource.queryPlace d.queryParameters ++
        requestWrites Resource.pathPlace d.pathParameters)

/-! ### Writes of pairs -/

/-- Parameters that are there keep their values. -/
theorem Parameter.runAll_writes {fs : Fields} (place : String) (value : Parameter → Bool)
    (ps : List Parameter) : Write.runAll (writes place value ps) (.object fs) =
      .ok (.object (ps.foldl
        (fun fs p => Fields.putNew (Resource.placedName place p.name) (.bool (value p)) fs)
        fs)) := by
  induction ps generalizing fs with
  | nil => rfl
  | cons p ps ih =>
    refine Write.runAll_cons_iff.mpr ⟨_, Write.run_field_iff.mpr ⟨fs, _, rfl, rfl, rfl⟩, ?_⟩
    rw [List.foldl_cons, Fields.putNew, Pairs.putNew_eq_put]
    exact ih

/-- Models are replaced by content type. -/
theorem Fields.runAll_writes {fs fields : Fields} (ht : ∀ kv ∈ fields, ∃ s, kv.1 = .str s) :
    Write.runAll fields.writes (.object fs) = .ok (.object (Pairs.putAll fs fields)) := by
  induction fields generalizing fs with
  | nil => rfl
  | cons kv fields ih =>
    obtain ⟨k, v⟩ := kv
    obtain ⟨s, rfl⟩ : ∃ s, k = .str s := ht (k, v) List.mem_cons_self
    refine Write.runAll_cons_iff.mpr ⟨_, Write.run_field_iff.mpr ⟨fs, v, rfl, rfl, rfl⟩, ?_⟩
    exact ih fun kv hkv => ht kv (List.mem_cons_of_mem _ hkv)

theorem ModelRefs.Texts.targets {refs : ModelRefs} (h : refs.Texts) :
    ∀ kv ∈ refs.targets, ∃ s, kv.1 = .str s := by
  intro kv hkv
  obtain ⟨kr, hkr, rfl⟩ := List.mem_map.mp hkv
  exact h kr hkr

theorem Fields.fits_writes {fields : Fields} :
    ∀ w ∈ fields.writes, Write.Fits (.object fun _ => .leaf) w := by
  intro w hw
  obtain ⟨⟨k, v⟩, -, h⟩ := List.mem_filterMap.mp hw
  cases k with
  | str s =>
    cases h
    exact ⟨trivial, trivial⟩
  | _ => cases h

theorem Fields.exists_field_of_mem_writes {fields : Fields} :
    ∀ w ∈ fields.writes, ∃ k d i, w = .field k d i := by
  intro w hw
  obtain ⟨⟨k, v⟩, -, h⟩ := List.mem_filterMap.mp hw
  cases k with
  | str s =>
    cases h
    exact ⟨_, _, _, rfl⟩
  | _ => cases h

theorem Fields.writes_ne_nil {fields : Fields} (ht : ∀ kv ∈ fields, ∃ s, kv.1 = .str s)
    (hne : fields ≠ []) : fields.writes ≠ [] := by
  cases fields with
  | nil => exact absurd rfl hne
  | cons kv fields =>
    obtain ⟨k, v⟩ := kv
    obtain ⟨s, rfl⟩ : ∃ s, k = .str s := ht (k, v) List.mem_cons_self
    exact List.cons_ne_nil _ _

theorem Parameter.exists_field_of_mem_writes {place : String} {value : Parameter → Bool}
    {ps : List Parameter} : ∀ w ∈ writes place value ps, ∃ k d i, w = .field k d i := by
  intro w hw
  obtain ⟨p, -, rfl⟩ := List.mem_map.mp hw
  exact ⟨_, _, _, rfl⟩

theorem Parameter.fits_writes {place : String} {value : Parameter → Bool} {ps : List Parameter} :
    ∀ w ∈ writes place value ps, Write.Fits (.object fun _ => .leaf) w := by
  intro w hw
  obtain ⟨p, -, rfl⟩ := List.mem_map.mp hw
  exact ⟨trivial, trivial⟩

/-! ### Computations that perform writes -/

namespace Resource
variable {r r' : Resource} {x y v : Value} {path : List Step} {names names' : List String}
  {key : String} {parts : String → Outline} {ws ws' : List Write} {e e' : Edit Resource Unit}

/-- A computation performs writes at a place, and makes the resource depend on names. -/
structure Performs (parts : String → Outline) (path : List Step) (e : Edit Resource Unit)
    (ws : List Write) (names : List String) : Prop where
  fits : ∀ w ∈ ws, Write.Fits (.object parts) w
  iff : ∀ {r r' : Resource} {x : Value}, r.properties.Leads path x →
    (Outline.object parts).Clear x → (e r = .ok () r' ↔
      ∃ y, Write.runAll ws x = .ok y ∧ r' = (r.replaceAt path y).addDependencies names)

namespace Performs

theorem congr (h : Performs parts path e ws names)
    (he : ∀ {r r' x}, r.properties.Leads path x → (Outline.object parts).Clear x →
      (e' r = .ok () r' ↔ e r = .ok () r')) : Performs parts path e' ws names :=
  ⟨h.fits, fun hx hc => (he hx hc).trans (h.iff hx hc)⟩

/-- Making a resource depend on names performs no writes. -/
theorem depend : Performs parts path (modify fun r => r.addDependencies names) [] names where
  fits := by simp
  iff {r r' x} hx hc := by
    have hself : r.replaceAt path x = r :=
      congrArg (setProperties · r) (hx.replace_self hc.1)
    rw [Edit.modify_apply, EStateM.Result.ok.injEq]
    constructor
    · rintro ⟨-, rfl⟩
      exact ⟨x, rfl, by rw [hself]⟩
    · rintro ⟨y, hy, rfl⟩
      cases hy
      rw [hself]
      exact ⟨rfl, rfl⟩

theorem nothing : Performs parts path (pure ()) [] [] :=
  show Performs parts path (modify fun r => r.addDependencies []) [] [] from depend

/-- Computations one after the other perform their writes one after the other. -/
theorem seq (h : Performs parts path e ws names) (h' : Performs parts path e' ws' names') :
    Performs parts path (do e; e') (ws ++ ws') (names ++ names') where
  fits w hw := (List.mem_append.mp hw).elim (h.fits w) (h'.fits w)
  iff {r r' x} hx hc := by
    -- what the first computation leads to, as the second one finds it
    have hnext : ∀ {y}, Write.runAll ws x = .ok y →
        ((r.replaceAt path y).addDependencies names).properties.Leads path y ∧
          (Outline.object parts).Clear y := fun hy =>
      ⟨by rw [properties_addDependencies]; exact hx.replace hc.1,
        Write.clear_runAll h.fits hc hy⟩
    -- of two values at the place the last one counts, and dependencies come in order
    have hboth : ∀ {y z}, y.isOpen = true →
        (((r.replaceAt path y).addDependencies names).replaceAt path z).addDependencies names' =
          (r.replaceAt path z).addDependencies (names ++ names') := by
      intro y z hy
      rw [addDependencies_append, replaceAt_addDependencies]
      refine congrArg (fun s : Resource => (s.addDependencies names).addDependencies names') ?_
      exact congrArg (setProperties · r) (hx.replace_replace hc.1 hy)
    rw [Edit.bind_eq_ok]
    constructor
    · rintro ⟨_, r₁, h₁, h₂⟩
      obtain ⟨y, hy, rfl⟩ := (h.iff hx hc).mp h₁
      obtain ⟨z, hz, rfl⟩ := (h'.iff (hnext hy).1 (hnext hy).2).mp h₂
      exact ⟨z, Write.runAll_append_iff.mpr ⟨y, hy, hz⟩, hboth (hnext hy).2.1⟩
    · rintro ⟨z, hz, rfl⟩
      obtain ⟨y, hy, hz⟩ := Write.runAll_append_iff.mp hz
      exact ⟨(), _, (h.iff hx hc).mpr ⟨y, hy, rfl⟩,
        (h'.iff (hnext hy).1 (hnext hy).2).mpr ⟨z, hz, (hboth (hnext hy).2.1).symm⟩⟩

/-- An edit of the object under a key performs the writes of that object. -/
theorem under {inner : String → Outline} {f : Fields → Fields} (hk : parts key = .object inner)
    (hne : ws ≠ []) (hfits : ∀ w ∈ ws, Write.Fits (.object inner) w)
    (hfield : ∀ w ∈ ws, ∃ k d i, w = .field k d i)
    (hrun : ∀ gs, Write.runAll ws (.object gs) = .ok (.object (f gs))) :
    Performs parts path (editUnder path key (modify f)) (ws.map (.field key (.object []))) [] where
  fits w hw := by
    obtain ⟨p, hp, rfl⟩ := List.mem_map.mp hw
    -- the part starts as an empty object, which is clear whatever the outline
    show (parts key).Clear _ ∧ Write.Fits (parts key) p
    rw [hk]
    exact ⟨Outline.clear_empty, hfits p hp⟩
  iff {r r' x} hx hc := by
    rw [editUnder_iff hx hc hk]
    constructor
    · rintro ⟨fs, gs, rfl, hgs, rfl⟩
      refine ⟨_, (Write.runAll_map_field hne).mpr ⟨fs, _, rfl, ?_, rfl⟩, rfl⟩
      rw [hgs]
      exact hrun gs
    · rintro ⟨y, hy, rfl⟩
      obtain ⟨fs, z, rfl, hz, rfl⟩ := (Write.runAll_map_field hne).mp hy
      obtain ⟨gs, hgs⟩ := Write.exists_object_of_runAll hne hfield hz
      rw [hgs, hrun gs, Except.ok.injEq] at hz
      exact ⟨fs, gs, rfl, hgs, hz ▸ rfl⟩

/-- An edit of the object at a place performs a write of one of its parts. -/
theorem edit {d : Value} {w : Write} {f : Fields → Fields} (hd : (parts key).Clear d)
    (hw : Write.Fits (parts key) w)
    (hrun : ∀ fs, (Write.field key d w).run (.object fs) = .ok (.object (f fs))) :
    Performs parts path (editAt path (modify f)) [.field key d w] [] where
  fits w' hw' := List.mem_singleton.mp hw' ▸ ⟨hd, hw⟩
  iff {r r' x} hx hc := by
    rw [editAt_iff hx hc.1, Write.runAll_singleton]
    constructor
    · rintro ⟨fs, rfl, rfl⟩
      exact ⟨_, hrun fs, rfl⟩
    · rintro ⟨y, hy, rfl⟩
      obtain ⟨fs, -, rfl, -, -⟩ := Write.run_field_iff.mp hy
      rw [hrun fs, Except.ok.injEq] at hy
      exact ⟨fs, rfl, hy ▸ rfl⟩

theorem ifNonempty {α : Type} {xs : List α} (h : xs ≠ [] → Performs parts path e ws names)
    (hws : xs = [] → ws = []) (hn : xs = [] → names = []) :
    Performs parts path (if !xs.isEmpty then e else pure ()) ws names := by
  cases xs with
  | nil =>
    rw [hws rfl, hn rfl]
    exact nothing
  | cons x xs => exact h (List.cons_ne_nil x xs)

end Performs

/-! ### The parts of documenting -/

theorem performs_addParameters (ps : List Parameter) (place : String) :
    Performs methodParts [] (addParameters ps place) (requestWrites place ps) [] := by
  refine Performs.ifNonempty (fun hne => ?_) (fun h => ?_) fun _ => rfl
  · exact Performs.under rfl (by simpa [Parameter.writes] using hne) Parameter.fits_writes
      Parameter.exists_field_of_mem_writes fun gs => Parameter.runAll_writes place _ ps
  · rw [h]
    rfl

theorem performs_addRequestModels (d : EndpointDocumentation) :
    Performs methodParts [] (addRequestModels d) d.modelWrites d.models.dependencies := by
  refine Performs.ifNonempty (fun hne => ?_) (fun h => ?_) fun h => ?_
  · unfold EndpointDocumentation.modelWrites
    rw [if_neg (by simpa using hne)]
    rw [addModelDependencies, bind_assoc]
    simp only [pure_bind]
    have hput : Performs methodParts []
        (editAt [] (modify fun fs => fs.put "RequestModels" (.object d.models.targets)))
        [.field "RequestModels" .null (.put (.object d.models.targets))] [] :=
      Performs.edit trivial trivial fun fs => rfl
    have hdepend : Performs methodParts []
        (modify fun r => r.addDependencies d.models.dependencies) [] d.models.dependencies :=
      Performs.depend
    simpa only [List.nil_append, List.append_nil] using hdepend.seq hput
  · unfold EndpointDocumentation.modelWrites
    rw [h]
    rfl
  · rw [h]
    rfl

theorem withModels_iff {targets : Fields} (h : x.isOpen = true) :
    withModels targets x = .ok y ↔
      ∃ fs, x = .object fs ∧ y = .object (Pairs.putAll fs targets) := by
  unfold withModels
  rw [Value.bare_of_isOpen h]
  cases x with
  | object fs =>
    exact ⟨fun h => ⟨fs, rfl, (Except.ok.inj h).symm⟩, fun ⟨_, he, hy⟩ => by cases he; rw [hy]⟩
  | atom _ => exact ⟨fun h => (nomatch h), fun ⟨_, he, _⟩ => (nomatch he)⟩
  | list _ => exact ⟨fun h => (nomatch h), fun ⟨_, he, _⟩ => (nomatch he)⟩
  | _ => cases h

/-- The models of an entry without labels are edited under their key. -/
theorem addResponseModels_iff {entry : List Step} {refs : ModelRefs}
    (hx : r.properties.Leads entry x) (hc : (Outline.object entryParts).Clear x) :
    addResponseModels entry refs r = .ok () r' ↔
      (do editUnder entry responseModelsKey (modify fun fields => Pairs.putAll fields refs.targets)
          modify fun r : Resource => r.addDependencies refs.dependencies) r = .ok () r' := by
  unfold addResponseModels editUnder
  rw [bind_assoc, Edit.bind_eq_ok, Edit.bind_eq_ok]
  refine exists_congr fun _ => exists_congr fun r₁ => and_congr_right fun h₁ => ?_
  obtain ⟨fs, rfl, rfl⟩ := (editAt_iff hx hc.1).mp h₁
  -- both go on at the part under the key, which is made by now
  have hin := leads_made responseModelsKey fs hx hc.1
  have hp := isOpen_part (rfl : entryParts responseModelsKey = .object fun _ => .leaf) hc
  rw [Edit.bind_of_ok (Edit.get_apply _), hin.at?_eq, Option.getD_some, Edit.bind_eq_ok,
    Edit.bind_eq_ok]
  constructor
  · rintro ⟨models, s, hm, h⟩
    obtain ⟨hm', rfl⟩ := Edit.ofResult_eq_ok.mp hm
    obtain ⟨gs, hgs, rfl⟩ := (withModels_iff hp).mp hm'
    rw [Edit.bind_of_ok (Edit.modify_apply _ _), changeProperties_of_leads hin hp rfl] at h
    exact ⟨(), _, (editAt_iff hin hp).mpr ⟨gs, hgs, rfl⟩, h⟩
  · rintro ⟨_, s, hs, h⟩
    obtain ⟨gs, hgs, rfl⟩ := (editAt_iff hin hp).mp hs
    refine ⟨_, _, Edit.ofResult_eq_ok.mpr ⟨(withModels_iff hp).mpr ⟨gs, hgs, rfl⟩, rfl⟩, ?_⟩
    rw [Edit.bind_of_ok (Edit.modify_apply _ _), changeProperties_of_leads hin hp rfl]
    exact h

theorem performs_addResponseModels {entry : List Step} {refs : ModelRefs} (ht : refs.Texts)
    (hne : refs ≠ []) : Performs entryParts entry (addResponseModels entry refs)
      ((Fields.writes refs.targets).map (.field responseModelsKey (.object [])))
      refs.dependencies := by
  have hwrites : Performs entryParts entry
      (editUnder entry responseModelsKey (modify fun fields => Pairs.putAll fields refs.targets))
      ((Fields.writes refs.targets).map (.field responseModelsKey (.object []))) [] := by
    refine Performs.under rfl ?_ Fields.fits_writes ?_ fun gs => Fields.runAll_writes ht.targets
    · exact Fields.writes_ne_nil ht.targets (by simpa [ModelRefs.targets] using hne)
    · exact Fields.exists_field_of_mem_writes
  have hdepend : Performs entryParts entry (modify fun r => r.addDependencies refs.dependencies)
      [] refs.dependencies := Performs.depend
  refine Performs.congr ?_ addResponseModels_iff
  simpa only [List.append_nil, List.nil_append] using hwrites.seq hdepend

/-! ### The entry of a response -/

/-- Looking for the index of a response is looking for its entry. -/
theorem found?_of_findResponse {c : String} {items : List Value} {found : Option Nat}
    (h : findResponse c items = .ok found) :
    Response.found? c items = .ok (found.bind (items[·]?)) ∧
      ∀ i ∈ found, i < items.length ∧ ∀ y, items.set i y = Response.put c y items := by
  induction items generalizing found with
  | nil =>
    cases h
    exact ⟨rfl, fun i hi => nomatch hi⟩
  | cons v items ih =>
    have hstep : findResponse c (v :: items) = (do
        if (← Response.code v) = c then return some 0
        else return (← findResponse c items).map (· + 1)) := bind_assoc _ _ _ |>.symm
    rw [hstep] at h
    obtain ⟨d, hd, h⟩ := Result.bind_eq_ok.mp h
    by_cases hdc : d = c
    · subst hdc
      rw [if_pos rfl] at h
      cases h
      refine ⟨Response.found?_cons_of_code hd, fun i hi => ?_⟩
      cases hi
      exact ⟨Nat.succ_pos _, fun y =>
        (Slot.fill_cons_of_pos (Response.hasCode_iff.mpr hd)).symm⟩
    · rw [if_neg hdc] at h
      obtain ⟨rest, hrest, h⟩ := Result.bind_eq_ok.mp h
      cases h
      obtain ⟨hentry, hput⟩ := ih hrest
      refine ⟨?_, fun i hi => ?_⟩
      · rw [Response.found?_cons_of_ne hd hdc, hentry]
        cases rest <;> rfl
      · obtain ⟨j, hj, rfl⟩ := Option.map_eq_some_iff.mp hi
        obtain ⟨hlt, hset⟩ := hput j hj
        refine ⟨Nat.succ_lt_succ hlt, fun y => ?_⟩
        have hv := Response.hasCode_disjoint hdc v (Response.hasCode_iff.mpr hd)
        rw [List.set_cons_succ, hset y]
        exact (Slot.fill_cons_of_neg hv).symm

theorem findResponse_of_found? {c : String} {items : List Value} {found : Option Value}
    (h : Response.found? c items = .ok found) : ∃ i?, findResponse c items = .ok i? := by
  induction items with
  | nil => exact ⟨none, rfl⟩
  | cons v items ih =>
    rw [Response.found?] at h
    obtain ⟨d, hd, h⟩ := Result.bind_eq_ok.mp h
    have hstep : findResponse c (v :: items) = (do
        if (← Response.code v) = c then return some 0
        else return (← findResponse c items).map (· + 1)) := (bind_assoc _ _ _).symm
    rw [hstep, hd]
    by_cases hdc : d = c
    · exact ⟨some 0, if_pos hdc⟩
    · rw [if_neg hdc] at h
      obtain ⟨rest, hrest⟩ := ih h
      exact ⟨rest.map (· + 1), by rw [hrest]; exact if_neg hdc⟩

theorem responseList_iff {items : List Value} (hc : methodOutline.Clear x) :
    responseList x = .ok items ↔
      ∃ fs, x = .object fs ∧ Pairs.lookup (.str responsesKey) fs = some (.list items) := by
  have hother : x.fields? = none → responseList x = .error .badShape := by
    intro h
    unfold responseList Value.field?
    rw [h]
    rfl
  cases x with
  | object fs =>
    have hfield : (Value.object fs).field? responsesKey = Pairs.lookup (.str responsesKey) fs := rfl
    unfold responseList
    rw [hfield]
    cases hl : Pairs.lookup (.str responsesKey) fs with
    | none => exact ⟨fun h => (nomatch h), fun ⟨_, he, h⟩ => by cases he; rw [hl] at h; cases h⟩
    | some v =>
      have hv : v.isOpen = true := (hc.2 fs responsesKey v rfl hl).1
      rw [Option.getD_some, Value.bare_of_isOpen hv]
      constructor
      · intro h
        cases v with
        | list items' =>
          cases h
          exact ⟨fs, rfl, hl⟩
        | _ => cases h
      · rintro ⟨_, he, h⟩
        cases he
        rw [hl, Option.some.injEq] at h
        rw [h]
  | atom _ => rw [hother rfl]; exact ⟨fun h => (nomatch h), fun ⟨_, he, _⟩ => (nomatch he)⟩
  | list _ => rw [hother rfl]; exact ⟨fun h => (nomatch h), fun ⟨_, he, _⟩ => (nomatch he)⟩
  | _ => cases hc.1

/-- Where the entry of a response is, and that what is put there is put in the place of the first
entry of its status code. -/
theorem responseEntry_eq {c : String} {fs : Fields} {items : List Value} {found : Option Value}
    (hc : methodOutline.Clear r.properties) (hfs : r.properties = .object fs)
    (hl : Pairs.lookup (.str responsesKey) fs = some (.list items))
    (he : Response.found? c items = .ok found) :
    ∃ path r₁, responseEntry c r = .ok path r₁ ∧
      r₁.properties.Leads path (found.getD (Response.new c)) ∧
      ∀ y, r₁.replaceAt path y =
        r.replaceAt []
          (.object (Pairs.put (.str responsesKey) (.list (Response.put c y items)) fs)) := by
  obtain ⟨i?, hi⟩ := findResponse_of_found? he
  obtain ⟨hentry, hput⟩ := found?_of_findResponse hi
  obtain rfl : i?.bind (items[·]?) = found := Except.ok.inj (hentry.symm.trans he)
  have hlist : responseList r.properties = .ok items := (responseList_iff hc).mpr ⟨fs, hfs, hl⟩
  have hreplace : ∀ v, r.replaceAt [] v = r.setProperties v := fun v =>
    congrArg (setProperties · r) (Value.replace_nil hc.1)
  unfold responseEntry
  rw [Edit.bind_of_ok (Edit.get_apply r), hlist, Edit.ofResult_ok, pure_bind, hi,
    Edit.ofResult_ok, pure_bind]
  cases i? with
  | some i =>
    -- the entry that was found is replaced in its place
    obtain ⟨hlt, hset⟩ := hput i rfl
    have hget : items[i]? = some items[i] := List.getElem?_eq_getElem hlt
    have hopen : items[i].isOpen = true := by
      rw [hfs] at hc
      exact ((hc.2 fs responsesKey _ rfl hl).2 items rfl _ (List.getElem_mem hlt)).1
    refine ⟨_, r, rfl, ?_, fun y => ?_⟩
    · rw [hfs, Option.bind_some, hget, Option.getD_some]
      exact .key hl (.index hget (.here _))
    · rw [hreplace, replaceAt, hfs, ← hset y]
      refine congrArg (setProperties · r) ?_
      show Value.change _ (.key _ :: [.index i]) _ = _
      rw [Value.change_key hl, Value.change_index hget, Value.change_nil hopen]
  | none =>
    -- a new entry is added at the end, and replaced there
    have hlead : r.properties.Leads responsesPlace (.list items) := hfs ▸ .key hl (.here _)
    have hat : (items ++ [Response.new c])[items.length]? = some (Response.new c) := by simp
    refine ⟨_, r.changeProperties responsesPlace fun _ => .list (items ++ [Response.new c]), rfl,
      ?_, fun y => ?_⟩
    · rw [changeProperties_of_leads hlead rfl rfl]
      exact (hlead.replace rfl).append (.index hat (.here _))
    · rw [changeProperties_of_leads hlead rfl rfl, hreplace]
      refine congrArg (setProperties · r) ?_
      refine ((hlead.replace rfl).change_append _ rfl).trans ?_
      rw [Value.change_index hat, Value.change_nil rfl, hlead.replace_replace rfl rfl, hfs]
      refine (Value.change_key hl).trans ?_
      rw [Value.change_nil rfl, List.set_append_right _ _ (Nat.le_refl _), Nat.sub_self]
      have hput : Response.put c y items = items ++ [y] :=
        Slot.fill_of_find?_eq_none (Response.find?_of_found? he)
      rw [hput]
      rfl

/-- A response has an entry only among responses with status codes to read. -/
theorem exists_entry_of_responseEntry {c : String} {path : List Step}
    (hc : methodOutline.Clear r.properties) (h : responseEntry c r = .ok path r') :
    ∃ fs items found, r.properties = .object fs ∧
      Pairs.lookup (.str responsesKey) fs = some (.list items) ∧
      Response.found? c items = .ok found := by
  unfold responseEntry at h
  rw [Edit.bind_of_ok (Edit.get_apply r), Edit.bind_eq_ok] at h
  obtain ⟨items, _, hlist, h⟩ := h
  obtain ⟨hlist', rfl⟩ := Edit.ofResult_eq_ok.mp hlist
  obtain ⟨fs, hfs, hl⟩ := (responseList_iff hc).mp hlist'
  obtain ⟨i?, _, hfind, -⟩ := Edit.bind_eq_ok.mp h
  exact ⟨fs, items, _, hfs, hl, (found?_of_findResponse (Edit.ofResult_eq_ok.mp hfind).1).1⟩

/-- Adds the headers of a declared response to its entry. -/
def addHeaders (declared : MethodResponse) (entry : List Step) : Edit Resource Unit :=
  if !declared.headers.isEmpty then
    editUnder entry "ResponseParameters" <| modify fun fields =>
      declared.headers.foldl
        (fun fs h => fs.putNew (placedName responseHeaderPlace h.name) (.bool true)) fields
  else pure ()

/-- Adds the models of a declared response to its entry, if it has any. -/
def addModels (declared : MethodResponse) (entry : List Step) : Edit Resource Unit :=
  if !declared.models.isEmpty then addResponseModels entry declared.models else pure ()

theorem addResponse_eq (declared : MethodResponse) : addResponse declared =
    responseEntry declared.statusCode >>= fun entry =>
      (do addHeaders declared entry; addModels declared entry) := by
  unfold addResponse addHeaders addModels
  refine congrArg (responseEntry declared.statusCode >>= ·) (funext fun entry => ?_)
  cases declared.headers with
  | nil => rfl
  | cons h hs => rfl

theorem performs_addHeaders (declared : MethodResponse) (entry : List Step) :
    Performs entryParts entry (addHeaders declared entry)
      ((Parameter.writes responseHeaderPlace (fun _ => true) declared.headers).map
        (.field "ResponseParameters" (.object []))) [] := by
  refine Performs.ifNonempty (fun hne => ?_) (fun h => ?_) fun _ => rfl
  · refine Performs.under rfl (by simpa [Parameter.writes] using hne) Parameter.fits_writes
      Parameter.exists_field_of_mem_writes fun gs => ?_
    exact Parameter.runAll_writes responseHeaderPlace (fun _ => true) declared.headers
  · rw [h]
    rfl

theorem performs_addModels {declared : MethodResponse} (ht : declared.models.Texts)
    (entry : List Step) : Performs entryParts entry (addModels declared entry)
      ((Fields.writes declared.models.targets).map (.field responseModelsKey (.object [])))
      declared.models.dependencies := by
  refine Performs.ifNonempty (fun hne => performs_addResponseModels ht hne) (fun h => ?_)
    fun h => ?_
  all_goals
    rw [h]
    rfl

theorem performs_addToEntry {declared : MethodResponse} (ht : declared.models.Texts)
    (entry : List Step) :
    Performs entryParts entry (do addHeaders declared entry; addModels declared entry)
      declared.entryWrites declared.models.dependencies :=
  (performs_addHeaders declared entry).seq (performs_addModels ht entry)

theorem keepsCode_of_mem_entryWrites (declared : MethodResponse) :
    ∀ w ∈ Write.keep :: declared.entryWrites, w.keepsCode = true := by
  intro w hw
  rcases List.mem_cons.mp hw with rfl | hw
  · rfl
  · rcases List.mem_append.mp hw with hw | hw
    all_goals
      obtain ⟨p, -, rfl⟩ := List.mem_map.mp hw
      rfl

/-- The writes of a declared response are the writes of the entry of its status code. -/
theorem runAll_writes_iff {declared : MethodResponse} :
    Write.runAll declared.writes x = .ok y ↔ ∃ fs items found z, x = .object fs ∧
      Pairs.lookup (.str responsesKey) fs = some (.list items) ∧
      Response.found? declared.statusCode items = .ok found ∧
      Write.runAll declared.entryWrites (found.getD (Response.new declared.statusCode)) = .ok z ∧
      y = .object (Pairs.put (.str responsesKey)
        (.list (Response.put declared.statusCode z items)) fs) := by
  have hkeeps := keepsCode_of_mem_entryWrites declared
  have hne : (Write.keep :: declared.entryWrites).map (Write.response declared.statusCode) ≠ [] :=
    List.cons_ne_nil _ _
  unfold MethodResponse.writes
  rw [Write.runAll_map_field hne]
  constructor
  · rintro ⟨fs, l, rfl, hl, rfl⟩
    obtain ⟨items, found, z, hlist, he, hz, rfl⟩ :=
      (Write.runAll_map_response (List.cons_ne_nil _ _) hkeeps).mp hl
    -- the first write only makes the entry
    obtain ⟨v, hv, hz⟩ := Write.runAll_cons_iff.mp hz
    cases hv
    refine ⟨fs, items, found, z, rfl, ?_, he, hz, rfl⟩
    cases h : Pairs.lookup (.str responsesKey) fs with
    | none => rw [h] at hlist; cases hlist
    | some v => rw [h, Option.getD_some] at hlist; rw [hlist]
  · rintro ⟨fs, items, found, z, rfl, hl, he, hz, rfl⟩
    refine ⟨fs, _, rfl, ?_, rfl⟩
    rw [hl, Option.getD_some]
    exact (Write.runAll_map_response (List.cons_ne_nil _ _) hkeeps).mpr
      ⟨items, found, z, rfl, he, Write.runAll_cons_iff.mpr ⟨_, rfl, hz⟩, rfl⟩

/-- A declared response performs the writes of its entry. -/
theorem performs_addResponse {declared : MethodResponse} (ht : declared.models.Texts) :
    Performs methodParts [] (addResponse declared) declared.writes
      declared.models.dependencies where
  fits w hw := by
    obtain ⟨_, hw', rfl⟩ := List.mem_map.mp hw
    obtain ⟨p, hp, rfl⟩ := List.mem_map.mp hw'
    refine ⟨Outline.clear_atom, keepsCode_of_mem_entryWrites declared p hp, ?_⟩
    rcases List.mem_cons.mp hp with rfl | hp
    · trivial
    · exact (performs_addToEntry ht []).fits p hp
  iff {r r' x} hx hc := by
    cases hx
    -- an entry is clear, be it found among the responses or new
    have hclear : ∀ {fs items found}, r.properties = .object fs →
        Pairs.lookup (.str responsesKey) fs = some (.list items) →
        Response.found? declared.statusCode items = .ok found →
        (Outline.object entryParts).Clear (found.getD (Response.new declared.statusCode)) := by
      intro fs items found hfs hl he
      cases found with
      | none => exact Outline.clear_new _
      | some v =>
        rw [hfs] at hc
        exact (hc.2 fs responsesKey _ rfl hl).2 items rfl v (Response.mem_of_found? he)
    rw [addResponse_eq, Edit.bind_eq_ok]
    constructor
    · rintro ⟨path, r₁, hentry, h⟩
      obtain ⟨fs, items, found, hfs, hl, he⟩ := exists_entry_of_responseEntry hc hentry
      obtain ⟨_, _, heq, hlead, hput⟩ := responseEntry_eq hc hfs hl he
      cases hentry.symm.trans heq
      obtain ⟨z, hz, rfl⟩ := ((performs_addToEntry ht path).iff hlead (hclear hfs hl he)).mp h
      exact ⟨_, runAll_writes_iff.mpr ⟨fs, items, found, z, hfs, hl, he, hz, rfl⟩, by rw [hput]⟩
    · rintro ⟨y, hy, rfl⟩
      obtain ⟨fs, items, found, z, hfs, hl, he, hz, rfl⟩ := runAll_writes_iff.mp hy
      obtain ⟨path, r₁, heq, hlead, hput⟩ := responseEntry_eq hc hfs hl he
      refine ⟨path, r₁, heq, ?_⟩
      exact ((performs_addToEntry ht path).iff hlead (hclear hfs hl he)).mpr ⟨z, hz, by rw [hput]⟩

theorem performs_forM {declared : List MethodResponse} (ht : ∀ m ∈ declared, m.models.Texts) :
    Performs methodParts [] (declared.forM addResponse) (declared.flatMap MethodResponse.writes)
      (declared.flatMap fun m => m.models.dependencies) := by
  induction declared with
  | nil => exact Performs.nothing
  | cons m declared ih =>
    rw [List.flatMap_cons, List.flatMap_cons]
    exact (performs_addResponse (ht m List.mem_cons_self)).seq
      (ih fun m hm => ht m (List.mem_cons_of_mem _ hm))

theorem performs_addResponses {d : EndpointDocumentation} (ht : ∀ m ∈ d.responses, m.models.Texts) :
    Performs methodParts [] (addResponses d) d.responseWrites
      (d.responses.flatMap fun m => m.models.dependencies) := by
  refine Performs.ifNonempty (fun hne => ?_) (fun h => ?_) fun h => ?_
  · unfold EndpointDocumentation.responseWrites
    rw [if_neg (by simpa using hne)]
    have hlist : Performs methodParts []
        (editAt [] (modify fun fs => Fields.putNew responsesKey (.list []) fs))
        [.field responsesKey (.list []) .keep] [] := by
      refine Performs.edit Outline.clear_nil trivial fun fs => ?_
      rw [Fields.putNew, Pairs.putNew_eq_put]
      rfl
    exact hlist.seq (performs_forM ht)
  · unfold EndpointDocumentation.responseWrites
    rw [h]
    rfl
  · rw [h]
    rfl

/-- Documenting a method performs the writes of the documentation. -/
theorem performs_augment {d : EndpointDocumentation} (ht : d.Texts) (safeMode : Bool) :
    Performs methodParts [] (augment d safeMode) (d.writes safeMode) d.dependencies := by
  have hmodels := (performs_addResponses ht.2).seq (performs_addRequestModels d)
  have hsafe : Performs methodParts []
      (if !safeMode then (do
          addParameters d.headers requestHeaderPlace
          addParameters d.queryParameters queryPlace
          addParameters d.pathParameters pathPlace)
        else pure ())
      (if safeMode then [] else requestWrites requestHeaderPlace d.headers ++
        (requestWrites queryPlace d.queryParameters ++ requestWrites pathPlace d.pathParameters))
      [] := by
    cases safeMode with
    | true => exact Performs.nothing
    | false =>
      exact (performs_addParameters _ _).seq
        ((performs_addParameters _ _).seq (performs_addParameters _ _))
  have := hmodels.seq hsafe
  rw [bind_assoc, List.append_nil] at this
  exact this

/-- **What documentation does to a method resource**: it writes into the properties and adds
dependencies. -/
theorem augment_iff {d : EndpointDocumentation} {safeMode : Bool} (ht : d.Texts)
    (hc : methodOutline.Clear r.properties) : augment d safeMode r = .ok () r' ↔
      ∃ v, Write.runAll (d.writes safeMode) r.properties = .ok v ∧
        r' = (r.setProperties v).addDependencies d.dependencies := by
  have hreplace : ∀ v, r.replaceAt [] v = r.setProperties v := fun v =>
    congrArg (setProperties · r) (Value.replace_nil hc.1)
  rw [(performs_augment ht safeMode).iff (.here _) hc]
  simp only [hreplace]

end Resource
end GatewayDocs

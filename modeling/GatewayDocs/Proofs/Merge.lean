import GatewayDocs.Proofs.Additions
import GatewayDocs.Proofs.Numeral
import GatewayDocs.Proofs.Shaped

/-! # Declared responses among those that are there

Each declared response goes into the first entry of its status code.  Codes without an entry get one
at the end, in the order in which they are first declared, so all declared responses find theirs in
one list that does not grow (`Response.slots`): a declared response writes one entry of it
(`Response.Merges.cons`), and all of them leave what `Response.Merges` says
(`Response.merges_of_runAll`).

An entry keeps its other keys and the parameters that it has, and gets the last model that is
declared for a content type (`Response.Merged`); entries whose codes are not declared stay, and so
do further entries of a code (`Response.MergedInto`).  Merging into a list of objects succeeds
whenever their codes have a text (`Resource.addResponses_merges`).  An object that two entries have
in common is changed in both (`Resource.addResponses_reaches_shared`). -/

namespace GatewayDocs
open CompileSettings (subsection)

namespace Write
variable {ws : List Write} {v u : Value} {c : String}

/-- Writes into a response leave its status code as it is. -/
theorem code_runAll (hk : ∀ w ∈ ws, w.keepsCode = true) (h : runAll ws v = .ok u)
    (hc : Response.code v = .ok c) : Response.code u = .ok c := by
  induction ws generalizing v with
  | nil => exact Except.ok.inj h ▸ hc
  | cons w ws ih =>
    obtain ⟨x, hx, hrest⟩ := runAll_cons_iff.mp h
    exact ih (fun w hw => hk w (List.mem_cons_of_mem _ hw)) hrest
      (code_run (hk w List.mem_cons_self) hx hc)

theorem under_map_field {key : String} {d : Value} (keys : List String) (hk : key ∈ keys) :
    ∀ w ∈ ws.map (field key d), w.Under keys := by
  intro w hw
  obtain ⟨inner, -, rfl⟩ := List.mem_map.mp hw
  exact ⟨key, hk, d, inner, rfl⟩

end Write

namespace Response
variable {m : MethodResponse} {ds ds' : List MethodResponse} {v w u z : Value} {c : String}
  {items items' B B' : List Value} {found : Option Value}

/-! ### One entry -/

/-- The keys of an entry that declared responses are written under. -/
def writtenKeys : List String := ["ResponseParameters", Resource.responseModelsKey]

/-- An entry into which declared responses, one after the other, were merged. -/
structure Merged (ds : List MethodResponse) (v w : Value) : Prop where
  others : Fields.others writtenKeys (w.fields?.getD []) =
    Fields.others writtenKeys (v.fields?.getD [])
  /-- Parameters keep their values, and a header that is new is true. -/
  parameters : Value.PartBecomes "ResponseParameters" (!(ds.flatMap (·.headers)).isEmpty)
    (fun name old => old.or (Parameter.value? Resource.responseHeaderPlace (fun _ => true)
      (ds.flatMap (·.headers)) name)) v w
  /-- The last model that is declared for a content type is there, and other ones stay. -/
  models : Value.PartBecomes Resource.responseModelsKey (!(ds.flatMap (·.models)).isEmpty)
    (fun contentType old =>
      (ModelRefs.last? (ds.flatMap (·.models)) contentType).or old) v w

namespace Merged

theorem nil (v : Value) : Merged [] v v :=
  ⟨rfl, (Value.PartBecomes.of_field?_eq rfl).congr fun _ _ => Option.or_none.symm,
    (Value.PartBecomes.of_field?_eq rfl).congr fun _ _ => rfl⟩

theorem append (h : Merged ds v w) (h' : Merged ds' w u) : Merged (ds ++ ds') v u where
  others := h'.others.trans h.others
  parameters := by
    rw [List.flatMap_append, not_isEmpty_append]
    refine (h.parameters.trans h'.parameters).congr fun name old => ?_
    rw [Option.or_assoc, Parameter.value?_append]
  models := by
    rw [List.flatMap_append, not_isEmpty_append]
    refine (h.models.trans h'.models).congr fun name old => ?_
    rw [← Option.or_assoc, ← ModelRefs.last?_append]

end Merged

/-- The writes of a declared response merge it into an entry. -/
theorem merged_of_entryWrites (ht : m.models.Texts)
    (h : Write.runAll m.entryWrites v = .ok u) : Merged [m] v u := by
  obtain ⟨x, hheaders, hmodels⟩ := Write.runAll_append_iff.mp h
  -- each of the two parts is left alone by the writes of the other one
  have hparameters : u.field? "ResponseParameters" = x.field? "ResponseParameters" :=
    Value.field?_of_others (by decide) (Write.others_runAll
      (Write.under_map_field [Resource.responseModelsKey] List.mem_cons_self) hmodels)
  have hgiven : x.field? Resource.responseModelsKey = v.field? Resource.responseModelsKey :=
    Value.field?_of_others (by decide) (Write.others_runAll
      (Write.under_map_field ["ResponseParameters"] List.mem_cons_self) hheaders)
  refine ⟨?_, ?_, ?_⟩
  · have hunder : ∀ w ∈ m.entryWrites, w.Under writtenKeys := by
      intro w hw
      rcases List.mem_append.mp hw with hw | hw
      · exact Write.under_map_field _ (by decide) w hw
      · exact Write.under_map_field _ (by decide) w hw
    exact Write.others_runAll hunder h
  · rw [List.flatMap_singleton]
    exact (Value.partBecomes_parameters hheaders).of_fields rfl hparameters
  · rw [List.flatMap_singleton]
    exact (Value.partBecomes_models ht hmodels).of_fields hgiven.symm rfl

/-! ### Entries for all codes -/

/-- The status codes that are declared and have no entry, in the order of their declaration. -/
def newCodes (ds : List MethodResponse) (items : List Value) : List String :=
  fresh (fun c => items.any (hasCode c)) (ds.map (·.statusCode))

/-- The entries that declared responses go into: those that are there, and an empty one for each
new code. -/
def slots (ds : List MethodResponse) (items : List Value) : List Value :=
  items ++ (newCodes ds items).map new

theorem any_put (hz : code z = .ok c) (d : String) :
    (put c z items).any (hasCode d) = (items.any (hasCode d) || c == d) := by
  rw [← List.isSome_find?, ← List.isSome_find?]
  by_cases hd : c = d
  · subst hd
    rw [put, Slot.find?_fill (hasCode_iff.mpr hz), beq_self_eq_true, Bool.or_true]
    rfl
  · rw [put, Slot.find?_fill_of_disjoint (hasCode_iff.mpr hz) (hasCode_disjoint hd),
      beq_false_of_ne hd, Bool.or_false]

/-- A code that has an entry makes no new one. -/
theorem newCodes_cons_of_some (h : items.find? (hasCode m.statusCode) = some v)
    (hz : code z = .ok m.statusCode) :
    newCodes (m :: ds) items = newCodes ds (put m.statusCode z items) := by
  have hknown : (put m.statusCode z items).any (hasCode m.statusCode) = true := by
    rw [any_put hz, beq_self_eq_true, Bool.or_true]
  have hsame : (fun c => items.any (hasCode c)) =
      fun c => (put m.statusCode z items).any (hasCode c) := by
    funext c
    rw [any_put hz]
    by_cases hc : m.statusCode = c
    · rw [← hc, ← List.isSome_find?, h]
      rfl
    · rw [beq_false_of_ne hc, Bool.or_false]
  unfold newCodes
  rw [List.map_cons, hsame]
  exact fresh_cons_of_known hknown

/-- A code without an entry comes first among the new ones. -/
theorem newCodes_cons_of_none (h : items.find? (hasCode m.statusCode) = none)
    (hz : code z = .ok m.statusCode) :
    newCodes (m :: ds) items = m.statusCode :: newCodes ds (put m.statusCode z items) := by
  have hnew : items.any (hasCode m.statusCode) = false := by
    rw [← List.isSome_find?, h]
    rfl
  unfold newCodes
  have hsame : (fun c => (put m.statusCode z items).any (hasCode c)) =
      fun c => items.any (hasCode c) || m.statusCode == c := funext fun c => any_put hz c
  rw [List.map_cons, hsame]
  exact fresh_cons_of_new hnew

/-- The first declared response finds its entry among those for all codes. -/
theorem find?_slots (h : items.find? (hasCode m.statusCode) = found) :
    (slots (m :: ds) items).find? (hasCode m.statusCode) =
      some (found.getD (new m.statusCode)) := by
  unfold slots
  rw [List.find?_append, h]
  cases found with
  | some v => rfl
  | none =>
    rw [newCodes_cons_of_none (z := new m.statusCode) h rfl, List.map_cons,
      List.find?_cons_of_pos (hasCode_iff.mpr rfl)]
    rfl

/-- Writing that entry leaves the entries that the other declared responses go into. -/
theorem slots_put (hz : code z = .ok m.statusCode) :
    slots ds (put m.statusCode z items) = put m.statusCode z (slots (m :: ds) items) := by
  unfold slots put
  cases h : items.find? (hasCode m.statusCode) with
  | some v =>
    rw [Slot.fill_append_of_find?_eq_some h, newCodes_cons_of_some h hz]
    rfl
  | none =>
    rw [Slot.fill_append_of_find?_eq_none h, newCodes_cons_of_none h hz, List.map_cons,
      Slot.fill_cons_of_pos (hasCode_iff.mpr rfl), Slot.fill_of_find?_eq_none h,
      List.append_assoc, put, Slot.fill_of_find?_eq_none h]
    rfl

/-- Where a code is found depends on the codes of the entries alone. -/
theorem findIdx?_of_codes (h : B'.map code = B.map code) (c : String) :
    B'.findIdx? (hasCode c) = B.findIdx? (hasCode c) := by
  induction B generalizing B' with
  | nil => rw [List.map_eq_nil_iff.mp h]
  | cons v B ih =>
    obtain ⟨w, ws, rfl, hw, hws⟩ := List.map_eq_cons_iff.mp h
    have hcode : hasCode c w = hasCode c v := by
      rw [Bool.eq_iff_iff, hasCode_iff, hasCode_iff, hw]
    rw [List.findIdx?_cons, List.findIdx?_cons, hcode, ih hws]

/-! ### All declared responses -/

/-- What declared responses make of the entries that they go into. -/
structure Merges (ds : List MethodResponse) (B B' : List Value) : Prop where
  codes : B'.map code = B.map code
  /-- The first entry of a code has all declared responses of the code. -/
  first : ∀ c i v, B.findIdx? (hasCode c) = some i → B[i]? = some v →
    ∃ w, B'[i]? = some w ∧ Merged (ds.filter fun m => m.statusCode = c) v w
  /-- No other entry is written. -/
  other : ∀ i, (∀ m ∈ ds, B.findIdx? (hasCode m.statusCode) ≠ some i) → B'[i]? = B[i]?

namespace Merges

theorem nil (B : List Value) : Merges [] B B :=
  ⟨rfl, fun _ _ v _ hv => ⟨v, hv, .nil v⟩, fun _ _ => rfl⟩

/-- One declared response writes the first entry of its code, and the others find the entries as
before. -/
theorem cons (hv : B.find? (hasCode m.statusCode) = some v) (hz : code z = .ok m.statusCode)
    (hmerged : Merged [m] v z) (h : Merges ds (put m.statusCode z B) B') :
    Merges (m :: ds) B B' := by
  obtain ⟨i, hi, hget⟩ := Slot.exists_findIdx? hv
  have hput : put m.statusCode z B = B.set i z := Slot.fill_eq_set hi
  have hlt : i < B.length := (List.getElem?_eq_some_iff.mp hget).1
  have hcodes : (put m.statusCode z B).map code = B.map code := by
    have hsame : code z = code v := hz.trans (hasCode_iff.mp (List.find?_some hv)).symm
    refine List.ext_getElem? fun j => ?_
    rw [hput, List.map_set, List.getElem?_set, List.length_map]
    by_cases hj : i = j
    · subst hj
      rw [if_pos rfl, if_pos hlt, List.getElem?_map, hget, hsame]
      rfl
    · rw [if_neg hj]
  have hfind : ∀ c, (put m.statusCode z B).findIdx? (hasCode c) = B.findIdx? (hasCode c) :=
    findIdx?_of_codes hcodes
  refine ⟨h.codes.trans hcodes, fun c j x hj hx => ?_, fun j hj => ?_⟩
  · by_cases hc : m.statusCode = c
    · subst hc
      obtain rfl : i = j := Option.some.inj (hi.symm.trans hj)
      obtain rfl : v = x := Option.some.inj (hget.symm.trans hx)
      have hwritten : (put m.statusCode z B)[i]? = some z := by
        rw [hput, List.getElem?_set_self hlt]
      obtain ⟨w, hw, hrest⟩ := h.first _ i z ((hfind _).trans hj) hwritten
      refine ⟨w, hw, ?_⟩
      rw [List.filter_cons_of_pos (by simp)]
      exact hmerged.append hrest
    · have hne : i ≠ j := by
        rintro rfl
        obtain rfl : v = x := Option.some.inj (hget.symm.trans hx)
        obtain ⟨hlt', hc', -⟩ := List.findIdx?_eq_some_iff_getElem.mp hj
        rw [(List.getElem?_eq_some_iff.mp hget).2] at hc'
        rw [hasCode_disjoint hc v (List.find?_some hv)] at hc'
        cases hc'
      rw [List.filter_cons_of_neg (by simpa using hc)]
      refine h.first c j x ((hfind c).trans hj) ?_
      rw [hput, List.getElem?_set_ne hne]
      exact hx
  · have hne : i ≠ j := fun hij => hj m List.mem_cons_self (hij ▸ hi)
    rw [h.other j fun m' hm' => (hfind _).symm ▸ hj m' (List.mem_cons_of_mem _ hm'), hput,
      List.getElem?_set_ne hne]

end Merges

/-- Writing declared responses into a list of responses merges them. -/
theorem merges_of_runAll {fs : Fields} (ht : ∀ m ∈ ds, m.models.Texts)
    (hl : Pairs.lookup (.str Resource.responsesKey) fs = some (.list items))
    (h : Write.runAll (ds.flatMap MethodResponse.writes) (.object fs) = .ok u) :
    ∃ items', u = .object (Pairs.put (.str Resource.responsesKey) (.list items') fs) ∧
      Merges ds (slots ds items) items' := by
  induction ds generalizing fs items with
  | nil =>
    refine ⟨items, ?_, ?_⟩
    · rw [Pairs.put_of_lookup hl]
      exact (Except.ok.inj h).symm
    · have hslots : slots [] items = items := List.append_nil items
      rw [hslots]
      exact .nil items
  | cons m ds ih =>
    rw [List.flatMap_cons] at h
    obtain ⟨x, hx, hrest⟩ := Write.runAll_append_iff.mp h
    obtain ⟨_, _, found, z, he, hl', hfound, hz, rfl⟩ := Resource.runAll_writes_iff.mp hx
    cases he
    obtain rfl : items = _ := Value.list.inj (Option.some.inj (hl.symm.trans hl'))
    have hstart : code (found.getD (new m.statusCode)) = .ok m.statusCode := by
      cases found with
      | none => rfl
      | some v => exact code_of_found? hfound
    have hcode : code z = .ok m.statusCode :=
      Write.code_runAll (fun w hw => Resource.keepsCode_of_mem_entryWrites m w
        (List.mem_cons_of_mem _ hw)) hz hstart
    obtain ⟨items', rfl, hmerges⟩ :=
      ih (fun m hm => ht m (List.mem_cons_of_mem _ hm)) Pairs.lookup_put_self hrest
    refine ⟨items', by rw [Pairs.put_put_self], ?_⟩
    rw [slots_put hcode] at hmerges
    exact .cons (find?_slots (find?_of_found? hfound)) hcode
      (merged_of_entryWrites (ht m List.mem_cons_self) hz) hmerges

/-! ### The responses of a method -/

/-- What declared responses make of the responses of a method. -/
structure MergedInto (ds : List MethodResponse) (items items' : List Value) : Prop where
  /-- The entries keep their places, and those of the new codes follow. -/
  codes : items'.map code = items.map code ++ (newCodes ds items).map .ok
  /-- Codes that are distinct stay so. -/
  distinct : (items.map code).Nodup → (items'.map code).Nodup
  undeclared : ∀ (i : Nat) v, items[i]? = some v → (∀ m ∈ ds, hasCode m.statusCode v = false) →
    items'[i]? = some v
  /-- Further entries of a code are left alone. -/
  later : ∀ (i j : Nat) v w, j < i → items[j]? = some w → items[i]? = some v → code v = code w →
    items'[i]? = some v
  /-- The first entry of a declared code, or else the new one, has all that is declared for it. -/
  first : ∀ m ∈ ds, ∃ (i : Nat) (v w : Value),
    (slots ds items).findIdx? (hasCode m.statusCode) = some i ∧
    (slots ds items)[i]? = some v ∧ items'[i]? = some w ∧
    Merged (ds.filter fun m' => m'.statusCode = m.statusCode) v w

theorem codes_slots :
    (slots ds items).map code = items.map code ++ (newCodes ds items).map .ok := by
  unfold slots
  rw [List.map_append, List.map_map]
  rfl

theorem nodup_codes_slots (h : (items.map code).Nodup) : ((slots ds items).map code).Nodup := by
  rw [codes_slots, List.nodup_append]
  refine ⟨h, nodup_fresh.map fun c d hcd => Except.ok.inj hcd, ?_⟩
  rintro _ hv _ hd rfl
  obtain ⟨c, hc, rfl⟩ := List.mem_map.mp hd
  obtain ⟨v, hmem, hcode⟩ := List.mem_map.mp hv
  -- a new code has no entry
  have hnone := (mem_fresh.mp hc).2
  rw [List.any_eq_false] at hnone
  exact hnone v hmem (hasCode_iff.mpr hcode)

/-- Every declared code has an entry to go into. -/
theorem exists_slot (hm : m ∈ ds) :
    ∃ v, (slots ds items).find? (hasCode m.statusCode) = some v := by
  refine Option.isSome_iff_exists.mp ?_
  unfold slots
  rw [List.isSome_find?, List.any_append, Bool.or_eq_true]
  by_cases hknown : items.any (hasCode m.statusCode) = true
  · exact .inl hknown
  · have hnew : m.statusCode ∈ newCodes ds items :=
      mem_fresh.mpr ⟨List.mem_map_of_mem hm, Bool.eq_false_iff.mpr hknown⟩
    exact .inr (List.any_eq_true.mpr ⟨_, List.mem_map_of_mem hnew, hasCode_iff.mpr rfl⟩)

theorem getElem?_slots {i : Nat} (h : items[i]? = some v) : (slots ds items)[i]? = some v := by
  unfold slots
  rw [List.getElem?_append_left (List.getElem?_eq_some_iff.mp h).1]
  exact h

/-- What is at the first place of a code has the code, and nothing before it has. -/
theorem code_of_findIdx? {i : Nat} (h : B.findIdx? (hasCode c) = some i) (hv : B[i]? = some v) :
    code v = .ok c ∧ ∀ j w, j < i → B[j]? = some w → code w ≠ .ok c := by
  obtain ⟨hlt, hc, hbefore⟩ := List.findIdx?_eq_some_iff_getElem.mp h
  rw [(List.getElem?_eq_some_iff.mp hv).2] at hc
  refine ⟨hasCode_iff.mp hc, fun j w hj hw hcode => ?_⟩
  obtain ⟨hlt', rfl⟩ := List.getElem?_eq_some_iff.mp hw
  exact hbefore j hj (hasCode_iff.mpr hcode)

theorem Merges.mergedInto (h : Merges ds (slots ds items) items') :
    MergedInto ds items items' where
  codes := h.codes.trans codes_slots
  distinct hnodup := by
    rw [h.codes]
    exact nodup_codes_slots hnodup
  undeclared i v hv hnone := by
    have hslot : (slots ds items)[i]? = some v := getElem?_slots hv
    rw [h.other i, hslot]
    intro m hm hi
    have hcode := (code_of_findIdx? hi hslot).1
    have hnot := hnone m hm
    rw [hasCode_iff.mpr hcode] at hnot
    cases hnot
  later i j v w hj hw hv hsame := by
    have hslot : (slots ds items)[i]? = some v := getElem?_slots hv
    rw [h.other i, hslot]
    intro m hm hi
    obtain ⟨hcode, hbefore⟩ := code_of_findIdx? hi hslot
    exact hbefore j w hj (getElem?_slots hw) (hsame.symm.trans hcode)
  first m hm := by
    obtain ⟨v, hv⟩ := (exists_slot hm : ∃ v, (slots ds items).find? (hasCode m.statusCode) = some v)
    obtain ⟨i, hi, hget⟩ := Slot.exists_findIdx? hv
    obtain ⟨w, hw, hmerged⟩ := h.first _ i v hi hget
    exact ⟨i, v, w, hi, hget, hw, hmerged⟩

/-- The writes of declared responses merge them into the responses of a method. -/
theorem mergedInto_of_responseWrites {d : EndpointDocumentation}
    (ht : ∀ m ∈ d.responses, m.models.Texts)
    (hl : (v.field? Resource.responsesKey).getD (.list []) = .list items)
    (h : Write.runAll d.responseWrites v = .ok u) :
    ∃ items', (u.field? Resource.responsesKey).getD (.list []) = .list items' ∧
      MergedInto d.responses items items' := by
  unfold EndpointDocumentation.responseWrites at h
  by_cases hne : d.responses = []
  · rw [hne] at h ⊢
    obtain rfl : v = u := Except.ok.inj h
    have hslots : slots [] items = items := List.append_nil items
    exact ⟨items, hl, Merges.mergedInto (hslots.symm ▸ .nil items)⟩
  · rw [if_neg (by simpa using hne)] at h
    obtain ⟨x, hx, hrest⟩ := Write.runAll_cons_iff.mp h
    -- the first write only makes the list
    obtain ⟨fs, l, rfl, hkeep, rfl⟩ := Write.run_field_iff.mp hx
    obtain rfl : Value.list items = l := hl.symm.trans (Except.ok.inj hkeep)
    obtain ⟨items', rfl, hmerges⟩ := merges_of_runAll ht Pairs.lookup_put_self hrest
    refine ⟨items', ?_, hmerges.mergedInto⟩
    show (Pairs.lookup _ _).getD _ = _
    rw [Pairs.lookup_put_self]
    rfl

end Response

namespace Resource
variable {r : Resource} {fs : Fields} {items : List Value} {d : EndpointDocumentation}

/-- Where the responses of a method are. -/
def responseParts : String → Outline := fun k =>
  if k = responsesKey then .responses (.object entryParts) else .leaf

/-- **Declared responses are merged into those of a method**, if these are a list of objects or
absent.  The only thing that can fail is the telling of a status code, when it is an integer with
too many digits for a text. -/
theorem addResponses_merges (hfs : r.properties = .object fs)
    (hc : methodOutline.Clear r.properties)
    (hl : (r.properties.field? responsesKey).getD (.list []) = .list items)
    (hshaped : ∀ v ∈ items, ShapedResponse v)
    (ht : ∀ m ∈ d.responses, m.models.Texts) :
    (∀ r', addResponses d r = .ok () r' →
      ∃ items', (r'.properties.field? responsesKey).getD (.list []) = .list items' ∧
        Response.MergedInto d.responses items items') ∧
      ((∀ v ∈ items, ∃ c, Response.code v = .ok c) → ∃ r', addResponses d r = .ok () r') := by
  have hperforms : ∀ r', addResponses d r = .ok () r' ↔ _ := fun r' =>
    (performs_addResponses ht).iff (.here _) hc
  constructor
  · intro r' hok
    obtain ⟨u, hu, rfl⟩ := (hperforms r').mp hok
    rw [properties_addDependencies, replaceAt, Value.replace_nil hc.1]
    exact Response.mergedInto_of_responseWrites ht hl hu
  · intro hcodes
    have hstart : (Outline.object responseParts).Shaped r.properties := by
      refine ⟨fs, hfs, fun k x hx => ?_⟩
      unfold responseParts
      by_cases hk : k = responsesKey
      · subst hk
        have hlist : x = .list items := by
          have hfield : r.properties.field? responsesKey = some x := hfs ▸ hx
          rw [hfield] at hl
          exact hl
        rw [if_pos rfl]
        exact ⟨items, hlist, fun v hv => ⟨hcodes v hv, (hshaped v hv).shaped⟩⟩
      · rw [if_neg hk]
        trivial
    obtain ⟨u, hu, -⟩ :=
      EndpointDocumentation.keepShape_responseWrites (if_pos rfl) d r.properties hstart
    exact ⟨_, (hperforms _).mpr ⟨u, hu, rfl⟩⟩

/-- Three responses of a method, of which the first and the last have one code, once as a number
and once as a text. -/
def shopResponses : List Value :=
  [.ofPairs [("StatusCode", .int 200), ("Note", .str "paged"),
      ("ResponseParameters", .ofPairs [("method.response.header.Trace", .bool false)]),
      (responseModelsKey, .ofPairs [("application/json", .str "Old"), ("text/csv", .str "Table")])],
    .ofPairs [("StatusCode", .str "404")],
    .ofPairs [("StatusCode", .str "200")]]

/-- The properties of that method. -/
def shopProperties : Fields :=
  [(.str "HttpMethod", .str "GET"), (.str responsesKey, .list shopResponses)]

/-- The resource of that method, which depends on a model already. -/
def shopMethod : Resource :=
  ⟨.str "AWS::ApiGateway::Method", .object shopProperties, [.str "ProblemModel"], []⟩

/-- A documentation that declares two responses twice, one of them with a code that is new; its
parameters have a name twice. -/
def shopDocs : EndpointDocumentation where
  summary := none
  description := none
  tags := []
  body := none
  headers := [⟨"Trace", none, none⟩]
  pathParameters := [⟨"shop", none, some true⟩, ⟨"shop", none, some false⟩]
  queryParameters := []
  models := [(.str "application/json", .direct "Order"),
    (.str "text/csv", .imported (.str "csv-7"))]
  responses := [
    ⟨"200", none, none, [⟨"Trace", none, none⟩, ⟨"Limit", none, none⟩],
      [(.str "application/json", .direct "Pet")]⟩,
    ⟨"500", none, none, [], [(.str "application/json", .direct "Problem")]⟩,
    ⟨"200", none, none, [], [(.str "application/json", .imported (.str "pets-3"))]⟩,
    ⟨"500", none, none, [⟨"Retry", none, none⟩], []⟩]
  extra := []

theorem texts_shopDocs : shopDocs.Texts := by
  refine ⟨fun kr hkr => ?_, fun m hm kr hkr => ?_⟩
  · simp only [shopDocs, List.mem_cons, List.not_mem_nil, or_false] at hkr
    rcases hkr with rfl | rfl <;> exact ⟨_, rfl⟩
  · simp only [shopDocs, List.mem_cons, List.not_mem_nil, or_false] at hm
    rcases hm with rfl | rfl | rfl | rfl <;>
      simp only [List.mem_cons, List.not_mem_nil, or_false] at hkr <;>
      cases hkr <;> exact ⟨_, rfl⟩

theorem shaped_shopResponses : ∀ v ∈ shopResponses, ShapedResponse v := by
  intro v hv
  simp only [shopResponses, List.mem_cons, List.not_mem_nil, or_false] at hv
  rcases hv with rfl | rfl | rfl
  all_goals
    refine ⟨⟨_, rfl⟩, fun x hx => ?_, fun x hx => ?_⟩
    all_goals
      cases hx
      try exact ⟨_, rfl⟩

/-- One entry comes after the three, for the code that is new, and the first one takes what is
declared for its code. -/
theorem addResponses_merges_shop : shopMethod.properties = .object shopProperties ∧
    methodOutline.Clear shopMethod.properties ∧
    (∀ v ∈ shopResponses, ∃ c, Response.code v = .ok c) ∧
    ∃ r' items', addResponses shopDocs shopMethod = .ok () r' ∧
      (r'.properties.field? responsesKey).getD (.list []) = .list items' ∧
      Response.MergedInto shopDocs.responses shopResponses items' ∧
      items'.map Response.code = shopResponses.map Response.code ++ [.ok "500"] := by
  have hc : methodOutline.Clear shopMethod.properties := Value.clear_of_isPlain rfl
  have hcodes : ∀ v ∈ shopResponses, ∃ c, Response.code v = .ok c := by
    intro v hv
    have hj : (Value.list shopResponses).isJson = true := by decide +kernel
    exact (shaped_shopResponses v hv).exists_code (Value.isJson_list.mp hj v hv)
  have hfs : shopMethod.properties = .object shopProperties := rfl
  obtain ⟨hmerges, hsucceeds⟩ :=
    addResponses_merges hfs hc rfl shaped_shopResponses texts_shopDocs.2
  obtain ⟨r', hok⟩ := hsucceeds hcodes
  obtain ⟨items', hitems', hmerged⟩ := hmerges r' hok
  have hnew : Response.newCodes shopDocs.responses shopResponses = ["500"] := by decide +kernel
  refine ⟨hfs, hc, hcodes, r', items', hok, hitems', hmerged, ?_⟩
  rw [hmerged.codes, hnew]
  rfl

/-- Two responses whose headers are one object. -/
def corsResponses : List Value :=
  let cors : Value := .shared 0 (.ofPairs [("method.response.header.Origin", .bool true)])
  [.ofPairs [("StatusCode", .str "200"), ("ResponseParameters", cors)],
    .ofPairs [("StatusCode", .str "404"), ("ResponseParameters", cors)]]

/-- A method with some responses. -/
def methodWith (responses : List Value) : Resource where
  kind := .str "AWS::ApiGateway::Method"
  properties := .ofPairs [(responsesKey, .list responses)]
  dependsOn := []
  extra := []

/-- A method with one response, whose status code is a number. -/
def numbered (n : Int) : Resource := methodWith [.ofPairs [("StatusCode", .int n)]]

/-- A documentation that declares a header of one response. -/
def traceDocs : EndpointDocumentation :=
  { EndpointDocumentation.empty with
    responses := [⟨"200", none, none, [⟨"Trace", none, none⟩], []⟩] }

/-- A status code without a text makes the merging fail. -/
theorem addResponses_of_long {n : Int} (hn : (Value.int n).text = .error .longInteger) :
    addResponses traceDocs (numbered n) = .error .longInteger (numbered n) := by
  have hfind : findResponse "200" [.ofPairs [("StatusCode", .int n)]] = .error .longInteger := by
    have hfield : (Value.ofPairs [("StatusCode", .int n)]).field "StatusCode" = .ok (.int n) := rfl
    rw [findResponse, hfield, Result.ok_bind, hn]
    rfl
  have hentry : responseEntry "200" (numbered n) = .error .longInteger (numbered n) := by
    show (Edit.ofResult (findResponse "200" _) >>= _) _ = _
    rw [hfind]
    rfl
  have hresponse : addResponse ⟨"200", none, none, [⟨"Trace", none, none⟩], []⟩ (numbered n) =
      .error .longInteger (numbered n) := Edit.bind_of_error (x := responseEntry "200") hentry
  have hstart : editAt [] (modify fun fields => fields.putNew responsesKey (.list []))
      (numbered n) = .ok () (numbered n) := rfl
  exact (Edit.bind_of_ok hstart).trans (Edit.bind_of_error hresponse)

/-- The header that is declared for one response comes to stand in the other one too, for which
nothing is declared; and a status code without a text makes the merging fail. -/
theorem addResponses_reaches_shared :
    (∃ r' x y, addResponses traceDocs (methodWith corsResponses) = .ok () r' ∧
      r'.properties.field? responsesKey = some (.list [x, y]) ∧ Response.code y = .ok "404" ∧
      (∀ m ∈ traceDocs.responses, m.statusCode ≠ "404") ∧
      Fields.get? "method.response.header.Trace" (subsection ["ResponseParameters"] y) =
        some (.bool true) ∧ corsResponses[1]? ≠ some y) ∧
      ∃ n : Int, ∀ r', addResponses traceDocs (numbered n) ≠ .ok () r' := by
  refine ⟨⟨_, _, _, rfl, rfl, rfl, List.forall_mem_singleton.mpr (by decide), rfl, fun h => ?_⟩,
    (10 ^ Decimal.digitLimit : Nat), fun r' hok => ?_⟩
  · have hheaders :=
      congrArg (Option.map fun v => Pairs.keys (subsection ["ResponseParameters"] v)) h
    cases hheaders
  · rw [addResponses_of_long (Value.text_pow (Nat.le_refl _))] at hok
    cases hok

end Resource
end GatewayDocs

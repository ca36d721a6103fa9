import GatewayDocs.Proofs.Augment
import GatewayDocs.Proofs.Chaining
import GatewayDocs.Proofs.Plain
import GatewayDocs.Template.ModelResource

/-! # Resources that are written and read again

A resource that is written into a template and read again is the same if its properties are not
blank and its dependencies and further entries are listed once (`Resource.Normal`).  Resources that
are read from a plain template are so, resources of models are, and documenting or chaining keeps
them so.  A whole section of such resources is read as it was written (`ofSection_toSection`). -/

namespace GatewayDocs

namespace Resource
variable {r r' : Resource} {names : List String} {n : String}

/-- A resource that says nothing twice and nothing that is left out. -/
structure Normal (r : Resource) : Prop where
  properties : r.properties.truthy = true ∨ r.properties = .object []
  dependsOn : r.dependsOn.Pairwise fun a b => a.same b = false
  extra : Pairs.Keyed r.extra
  kept : ∀ kv ∈ r.extra, isKept kv.1 = true

theorem isKept_text {s : String} : isKept (.str s) = true ↔
    s ≠ "Type" ∧ s ≠ "Properties" ∧ s ≠ "DependsOn" := by
  simp [isKept, reserved]

/-! ### Dependencies without repetitions -/

theorem pairwise_insertNew {xs : List Value} {x : Value}
    (h : xs.Pairwise fun a b => a.same b = false) :
    (insertNew xs x).Pairwise fun a b => a.same b = false := by
  unfold insertNew
  split
  · exact h
  · rename_i hx
    rw [List.pairwise_append]
    refine ⟨h, List.pairwise_singleton _ _, fun a ha b hb => ?_⟩
    rw [List.mem_singleton.mp hb]
    exact Bool.eq_false_iff.mpr fun hs => hx (List.any_eq_true.mpr ⟨a, ha, hs⟩)

theorem pairwise_foldl_insertNew {xs ys : List Value}
    (h : xs.Pairwise fun a b => a.same b = false) :
    (ys.foldl insertNew xs).Pairwise fun a b => a.same b = false := by
  induction ys generalizing xs with
  | nil => exact h
  | cons y ys ih => exact ih (pairwise_insertNew h)

/-- Values that differ from each other are all inserted. -/
theorem foldl_insertNew_of_pairwise {xs ys : List Value}
    (h : (xs ++ ys).Pairwise fun a b => a.same b = false) : ys.foldl insertNew xs = xs ++ ys := by
  induction ys generalizing xs with
  | nil => exact (List.append_nil xs).symm
  | cons y ys ih =>
    have hy : (xs.any fun x => x.same y) = false := by
      rw [List.any_eq_false]
      intro x hx
      rw [(List.pairwise_append.mp h).2.2 x hx y List.mem_cons_self]
      exact Bool.false_ne_true
    have hstep : insertNew xs y = xs ++ [y] := by
      unfold insertNew
      rw [hy]
      rfl
    rw [List.foldl_cons, hstep, ih (by rw [List.append_assoc]; exact h), List.append_assoc]
    rfl

/-! ### Reading what is written -/

theorem toFields_eq (h : r.Normal) : r.toFields =
    [(.str "Type", r.kind), (.str "Properties", r.properties)] ++
      (if r.dependsOn.isEmpty then [] else [(.str "DependsOn", .list r.dependsOn)]) ++ r.extra := by
  unfold toFields
  refine Pairs.putAll_eq_append h.extra fun s hs hown => ?_
  obtain ⟨kv, hkv, hkey⟩ := List.mem_map.mp hs
  have hkept := h.kept kv hkv
  rw [hkey] at hkept
  -- further entries have other keys than the three that are written before
  obtain ⟨h1, h2, h3⟩ := isKept_text.mp hkept
  cases hd : r.dependsOn.isEmpty <;> simp [hd, h1, h2, h3] at hown

/-- What a resource depends on is read as it was written, if its further entries are none of its own
three. -/
theorem listed_toFields (h : ∀ k ∈ Pairs.keys r.extra, isKept k = true) :
    listedDependencies (r.toFields.get "DependsOn") = .ok r.dependsOn := by
  have hnot : .str "DependsOn" ∉ Pairs.keys r.extra := fun hmem => nomatch h _ hmem
  unfold toFields Fields.get Fields.get?
  rw [Pairs.lookup_putAll_of_not_mem hnot]
  cases r.dependsOn <;> rfl

/-- **A normal resource is read as it was written.** -/
theorem ofEntry_toEntry (h : r.Normal) : ofEntry r.toEntry = .ok r := by
  have hfields := toFields_eq h
  have hproperties : Fields.get "Properties" r.toFields = r.properties := by
    rw [hfields]
    rfl
  have hkind : (Fields.get? "Type" r.toFields).getD (.str "") = r.kind := by
    rw [hfields]
    rfl
  have hextra : r.toFields.filter (fun kv => isKept kv.1) = r.extra := by
    rw [hfields, List.filter_append, List.filter_append, List.filter_eq_self.mpr h.kept]
    cases r.dependsOn.isEmpty <;> rfl
  -- blank properties are read as an empty object, which they are already
  have hsome : (if r.properties.truthy then r.properties else .object []) = r.properties := by
    rcases h.properties with ht | he
    · rw [if_pos ht]
    · rw [he]
      rfl
  have hdepends : r.dependsOn.foldl insertNew [] = r.dependsOn :=
    foldl_insertNew_of_pairwise h.dependsOn
  unfold ofEntry
  rw [show r.toEntry.asObject = .ok r.toFields from rfl, Result.ok_bind,
    listed_toFields (List.forall_mem_map.mpr h.kept), Result.ok_bind, hkind, hproperties, hsome,
    hdepends, hextra]
  rfl

/-! ### Resources that are read -/

/-- A resource that is read from an entry with distinct texts for keys is normal. -/
theorem normal_of_keyed {fields : Fields} (hk : Pairs.Keyed fields)
    (h : ofEntry (.object fields) = .ok r) : r.Normal := by
  obtain ⟨_, hfields, h₁⟩ := Result.bind_eq_ok.mp h
  cases hfields
  obtain ⟨listed, -, h₂⟩ := Result.bind_eq_ok.mp h₁
  obtain rfl := Except.ok.inj h₂
  refine ⟨?_, pairwise_foldl_insertNew .nil, ⟨fun k hkey => ?_, ?_⟩,
    fun kv hkv => (List.mem_filter.mp hkv).2⟩
  · by_cases ht : (Fields.get "Properties" fields).truthy = true
    · exact .inl (by simpa only [if_pos ht] using ht)
    · exact .inr (if_neg ht)
  · exact hk.text k ((List.filter_sublist.map _).subset hkey)
  · exact hk.nodup.sublist (List.filter_sublist.map _)

theorem ofEntry_of_fields? {entry : Value} {fields : Fields} (h : entry.fields? = some fields) :
    ofEntry entry = ofEntry (.object fields) := by
  unfold ofEntry
  rw [Value.asObject_eq_ok_iff.mpr h]
  rfl

theorem normal_of_ofEntry {entry : Value} (hk : Pairs.Keyed (entry.fields?.getD []))
    (h : ofEntry entry = .ok r) : r.Normal := by
  obtain ⟨fields, hobject, -⟩ := Result.bind_eq_ok.mp h
  have hfields := Value.asObject_eq_ok_iff.mp hobject
  rw [hfields, Option.getD_some] at hk
  exact normal_of_keyed hk ((ofEntry_of_fields? hfields).symm.trans h)

/-- The properties that are read from a plain entry are plain. -/
theorem isPlain_of_ofEntry {entry : Value} (hp : entry.isPlain = true) (h : ofEntry entry = .ok r) :
    r.properties.isPlain = true := by
  obtain ⟨fields, hfields, h₁⟩ := Result.bind_eq_ok.mp h
  obtain ⟨listed, -, h₂⟩ := Result.bind_eq_ok.mp h₁
  obtain rfl := (Value.asObject_iff (Value.isOpen_of_isPlain hp)).mp hfields
  obtain rfl := Except.ok.inj h₂
  show (if _ then _ else _ : Value).isPlain = true
  split
  · exact Value.isPlain_get hp
  · rfl

/-! ### What keeps a resource normal -/

theorem Normal.addDependencies (h : r.Normal) : (r.addDependencies names).Normal := by
  induction names generalizing r with
  | nil => exact h
  | cons n names ih => exact ih ⟨h.properties, pairwise_insertNew h.dependsOn, h.extra, h.kept⟩

theorem truthy_run {parts : String → Outline} {w : Write} {u v : Value}
    (hf : Write.Fits (.object parts) w) (h : w.run v = .ok u) : u = v ∨ u.truthy = true := by
  cases w with
  | keep => exact .inl (Except.ok.inj h).symm
  | put _ => cases hf
  | response _ _ => cases hf
  | field k d w =>
    obtain ⟨fs, x, rfl, -, rfl⟩ := Write.run_field_iff.mp h
    right
    cases fs with
    | nil => rfl
    | cons kv fs =>
      show (!(Pairs.put (.str k) x (kv :: fs)).isEmpty) = true
      rw [Pairs.put]
      split <;> rfl

theorem truthy_runAll {parts : String → Outline} {ws : List Write} {u v : Value}
    (hf : ∀ w ∈ ws, Write.Fits (.object parts) w) (h : Write.runAll ws v = .ok u) :
    u = v ∨ u.truthy = true := by
  induction ws generalizing v with
  | nil => exact .inl (Except.ok.inj h).symm
  | cons w ws ih =>
    obtain ⟨x, hx, hrest⟩ := Write.runAll_cons_iff.mp h
    rcases ih (fun w hw => hf w (List.mem_cons_of_mem _ hw)) hrest with rfl | ht
    · exact truthy_run (hf w List.mem_cons_self) hx
    · exact .inr ht

theorem Normal.documentAll {docs : List EndpointDocumentation} {safeMode : Bool} (hn : r.Normal)
    (ht : ∀ d ∈ docs, d.Texts) (hc : docs ≠ [] → methodOutline.Clear r.properties)
    (h : documentAll safeMode docs r = .ok r') : r'.Normal := by
  obtain ⟨v, hv, rfl⟩ := (documentAll_iff ht hc).mp h
  refine Normal.addDependencies ⟨?_, hn.dependsOn, hn.extra, hn.kept⟩
  rcases truthy_runAll (fits_flatMap_writes ht) hv with rfl | ht
  · exact hn.properties
  · exact .inl ht

/-! ### Resources of models -/

theorem keys_resolveLabelledFields (restApi : Value) (labels : List Nat) (fs : Fields) :
    Pairs.keys (Value.resolveLabelledFields restApi labels fs) = Pairs.keys fs := by
  induction fs with
  | nil => rw [Value.resolveLabelledFields]
  | cons kv fs ih =>
    obtain ⟨k, v⟩ := kv
    rw [Value.resolveLabelledFields, Pairs.keys_cons, Pairs.keys_cons, ih]

theorem lookup_resolveLabelledFields (restApi : Value) (labels : List Nat) {fs : Fields}
    {s t : String} (h : Fields.get? s fs = some (.str t)) :
    Fields.get? s (Value.resolveLabelledFields restApi labels fs) = some (.str t) := by
  unfold Fields.get? at h ⊢
  induction fs with
  | nil => cases h
  | cons kv fs ih =>
    obtain ⟨k, v⟩ := kv
    rw [Value.resolveLabelledFields]
    by_cases hk : k = .str s
    · subst hk
      rw [Pairs.lookup_cons_self] at h ⊢
      rw [Option.some.inj h, Value.resolveLabelled]
    · rw [Pairs.lookup_cons_of_ne hk] at h ⊢
      exact ih h

/-- A change of what has labels leaves the keys of an object and the texts in it. -/
theorem ofProperties_resolveLabelled (kind : String) {fs : Fields} (restApi : Value)
    (labels : List Nat) (hs : .str schemaKey ∈ Pairs.keys fs) :
    ∃ gs, Pairs.keys gs = Pairs.keys fs ∧
      (∀ s t, s ≠ schemaKey → Fields.get? s fs = some (.str t) →
        Fields.get? s gs = some (.str t)) ∧
      (ofProperties kind fs).resolveLabelled restApi labels = ofProperties kind gs := by
  unfold resolveLabelled
  split
  · exact ⟨fs, rfl, fun _ _ _ h => h, rfl⟩
  · have hkeys := keys_resolveLabelledFields restApi labels fs
    cases hschema : (ofProperties kind fs).properties.field? schemaKey with
    | none =>
      refine ⟨Value.resolveLabelledFields restApi labels fs, hkeys,
        fun _ _ _ h => lookup_resolveLabelledFields restApi labels h, ?_⟩
      simp only [mapValues, ofProperties, Value.resolveLabelled, Value.inside]
      rfl
    | some schema =>
      refine ⟨Pairs.put (.str schemaKey) schema (Value.resolveLabelledFields restApi labels fs),
        (Pairs.keys_put_of_mem (hkeys ▸ hs)).trans hkeys,
        fun _ _ hne h => (Pairs.lookup_put_of_ne hne.symm).trans
          (lookup_resolveLabelledFields restApi labels h), ?_⟩
      simp only [mapValues, ofProperties, Value.resolveLabelled, Value.inside]
      rfl

/-- A resource with an object for its properties keeps their keys and its name when the references
of its schema are resolved, and depends on the models that the schema names, itself excepted. -/
theorem resolved_eq (kind : String) (restApi schema : Value) {name : String} {fs : Fields}
    (hs : .str schemaKey ∈ Pairs.keys fs) (hname : Fields.get? "Name" fs = some (.str name)) :
    ∃ gs, Pairs.keys gs = Pairs.keys fs ∧ Fields.get? "Name" gs = some (.str name) ∧
      Fields.get? schemaKey gs = some (Value.resolveRefs restApi schema) ∧
      (ofProperties kind fs).resolved restApi schema = (ofProperties kind gs).addDependencies
        ((schema.namedModels.filter (· ≠ name)).map modelResourceName) := by
  obtain ⟨gs, hgs, htexts, hlabelled⟩ :=
    ofProperties_resolveLabelled kind restApi schema.labelsMet hs
  refine ⟨Pairs.put (.str schemaKey) (Value.resolveRefs restApi schema) gs,
    (Pairs.keys_put_of_mem (hgs ▸ hs)).trans hgs,
    (Pairs.lookup_put_of_ne (by decide)).trans (htexts _ _ (by decide) hname),
    Pairs.lookup_put_self, ?_⟩
  have hown : (ofProperties kind fs).properties.field? "Name" = some (.str name) := hname
  have hothers : (schema.namedModels.filter fun model => !(Value.str name).isStr model) =
      schema.namedModels.filter (· ≠ name) := by
    refine List.filter_congr fun model _ => ?_
    simp [Value.isStr, eq_comm]
  unfold resolved
  rw [hlabelled, hown]
  simp only [Option.getD_some, hothers]
  rfl

/-- The schema of a model, which is empty if there is none. -/
def ownSchema (m : ModelDescriptor) : Value :=
  match m.schema with
  | .null => .object []
  | v => v

/-- The keys of the properties of a model. -/
def modelKeys : List String := ["RestApiId", "ContentType", "Name", schemaKey, "Description"]

theorem properties_eq (m : ModelDescriptor) (restApi : Value) :
    ∃ tail : Fields, (tail = [] ∨ ∃ d, tail = [(.str "Description", .str d)]) ∧
      m.properties restApi = [(.str "RestApiId", restApi), (.str "ContentType", .str m.contentType),
        (.str "Name", .str m.name), (.str schemaKey, ownSchema m)] ++ tail := by
  cases hd : m.description with
  | none => exact ⟨[], .inl rfl, by unfold ModelDescriptor.properties; rw [hd]; rfl⟩
  | some d =>
    by_cases he : d = ""
    · refine ⟨[], .inl rfl, ?_⟩
      unfold ModelDescriptor.properties
      rw [hd]
      exact if_pos he
    · refine ⟨[(.str "Description", .str d)], .inr ⟨d, rfl⟩, ?_⟩
      unfold ModelDescriptor.properties
      rw [hd]
      exact if_neg he

theorem properties_of_model (m : ModelDescriptor) (restApi : Value) :
    Fields.get? "Name" (m.properties restApi) = some (.str m.name) ∧
      Fields.get? schemaKey (m.properties restApi) = some (ownSchema m) ∧
      ∀ k ∈ Pairs.keys (m.properties restApi), ∃ s ∈ modelKeys, k = .str s := by
  obtain ⟨tail, htail, heq⟩ := properties_eq m restApi
  rw [heq]
  refine ⟨rfl, rfl, ?_⟩
  rcases htail with rfl | ⟨d, rfl⟩ <;> simp [modelKeys]

/-- A value that counts as false refers to nothing. -/
theorem resolveRefs_of_falsy (restApi : Value) : ∀ {v : Value}, v.truthy = false →
    Value.resolveRefs restApi v = v ∧ v.namedModels = []
  | .atom _, _ => ⟨by rw [Value.resolveRefs], by rw [Value.namedModels]⟩
  | .tuple _, _ => ⟨by rw [Value.resolveRefs], by rw [Value.namedModels]⟩
  | .set _, _ => ⟨by rw [Value.resolveRefs], by rw [Value.namedModels]⟩
  | .list [], _ =>
    ⟨by rw [Value.resolveRefs, Value.resolveItems], by rw [Value.namedModels, Value.namedInItems]⟩
  | .object [], _ =>
    ⟨by rw [Value.resolveRefs, Value.resolveFields],
      by rw [Value.namedModels, Value.namedInFields]⟩
  | .shared l v, h => by
    obtain ⟨hv, hnone⟩ := resolveRefs_of_falsy restApi (v := v) h
    exact ⟨by rw [Value.resolveRefs, hv], by rw [Value.namedModels, hnone]⟩

/-- The resource of a model is that of its properties, with a schema that is not blank resolved. -/
theorem toResource_cases (m : ModelDescriptor) (restApi : Value) : m.toResource restApi =
    if !(ownSchema m).truthy then .ok (ofProperties modelKind (m.properties restApi))
    else if (ownSchema m).resolvesForever restApi then .error .unending
    else .ok ((ofProperties modelKind (m.properties restApi)).resolved restApi (ownSchema m)) := by
  have hget : Fields.get schemaKey (m.properties restApi) = ownSchema m :=
    congrArg (Option.getD · Value.null) (properties_of_model m restApi).2.1
  unfold ModelDescriptor.toResource resolve
  rw [show (ofProperties modelKind (m.properties restApi)).properties.asObject =
    .ok (m.properties restApi) from rfl, Result.ok_bind, hget]
  rfl

/-- A model has a resource unless its schema resolves forever. -/
theorem resolvesForever_of_toResource {m : ModelDescriptor} {restApi : Value}
    (h : m.toResource restApi = .ok r) (ht : (ownSchema m).truthy = true) :
    (ownSchema m).resolvesForever restApi = false := by
  rw [toResource_cases, ht] at h
  cases hf : (ownSchema m).resolvesForever restApi with
  | false => rfl
  | true =>
    rw [hf] at h
    cases h

/-- **The resource of a model** has the properties that the model gives, its schema resolved, and
depends on the models that the schema names, itself excepted. -/
theorem exists_toResource {m : ModelDescriptor} {restApi : Value}
    (hf : (ownSchema m).truthy = true → (ownSchema m).resolvesForever restApi = false) :
    ∃ gs : Fields, m.toResource restApi = .ok ((ofProperties modelKind gs).addDependencies
        (((ownSchema m).namedModels.filter (· ≠ m.name)).map modelResourceName)) ∧
      Pairs.keys gs = Pairs.keys (m.properties restApi) ∧
      Fields.get? "Name" gs = some (.str m.name) ∧
      Fields.get? schemaKey gs = some (Value.resolveRefs restApi (ownSchema m)) := by
  obtain ⟨hname, hschema, -⟩ := properties_of_model m restApi
  rw [toResource_cases]
  cases ht : (ownSchema m).truthy with
  | false =>
    obtain ⟨hsame, hnone⟩ := resolveRefs_of_falsy restApi ht
    refine ⟨m.properties restApi, ?_, rfl, hname, by rw [hsame]; exact hschema⟩
    rw [hnone]
    rfl
  | true =>
    obtain ⟨gs, hgs, hname', hschema', heq⟩ := resolved_eq modelKind restApi (ownSchema m)
      (Pairs.mem_keys_of_lookup hschema) hname
    refine ⟨gs, ?_, hgs, hname', hschema'⟩
    rw [hf ht, ← heq]
    rfl

theorem toResource_eq {m : ModelDescriptor} {restApi : Value} (h : m.toResource restApi = .ok r) :
    ∃ (gs : Fields) (names : List String),
      Pairs.keys gs = Pairs.keys (m.properties restApi) ∧
        r = (ofProperties modelKind gs).addDependencies (names.map modelResourceName) ∧
        ∀ n ∈ names, n ∈ m.schema.namedModels ∧ n ≠ m.name := by
  obtain ⟨gs, heq, hgs, -, -⟩ := exists_toResource (resolvesForever_of_toResource h)
  refine ⟨gs, _, hgs, Except.ok.inj (h.symm.trans heq), fun n hn => ?_⟩
  obtain ⟨hn, hne⟩ := List.mem_filter.mp hn
  refine ⟨?_, of_decide_eq_true hne⟩
  -- no schema is an empty one, which names nothing
  unfold ownSchema at hn
  split at hn
  · rw [Value.namedModels, Value.namedInFields] at hn
    cases hn
  · exact hn

/-- No key of a model is one where the outline of a method has parts. -/
theorem methodParts_of_mem_modelKeys {s : String} (hs : s ∈ modelKeys) : methodParts s = .leaf := by
  simp only [modelKeys, List.mem_cons, List.not_mem_nil, or_false] at hs
  rcases hs with rfl | rfl | rfl | rfl | rfl <;> rfl

theorem normal_of_toResource {m : ModelDescriptor} {restApi : Value}
    (h : m.toResource restApi = .ok r) : r.Normal ∧ methodOutline.Clear r.properties := by
  obtain ⟨gs, names, hgs, rfl, -⟩ := toResource_eq h
  obtain ⟨hname, -, hkeys⟩ := properties_of_model m restApi
  rw [← hgs] at hkeys
  have hne : gs ≠ [] := by
    rintro rfl
    have := Pairs.mem_keys_of_lookup hname
    rw [← hgs] at this
    cases this
  constructor
  · refine Normal.addDependencies ⟨.inl ?_, .nil, Pairs.Keyed.nil, by simp [ofProperties]⟩
    cases gs with
    | nil => exact absurd rfl hne
    | cons kv gs => rfl
  · rw [properties_addDependencies]
    refine ⟨rfl, fun fs k x he hx => ?_⟩
    cases he
    obtain ⟨s, hs, he⟩ := hkeys _ (Pairs.mem_keys_of_lookup hx)
    cases he
    rw [methodParts_of_mem_modelKeys hs]
    trivial

end Resource

namespace ResourceGraph
variable {g : ResourceGraph}

/-- All resources are normal. -/
def Normal (g : ResourceGraph) : Prop := ∀ nr ∈ g.entries, nr.2.Normal

/-- Reads an entry of a section. -/
def readEntry (kv : Atom × Value) : Result (Atom × Resource) := do
  return (kv.1, ← Resource.ofEntry kv.2)

theorem ofSection_eq (v : Value) : ofSection v =
    (if v.truthy then v.asObject else .ok []) >>= fun fields =>
      fields.mapM readEntry >>= fun entries => .ok ⟨entries⟩ := by
  unfold ofSection
  cases v.truthy <;> rfl

theorem ofSection_object (fields : Fields) : ofSection (.object fields) =
    fields.mapM readEntry >>= fun entries => .ok ⟨entries⟩ := by
  rw [ofSection_eq]
  cases fields <;> rfl

/-- **A section of normal resources is read as it was written.** -/
theorem ofSection_toSection (h : g.Normal) : ofSection g.toSection = .ok g := by
  obtain ⟨entries⟩ := g
  have hread : (entries.map fun nr => (nr.1, nr.2.toEntry)).mapM readEntry = .ok entries := by
    rw [Result.mapM_eq_ok, List.forall₂_map_left_iff, List.forall₂_same]
    intro nr hnr
    show (do return (nr.1, ← Resource.ofEntry nr.2.toEntry) : Result _) = _
    rw [Resource.ofEntry_toEntry (h nr hnr)]
    rfl
  rw [toSection, ofSection_object, hread, Result.ok_bind]

theorem Normal.chained (h : g.Normal) (width : Nat) : (g.chained width).Normal := by
  intro nr hnr
  rcases mem_chained hnr with hmem | ⟨mr, hmr, pr, -, rfl⟩
  · exact h nr hmem
  · have hm := h mr (mem_of_mem_freeModels hmr)
    exact ⟨hm.properties, List.pairwise_singleton _ _, hm.extra, hm.kept⟩

end ResourceGraph
end GatewayDocs

import GatewayDocs.Proofs.Edit
import GatewayDocs.Proofs.Entry
import GatewayDocs.Template.Method

/-! # What stays of a resource

Whatever is done to a resource, its kind stays, its further entries stay, and no name comes to stand
twice among its dependencies (`Resource.Stays`).  That holds for a computation on a resource also if
it fails midway, because every single change keeps it (`Resource.Stays.changeProperties`,
`Resource.Stays.addValue`).  Documenting a method keeps whatever its single changes keep
(`Resource.keeps_augment`).

Only what stands in several places can change without being written itself; the kind and the
dependencies must have no such part (`Resource.Orderly`).  A further entry that has one may change
together with the properties, its key and the other entries stay. -/

namespace GatewayDocs

namespace Value

/-! ### Values without a part that stands elsewhere -/

mutual

/-- Whether no part of a value stands in several places. -/
def isAlone : Value → Bool
  | .atom _ => true
  | .set _ => true
  | .list items => areAlone items
  | .tuple items => areAlone items
  | .object fields => areAloneFields fields
  | .shared _ _ => false
  | .knot _ v => isAlone v
  | .again _ => true

/-- Whether no part of some items stands in several places. -/
def areAlone : List Value → Bool
  | [] => true
  | v :: rest => isAlone v && areAlone rest

/-- Whether no part of some pairs stands in several places. -/
def areAloneFields : List (Atom × Value) → Bool
  | [] => true
  | (_, v) :: rest => isAlone v && areAloneFields rest

end

mutual

/-- Nothing in a plain value stands elsewhere. -/
theorem isAlone_of_isPlain : ∀ v : Value, v.isPlain = true → v.isAlone = true
  | .atom _, _ => by rw [isAlone]
  | .list items, h => by
    rw [isPlain] at h
    rw [isAlone, areAlone_of_arePlain items h]
  | .object fields, h => by
    rw [isPlain] at h
    rw [isAlone, areAloneFields_of_arePlainFields fields h]
  | .tuple _, h => by
    rw [isPlain] at h
    cases h
  | .set _, _ => by rw [isAlone]
  | .shared _ _, h => by
    rw [isPlain] at h
    cases h
  | .knot _ _, h => by
    rw [isPlain] at h
    cases h
  | .again _, _ => by rw [isAlone]

theorem areAlone_of_arePlain : ∀ items : List Value, arePlain items = true → areAlone items = true
  | [], _ => by rw [areAlone]
  | v :: rest, h => by
    rw [arePlain, Bool.and_eq_true] at h
    rw [areAlone, isAlone_of_isPlain v h.1, areAlone_of_arePlain rest h.2]
    rfl

theorem areAloneFields_of_arePlainFields : ∀ fields : List (Atom × Value),
    arePlainFields fields = true → areAloneFields fields = true
  | [], _ => by rw [areAloneFields]
  | (k, v) :: rest, h => by
    cases k with
    | str s =>
      rw [arePlainFields, Bool.and_eq_true, Bool.and_eq_true] at h
      rw [areAloneFields, isAlone_of_isPlain v h.1.2, areAloneFields_of_arePlainFields rest h.2]
      rfl
    | _ => cases h

end

mutual

/-- What stands alone stays when the other places of a label get a content. -/
theorem relabel_of_isAlone (label : Nat) (content : Value) :
    ∀ v : Value, v.isAlone = true → relabel label content v = v
  | .atom _, _ => by rw [relabel]
  | .set _, _ => by rw [relabel]
  | .list items, h => by
    rw [isAlone] at h
    rw [relabel, relabelItems_of_areAlone label content items h]
  | .tuple items, h => by
    rw [isAlone] at h
    rw [relabel, relabelItems_of_areAlone label content items h]
  | .object fields, h => by
    rw [isAlone] at h
    rw [relabel, relabelFields_of_areAlone label content fields h]
  | .shared _ _, h => by
    rw [isAlone] at h
    cases h
  | .knot _ v, h => by
    rw [isAlone] at h
    rw [relabel, relabel_of_isAlone label content v h]
  | .again _, _ => by rw [relabel]

theorem relabelItems_of_areAlone (label : Nat) (content : Value) :
    ∀ items : List Value, areAlone items = true → relabelItems label content items = items
  | [], _ => by rw [relabelItems]
  | v :: rest, h => by
    rw [areAlone, Bool.and_eq_true] at h
    rw [relabelItems, relabel_of_isAlone label content v h.1,
      relabelItems_of_areAlone label content rest h.2]

theorem relabelFields_of_areAlone (label : Nat) (content : Value) :
    ∀ fields : List (Atom × Value), areAloneFields fields = true →
      relabelFields label content fields = fields
  | [], _ => by rw [relabelFields]
  | (_, v) :: rest, h => by
    rw [areAloneFields, Bool.and_eq_true] at h
    rw [relabelFields, relabel_of_isAlone label content v h.1,
      relabelFields_of_areAlone label content rest h.2]

end

mutual

/-- What stands alone stays when references in labelled values are resolved. -/
theorem resolveLabelled_of_isAlone (restApi : Value) (labels : List Nat) :
    ∀ v : Value, v.isAlone = true → resolveLabelled restApi labels v = v
  | .atom _, _ => by rw [resolveLabelled]
  | .set _, _ => by rw [resolveLabelled]
  | .list items, h => by
    rw [isAlone] at h
    rw [resolveLabelled, resolveLabelledItems_of_areAlone restApi labels items h]
  | .tuple items, h => by
    rw [isAlone] at h
    rw [resolveLabelled, resolveLabelledItems_of_areAlone restApi labels items h]
  | .object fields, h => by
    rw [isAlone] at h
    rw [resolveLabelled, resolveLabelledFields_of_areAlone restApi labels fields h]
  | .shared _ _, h => by
    rw [isAlone] at h
    cases h
  | .knot _ _, _ => by rw [resolveLabelled]
  | .again _, _ => by rw [resolveLabelled]

theorem resolveLabelledItems_of_areAlone (restApi : Value) (labels : List Nat) :
    ∀ items : List Value, areAlone items = true →
      resolveLabelledItems restApi labels items = items
  | [], _ => by rw [resolveLabelledItems]
  | v :: rest, h => by
    rw [areAlone, Bool.and_eq_true] at h
    rw [resolveLabelledItems, resolveLabelled_of_isAlone restApi labels v h.1,
      resolveLabelledItems_of_areAlone restApi labels rest h.2]

theorem resolveLabelledFields_of_areAlone (restApi : Value) (labels : List Nat) :
    ∀ fields : List (Atom × Value), areAloneFields fields = true →
      resolveLabelledFields restApi labels fields = fields
  | [], _ => by rw [resolveLabelledFields]
  | (_, v) :: rest, h => by
    rw [areAloneFields, Bool.and_eq_true] at h
    rw [resolveLabelledFields, resolveLabelled_of_isAlone restApi labels v h.1,
      resolveLabelledFields_of_areAlone restApi labels rest h.2]

end

end Value

namespace Resource
variable {r r₀ r' : Resource} {restApi : Value}

/-! ### Changes that a resource survives -/

theorem of_mem_insertNew {xs : List Value} {x y : Value} (h : y ∈ insertNew xs x) :
    y ∈ xs ∨ y = x := by
  unfold insertNew at h
  split at h
  · exact .inl h
  · exact (List.mem_append.mp h).imp_right List.mem_singleton.mp

/-- Neither the kind of a resource nor what it depends on has a part that stands elsewhere, and
nothing stands twice among its dependencies. -/
structure Orderly (r : Resource) : Prop where
  kind : r.kind.isAlone = true
  dependsOn : ∀ d ∈ r.dependsOn, d.isAlone = true
  once : r.dependsOn.Pairwise fun a b => a.same b = false

/-- What stays of a resource in all that is made of it. -/
structure Stays (r₀ r : Resource) : Prop where
  kind : r.kind = r₀.kind
  /-- A further entry stays under its key, and changes only if a part of it stands elsewhere too. -/
  extra : List.Forall₂ (fun kv kw => kw.1 = kv.1 ∧ (kv.2.isAlone = true → kw.2 = kv.2))
    r₀.extra r.extra
  orderly : r.Orderly

theorem of_mem_foldl_insertNew {xs ys : List Value} {y : Value} (h : y ∈ ys.foldl insertNew xs) :
    y ∈ xs ∨ y ∈ ys := by
  induction ys generalizing xs with
  | nil => exact .inl h
  | cons z ys ih =>
    rcases ih h with h | h
    · rcases of_mem_insertNew h with h | rfl
      · exact .inl h
      · exact .inr List.mem_cons_self
    · exact .inr (List.mem_cons_of_mem _ h)

namespace Stays

theorem refl (h : r.Orderly) : r.Stays r :=
  ⟨rfl, List.forall₂_same.mpr fun _ _ => ⟨rfl, fun _ => rfl⟩, h⟩

/-- The properties may become anything. -/
theorem withProperties (h : r₀.Stays r) (properties : Value) : r₀.Stays { r with properties } :=
  ⟨h.kind, h.extra, ⟨h.orderly.kind, h.orderly.dependsOn, h.orderly.once⟩⟩

theorem addValue {d : Value} (h : r₀.Stays r) (hd : d.isAlone = true) :
    r₀.Stays (r.addValue d) := by
  refine ⟨h.kind, h.extra, ⟨h.orderly.kind, fun d' hd' => ?_,
    pairwise_insertNew h.orderly.once⟩⟩
  rcases of_mem_insertNew hd' with hd' | rfl
  · exact h.orderly.dependsOn d' hd'
  · exact hd

theorem addDependencies (h : r₀.Stays r) (names : List String) :
    r₀.Stays (r.addDependencies names) := by
  induction names generalizing r with
  | nil => exact h
  | cons name names ih => exact ih (h.addValue (by rw [Value.isAlone]))

/-- A resource may come to depend on one value alone. -/
theorem withParent (h : r₀.Stays r) (parent : Atom) :
    r₀.Stays { r with dependsOn := [.atom parent] } := by
  refine ⟨h.kind, h.extra, ⟨h.orderly.kind, fun d hd => ?_,
    List.pairwise_singleton _ _⟩⟩
  rw [List.mem_singleton.mp hd, Value.isAlone]

/-- A change of all values leaves alone what stands alone. -/
theorem mapValues {f : Value → Value} (h : r₀.Stays r)
    (hf : ∀ v : Value, v.isAlone = true → f v = v) : r₀.Stays (r.mapValues f) := by
  have hkind : (r.mapValues f).kind = r.kind := hf _ h.orderly.kind
  have hdependsOn : (r.mapValues f).dependsOn = r.dependsOn :=
    (List.map_congr_left fun d hd => hf d (h.orderly.dependsOn d hd)).trans (List.map_id _)
  refine ⟨hkind.trans h.kind, ?_, ⟨?_, ?_, ?_⟩⟩
  · refine List.forall₂_map_right_iff.mpr (h.extra.imp fun kv kw hkw => ⟨hkw.1, fun halone => ?_⟩)
    show f kw.2 = kv.2
    rw [hkw.2 halone, hf kv.2 halone]
  · rw [hkind]
    exact h.orderly.kind
  · rw [hdependsOn]
    exact h.orderly.dependsOn
  · rw [hdependsOn]
    exact h.orderly.once

theorem changeProperties (h : r₀.Stays r) (path : List Step) (f : Value → Value) :
    r₀.Stays (r.changeProperties path f) := by
  unfold Resource.changeProperties
  dsimp only
  split
  · exact (h.withProperties _).mapValues fun v hv => Value.relabel_of_isAlone _ _ v hv
  · exact h.withProperties _

theorem resolveLabelled (h : r₀.Stays r) (restApi : Value) (labels : List Nat) :
    r₀.Stays (r.resolveLabelled restApi labels) := by
  unfold Resource.resolveLabelled
  split
  · exact h
  · have hvalues := h.mapValues fun v hv => Value.resolveLabelled_of_isAlone restApi labels v hv
    exact hvalues.withProperties _

theorem resolve (h : r₀.Stays r) (hr : r.resolve restApi = .ok r') : r₀.Stays r' := by
  obtain ⟨fields, -, h₁⟩ := Result.bind_eq_ok.mp hr
  dsimp only at h₁
  split at h₁
  · exact Except.ok.inj h₁ ▸ h
  · split at h₁
    · cases h₁
    · rw [← Except.ok.inj h₁]
      exact ((h.resolveLabelled restApi _).changeProperties [] _).addDependencies _

end Stays

/-- Neither the kind of an entry of a template nor what it depends on has a part that stands
elsewhere. -/
structure TypedEntry (entry : Value) : Prop where
  kind : ((entry.field? "Type").getD (.str "")).isAlone = true
  dependsOn : ∀ listed, listedDependencies ((entry.field? "DependsOn").getD .null) = .ok listed →
    ∀ d ∈ listed, d.isAlone = true

/-- What a plain value lists as dependencies stands alone. -/
theorem isAlone_of_listed {v : Value} {listed : List Value} (h : v.isPlain = true)
    (hlisted : listedDependencies v = .ok listed) : ∀ d ∈ listed, d.isAlone = true := by
  have hmembers : ∀ listed, v.members = .ok listed → ∀ d ∈ listed, d.isAlone = true := by
    intro listed hlisted d hd
    cases v with
    | list items =>
      cases hlisted
      exact Value.isAlone_of_isPlain d (Value.isPlain_list.mp h d hd)
    | object fields =>
      cases hlisted
      obtain ⟨kv, -, rfl⟩ := List.mem_map.mp hd
      rw [Value.isAlone]
    | atom a =>
      cases a with
      | str s =>
        cases hlisted
        obtain ⟨c, -, rfl⟩ := List.mem_map.mp hd
        rw [Value.isAlone]
      | bytes bs =>
        cases hlisted
        obtain ⟨b, -, rfl⟩ := List.mem_map.mp hd
        rw [Value.isAlone]
      | _ => cases hlisted
    | _ => cases h
  unfold listedDependencies at hlisted
  split at hlisted
  · cases hlisted
    intro d hd
    rw [List.mem_singleton.mp hd, Value.isAlone]
  · split at hlisted
    · exact hmembers listed hlisted
    · cases hlisted
      exact fun d hd => (nomatch hd)

/-- An entry from JSON is typed. -/
theorem typedEntry_of_isPlain {entry : Value} (h : entry.isPlain = true) : TypedEntry entry := by
  have hfield : ∀ {key v}, entry.field? key = some v → v.isPlain = true := fun hv => by
    cases entry with
    | object fields => exact Value.isPlain_of_get? h hv
    | atom _ => cases hv
    | list _ => cases hv
    | _ => cases h
  constructor
  · cases hkind : entry.field? "Type" with
    | none => rw [Option.getD_none, Value.isAlone]
    | some v => exact Value.isAlone_of_isPlain v (hfield hkind)
  · cases hdependsOn : entry.field? "DependsOn" with
    | none =>
      intro listed hlisted d hd
      cases hlisted
      cases hd
    | some v => exact fun listed => isAlone_of_listed (hfield hdependsOn)

theorem orderly_of_ofEntry {entry : Value} (ht : TypedEntry entry) (h : ofEntry entry = .ok r) :
    r.Orderly := by
  obtain ⟨fields, hfields, h₁⟩ := Result.bind_eq_ok.mp h
  obtain ⟨listed, hlisted, h₂⟩ := Result.bind_eq_ok.mp h₁
  have hget : ∀ key, entry.field? key = Fields.get? key fields := fun key => by
    rw [Value.field?, Value.asObject_eq_ok_iff.mp hfields]
    rfl
  have hkind := ht.kind
  have hdependsOn := ht.dependsOn
  rw [hget] at hkind hdependsOn
  rw [← Except.ok.inj h₂]
  refine ⟨hkind, fun d hd => hdependsOn listed hlisted d ?_, pairwise_foldl_insertNew .nil⟩
  exact (of_mem_foldl_insertNew hd).resolve_left (List.not_mem_nil)

/-- The resource of a model is of one kind and depends on texts. -/
theorem orderly_of_toResource {m : ModelDescriptor} (h : m.toResource restApi = .ok r) :
    r.Orderly := by
  have hstart : (ofProperties modelKind (m.properties restApi)).Orderly :=
    ⟨by rw [ofProperties, Value.isAlone], fun d hd => (nomatch hd), .nil⟩
  exact (Stays.resolve (.refl hstart) h).orderly

/-! ### Computations -/

section Computations
variable {d : EndpointDocumentation} {refs : ModelRefs} {I : Resource → Prop}
  {names names' : List String}

/-- What every change of the properties keeps, and every new dependency among some names. -/
structure Lasting (I : Resource → Prop) (names : List String) : Prop where
  change : ∀ {r : Resource} (path : List Step) (f : Value → Value), I r →
    I (r.changeProperties path f)
  depend : ∀ {r : Resource}, I r → ∀ {new : List String}, new ⊆ names → I (r.addDependencies new)

theorem Lasting.of_subset (h : Lasting I names) (hsub : names' ⊆ names) : Lasting I names' :=
  ⟨h.change, fun hr _ hnew => h.depend hr fun _ hn => hsub (hnew hn)⟩

theorem lasting_stays (r₀ : Resource) (names : List String) : Lasting r₀.Stays names :=
  ⟨fun path f hr => hr.changeProperties path f, fun hr _ _ => hr.addDependencies _⟩

theorem keeps_editAt {α : Type} (h : Lasting I names) (path : List Step) (edit : Edit Fields α) :
    (editAt path edit).Keeps I :=
  Edit.keeps_get_bind fun _ hr => Edit.keeps_ofResult_bind fun _ _ =>
    Edit.keeps_zoom (h.change path _ hr)

theorem keeps_editUnder {α : Type} (h : Lasting I names) (path : List Step) (key : String)
    (edit : Edit Fields α) : (editUnder path key edit).Keeps I :=
  (keeps_editAt h path _).bind fun _ => keeps_editAt h _ edit

theorem keeps_addModelDependencies (h : Lasting I refs.dependencies) :
    (addModelDependencies refs).Keeps I :=
  (Edit.keeps_modify fun _ hr => h.depend hr (List.Subset.refl _)).bind fun _ => Edit.keeps_pure _

theorem keeps_addRequestModels (h : Lasting I d.models.dependencies) :
    (addRequestModels d).Keeps I := by
  unfold addRequestModels
  split
  · exact (keeps_addModelDependencies h).bind fun _ => keeps_editAt h _ _
  · exact Edit.keeps_pure ()

theorem keeps_responseEntry (h : Lasting I names) (code : String) :
    (responseEntry code).Keeps I := by
  refine Edit.keeps_get_bind fun r hr => Edit.keeps_ofResult_bind fun items _ =>
    Edit.keeps_ofResult_bind fun found _ => ?_
  cases found with
  | some i => exact Edit.keeps_pure _
  | none => exact (Edit.keeps_modify fun r hr => h.change _ _ hr).bind fun _ => Edit.keeps_pure _

theorem keeps_addResponseModels (h : Lasting I refs.dependencies) (entry : List Step) :
    (addResponseModels entry refs).Keeps I := by
  refine (keeps_editAt h _ _).bind fun _ => Edit.keeps_get_bind fun r hr =>
    Edit.keeps_ofResult_bind fun models _ => ?_
  exact (Edit.keeps_modify fun r hr => h.change _ _ hr).bind fun _ =>
    Edit.keeps_modify fun r hr => h.depend hr (List.Subset.refl _)

theorem keeps_addResponse {declared : MethodResponse}
    (h : Lasting I declared.models.dependencies) : (addResponse declared).Keeps I := by
  refine (keeps_responseEntry h _).bind fun entry => ?_
  have hmodels : Edit.Keeps I
      (if !declared.models.isEmpty then addResponseModels entry declared.models else pure ()) := by
    split
    · exact keeps_addResponseModels h entry
    · exact Edit.keeps_pure ()
  dsimp only
  split
  · exact (keeps_editUnder h entry _ _).bind fun _ => hmodels
  · exact hmodels

theorem keeps_addResponses
    (h : Lasting I (d.responses.flatMap fun response => response.models.dependencies)) :
    (addResponses d).Keeps I := by
  unfold addResponses
  split
  · refine (keeps_editAt h _ _).bind fun _ => Edit.Keeps.forM fun declared hmem => ?_
    exact keeps_addResponse (h.of_subset fun _ hn => List.mem_flatMap.mpr ⟨declared, hmem, hn⟩)
  · exact Edit.keeps_pure ()

theorem keeps_addParameters (h : Lasting I names) (ps : List Parameter) (place : String) :
    (addParameters ps place).Keeps I := by
  unfold addParameters
  split
  · exact keeps_editUnder h _ _ _
  · exact Edit.keeps_pure ()

/-- **Documenting a method, also if it fails midway, keeps what every change of the properties
keeps**, and every new dependency on a model that the documentation refers to. -/
theorem keeps_augment (h : Lasting I d.dependencies) (safeMode : Bool) :
    (augment d safeMode).Keeps I := by
  refine (keeps_addResponses (h.of_subset (List.subset_append_left _ _))).bind fun _ =>
    (keeps_addRequestModels (h.of_subset (List.subset_append_right _ _))).bind fun _ => ?_
  split
  · exact (keeps_addParameters h _ _).bind fun _ => (keeps_addParameters h _ _).bind fun _ =>
      keeps_addParameters h _ _
  · exact Edit.keeps_pure ()

end Computations
end Resource
end GatewayDocs

import GatewayDocs.Proofs.Compile
import GatewayDocs.Proofs.Section

/-! # Writing into a template

A compilation writes two sections of a template: the resources, and the outputs with one more.
Outputs that stand in several places are changed in all of them, except in the resources, which are
written anew (`Compile.carried`).

A template becomes the one with the resources and the output written (`Compile.commit_iff`).
Writing the same again changes nothing (`Compile.commit_again`).  Where the outputs stand in one
place, all other sections and outputs are as they were (`Compile.others_of_commit`). -/

namespace GatewayDocs
open CompileSettings (subsection)

/-! ### Other places of a value -/

namespace Value

mutual

/-- What was put in all places of a label is there when it is put there again. -/
theorem relabel_relabel (label : Nat) (content : Value) :
    ∀ v : Value, relabel label content (relabel label content v) = relabel label content v
  | .atom _ => by rw [relabel, relabel]
  | .set _ => by rw [relabel, relabel]
  | .again _ => by rw [relabel, relabel]
  | .list items => by rw [relabel, relabel, relabelItems_relabelItems]
  | .tuple items => by rw [relabel, relabel, relabelItems_relabelItems]
  | .object fields => by rw [relabel, relabel, relabelFields_relabelFields]
  | .knot l v => by rw [relabel, relabel, relabel_relabel]
  | .shared l v => by
    rw [relabel, relabel]
    by_cases hl : l = label
    · rw [if_pos hl, if_pos hl]
    · rw [if_neg hl, if_neg hl, relabel_relabel]

theorem relabelItems_relabelItems (label : Nat) (content : Value) : ∀ items : List Value,
    relabelItems label content (relabelItems label content items) =
      relabelItems label content items
  | [] => by rw [relabelItems, relabelItems]
  | v :: rest => by
    rw [relabelItems, relabelItems, relabel_relabel, relabelItems_relabelItems]

theorem relabelFields_relabelFields (label : Nat) (content : Value) : ∀ fields : Fields,
    relabelFields label content (relabelFields label content fields) =
      relabelFields label content fields
  | [] => by rw [relabelFields, relabelFields]
  | (k, v) :: rest => by
    rw [relabelFields, relabelFields, relabel_relabel, relabelFields_relabelFields]

end

end Value

namespace Compile
variable {g : ResourceGraph} {fields pairs : Fields} {t t' v restApi : Value} {key : String}

/-! ### Sections -/

/-- The entries of the resources of a template. -/
def resourcesOf (t : Value) : Fields := subsection [resourcesKey] t

/-- The outputs of a template. -/
def outputsOf (t : Value) : Fields := subsection [outputsKey] t

theorem section_eq (h : t.fields? = some fields) (key : String) :
    subsection [key] t = (Fields.get key fields).fields?.getD [] := by
  unfold subsection subsection Value.field?
  rw [h]
  rfl

theorem outputsOf_eq (h : t.fields? = some fields) :
    outputsOf t = (givenOutputs fields).fields?.getD [] := by
  refine (section_eq h outputsKey).trans ?_
  unfold givenOutputs
  split
  · rfl
  · rename_i hfalsy
    exact ResourceGraph.fields?_of_falsy (Bool.eq_false_iff.mpr hfalsy)

theorem readFrom_of_readGraph (h : readGraph t = .ok g) :
    ResourceGraph.ReadFrom (resourcesOf t) g := by
  obtain ⟨v, hv, hsection⟩ := Result.bind_eq_ok.mp h
  obtain ⟨fields, hfields, hget⟩ := Result.bind_eq_ok.mp hv
  obtain rfl := Except.ok.inj hget
  show ResourceGraph.ReadFrom (subsection [resourcesKey] t) g
  rw [section_eq (Value.asObject_eq_ok_iff.mp hfields)]
  exact ResourceGraph.readFrom_of_ofSection hsection

/-! ### Carrying a change to other places -/

/-- Entries of a template in which what has the label of a value is changed into it. -/
def carried (v : Value) (fields : Fields) : Fields :=
  match v.label? with
  | some (label, content) => relabelOutside label content fields
  | none => fields

/-- What becomes of the value under a key. -/
def carriedAt (v : Value) (key : Atom) (w : Value) : Value :=
  match v.label? with
  | some (label, content) =>
    if key.same (.str resourcesKey) then w else Value.relabel label content w
  | none => w

theorem carried_eq_map (v : Value) (fields : Fields) :
    carried v fields = fields.map fun kv => (kv.1, carriedAt v kv.1 kv.2) := by
  unfold carried carriedAt
  cases v.label? with
  | some l => rfl
  | none => exact (List.map_id _).symm

theorem carriedAt_resources (v w : Value) : carriedAt v (.str resourcesKey) w = w := by
  unfold carriedAt
  cases v.label? with
  | some l => exact if_pos (Atom.same_self _)
  | none => rfl

/-- A value is what its label is changed into. -/
theorem carriedAt_self (v : Value) (key : Atom) : carriedAt v key v = v := by
  unfold carriedAt
  cases v with
  | shared l content =>
    show (if _ then _ else Value.relabel l content (.shared l content)) = _
    split
    · rfl
    · rw [Value.relabel, if_pos rfl]
  | _ => rfl

theorem get?_carried (v : Value) (key : String) (fields : Fields) :
    Fields.get? key (carried v fields) = (Fields.get? key fields).map (carriedAt v (.str key)) := by
  rw [carried_eq_map]
  unfold Fields.get?
  induction fields with
  | nil => rfl
  | cons kv fields ih =>
    obtain ⟨k, w⟩ := kv
    by_cases hk : k = .str key
    · subst hk
      rw [List.map_cons, Pairs.lookup_cons_self, Pairs.lookup_cons_self]
      rfl
    · rw [List.map_cons, Pairs.lookup_cons_of_ne hk, Pairs.lookup_cons_of_ne hk, ih]

theorem carried_of_isOpen (h : v.isOpen = true) (fields : Fields) : carried v fields = fields := by
  unfold carried
  cases v with
  | shared l content => cases h
  | _ => rfl

/-! ### What is written -/

/-- Outputs with the one that tells an interface. -/
def withOutput (restApi : Value) (pairs : Fields) (outputs : Value) : Value :=
  outputs.inside fun _ => .object (pairs.put apiOutput (apiOutputValue restApi))

/-- The entries of a template after the resources and the outputs are written. -/
def committed (g : ResourceGraph) (restApi : Value) (pairs fields : Fields) : Fields :=
  carried (withOutput restApi pairs (givenOutputs fields)) ((withResources g fields).put outputsKey
    (withOutput restApi pairs (givenOutputs fields)))

theorem putOutput_eq_ok {written : Fields} :
    putOutput (apiOutputValue restApi) (withResources g fields) = .ok written ↔
      ∃ pairs, (givenOutputs fields).fields? = some pairs ∧
        committed g restApi pairs fields = written := by
  have hput : putOutput (apiOutputValue restApi) (withResources g fields) =
      (givenOutputs fields).asObject >>= fun pairs => .ok (committed g restApi pairs fields) := by
    unfold putOutput committed carried
    rw [get_outputs_withResources]
    refine congrArg ((givenOutputs fields).asObject >>= ·) (funext fun pairs => ?_)
    show (match (withOutput restApi pairs (givenOutputs fields)).label? with
      | some (label, content) => _
      | none => _) = Except.ok _
    cases (withOutput restApi pairs (givenOutputs fields)).label? <;> rfl
  rw [hput, Result.bind_eq_ok]
  exact exists_congr fun pairs => and_congr Value.asObject_eq_ok_iff
    ⟨fun h => Except.ok.inj h, fun h => congrArg _ h⟩

/-- **What a template becomes.** -/
theorem commit_iff : commit g restApi t = .ok () t' ↔ ∃ fields pairs,
    t.fields? = some fields ∧ (givenOutputs fields).fields? = some pairs ∧
      t' = .object (committed g restApi pairs fields) := by
  rw [commit_eq_ok]
  constructor
  · rintro ⟨fields, written, hfields, hwritten, rfl⟩
    obtain ⟨pairs, hpairs, rfl⟩ := putOutput_eq_ok.mp hwritten
    exact ⟨fields, pairs, Value.asObject_eq_ok_iff.mp hfields, hpairs, rfl⟩
  · rintro ⟨fields, pairs, hfields, hpairs, rfl⟩
    exact ⟨fields, _, Value.asObject_eq_ok_iff.mpr hfields,
      putOutput_eq_ok.mpr ⟨pairs, hpairs, rfl⟩, rfl⟩

theorem resources_committed (g : ResourceGraph) (restApi : Value) (pairs fields : Fields) :
    Fields.get? resourcesKey (committed g restApi pairs fields) = some g.toSection := by
  have hput : Fields.get? resourcesKey ((withResources g fields).put outputsKey
      (withOutput restApi pairs (givenOutputs fields))) = some g.toSection := by
    refine (Pairs.lookup_put_of_ne (by decide)).trans ?_
    exact (Pairs.lookup_put_of_ne (by decide)).trans Pairs.lookup_put_self
  unfold committed
  rw [get?_carried, hput, Option.map_some, carriedAt_resources]

theorem outputs_committed (g : ResourceGraph) (restApi : Value) (pairs fields : Fields) :
    Fields.get? outputsKey (committed g restApi pairs fields) =
      some (withOutput restApi pairs (givenOutputs fields)) := by
  have hput : Fields.get? outputsKey ((withResources g fields).put outputsKey
      (withOutput restApi pairs (givenOutputs fields))) =
        some (withOutput restApi pairs (givenOutputs fields)) := Pairs.lookup_put_self
  unfold committed
  rw [get?_carried, hput, Option.map_some, carriedAt_self]

/-- A template that is written has the resources of the graph. -/
theorem resourcesOf_of_commit (h : commit g restApi t = .ok () t') :
    resourcesOf t' = g.toSection.fields?.getD [] := by
  obtain ⟨fields, pairs, -, -, rfl⟩ := commit_iff.mp h
  refine (section_eq (Value.fields?_object _) resourcesKey).trans ?_
  rw [Fields.get, resources_committed, Option.getD_some]

/-- Of the sections of a template two are written, and of its outputs one, if the outputs stand in
one place. -/
theorem others_of_commit (houtputs : ((t.field? outputsKey).getD .null).isOpen = true)
    (h : commit g restApi t = .ok () t') :
    Fields.others [resourcesKey, outputsKey] (subsection [] t') =
        Fields.others [resourcesKey, outputsKey] (subsection [] t) ∧
      Fields.others [apiOutput] (outputsOf t') = Fields.others [apiOutput] (outputsOf t) ∧
      Fields.get? apiOutput (outputsOf t') = some (apiOutputValue restApi) := by
  obtain ⟨fields, pairs, hfields, hpairs, rfl⟩ := commit_iff.mp h
  have hopen : (givenOutputs fields).isOpen = true := by
    have hget : (t.field? outputsKey).getD .null = Fields.get outputsKey fields := by
      unfold Value.field?
      rw [hfields]
      rfl
    unfold givenOutputs
    split
    · exact hget ▸ houtputs
    · rfl
  have hwith : withOutput restApi pairs (givenOutputs fields) =
      .object (pairs.put apiOutput (apiOutputValue restApi)) :=
    Value.inside_of_isOpen hopen
  have hbefore : outputsOf t = pairs := by rw [outputsOf_eq hfields, hpairs, Option.getD_some]
  have hafter : outputsOf (.object (committed g restApi pairs fields)) =
      pairs.put apiOutput (apiOutputValue restApi) := by
    refine (section_eq (Value.fields?_object _) outputsKey).trans ?_
    rw [Fields.get, outputs_committed, Option.getD_some, hwith]
    rfl
  refine ⟨?_, ?_, ?_⟩
  · show Fields.others _ (committed g restApi pairs fields) = Fields.others _ (t.fields?.getD [])
    unfold committed withResources
    rw [hfields, Option.getD_some, hwith, carried_of_isOpen rfl, Fields.others_put (by simp),
      Fields.others_put (by simp), Fields.others_put (by simp)]
  · rw [hafter, hbefore, Fields.others_put List.mem_cons_self]
  · rw [hafter]
    exact Pairs.lookup_put_self

end Compile
end GatewayDocs

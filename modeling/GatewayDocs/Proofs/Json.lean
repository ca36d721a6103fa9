import GatewayDocs.Json.Text
import GatewayDocs.Proofs.Checked
import GatewayDocs.Proofs.Graph

/-! # Values that come from JSON

A value that comes from JSON is made of texts, numbers, truth values, absent values, lists and
objects with text keys, and its whole numbers have not more digits than can be read
(`Value.isJson`).  Such a value has a text, does not contain itself, and can be written as JSON
with its keys sorted (`Value.writeSorted_of_isJson`).  All of this follows by one induction over
its parts (`Value.isJson_induction`). -/

namespace GatewayDocs

/-- Whether an atom has a form in JSON. -/
def Atom.isJson : Atom → Bool
  | .null => true
  | .bool _ => true
  | .int n => Decimal.isWritable n
  | .float _ => true
  | .str _ => true
  | .stamp _ => false
  | .bytes _ => false

namespace Value

mutual

/-- Whether a value has a form in JSON. -/
def isJson : Value → Bool
  | .atom a => a.isJson
  | .list items => areJson items
  | .object fields => areJsonFields fields
  | .tuple _ => false
  | .set _ => false
  | .shared _ _ => false
  | .knot _ _ => false
  | .again _ => false

/-- Whether all items of a list have a form in JSON. -/
def areJson : List Value → Bool
  | [] => true
  | v :: rest => isJson v && areJson rest

/-- Whether pairs have text keys, and values with a form in JSON. -/
def areJsonFields : List (Atom × Value) → Bool
  | [] => true
  | (.str _, v) :: rest => isJson v && areJsonFields rest
  | _ => false

end

variable {v : Value} {items : List Value} {fields : Fields}

theorem isJson_list : (list items).isJson = true ↔ ∀ v ∈ items, v.isJson = true := by
  rw [isJson]
  induction items with
  | nil => exact ⟨fun _ v hv => (nomatch hv), fun _ => rfl⟩
  | cons w items ih => rw [areJson, Bool.and_eq_true, ih, List.forall_mem_cons]

theorem isJson_object : (object fields).isJson = true ↔ fields.Texts (·.isJson) := by
  rw [isJson]
  induction fields with
  | nil => exact ⟨fun _ kv hkv => (nomatch hkv), fun _ => rfl⟩
  | cons kv fields ih =>
    obtain ⟨k, v⟩ := kv
    have hcons : Fields.Texts (·.isJson) ((k, v) :: fields) ↔
        ((∃ s, k = .str s) ∧ v.isJson = true) ∧ Fields.Texts (·.isJson) fields :=
      List.forall_mem_cons
    cases k with
    | str s =>
      rw [areJsonFields, Bool.and_eq_true, ih, hcons]
      exact ⟨fun h => ⟨⟨⟨s, rfl⟩, h.1⟩, h.2⟩, fun h => ⟨h.1.2, h.2⟩⟩
    | _ =>
      rw [hcons]
      exact ⟨fun h => (nomatch h), fun ⟨⟨⟨_, hk⟩, _⟩, _⟩ => (nomatch hk)⟩

theorem sizeOf_value_lt {kv : Atom × Value} (h : kv ∈ fields) : sizeOf kv.2 < sizeOf fields := by
  have hlt := List.sizeOf_lt_of_mem h
  have hpair : sizeOf kv = 1 + sizeOf kv.1 + sizeOf kv.2 := rfl
  omega

/-- What holds of atoms, and of lists and objects if it holds of their parts, holds of every value
that comes from JSON. -/
theorem isJson_induction {P : Value → Prop} (hatom : ∀ a : Atom, a.isJson = true → P (.atom a))
    (hlist : ∀ items : List Value, (∀ v ∈ items, P v) → P (.list items))
    (hobject : ∀ fields : Fields, fields.Texts P → P (.object fields)) :
    ∀ {v : Value}, v.isJson = true → P v
  | .atom a, h => hatom a h
  | .list items, h => hlist items fun v hv =>
      have : sizeOf v < sizeOf items := List.sizeOf_lt_of_mem hv
      isJson_induction hatom hlist hobject (isJson_list.mp h v hv)
  | .object fields, h => hobject fields fun kv hkv =>
      have : sizeOf kv.2 < sizeOf fields := sizeOf_value_lt hkv
      have hpair := isJson_object.mp h kv hkv
      ⟨hpair.1, isJson_induction hatom hlist hobject hpair.2⟩
  | .tuple _, h => (nomatch h)
  | .set _, h => (nomatch h)
  | .shared _ _, h => (nomatch h)
  | .knot _ _, h => (nomatch h)
  | .again _, h => (nomatch h)

/-- The parts of a value that comes from JSON come from JSON. -/
theorem hereditary_isJson : Hereditary fun v => v.isJson = true := by
  constructor
  · intro v items hitems h
    cases v with
    | list xs =>
      cases hitems
      exact isJson_list.mp h
    | atom _ => cases hitems
    | object _ => cases hitems
    | _ => cases h
  · intro v fs hfs h
    cases v with
    | object gs =>
      cases hfs
      exact fun kv hkv => (isJson_object.mp h kv hkv).2
    | atom _ => cases hfs
    | list _ => cases hfs
    | _ => cases h

/-! ### What values from JSON have in common -/

theorem isWritable_list (h : ∀ v ∈ items, v.isWritable = true) :
    (list items).isWritable = true := by
  rw [isWritable]
  induction items with
  | nil => rfl
  | cons v items ih =>
    obtain ⟨hv, hitems⟩ := List.forall_mem_cons.mp h
    rw [areWritable, hv, ih hitems, Bool.and_self]

theorem isWritable_object (h : fields.Texts (·.isWritable)) :
    (object fields).isWritable = true := by
  rw [isWritable]
  induction fields with
  | nil => rfl
  | cons kv fields ih =>
    obtain ⟨⟨⟨s, hs⟩, hv⟩, hfields⟩ := List.forall_mem_cons.mp h
    have hk : kv.1.isWritable = true := by rw [hs]; rfl
    rw [areWritableFields, hk, hv, ih hfields]
    rfl

theorem isWritable_of_isJson (h : v.isJson = true) : v.isWritable = true := by
  refine isJson_induction (P := fun v => v.isWritable = true) (fun a ha => ?_)
    (fun items => isWritable_list) (fun fields => isWritable_object) h
  cases a with
  | int n => exact ha
  | _ => rfl

/-- A value that comes from JSON has a text. -/
theorem text_of_isJson (h : v.isJson = true) : v.text = .ok v.spelled :=
  if_pos (isWritable_of_isJson h)

theorem isEndless_list (h : ∀ v ∈ items, v.isEndless = false) :
    (list items).isEndless = false := by
  rw [isEndless]
  induction items with
  | nil => rfl
  | cons v items ih =>
    obtain ⟨hv, hitems⟩ := List.forall_mem_cons.mp h
    rw [isEndlessInItems, hv, ih hitems, Bool.or_self]

theorem isEndless_object (h : fields.Texts (·.isEndless = false)) :
    (object fields).isEndless = false := by
  rw [isEndless]
  induction fields with
  | nil => rfl
  | cons kv fields ih =>
    obtain ⟨⟨-, hv⟩, hfields⟩ := List.forall_mem_cons.mp h
    rw [isEndlessInFields, hv, ih hfields, Bool.or_self]

/-- A value that comes from JSON does not contain itself. -/
theorem isEndless_of_isJson (h : v.isJson = true) : v.isEndless = false :=
  isJson_induction (P := fun v => v.isEndless = false) (fun _ _ => rfl)
    (fun _ => isEndless_list) (fun _ => isEndless_object) h

/-! ### Writing -/

theorem sortedItems_eq (items : List Value) : sortedItems items = items.map sorted := by
  induction items with
  | nil => rfl
  | cons v items ih => rw [sortedItems, ih, List.map_cons]

theorem sortedFields_eq (fields : Fields) :
    sortedFields fields = fields.map fun kv => (kv.1, kv.2.sorted) := by
  induction fields with
  | nil => rfl
  | cons kv fields ih => rw [sortedFields, ih, List.map_cons]

/-- Sorting keys leaves a value one that comes from JSON. -/
theorem isJson_sorted (h : v.isJson = true) : v.sorted.isJson = true := by
  refine isJson_induction (P := fun v => v.sorted.isJson = true) ?_ ?_ ?_ h
  · exact fun a ha => ha
  · intro items ih
    rw [sorted, isJson_list, sortedItems_eq]
    exact List.forall_mem_map.mpr ih
  · intro fields ih
    rw [sorted, isJson_object]
    intro kv hkv
    -- sorting keeps the pairs, in whatever order
    rw [List.mem_mergeSort, sortedFields_eq] at hkv
    obtain ⟨lw, hlw, rfl⟩ := List.mem_map.mp hkv
    exact ih lw hlw

theorem obstacleOf?_of_isJson {a : Atom} (h : a.isJson = true) :
    Json.obstacleOf? Decimal.usualLimit a = none := by
  cases a with
  | int n => exact if_pos h
  | stamp _ => cases h
  | bytes _ => cases h
  | _ => rfl

section Obstacles
variable {limit : Decimal.DigitLimit} {ordered : Bool} {around : List Nat}

theorem obstacleInItems?_eq_none
    (h : ∀ v ∈ items, Json.obstacleIn? limit ordered around v = none) :
    Json.obstacleInItems? limit ordered around items = none := by
  induction items with
  | nil => rfl
  | cons v items ih =>
    obtain ⟨hv, hitems⟩ := List.forall_mem_cons.mp h
    rw [Json.obstacleInItems?, hv, ih hitems]
    rfl

theorem obstacleInFields?_eq_none
    (h : fields.Texts (Json.obstacleIn? limit ordered around · = none)) :
    Json.obstacleInFields? limit ordered around fields = none := by
  induction fields with
  | nil => rfl
  | cons kv fields ih =>
    obtain ⟨⟨⟨s, hs⟩, hv⟩, hfields⟩ := List.forall_mem_cons.mp h
    have hk : Json.obstacleOf? limit kv.1 = none := by rw [hs]; rfl
    rw [Json.obstacleInFields?, hk, hv, ih hfields]
    rfl

theorem obstacleIn?_of_mem_items
    (h : Json.obstacleInItems? limit ordered around items = none) :
    ∀ v ∈ items, Json.obstacleIn? limit ordered around v = none := by
  induction items with
  | nil => exact fun v hv => (nomatch hv)
  | cons v items ih =>
    obtain ⟨hv, hitems⟩ := Option.or_eq_none_iff.mp h
    exact List.forall_mem_cons.mpr ⟨hv, ih hitems⟩

theorem obstacleIn?_of_mem_fields
    (h : Json.obstacleInFields? limit ordered around fields = none) :
    ∀ kv ∈ fields, Json.obstacleIn? limit ordered around kv.2 = none := by
  induction fields with
  | nil => exact fun kv hkv => (nomatch hkv)
  | cons kv fields ih =>
    obtain ⟨hpair, hfields⟩ := Option.or_eq_none_iff.mp h
    exact List.forall_mem_cons.mpr ⟨(Option.or_eq_none_iff.mp hpair).2, ih hfields⟩

end Obstacles

/-- Nothing stands in the way of writing a value that comes from JSON. -/
theorem obstacleIn?_of_isJson {ordered : Bool} {around : List Nat} (h : v.isJson = true) :
    Json.obstacleIn? Decimal.usualLimit ordered around v = none := by
  refine isJson_induction
    (P := fun v => Json.obstacleIn? Decimal.usualLimit ordered around v = none) ?_ ?_ ?_ h
  · exact fun a ha => obstacleOf?_of_isJson ha
  · intro items ih
    rw [Json.obstacleIn?]
    exact obstacleInItems?_eq_none ih
  · intro fields ih
    have hsortable : Atom.sortable (fields.map (·.1)) = true := by
      refine ResourceGraph.sortable_of_texts fun k hk => ?_
      obtain ⟨kv, hkv, rfl⟩ := List.mem_map.mp hk
      exact (ih kv hkv).1
    rw [Json.obstacleIn?, hsortable, Bool.not_true, Bool.and_false]
    exact obstacleInFields?_eq_none ih

/-- **A value that comes from JSON can be written with its keys sorted.** -/
theorem writeSorted_of_isJson (layout : Json.Layout) (h : v.isJson = true) :
    Json.writeSorted layout v = .ok (Json.render layout v.sorted) := by
  unfold Json.writeSorted Json.obstacle?
  rw [obstacleIn?_of_isJson (isJson_sorted h)]

end Value
end GatewayDocs

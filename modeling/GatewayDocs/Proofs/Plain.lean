import GatewayDocs.Proofs.Pairs
import GatewayDocs.Proofs.Write

/-! # Plain values

A plain value is made of atoms, lists and objects alone, and the keys of its objects are distinct
texts (`Value.isPlain`), as in every value that is read from JSON.  A plain value is clear of labels
whatever documentation goes down into (`Value.clear_of_isPlain`). -/

namespace GatewayDocs.Value

mutual

/-- Whether a value is made of atoms, lists and objects whose keys are distinct texts. -/
def isPlain : Value → Bool
  | .atom _ => true
  | .list items => arePlain items
  | .object fields => arePlainFields fields
  | .tuple _ => false
  | .set _ => false
  | .shared _ _ => false
  | .knot _ _ => false
  | .again _ => false

/-- Whether all items of a list are plain. -/
def arePlain : List Value → Bool
  | [] => true
  | v :: rest => isPlain v && arePlain rest

/-- Whether pairs have distinct texts for keys and plain values. -/
def arePlainFields : List (Atom × Value) → Bool
  | [] => true
  | (.str s, v) :: rest => !Pairs.has (.str s) rest && isPlain v && arePlainFields rest
  | _ => false

end

variable {v : Value} {items : List Value} {fields : Fields}

theorem isPlain_list : (list items).isPlain = true ↔ ∀ v ∈ items, v.isPlain = true := by
  rw [isPlain]
  induction items with
  | nil => exact ⟨fun _ v hv => (nomatch hv), fun _ => rfl⟩
  | cons w items ih => rw [arePlain, Bool.and_eq_true, ih, List.forall_mem_cons]

theorem isPlain_object : (object fields).isPlain = true ↔
    Pairs.Keyed fields ∧ ∀ kv ∈ fields, kv.2.isPlain = true := by
  rw [isPlain]
  induction fields with
  | nil => exact ⟨fun _ => ⟨Pairs.Keyed.nil, fun kv hkv => (nomatch hkv)⟩, fun _ => rfl⟩
  | cons kv fields ih =>
    obtain ⟨k, v⟩ := kv
    cases k with
    | str s =>
      rw [arePlainFields, Bool.and_eq_true, Bool.and_eq_true, ih, Pairs.keyed_cons,
        List.forall_mem_cons, Bool.not_eq_true', Pairs.has_eq_false_iff]
      constructor
      · rintro ⟨⟨hnew, hv⟩, hkeyed, hfields⟩
        exact ⟨⟨hnew, hkeyed⟩, hv, hfields⟩
      · rintro ⟨⟨hnew, hkeyed⟩, hv, hfields⟩
        exact ⟨⟨hnew, hv⟩, hkeyed, hfields⟩
    | _ =>
      refine ⟨fun h => (nomatch h), fun h => ?_⟩
      obtain ⟨s, hs⟩ := h.1.text _ List.mem_cons_self
      cases hs

/-- The keys of a plain object are distinct texts. -/
theorem keyed_of_isPlain (h : (object fields).isPlain = true) : Pairs.Keyed fields :=
  (isPlain_object.mp h).1

theorem isPlain_of_mem_fields (h : (object fields).isPlain = true) :
    ∀ kv ∈ fields, kv.2.isPlain = true :=
  (isPlain_object.mp h).2

theorem isPlain_of_get? {key : String} (h : (object fields).isPlain = true)
    (hv : Fields.get? key fields = some v) : v.isPlain = true :=
  isPlain_of_mem_fields h _ (Pairs.mem_of_lookup hv)

theorem isPlain_get {key : String} (h : (object fields).isPlain = true) :
    (Fields.get key fields).isPlain = true := by
  unfold Fields.get
  cases hv : Fields.get? key fields with
  | none => rfl
  | some v => exact isPlain_of_get? h hv

/-- The pairs of a plain value, if it is an object, make a plain object. -/
theorem isPlain_pairs (h : v.isPlain = true) : (object (v.fields?.getD [])).isPlain = true := by
  cases v with
  | object _ => exact h
  | atom _ => rfl
  | list _ => rfl
  | _ => cases h

theorem isOpen_of_isPlain (h : v.isPlain = true) : v.isOpen = true := by
  cases v with
  | atom _ => rfl
  | list _ => rfl
  | object _ => rfl
  | _ => cases h

/-- A plain value is clear, whatever the outline. -/
theorem clear_of_isPlain {o : Outline} (h : v.isPlain = true) : o.Clear v := by
  induction o generalizing v with
  | leaf => trivial
  | object parts ih =>
    refine ⟨isOpen_of_isPlain h, ?_⟩
    rintro fs k x rfl hx
    exact ih k (isPlain_of_get? h hx)
  | responses entry ih =>
    refine ⟨isOpen_of_isPlain h, ?_⟩
    rintro items rfl x hx
    exact ih (isPlain_list.mp h x hx)

end GatewayDocs.Value

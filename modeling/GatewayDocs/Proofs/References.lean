import GatewayDocs.Proofs.Json
import GatewayDocs.Proofs.Marker

/-! # References in a schema

References are rewritten twice: those to definitions become markers (`Value.markRefs`), and markers
become addresses (`Value.resolveRefs`).  Both rewritings put something in the place of the texts of
references, wherever they stand (`Value.replaceRefs`), so one after the other they are a third one
of this kind (`Value.replaceRefs_texts`): each reference becomes the address of its referent
(`Value.resolveRefs_markRefs`). -/

namespace GatewayDocs

/-- The text under a key, if it is that of a reference. -/
def refText? (k : Atom) : Value → Option String
  | .str s => if isRefKey k then some s else none
  | _ => none

theorem eq_str_of_refText? {k : Atom} {v : Value} {s : String} (h : refText? k v = some s) :
    v = .str s := by
  unfold refText? at h
  split at h
  · split at h
    · rw [Option.some.inj h]
    · cases h
  · cases h

/-- The model that a reference means: that of the definition that it names, or of the marker that
it carries. -/
def referent? (s : String) : Option String := (definitionNamed? s).or (modelNamed? s)

/-- A reference with a marker in the place of a definition. -/
def markedText (s : String) : String := ((definitionNamed? s).map marker).getD s

namespace Value

mutual

/-- Puts values in the place of the texts of references.  Tuples and sets are left alone. -/
def replaceRefs (f : String → Option Value) : Value → Value
  | .list items => .list (replaceItems f items)
  | .object fields => .object (replaceFields f fields)
  | .shared l v => .shared l (replaceRefs f v)
  | .atom a => .atom a
  | .tuple items => .tuple items
  | .set members => .set members
  | .knot l v => .knot l v
  | .again l => .again l

/-- Puts values in the place of the references of some items. -/
def replaceItems (f : String → Option Value) : List Value → List Value
  | [] => []
  | v :: rest => replaceRefs f v :: replaceItems f rest

/-- Puts values in the place of the references of some pairs. -/
def replaceFields (f : String → Option Value) : List (Atom × Value) → List (Atom × Value)
  | [] => []
  | (k, v) :: rest =>
    (k, match refText? k v with
      | some s => (f s).getD v
      | none => replaceRefs f v) :: replaceFields f rest

end

mutual

/-- The texts of the references of a value, in the order in which they are met. -/
def refTexts : Value → List String
  | .list items => refTextsOfItems items
  | .object fields => refTextsOfFields fields
  | .shared _ v => refTexts v
  | .atom _ => []
  | .tuple _ => []
  | .set _ => []
  | .knot _ _ => []
  | .again _ => []

/-- The texts of the references of some items. -/
def refTextsOfItems : List Value → List String
  | [] => []
  | v :: rest => refTexts v ++ refTextsOfItems rest

/-- The texts of the references of some pairs. -/
def refTextsOfFields : List (Atom × Value) → List String
  | [] => []
  | (k, v) :: rest => (refText? k v).toList ++ refTexts v ++ refTextsOfFields rest

end

/-! ### Where references are looked for -/

/-- Whether a value has no parts where references are looked for. -/
def isLeaf : Value → Bool
  | .list _ => false
  | .object _ => false
  | .shared _ _ => false
  | _ => true

variable {v : Value} {items : List Value} {fields : Fields} {f g : String → Option Value}
  {restApi : Value} {s : String}

/-- What holds of values without parts, and of the others if it holds of their parts, holds of all
values. -/
theorem refs_induction {P : Value → Prop} (hleaf : ∀ v : Value, v.isLeaf = true → P v)
    (hlist : ∀ items : List Value, (∀ v ∈ items, P v) → P (.list items))
    (hobject : ∀ fields : Fields, (∀ kv ∈ fields, P kv.2) → P (.object fields))
    (hshared : ∀ l v, P v → P (.shared l v)) : ∀ v, P v
  | .list items => hlist items fun v hv =>
      have : sizeOf v < sizeOf items := List.sizeOf_lt_of_mem hv
      refs_induction hleaf hlist hobject hshared v
  | .object fields => hobject fields fun kv hkv =>
      have : sizeOf kv.2 < sizeOf fields := sizeOf_value_lt hkv
      refs_induction hleaf hlist hobject hshared kv.2
  | .shared l v => hshared l v (refs_induction hleaf hlist hobject hshared v)
  | .atom a => hleaf (.atom a) rfl
  | .tuple items => hleaf (.tuple items) rfl
  | .set members => hleaf (.set members) rfl
  | .knot l v => hleaf (.knot l v) rfl
  | .again l => hleaf (.again l) rfl

theorem replaceRefs_leaf (h : v.isLeaf = true) : replaceRefs f v = v := by
  cases v with
  | list _ => cases h
  | object _ => cases h
  | shared _ _ => cases h
  | _ => rw [replaceRefs]

theorem replaceRefs_list : replaceRefs f (list items) = .list (items.map (replaceRefs f)) := by
  rw [replaceRefs]
  induction items with
  | nil => rw [replaceItems]; rfl
  | cons v items ih => rw [replaceItems, list.inj ih]; rfl

/-- What becomes of a pair. -/
def replacePair (f : String → Option Value) (kv : Atom × Value) : Atom × Value :=
  (kv.1, match refText? kv.1 kv.2 with
    | some s => (f s).getD kv.2
    | none => replaceRefs f kv.2)

theorem replacePair_of_some {kv : Atom × Value} (h : refText? kv.1 kv.2 = some s) :
    replacePair f kv = (kv.1, (f s).getD (.str s)) := by
  unfold replacePair
  rw [h, eq_str_of_refText? h]

theorem replacePair_of_none {kv : Atom × Value} (h : refText? kv.1 kv.2 = none) :
    replacePair f kv = (kv.1, replaceRefs f kv.2) := by
  unfold replacePair
  rw [h]

theorem replaceRefs_object :
    replaceRefs f (object fields) = .object (fields.map (replacePair f)) := by
  rw [replaceRefs]
  induction fields with
  | nil => rw [replaceFields]; rfl
  | cons kv fields ih =>
    obtain ⟨k, v⟩ := kv
    rw [replaceFields, object.inj ih]
    rfl

theorem refTexts_leaf (h : v.isLeaf = true) : refTexts v = [] := by
  cases v with
  | list _ => cases h
  | object _ => cases h
  | shared _ _ => cases h
  | _ => rw [refTexts]

theorem refTexts_list : refTexts (list items) = items.flatMap refTexts := by
  rw [refTexts]
  induction items with
  | nil => rw [refTextsOfItems]; rfl
  | cons v items ih => rw [refTextsOfItems, ih]; rfl

theorem refTexts_object : refTexts (object fields) =
    fields.flatMap fun kv => (refText? kv.1 kv.2).toList ++ refTexts kv.2 := by
  rw [refTexts]
  induction fields with
  | nil => rw [refTextsOfFields]; rfl
  | cons kv fields ih =>
    obtain ⟨k, v⟩ := kv
    rw [refTextsOfFields, ih]
    rfl

theorem meetsKnot_list : meetsKnot (list items) = items.any meetsKnot := by
  rw [meetsKnot]
  induction items with
  | nil => rfl
  | cons v items ih => rw [itemsMeetKnot, ih, List.any_cons]

theorem meetsKnot_object : meetsKnot (object fields) = fields.any fun kv => meetsKnot kv.2 := by
  rw [meetsKnot]
  induction fields with
  | nil => rfl
  | cons kv fields ih => rw [fieldsMeetKnot, ih, List.any_cons]

theorem labelsMet_list : labelsMet (list items) = items.flatMap labelsMet := by
  rw [labelsMet]
  induction items with
  | nil => rfl
  | cons v items ih => rw [labelsInItems, ih, List.flatMap_cons]

theorem labelsMet_object :
    labelsMet (object fields) = fields.flatMap fun kv => labelsMet kv.2 := by
  rw [labelsMet]
  induction fields with
  | nil => rfl
  | cons kv fields ih => rw [labelsInFields, ih, List.flatMap_cons]

/-- A function that goes down where references are looked for, and puts values in their place, is
the one that does so. -/
theorem eq_replaceRefs {F : Value → Value} (hleaf : ∀ v, v.isLeaf = true → F v = v)
    (hlist : ∀ items, F (.list items) = .list (items.map F))
    (hobject : ∀ fields : Fields, F (.object fields) = .object (fields.map fun kv =>
      (kv.1, match refText? kv.1 kv.2 with
        | some s => (f s).getD kv.2
        | none => F kv.2)))
    (hshared : ∀ l v, F (.shared l v) = .shared l (F v)) (v : Value) : F v = replaceRefs f v := by
  refine refs_induction (P := fun v => F v = replaceRefs f v)
    (fun v hv => ?_) (fun items ih => ?_) (fun fields ih => ?_) (fun l v ih => ?_) v
  · rw [hleaf v hv, replaceRefs_leaf hv]
  · rw [hlist, replaceRefs_list, List.map_congr_left ih]
  · rw [hobject, replaceRefs_object]
    refine congrArg Value.object (List.map_congr_left fun kv hkv => ?_)
    unfold replacePair
    rw [ih kv hkv]
  · rw [hshared, replaceRefs, ih]

/-! ### The two rewritings -/

/-- The address that takes the place of a marker. -/
def markerAddress (restApi : Value) (s : String) : Option Value :=
  (modelNamed? s).map (modelAddress restApi)

theorem resolveFields_eq : resolveFields restApi fields = fields.map fun kv =>
    (kv.1, match refText? kv.1 kv.2 with
      | some s => (markerAddress restApi s).getD kv.2
      | none => resolveRefs restApi kv.2) := by
  induction fields with
  | nil => rw [resolveFields]; rfl
  | cons kv fields ih =>
    obtain ⟨k, v⟩ := kv
    rw [List.map_cons, ← ih]
    cases v with
    | atom a =>
      cases a with
      | str s =>
        rw [resolveFields, resolveRefs]
        unfold refText? markerAddress
        cases isRefKey k with
        | false => rfl
        | true =>
          simp only [if_true]
          cases modelNamed? s <;> rfl
      | _ => rfl
    | _ => rfl

theorem resolveRefs_eq (restApi v : Value) :
    resolveRefs restApi v = replaceRefs (markerAddress restApi) v := by
  refine eq_replaceRefs (fun v hv => ?_) (fun items => ?_) (fun fields => ?_) (fun l v => ?_) v
  · cases v with
    | list _ => cases hv
    | object _ => cases hv
    | shared _ _ => cases hv
    | _ => rw [resolveRefs]
  · rw [resolveRefs]
    induction items with
    | nil => rw [resolveItems]; rfl
    | cons v items ih => rw [resolveItems, list.inj ih]; rfl
  · rw [resolveRefs, resolveFields_eq]
  · rw [resolveRefs]

theorem markFields_eq : markFields fields = fields.map fun kv =>
    (kv.1, match refText? kv.1 kv.2 with
      | some s => (some (.str (markedText s))).getD kv.2
      | none => markRefs kv.2) := by
  induction fields with
  | nil => rw [markFields]; rfl
  | cons kv fields ih =>
    obtain ⟨k, v⟩ := kv
    rw [List.map_cons, ← ih]
    cases v with
    | atom a =>
      cases a with
      | str s =>
        rw [markFields, markRefs]
        unfold refText? markedText
        cases isRefKey k with
        | false => rfl
        | true =>
          simp only [if_true]
          cases definitionNamed? s <;> rfl
      | _ => rfl
    | _ => rfl

theorem markRefs_eq (v : Value) :
    markRefs v = replaceRefs (fun s => some (.str (markedText s))) v := by
  refine eq_replaceRefs (fun v hv => ?_) (fun items => ?_) (fun fields => ?_) (fun l v => ?_) v
  · cases v with
    | list _ => cases hv
    | object _ => cases hv
    | shared _ _ => cases hv
    | _ => rw [markRefs]
  · rw [markRefs]
    induction items with
    | nil => rw [markItems]; rfl
    | cons v items ih => rw [markItems, list.inj ih]; rfl
  · rw [markRefs, markFields_eq]
  · rw [markRefs]

/-! ### One rewriting after the other -/

theorem mem_refTexts_list : s ∈ refTexts (list items) ↔ ∃ v ∈ items, s ∈ refTexts v := by
  rw [refTexts_list, List.mem_flatMap]

theorem mem_refTexts_object : s ∈ refTexts (object fields) ↔
    ∃ kv ∈ fields, refText? kv.1 kv.2 = some s ∨ s ∈ refTexts kv.2 := by
  rw [refTexts_object, List.mem_flatMap]
  simp only [List.mem_append, Option.mem_toList]

/-- The models that a value names are those of its references that carry markers. -/
theorem namedModels_eq (v : Value) : namedModels v = (refTexts v).filterMap modelNamed? := by
  refine refs_induction (P := fun v => namedModels v = (refTexts v).filterMap modelNamed?)
    (fun v hv => ?_) (fun items ih => ?_) (fun fields ih => ?_) (fun l v ih => ?_) v
  · rw [refTexts_leaf hv]
    cases v with
    | list _ => cases hv
    | object _ => cases hv
    | shared _ _ => cases hv
    | _ => rw [namedModels]; rfl
  · rw [namedModels, refTexts]
    induction items with
    | nil => rw [namedInItems, refTextsOfItems]; rfl
    | cons v items hitems =>
      obtain ⟨hv, hrest⟩ := List.forall_mem_cons.mp ih
      rw [namedInItems, refTextsOfItems, List.filterMap_append, hv, hitems hrest]
  · rw [namedModels, refTexts]
    induction fields with
    | nil => rw [namedInFields, refTextsOfFields]; rfl
    | cons kv fields hfields =>
      obtain ⟨k, v⟩ := kv
      obtain ⟨hv, hrest⟩ := List.forall_mem_cons.mp ih
      rw [refTextsOfFields, List.filterMap_append, List.filterMap_append, ← hfields hrest, ← hv]
      cases v with
      | atom a =>
        cases a with
        | str s =>
          rw [namedInFields, namedModels, List.append_nil]
          congr 1
          unfold refText?
          cases isRefKey k with
          | false => rfl
          | true =>
            simp only [if_true, Option.toList_some, List.filterMap_cons, List.filterMap_nil]
            cases modelNamed? s <;> rfl
        | _ => rfl
      | _ => rfl
  · rw [namedModels, refTexts, ih]

/-- A schema with the addresses of their referents in the place of its references. -/
def addressed (restApi : Value) (schema : Value) : Value :=
  replaceRefs (fun s => (referent? s).map (modelAddress restApi)) schema

end Value
end GatewayDocs

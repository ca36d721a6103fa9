import GatewayDocs.Proofs.Place
import GatewayDocs.Proofs.Plain
import GatewayDocs.Proofs.References

/-! # The places of a plain value

The places of a value, in the order of a walk that goes down before it goes on
(`Value.places`), are the ways that lead somewhere in it, each with what stands there
(`Value.mem_places_iff`).  What is done to the references of a value can be told place by place: a
value comes from another one by replacing its references if every place has what it should have
(`Value.Replaced`), and there is one such value (`Value.replaced_iff`).  The references are met in
the order of their places (`Value.refTexts_eq_places`). -/

namespace GatewayDocs

/-- A way into a value, with what stands at its end. -/
abbrev Value.Place := List Step × Value

namespace Value.Place

/-- A place of a part of a value, in that value. -/
def below (step : Step) (place : Place) : Place := (step :: place.1, place.2)

/-- The text of a reference that stands at a place. -/
def refText? (place : Place) : Option String :=
  match place.1.getLast? with
  | some (.key k) => GatewayDocs.refText? k place.2
  | _ => none

/-- The model that a reference at a place names by a marker. -/
def modelNamed? (place : Place) : Option String := place.refText?.bind GatewayDocs.modelNamed?

variable {p : Place} {step : Step} {v : Value} {k : Atom}

theorem refText?_root : refText? ([], v) = none := rfl

theorem refText?_below_key : refText? (below (.key k) ([], v)) = GatewayDocs.refText? k v := rfl

theorem refText?_below_index {i : Nat} : refText? (below (.index i) ([], v)) = none := rfl

/-- What is deeper does not become a reference, or stop being one, further in. -/
theorem refText?_below (h : p.1 ≠ []) : refText? (below step p) = refText? p := by
  obtain ⟨s, path, hpath⟩ := List.exists_cons_of_ne_nil h
  unfold refText? below
  simp only [hpath, List.getLast?_cons_cons]

end Value.Place

namespace Value

mutual

/-- The places inside of a value, where references are looked for. -/
def innerPlaces : Value → List Place
  | .list items => innerOfItems 0 items
  | .object fields => innerOfFields fields
  | .atom _ => []
  | .tuple _ => []
  | .set _ => []
  | .shared _ _ => []
  | .knot _ _ => []
  | .again _ => []

/-- The places in some items, the first of which has a given number. -/
def innerOfItems (i : Nat) : List Value → List Place
  | [] => []
  | v :: rest =>
    Place.below (.index i) ([], v) :: (innerPlaces v).map (Place.below (.index i)) ++
      innerOfItems (i + 1) rest

/-- The places in some pairs. -/
def innerOfFields : List (Atom × Value) → List Place
  | [] => []
  | (k, v) :: rest =>
    Place.below (.key k) ([], v) :: (innerPlaces v).map (Place.below (.key k)) ++
      innerOfFields rest

end

/-- The places of a value: itself, and those inside of it. -/
def places (v : Value) : List Place := ([], v) :: innerPlaces v

/-- The models that the references of a value name, in the order of their places. -/
def modelsNamed (v : Value) : List String := v.places.filterMap Place.modelNamed?

variable {v w x : Value} {a : Atom} {items xs : List Value} {fields : Fields} {p : Place}
  {f : String → Option Value} {step : Step} {i : Nat}

/-- What holds of atoms, and of lists and objects if it holds of their parts, holds of all plain
values. -/
theorem isPlain_induction {P : Value → Prop} (hatom : ∀ a : Atom, P (.atom a))
    (hlist : ∀ items : List Value, (∀ v ∈ items, P v) → P (.list items))
    (hobject : ∀ fields : Fields, Pairs.Keyed fields → (∀ kv ∈ fields, P kv.2) →
      P (.object fields)) : ∀ {v : Value}, v.isPlain = true → P v
  | .atom a, _ => hatom a
  | .list items, h => hlist items fun v hv =>
      have : sizeOf v < sizeOf items := List.sizeOf_lt_of_mem hv
      isPlain_induction hatom hlist hobject (isPlain_list.mp h v hv)
  | .object fields, h => hobject fields (keyed_of_isPlain h) fun kv hkv =>
      have : sizeOf kv.2 < sizeOf fields := sizeOf_value_lt hkv
      isPlain_induction hatom hlist hobject (isPlain_of_mem_fields h kv hkv)
  | .tuple _, h => (nomatch h)
  | .set _, h => (nomatch h)
  | .shared _ _, h => (nomatch h)
  | .knot _ _, h => (nomatch h)
  | .again _, h => (nomatch h)

/-! ### Going down -/

theorem innerPlaces_atom : innerPlaces (atom a) = [] := by rw [innerPlaces]

theorem innerOfItems_eq (i : Nat) (items : List Value) : innerOfItems i items =
    (items.zipIdx i).flatMap fun vi => vi.1.places.map (Place.below (.index vi.2)) := by
  induction items generalizing i with
  | nil => rw [innerOfItems]; rfl
  | cons v items ih =>
    rw [innerOfItems, ih, List.zipIdx_cons, List.flatMap_cons]
    rfl

theorem innerPlaces_list : innerPlaces (list items) =
    items.zipIdx.flatMap fun vi => vi.1.places.map (Place.below (.index vi.2)) := by
  rw [innerPlaces, innerOfItems_eq]

theorem innerPlaces_object : innerPlaces (object fields) =
    fields.flatMap fun kv => kv.2.places.map (Place.below (.key kv.1)) := by
  rw [innerPlaces]
  induction fields with
  | nil => rw [innerOfFields]; rfl
  | cons kv fields ih =>
    obtain ⟨k, v⟩ := kv
    rw [innerOfFields, ih, List.flatMap_cons]
    rfl

theorem mem_innerPlaces_list : p ∈ innerPlaces (list items) ↔
    ∃ i v, items[i]? = some v ∧ ∃ q ∈ v.places, Place.below (.index i) q = p := by
  rw [innerPlaces_list, List.mem_flatMap]
  constructor
  · rintro ⟨⟨v, i⟩, hv, hp⟩
    exact ⟨i, v, List.mem_zipIdx_iff_getElem?.mp hv, List.mem_map.mp hp⟩
  · rintro ⟨i, v, hv, hp⟩
    exact ⟨(v, i), List.mem_zipIdx_iff_getElem?.mpr hv, List.mem_map.mpr hp⟩

theorem mem_innerPlaces_object : p ∈ innerPlaces (object fields) ↔
    ∃ kv ∈ fields, ∃ q ∈ kv.2.places, Place.below (.key kv.1) q = p := by
  rw [innerPlaces_object, List.mem_flatMap]
  simp only [List.mem_map]

theorem ne_nil_of_mem_innerPlaces (h : p ∈ innerPlaces v) : p.1 ≠ [] := by
  cases v with
  | list items =>
    obtain ⟨i, v, -, q, -, rfl⟩ := mem_innerPlaces_list.mp h
    exact List.cons_ne_nil _ _
  | object fields =>
    obtain ⟨kv, -, q, -, rfl⟩ := mem_innerPlaces_object.mp h
    exact List.cons_ne_nil _ _
  | _ =>
    rw [innerPlaces] at h
    cases h

/-- **The places of a plain value are the ways that lead somewhere in it.** -/
theorem mem_places_iff (h : v.isPlain = true) {path : List Step} :
    (path, x) ∈ v.places ↔ Leads path v x := by
  refine isPlain_induction (P := fun v => ∀ path x, (path, x) ∈ v.places ↔ Leads path v x)
    (fun a path x => ?_) (fun items ih path x => ?_) (fun fields hkeyed ih path x => ?_) h path x
  · rw [places, innerPlaces_atom, List.mem_singleton]
    constructor
    · intro heq
      obtain ⟨rfl, rfl⟩ := Prod.mk.inj heq
      exact .here _
    · intro hleads
      cases hleads
      rfl
  · rw [places, List.mem_cons, mem_innerPlaces_list]
    constructor
    · rintro (heq | ⟨i, v, hv, q, hq, hqp⟩)
      · obtain ⟨rfl, rfl⟩ := Prod.mk.inj heq
        exact .here _
      · obtain ⟨rfl, rfl⟩ := Prod.mk.inj hqp
        exact .index hv ((ih v (List.mem_of_getElem? hv) _ _).mp hq)
    · intro hleads
      cases hleads with
      | here => exact .inl rfl
      | @index i _ v _ path hv hrest =>
        exact .inr ⟨i, v, hv, _, (ih v (List.mem_of_getElem? hv) _ _).mpr hrest, rfl⟩
  · rw [places, List.mem_cons, mem_innerPlaces_object]
    constructor
    · rintro (heq | ⟨⟨k, v⟩, hkv, q, hq, hqp⟩)
      · obtain ⟨rfl, rfl⟩ := Prod.mk.inj heq
        exact .here _
      · obtain ⟨rfl, rfl⟩ := Prod.mk.inj hqp
        obtain ⟨s, rfl⟩ := hkeyed.text k (List.mem_map_of_mem hkv)
        exact .key (hkeyed.lookup_of_mem hkv) ((ih _ hkv _ _).mp hq)
    · intro hleads
      cases hleads with
      | here => exact .inl rfl
      | @key s _ v _ path hv hrest =>
        have hmem := Pairs.mem_of_lookup hv
        exact .inr ⟨_, hmem, _, (ih _ hmem _ _).mpr hrest, rfl⟩

/-! ### References, by place -/

theorem filterMap_below_index :
    (v.places.map (Place.below (.index i))).filterMap Place.refText? =
      v.places.filterMap Place.refText? := by
  rw [List.filterMap_map, places, List.filterMap_cons_none Place.refText?_root,
    List.filterMap_cons_none (by exact Place.refText?_below_index)]
  exact List.filterMap_congr fun p hp => Place.refText?_below (ne_nil_of_mem_innerPlaces hp)

theorem filterMap_below_key :
    (v.places.map (Place.below (.key a))).filterMap Place.refText? =
      (refText? a v).toList ++ v.places.filterMap Place.refText? := by
  have hinner : (innerPlaces v).filterMap (Place.refText? ∘ Place.below (.key a)) =
      (innerPlaces v).filterMap Place.refText? :=
    List.filterMap_congr fun p hp => Place.refText?_below (ne_nil_of_mem_innerPlaces hp)
  rw [List.filterMap_map, places, List.filterMap_cons_none Place.refText?_root,
    List.filterMap_cons, hinner, Function.comp_apply, Place.refText?_below_key]
  cases refText? a v <;> rfl

/-- The references of a plain value are met in the order of their places. -/
theorem refTexts_eq_places (h : v.isPlain = true) :
    refTexts v = v.places.filterMap Place.refText? := by
  refine isPlain_induction (P := fun v => refTexts v = v.places.filterMap Place.refText?)
    (fun a => ?_) (fun items ih => ?_) (fun fields _ ih => ?_) h
  · rw [refTexts_leaf rfl, places, innerPlaces_atom]
    rfl
  · rw [refTexts_list, places, List.filterMap_cons_none Place.refText?_root, innerPlaces_list,
      List.filterMap_flatMap]
    simp only [filterMap_below_index]
    rw [List.flatMap_congr ih]
    conv_lhs => rw [← List.zipIdx_map_fst 0 items]
    rw [List.flatMap_map]
  · rw [refTexts_object, places, List.filterMap_cons_none Place.refText?_root,
      innerPlaces_object, List.filterMap_flatMap]
    refine List.flatMap_congr fun kv hkv => ?_
    rw [filterMap_below_key, ih kv hkv]

theorem namedModels_eq_places (h : v.isPlain = true) : namedModels v = v.modelsNamed := by
  rw [namedModels_eq, refTexts_eq_places h, List.filterMap_filterMap]
  rfl

/-! ### Replacing references, by place -/

/-- A value has the form of another one: it is the same atom, a list of as many items, or an object
with the same keys in the same order. -/
inductive SameForm : Value → Value → Prop where
  | atom (a : Atom) : SameForm (.atom a) (.atom a)
  | list {items xs : List Value} : xs.length = items.length → SameForm (.list items) (.list xs)
  | object {fields gs : Fields} : Pairs.keys gs = Pairs.keys fields →
      SameForm (.object fields) (.object gs)

theorem SameForm.of_list (h : SameForm (.list items) w) :
    ∃ xs, w = .list xs ∧ xs.length = items.length := by
  cases h with
  | list hlen => exact ⟨_, rfl, hlen⟩

theorem SameForm.of_object (h : SameForm (.object fields) w) :
    ∃ gs, w = .object gs ∧ Pairs.keys gs = Pairs.keys fields := by
  cases h with
  | object hkeys => exact ⟨_, rfl, hkeys⟩

/-- At a place of a value, another one has what replaces the reference that stands there, or, if
none is replaced there, something of the same form. -/
structure ReplacedAt (f : String → Option Value) (w : Value) (p : Place) : Prop where
  new : ∀ u, p.refText?.bind f = some u → w.at? p.1 = some u
  old : p.refText?.bind f = none → ∃ x, w.at? p.1 = some x ∧ SameForm p.2 x

/-- A value is another one with some of its references replaced, at every place. -/
def Replaced (f : String → Option Value) (v w : Value) : Prop :=
  ∀ p ∈ v.places, ReplacedAt f w p

/-- What stands at a place of a part. -/
theorem at?_below : w.at? (Place.below step p).1 = (w.part? step).bind (at? p.1) := rfl

theorem replacedAt_root : ReplacedAt f w ([], v) ↔ SameForm v w := by
  constructor
  · intro h
    obtain ⟨x, hx, hform⟩ := h.old rfl
    exact Option.some.inj hx ▸ hform
  · intro h
    exact ⟨fun u hu => (nomatch hu), fun _ => ⟨w, rfl, h⟩⟩

theorem replaced_cons :
    Replaced f v w ↔ SameForm v w ∧ ∀ p ∈ innerPlaces v, ReplacedAt f w p := by
  unfold Replaced places
  rw [List.forall_mem_cons, replacedAt_root]

/-- A part is replaced as a whole if it is a reference that is replaced, and by place if not. -/
theorem replaced_part (hpart : w.part? step = some x)
    (hroot : (Place.refText? (Place.below step ([], v))).bind f = none) :
    (∀ q ∈ v.places, ReplacedAt f w (Place.below step q)) ↔ Replaced f v x := by
  have hat : ∀ q : Place, w.at? (Place.below step q).1 = x.at? q.1 := by
    intro q
    rw [at?_below, hpart, Option.bind_some]
  refine forall₂_congr fun q hq => ?_
  have htext : (Place.refText? (Place.below step q)).bind f = q.refText?.bind f := by
    rcases List.mem_cons.mp hq with rfl | hq
    · exact hroot
    · rw [Place.refText?_below (ne_nil_of_mem_innerPlaces hq)]
  constructor
  · intro h
    exact ⟨fun u hu => hat q ▸ h.new u (htext.trans hu),
      fun hnone => hat q ▸ h.old (htext.trans hnone)⟩
  · intro h
    exact ⟨fun u hu => (hat q).trans (h.new u (htext.symm.trans hu)),
      fun hnone => (hat q).symm ▸ h.old (htext.symm.trans hnone)⟩

/-- A part that is not replaced itself has its references replaced. -/
theorem replaced_step (hroot : (Place.refText? (Place.below step ([], v))).bind f = none)
    (hv : ∀ x, Replaced f v x ↔ x = replaceRefs f v) :
    (∀ q ∈ v.places, ReplacedAt f w (Place.below step q)) ↔
      w.part? step = some (replaceRefs f v) := by
  constructor
  · intro h
    obtain ⟨x, hx, -⟩ := (h _ List.mem_cons_self).old hroot
    rw [at?_below, Option.bind_eq_some_iff] at hx
    obtain ⟨y, hy, -⟩ := hx
    rw [hy, (hv y).mp ((replaced_part hy hroot).mp h)]
  · intro h
    exact (replaced_part h hroot).mpr ((hv _).mpr rfl)

/-- The value of a pair is replaced as a reference, or has its references replaced. -/
theorem replaced_pair {kv : Atom × Value}
    (hv : ∀ x, Replaced f kv.2 x ↔ x = replaceRefs f kv.2) :
    (∀ q ∈ kv.2.places, ReplacedAt f w (Place.below (.key kv.1) q)) ↔
      w.part? (.key kv.1) = some (replacePair f kv).2 := by
  cases hroot : (refText? kv.1 kv.2).bind f with
  | none =>
    have hpair : (replacePair f kv).2 = replaceRefs f kv.2 := by
      cases hs : refText? kv.1 kv.2 with
      | none => rw [replacePair_of_none hs]
      | some s =>
        rw [hs, Option.bind_some] at hroot
        rw [replacePair_of_some hs, hroot, eq_str_of_refText? hs, replaceRefs_leaf rfl]
        rfl
    rw [hpair]
    exact replaced_step hroot hv
  | some u =>
    obtain ⟨s, hs, hu⟩ := Option.bind_eq_some_iff.mp hroot
    have hpair : (replacePair f kv).2 = u := by
      rw [replacePair_of_some hs, hu]
      rfl
    have hplaces : kv.2.places = [([], kv.2)] := by
      rw [places, eq_str_of_refText? hs, innerPlaces_atom]
    have hat : w.at? (Place.below (.key kv.1) ([], kv.2)).1 = w.part? (.key kv.1) :=
      Option.bind_fun_some _
    rw [hpair, hplaces, List.forall_mem_singleton]
    constructor
    · intro h
      rw [← hat]
      exact h.new u hroot
    · intro h
      refine ⟨fun u' hu' => ?_, fun hnone => ?_⟩
      · obtain rfl := Option.some.inj (hroot.symm.trans hu')
        exact hat.trans h
      · cases hroot.symm.trans hnone

theorem replaced_atom : Replaced f (atom a) w ↔ w = replaceRefs f (atom a) := by
  rw [replaced_cons, innerPlaces_atom, replaceRefs_leaf rfl]
  constructor
  · rintro ⟨⟨⟩, -⟩
    rfl
  · rintro rfl
    exact ⟨.atom a, fun p hp => (nomatch hp)⟩

theorem replaced_list (hitems : ∀ v ∈ items, ∀ x, Replaced f v x ↔ x = replaceRefs f v) :
    Replaced f (list items) w ↔ w = replaceRefs f (list items) := by
  rw [replaced_cons, replaceRefs_list]
  constructor
  · rintro ⟨hform, hinner⟩
    obtain ⟨xs, rfl, hlen⟩ := hform.of_list
    refine congrArg Value.list (List.ext_getElem? fun i => ?_)
    rw [List.getElem?_map]
    by_cases hi : i < items.length
    · have hv := List.getElem?_eq_getElem hi
      rw [hv]
      have hstep : (∀ q ∈ items[i].places, ReplacedAt f (list xs) (Place.below (.index i) q)) ↔
          xs[i]? = some (replaceRefs f items[i]) :=
        replaced_step rfl (hitems _ (List.getElem_mem hi))
      refine hstep.mp fun q hq => ?_
      exact hinner _ (mem_innerPlaces_list.mpr ⟨i, _, hv, q, hq, rfl⟩)
    · rw [List.getElem?_eq_none (by omega), List.getElem?_eq_none (by omega)]
      rfl
  · rintro rfl
    refine ⟨.list (by rw [List.length_map]), fun p hp => ?_⟩
    obtain ⟨i, v, hv, q, hq, rfl⟩ := mem_innerPlaces_list.mp hp
    have hpart : (list (items.map (replaceRefs f))).part? (.index i) = some (replaceRefs f v) := by
      show (items.map (replaceRefs f))[i]? = some (replaceRefs f v)
      rw [List.getElem?_map, hv]
      rfl
    exact (replaced_step rfl (hitems v (List.mem_of_getElem? hv))).mpr hpart q hq

theorem keys_map_replacePair : Pairs.keys (fields.map (replacePair f)) = Pairs.keys fields :=
  List.map_map

theorem keyed_map_replacePair (h : Pairs.Keyed fields) :
    Pairs.Keyed (fields.map (replacePair f)) :=
  ⟨by rw [keys_map_replacePair]; exact h.text, by rw [keys_map_replacePair]; exact h.nodup⟩

/-- What is found under a key after a replacement. -/
theorem lookup_map_replacePair (hkeyed : Pairs.Keyed fields) {s : String} {v : Value}
    (h : (.str s, v) ∈ fields) :
    Pairs.lookup (.str s) (fields.map (replacePair f)) = some (replacePair f (.str s, v)).2 :=
  (keyed_map_replacePair hkeyed).lookup_of_mem (List.mem_map_of_mem h)

theorem replaced_object (hkeyed : Pairs.Keyed fields)
    (hfields : ∀ kv ∈ fields, ∀ x, Replaced f kv.2 x ↔ x = replaceRefs f kv.2) :
    Replaced f (object fields) w ↔ w = replaceRefs f (object fields) := by
  rw [replaced_cons, replaceRefs_object]
  constructor
  · rintro ⟨hform, hinner⟩
    obtain ⟨gs, rfl, hkeys⟩ := hform.of_object
    have hgs : Pairs.Keyed gs := ⟨hkeys ▸ hkeyed.text, hkeys ▸ hkeyed.nodup⟩
    refine congrArg Value.object (hgs.ext (hkeys.trans keys_map_replacePair.symm) fun s hs => ?_)
    obtain ⟨⟨k, v⟩, hkv, rfl⟩ := List.mem_map.mp (hkeys ▸ hs)
    rw [lookup_map_replacePair hkeyed hkv]
    have hpair := replaced_pair (w := object gs) (hfields _ hkv)
    refine hpair.mp fun q hq => ?_
    exact hinner _ (mem_innerPlaces_object.mpr ⟨_, hkv, q, hq, rfl⟩)
  · rintro rfl
    refine ⟨.object keys_map_replacePair, fun p hp => ?_⟩
    obtain ⟨⟨k, v⟩, hkv, q, hq, rfl⟩ := mem_innerPlaces_object.mp hp
    obtain ⟨s, rfl⟩ := hkeyed.text k (List.mem_map_of_mem hkv)
    have hpart : (object (fields.map (replacePair f))).part? (.key (.str s)) =
      some (replacePair f (.str s, v)).2 := lookup_map_replacePair hkeyed hkv
    exact (replaced_pair (hfields _ hkv)).mpr hpart q hq

/-- **A value is a plain one with references replaced, place by place, if and only if it is what
the rewriting makes of it.** -/
theorem replaced_iff (h : v.isPlain = true) : Replaced f v w ↔ w = replaceRefs f v :=
  isPlain_induction (P := fun v => ∀ w, Replaced f v w ↔ w = replaceRefs f v)
    (fun _ _ => replaced_atom) (fun _ ih _ => replaced_list ih)
    (fun _ hkeyed ih _ => replaced_object hkeyed ih) h w

/-! ### What is not met in a plain value -/

theorem meetsKnot_of_isPlain (h : v.isPlain = true) : v.meetsKnot = false := by
  refine isPlain_induction (P := fun v => v.meetsKnot = false) ?_ ?_ ?_ h
  · intro a
    rw [meetsKnot]
  · intro items ih
    rw [meetsKnot_list]
    exact List.any_eq_false.mpr fun v hv => Bool.eq_false_iff.mp (ih v hv)
  · intro fields _ ih
    rw [meetsKnot_object]
    exact List.any_eq_false.mpr fun kv hkv => Bool.eq_false_iff.mp (ih kv hkv)

theorem labelsMet_of_isPlain (h : v.isPlain = true) : v.labelsMet = [] := by
  refine isPlain_induction (P := fun v => v.labelsMet = []) ?_ ?_ ?_ h
  · intro a
    rw [labelsMet]
  · intro items ih
    rw [labelsMet_list]
    exact List.flatMap_eq_nil_iff.mpr ih
  · intro fields _ ih
    rw [labelsMet_object]
    exact List.flatMap_eq_nil_iff.mpr ih

end Value
end GatewayDocs

import GatewayDocs.Proofs.Edit
import GatewayDocs.Proofs.Pairs
import GatewayDocs.Shape.Objects

/-! # What is read is part of what is given

A reading of several parts succeeds only if the readings of all parts do (`Checked.seq_eq_ok`,
`Checked.all_eq_ok`).  So a property that a value hands down to its parts (`Hereditary`) holds of
everything that is read from it: of the items of a list (`listOf_hands`), the fields of a record
(`optional_hands`) and the pairs that are kept (`extras_hands`). -/

namespace GatewayDocs

namespace Checked
variable {α β : Type} {x : Checked α} {b : β} {a : α} {step : Step}

theorem map_eq_ok {f : α → β} : f <$> x = .ok b ↔ ∃ a, x = .ok a ∧ f a = b := by
  cases x with
  | ok a =>
    refine ⟨fun h => ⟨a, rfl, Checked.ok.inj h⟩, ?_⟩
    rintro ⟨_, ha, h⟩
    cases ha
    exact congrArg _ h
  | faulty ps => exact ⟨fun h => (nomatch h), fun ⟨_, ha, _⟩ => (nomatch ha)⟩

/-- A reading of two parts succeeds only if both do. -/
theorem seq_eq_ok {f : Checked (α → β)} :
    f <*> x = .ok b ↔ ∃ g a, f = .ok g ∧ x = .ok a ∧ g a = b := by
  cases f with
  | ok g =>
    cases x with
    | ok a =>
      refine ⟨fun h => ⟨g, a, rfl, rfl, Checked.ok.inj h⟩, ?_⟩
      rintro ⟨g', a', hg, ha, rfl⟩
      cases hg
      cases ha
      rfl
    | faulty ps => exact ⟨fun h => (nomatch h), fun ⟨_, _, _, ha, _⟩ => (nomatch ha)⟩
  | faulty ps =>
    refine ⟨fun h => ?_, fun ⟨_, _, hf, _⟩ => (nomatch hf)⟩
    cases x <;> cases h

theorem within_eq_ok : x.within step = .ok a ↔ x = .ok a := by
  cases x with
  | ok a' => exact Iff.rfl
  | faulty ps => exact ⟨fun h => (nomatch h), fun h => (nomatch h)⟩

/-- All parts are read only if each of them is. -/
theorem all_eq_ok {xs : List (Checked α)} {as : List α} :
    Checked.all xs = .ok as ↔ xs = as.map .ok := by
  induction xs generalizing as with
  | nil =>
    cases as with
    | nil => exact ⟨fun _ => rfl, fun _ => rfl⟩
    | cons a as => exact ⟨fun h => (nomatch h), fun h => (nomatch h)⟩
  | cons x xs ih =>
    have hstep : Checked.all (x :: xs) = (List.cons <$> x) <*> Checked.all xs := rfl
    rw [hstep, seq_eq_ok]
    constructor
    · rintro ⟨g, bs, hg, hbs, rfl⟩
      obtain ⟨a, rfl, rfl⟩ := map_eq_ok.mp hg
      rw [ih.mp hbs]
      rfl
    · intro h
      cases as with
      | nil => cases h
      | cons a as =>
        rw [List.map_cons, List.cons.injEq] at h
        exact ⟨List.cons a, as, map_eq_ok.mpr ⟨a, h.1, rfl⟩, ih.mpr h.2, rfl⟩

theorem orInvalid_eq_ok {shape : String} : x.orInvalid shape = .ok a ↔ x = .ok a := by
  cases x with
  | ok a' => exact ⟨fun h => congrArg _ (Except.ok.inj h), fun h => congrArg _ (Checked.ok.inj h)⟩
  | faulty ps => exact ⟨fun h => (nomatch h), fun h => (nomatch h)⟩

end Checked

/-- A property that values hand down to their items and to the values of their pairs. -/
structure Hereditary (P : Value → Prop) : Prop where
  items : ∀ {v : Value} {items : List Value}, Shape.items? v = some items → P v → ∀ x ∈ items, P x
  fields : ∀ {v : Value} {fs : Fields}, v.fields? = some fs → P v → ∀ kv ∈ fs, P kv.2

theorem Hereditary.trivial : Hereditary fun _ => True :=
  ⟨fun _ _ _ _ => True.intro, fun _ _ _ _ => True.intro⟩

/-- The values of pairs have a property. -/
def Fields.Hold (P : Value → Prop) (fs : Fields) : Prop := ∀ kv ∈ fs, P kv.2

/-- Pairs with text keys whose values have a property. -/
def Fields.Texts (P : Value → Prop) (fs : Fields) : Prop :=
  ∀ kv ∈ fs, (∃ s, kv.1 = .str s) ∧ P kv.2

namespace Pairs
variable {α : Type} {K : Atom → Prop} {Q : α → Prop} {xs ys : List (Atom × α)}

/-- Properties of keys and of values are kept when pairs are written. -/
theorem forall_put {k : Atom} {v : α} (hx : ∀ kv ∈ xs, K kv.1 ∧ Q kv.2) (hk : K k) (hv : Q v) :
    ∀ kv ∈ put k v xs, K kv.1 ∧ Q kv.2 := by
  induction xs with
  | nil =>
    intro kv hkv
    rw [List.mem_singleton.mp hkv]
    exact ⟨hk, hv⟩
  | cons lw xs ih =>
    obtain ⟨l, w⟩ := lw
    have hl := hx (l, w) List.mem_cons_self
    have htail : ∀ kv ∈ xs, K kv.1 ∧ Q kv.2 := fun kv h => hx kv (List.mem_cons_of_mem _ h)
    intro kv hkv
    rw [put] at hkv
    split at hkv
    · rcases List.mem_cons.mp hkv with rfl | hkv
      · exact ⟨hl.1, hv⟩
      · exact htail kv hkv
    · rcases List.mem_cons.mp hkv with rfl | hkv
      · exact hl
      · exact ih htail kv hkv

theorem forall_putAll (hx : ∀ kv ∈ xs, K kv.1 ∧ Q kv.2) (hy : ∀ kv ∈ ys, K kv.1 ∧ Q kv.2) :
    ∀ kv ∈ putAll xs ys, K kv.1 ∧ Q kv.2 := by
  induction ys generalizing xs with
  | nil => exact hx
  | cons kv ys ih =>
    have hkv := hy kv List.mem_cons_self
    exact ih (forall_put hx hkv.1 hkv.2) fun kw h => hy kw (List.mem_cons_of_mem _ h)

theorem mem_of_lookup_any {k : Atom} {v : α} (h : lookup k xs = some v) : ∃ l, (l, v) ∈ xs := by
  induction xs with
  | nil => cases h
  | cons lw xs ih =>
    obtain ⟨l, w⟩ := lw
    rw [lookup] at h
    split at h
    · exact ⟨l, Option.some.inj h ▸ List.mem_cons_self⟩
    · obtain ⟨l', hl'⟩ := ih h
      exact ⟨l', List.mem_cons_of_mem _ hl'⟩

end Pairs

namespace Shape
variable {α : Type} {P : Value → Prop} {Q : α → Prop} {read : Value → Checked α}
  {readFields : Fields → Checked α} {fs : Fields} {v : Value} {names : List String} {a d : α}

/-- What is read from a value with one property has another one. -/
def Hands (P : Value → Prop) (Q : α → Prop) (read : Value → Checked α) : Prop :=
  ∀ ⦃v a⦄, P v → read v = .ok a → Q a

/-! ### Leaves -/

theorem orNull_hands (h : Hands P Q read) : Hands P (fun o => ∀ a ∈ o, Q a) (orNull read) := by
  intro v o hv ho a ha
  unfold orNull at ho
  split at ho
  · cases ho
    cases ha
  · obtain ⟨b, hb, rfl⟩ := Checked.map_eq_ok.mp ho
    cases ha
    exact h hv hb

/-! ### Lists -/

theorem mem_itemsFrom {i : Nat} {items : List Value} {x : Checked α}
    (h : x ∈ itemsFrom read i items) : ∃ w ∈ items, ∃ j, x = (read w).within (.index j) := by
  induction items generalizing i with
  | nil => cases h
  | cons w items ih =>
    rcases List.mem_cons.mp h with rfl | h
    · exact ⟨w, List.mem_cons_self, i, rfl⟩
    · obtain ⟨w', hw', j, rfl⟩ := ih h
      exact ⟨w', List.mem_cons_of_mem _ hw', j, rfl⟩

theorem listOf_hands (hP : Hereditary P) (h : Hands P Q read) :
    Hands P (fun as => ∀ a ∈ as, Q a) (listOf read) := by
  intro v as hv has a ha
  unfold listOf at has
  cases hi : items? v with
  | none => rw [hi] at has; cases has
  | some items =>
    rw [hi] at has
    have hall : itemsFrom read 0 items = as.map .ok := Checked.all_eq_ok.mp has
    have hmem : Checked.ok a ∈ itemsFrom read 0 items := hall ▸ List.mem_map_of_mem ha
    obtain ⟨w, hw, j, hj⟩ := mem_itemsFrom hmem
    exact h (hP.items hi hv w hw) (Checked.within_eq_ok.mp hj.symm)

/-! ### Records -/

/-- A field is found under one of its names. -/
theorem find?_eq_some {name : String} (h : find? names fs = some (name, v)) :
    name ∈ names ∧ Fields.get? name fs = some v := by
  obtain ⟨n, hn, hat⟩ := List.exists_of_findSome?_eq_some h
  obtain ⟨w, hw, he⟩ := Option.map_eq_some_iff.mp hat
  cases he
  exact ⟨hn, hw⟩

theorem find?_mem {name : String} (h : find? names fs = some (name, v)) : ∃ k, (k, v) ∈ fs :=
  Pairs.mem_of_lookup_any (find?_eq_some h).2

theorem optional_hands (h : Hands P Q read) (hd : Q d) (hfs : fs.Hold P)
    (ha : optional names d read fs = .ok a) : Q a := by
  unfold optional at ha
  cases hf : find? names fs with
  | none =>
    rw [hf] at ha
    exact Checked.ok.inj ha ▸ hd
  | some nv =>
    obtain ⟨name, v⟩ := nv
    rw [hf] at ha
    obtain ⟨k, hk⟩ := find?_mem hf
    exact h (hfs _ hk) (Checked.within_eq_ok.mp ha)

theorem required_hands (h : Hands P Q read) (hfs : fs.Hold P)
    (ha : required names read fs = .ok a) : Q a := by
  unfold required at ha
  cases hf : find? names fs with
  | none =>
    rw [hf] at ha
    cases ha
  | some nv =>
    obtain ⟨name, v⟩ := nv
    rw [hf] at ha
    obtain ⟨k, hk⟩ := find?_mem hf
    exact h (hfs _ hk) (Checked.within_eq_ok.mp ha)

/-- A record is read from an object. -/
theorem record_eq_ok : record readFields v = .ok a ↔
    ∃ fs, v.fields? = some fs ∧ readFields fs = .ok a := by
  unfold record
  cases v.fields? with
  | none => simp [Checked.fault]
  | some fs => simp

theorem record_hands (hP : Hereditary P)
    (h : ∀ {fs a}, Fields.Hold P fs → readFields fs = .ok a → Q a) :
    Hands P Q (record readFields) := by
  intro v a hv ha
  obtain ⟨fs, hfs, hread⟩ := record_eq_ok.mp ha
  exact h (hP.fields hfs hv) hread

/-- A record that keeps its further pairs is read from an object whose keys are all whole. -/
theorem openRecord_eq_ok : openRecord readFields v = .ok a ↔
    ∃ fs, v.fields? = some fs ∧ (∀ kv ∈ fs, isBroken kv.1 = false) ∧ readFields fs = .ok a := by
  unfold openRecord
  cases v.fields? with
  | none => simp [Checked.fault]
  | some fs =>
    by_cases hbroken : fs.any (fun kv => isBroken kv.1) = true
    · obtain ⟨kv, hkv, hkey⟩ := List.any_eq_true.mp hbroken
      simp only [hbroken, if_true, Option.some.injEq]
      refine ⟨fun h => (nomatch h), ?_⟩
      rintro ⟨_, rfl, hwhole, -⟩
      rw [hwhole kv hkv] at hkey
      cases hkey
    · have hwhole : ∀ kv ∈ fs, isBroken kv.1 = false := by simpa using hbroken
      simp only [hbroken, Bool.false_eq_true, if_false, Option.some.injEq]
      constructor
      · exact fun h => ⟨fs, rfl, hwhole, h⟩
      · rintro ⟨_, rfl, -, h⟩
        exact h

theorem openRecord_hands (hP : Hereditary P)
    (h : ∀ {fs a}, Fields.Hold P fs → readFields fs = .ok a → Q a) :
    Hands P Q (openRecord readFields) := by
  intro v a hv ha
  obtain ⟨fs, hfs, -, hread⟩ := openRecord_eq_ok.mp ha
  exact h (hP.fields hfs hv) hread

/-! ### Pairs that are kept -/

theorem exists_text_of_extraKey {k l : Atom} (h : extraKey k = .ok l) : ∃ s, l = .str s := by
  unfold extraKey at h
  split at h
  · exact ⟨_, (Checked.ok.inj h).symm⟩
  · cases h

theorem exists_text_of_mapKey {k l : Atom} (h : mapKey k = .ok l) : ∃ s, l = .str s := by
  obtain ⟨s, -, rfl⟩ := Checked.map_eq_ok.mp (Checked.within_eq_ok.mp (Checked.within_eq_ok.mp h))
  exact ⟨s, rfl⟩

/-- The pairs that are kept are written one after the other: those whose keys, read as texts, name
no field that is found. -/
theorem exists_of_extras {table : List (List String)} {kept : Fields}
    (h : extras table fs = .ok kept) : ∃ pairs, kept = Pairs.putAll [] pairs ∧ ∀ kv ∈ pairs,
      ∃ k s, (k, kv.2) ∈ fs ∧ kv.1 = .str s ∧ extraKey k = .ok (.str s) ∧
        isNamed (usedNames table fs) (.str s) = false := by
  obtain ⟨pairs, hall, rfl⟩ := Checked.map_eq_ok.mp h
  refine ⟨pairs, rfl, fun kv hkv => ?_⟩
  have hmem : Checked.ok kv ∈ extraPairs (usedNames table fs) fs :=
    Checked.all_eq_ok.mp hall ▸ List.mem_map_of_mem hkv
  obtain ⟨⟨k, w⟩, hkw, hpair⟩ := List.mem_filterMap.mp hmem
  simp only at hpair
  split at hpair
  · rename_i l hl
    obtain ⟨s, rfl⟩ := exists_text_of_extraKey hl
    split at hpair
    · cases hpair
    · rename_i hother
      cases hpair
      exact ⟨k, s, hkw, rfl, hl, Bool.eq_false_iff.mpr hother⟩
  · cases hpair

/-- Pairs that are kept have text keys. -/
theorem extras_hands {table : List (List String)} {kept : Fields} (hfs : fs.Hold P)
    (h : extras table fs = .ok kept) : kept.Texts P := by
  obtain ⟨pairs, rfl, hpairs⟩ := exists_of_extras h
  refine Pairs.forall_putAll (K := fun k => ∃ s, k = .str s) (Q := P) (by simp) fun kv hkv => ?_
  obtain ⟨k, s, hmem, hkey, -, -⟩ := hpairs kv hkv
  exact ⟨⟨s, hkey⟩, hfs (k, kv.2) hmem⟩

/-- The pairs that are kept of distinct texts are those that name no field that is found. -/
theorem extras_of_keyed {table : List (List String)} (hk : Pairs.Keyed fs) :
    extras table fs = .ok (fs.filter fun kv => !isNamed (usedNames table fs) kv.1) := by
  have hpairs : extraPairs (usedNames table fs) fs =
      (fs.filter fun kv => !isNamed (usedNames table fs) kv.1).map .ok := by
    generalize usedNames table fs = used
    induction fs with
    | nil => rfl
    | cons kv fs ih =>
      obtain ⟨k, v⟩ := kv
      obtain ⟨s, rfl⟩ := hk.text k List.mem_cons_self
      have hrest := ih hk.tail
      have hkey : extraKey (.str s) = .ok (.str s) := rfl
      unfold extraPairs at hrest ⊢
      rw [List.filterMap_cons, List.filter_cons]
      dsimp only
      rw [hkey]
      cases hnamed : isNamed used (.str s) with
      | true => simpa [hnamed] using hrest
      | false => simpa [hnamed] using hrest
  rw [extras, Checked.all_eq_ok.mpr hpairs]
  exact congrArg Checked.ok (Pairs.putAll_eq_append (hk.sublist List.filter_sublist) (by simp))

/-- A map is written pair by pair, the keys read as texts. -/
theorem exists_of_mapFrom {pairs read : List (Atom × α)} (h : mapFrom pairs = .ok read) :
    ∃ ys, read = Pairs.putAll [] ys ∧
      ∀ kv ∈ ys, ∃ k s, (k, kv.2) ∈ pairs ∧ kv.1 = .str s ∧ mapKey k = .ok (.str s) := by
  obtain ⟨ys, hall, rfl⟩ := Checked.map_eq_ok.mp h
  refine ⟨ys, rfl, fun kv hkv => ?_⟩
  have hread : pairs.map (fun kw => (mapKey kw.1).map fun k => (k, kw.2)) = ys.map .ok :=
    Checked.all_eq_ok.mp hall
  have hmem : Checked.ok kv ∈ ys.map Checked.ok := List.mem_map_of_mem hkv
  rw [← hread] at hmem
  obtain ⟨⟨k, w⟩, hkw, hpair⟩ := List.mem_map.mp hmem
  obtain ⟨l, hl, rfl⟩ := Checked.map_eq_ok.mp hpair
  obtain ⟨s, rfl⟩ := exists_text_of_mapKey hl
  exact ⟨k, s, hkw, rfl, hl⟩

/-- A map has text keys. -/
theorem mapFrom_hands {pairs read : List (Atom × α)} (hfs : ∀ kv ∈ pairs, Q kv.2)
    (h : mapFrom pairs = .ok read) : ∀ kv ∈ read, (∃ s, kv.1 = .str s) ∧ Q kv.2 := by
  obtain ⟨ys, rfl, hys⟩ := exists_of_mapFrom h
  refine Pairs.forall_putAll (K := fun k => ∃ s, k = .str s) (Q := Q) (by simp) fun kv hkv => ?_
  obtain ⟨k, s, hmem, hkey, -⟩ := hys kv hkv
  exact ⟨⟨s, hkey⟩, hfs (k, kv.2) hmem⟩

theorem keyed_of_mapFrom {pairs read : List (Atom × α)} (h : mapFrom pairs = .ok read) :
    Pairs.Keyed read := by
  obtain ⟨ys, rfl, hys⟩ := exists_of_mapFrom h
  refine Pairs.Keyed.nil.putAll fun kv hkv => ?_
  obtain ⟨k, s, -, hkey, -⟩ := hys kv hkv
  exact ⟨s, hkey⟩

/-- A map from distinct texts is read as it is. -/
theorem mapFrom_of_keyed {pairs : List (Atom × α)} (hk : Pairs.Keyed pairs) :
    mapFrom pairs = .ok pairs := by
  have hpairs : pairs.map (fun kw => (mapKey kw.1).map fun k => (k, kw.2)) = pairs.map .ok := by
    refine List.map_congr_left fun kw hkw => ?_
    obtain ⟨k, w⟩ := kw
    obtain ⟨s, rfl⟩ := hk.text k (List.mem_map_of_mem hkw)
    rfl
  have hall : Checked.all (pairs.map fun kw => (mapKey kw.1).map fun k => (k, kw.2)) = .ok pairs :=
    Checked.all_eq_ok.mpr hpairs
  unfold mapFrom
  show Checked.map _ (Checked.all (pairs.map fun kw => (mapKey kw.1).map fun k => (k, kw.2))) = _
  rw [hall]
  exact congrArg Checked.ok (Pairs.putAll_eq_append hk (by simp))

theorem mapOf_hands (hP : Hereditary P) : Hands P (Fields.Texts P) mapOf := by
  intro v fs hv h
  unfold mapOf at h
  cases hf : v.fields? with
  | none => rw [hf] at h; cases h
  | some gs =>
    rw [hf] at h
    exact mapFrom_hands (hP.fields hf hv) h

end Shape
end GatewayDocs

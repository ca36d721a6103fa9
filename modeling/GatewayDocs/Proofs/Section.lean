import GatewayDocs.Proofs.Entry

/-! # Sections of a template, entry by entry

What is written under some keys leaves the pairs of all other keys alone (`Fields.others_put`).  The
resources that are read from a section are those of its entries, one by one
(`ResourceGraph.ReadFrom`), and each entry is written as it was given, but for its own three keys,
which come first: an absent kind is the empty text, properties that are blank are an empty object,
and a dependency is listed once (`Resource.toEntry_of_ofEntry`). -/

namespace GatewayDocs

/-! ### Pairs under other keys -/

namespace Fields
variable {keys : List String} {key : String} {v : Value} {fields : Fields}

/-- Whether the key of a pair is none of some texts. -/
def isOther (keys : List String) (kv : Atom × Value) : Bool :=
  !keys.any fun key => kv.1.same (.str key)

/-- The pairs whose keys are none of some texts. -/
def others (keys : List String) (fields : Fields) : Fields := fields.filter (isOther keys)

theorem others_put (h : key ∈ keys) : others keys (put key v fields) = others keys fields := by
  have hkey : ∀ {kv : Atom × Value}, kv.1.same (.str key) = true → ¬ isOther keys kv = true :=
    fun hk => by
      unfold isOther
      rw [Bool.not_eq_true', Bool.not_eq_false, List.any_eq_true]
      exact ⟨key, h, hk⟩
  unfold others put
  induction fields with
  | nil => exact List.filter_cons_of_neg (hkey (by simp))
  | cons kv fields ih =>
    obtain ⟨k, x⟩ := kv
    rw [Pairs.put]
    split
    · rename_i hk
      rw [List.filter_cons_of_neg (hkey hk), List.filter_cons_of_neg (hkey hk)]
    · rw [List.filter_cons, List.filter_cons, ih]

/-- What is under a key is found without the pairs of other keys. -/
theorem get?_others (h : key ∉ keys) : get? key (others keys fields) = get? key fields := by
  unfold get? others
  induction fields with
  | nil => rfl
  | cons kv fields ih =>
    obtain ⟨k, x⟩ := kv
    by_cases hk : k = .str key
    · subst hk
      have hother : isOther keys (Atom.str key, x) = true := by
        simpa [isOther] using fun key' hkey' => (ne_of_mem_of_not_mem hkey' h).symm
      rw [List.filter_cons_of_pos hother, Pairs.lookup_cons_self, Pairs.lookup_cons_self]
    · by_cases hother : isOther keys (k, x) = true
      · rw [List.filter_cons_of_pos hother, Pairs.lookup_cons_of_ne hk,
          Pairs.lookup_cons_of_ne hk, ih]
      · rw [List.filter_cons_of_neg hother, Pairs.lookup_cons_of_ne hk, ih]

end Fields

/-- What is under a key of an object is what is found among its pairs. -/
theorem Value.field?_eq_get? (key : String) (v : Value) :
    v.field? key = Fields.get? key (v.fields?.getD []) := by
  unfold Value.field?
  cases v.fields? with
  | none => rfl
  | some fs => rfl

/-- Values whose pairs are the same but for some keys have the same under the others. -/
theorem Value.field?_of_others {keys : List String} {key : String} {v w : Value} (h : key ∉ keys)
    (heq : Fields.others keys (w.fields?.getD []) = Fields.others keys (v.fields?.getD [])) :
    w.field? key = v.field? key := by
  rw [Value.field?_eq_get?, Value.field?_eq_get?, ← Fields.get?_others h, heq,
    Fields.get?_others h]

/-! ### One entry -/

/-- Inserting values one after the other drops those that are the same as an earlier one. -/
theorem foldl_insertNew_nil (xs : List Value) :
    xs.foldl insertNew [] = xs.eraseDupsBy fun x y => y.same x := by
  have hloop : ∀ ys : List Value,
      List.eraseDupsBy.loop (fun x y => y.same x) xs ys = xs.foldl insertNew ys.reverse := by
    induction xs with
    | nil => exact fun ys => rfl
    | cons x xs ih =>
      intro ys
      rw [List.eraseDupsBy.loop, List.foldl_cons]
      unfold insertNew
      rw [List.any_reverse]
      cases ys.any fun y => y.same x with
      | true => exact ih ys
      | false => exact (ih (x :: ys)).trans (by rw [List.reverse_cons]; rfl)
  exact (hloop []).symm

namespace Resource
variable {entry : Fields} {r : Resource} {v : Value} {listed : List Value}

/-- Whether an entry states its dependencies as a text, as a list, or not at all. -/
def statesDependencies (entry : Value) : Bool :=
  match entry.fieldOrNull "DependsOn" with
  | .null => true
  | .str _ => true
  | v => match v.bare with
    | .list _ => true
    | _ => false

theorem statesDependencies_of_fields? {given : Value} (h : given.fields? = some entry) :
    statesDependencies given = statesDependencies (.object entry) := by
  have hfield : given.fieldOrNull "DependsOn" = (Value.object entry).fieldOrNull "DependsOn" := by
    rw [Value.fieldOrNull, Value.field?, h]
    rfl
  rw [statesDependencies, statesDependencies, hfield]

/-- The dependencies that an entry states; a text stands for itself alone. -/
def statedDependencies (entry : Fields) : List Value :=
  match entry.get "DependsOn" with
  | .str s => [.str s]
  | v => match v.bare with
    | .list items => items
    | _ => []

/-- An entry as it is written: its kind, properties and dependencies first, each dependency once,
and the other keys as they are. -/
def normalEntry (entry : Fields) : Fields :=
  let properties := entry.get "Properties"
  let dependencies := (statedDependencies entry).eraseDupsBy fun x y => y.same x
  [(.str "Type", (entry.get? "Type").getD (.str "")),
    (.str "Properties", if properties.truthy then properties else .object [])] ++
  (if dependencies.isEmpty then [] else [(.str "DependsOn", .list dependencies)]) ++
  Fields.others reserved entry

theorem ofEntry_object : ofEntry (.object entry) = .ok r ↔
    ∃ listed, listedDependencies (entry.get "DependsOn") = .ok listed ∧ r = {
      kind := (entry.get? "Type").getD (.str "")
      properties := if (entry.get "Properties").truthy then entry.get "Properties" else .object []
      dependsOn := listed.foldl insertNew []
      extra := entry.filter fun kv => isKept kv.1 } := by
  show (listedDependencies (entry.get "DependsOn") >>= _) = _ ↔ _
  rw [Result.bind_eq_ok]
  exact exists_congr fun listed => and_congr_right fun _ =>
    ⟨fun h => (Except.ok.inj h).symm, fun h => h ▸ rfl⟩

/-- A list that counts as false is empty. -/
theorem items_of_falsy {items : List Value} (h : v.truthy = false) (hv : v.bare = .list items) :
    items = [] := by
  cases v with
  | list items' =>
    cases hv
    simpa [Value.truthy] using h
  | shared l w =>
    obtain rfl : w = .list items := hv
    simpa [Value.truthy] using h
  | knot l w => cases h
  | _ => cases hv

theorem listed_of_bare {items : List Value} (hv : v.bare = .list items) :
    listedDependencies v = .ok items := by
  have hlisted : listedDependencies v = if v.truthy then v.members else .ok [] := by
    cases v with
    | atom a => cases hv
    | _ => rfl
  rw [hlisted]
  split
  · rw [Value.members, hv]
  · rw [items_of_falsy (Bool.eq_false_iff.mpr ‹_›) hv]

/-- Dependencies that are stated are those that are listed. -/
theorem listed_of_states (h : statesDependencies (.object entry) = true) :
    listedDependencies (entry.get "DependsOn") = .ok (statedDependencies entry) := by
  have hget : (Value.object entry).fieldOrNull "DependsOn" = entry.get "DependsOn" := rfl
  unfold statesDependencies at h
  unfold statedDependencies
  rw [hget] at h
  generalize entry.get "DependsOn" = v at h
  split at h
  · rfl
  · rfl
  · split at h
    · rename_i hbare
      simp only [hbare, listed_of_bare hbare]
    · cases h

/-- Dependencies that are stated are those that are read. -/
theorem dependsOn_of_ofEntry (hs : statesDependencies (.object entry) = true)
    (h : ofEntry (.object entry) = .ok r) :
    r.dependsOn = (statedDependencies entry).eraseDupsBy fun x y => y.same x := by
  obtain ⟨listed, hlisted, rfl⟩ := ofEntry_object.mp h
  rw [listed_of_states hs] at hlisted
  obtain rfl := Except.ok.inj hlisted
  exact foldl_insertNew_nil _

/-- An entry is that of a model that states no dependencies. -/
def IsFreeEntry (entry : Fields) : Prop :=
  entry.get? "Type" = some (.str modelKind) ∧ statedDependencies entry = []

/-- Only a model that states no dependencies is read as a free one. -/
theorem isFreeEntry_of_isFree (hs : statesDependencies (.object entry) = true)
    (h : ofEntry (.object entry) = .ok r) (hf : r.isFree = true) : IsFreeEntry entry := by
  have hdepends := dependsOn_of_ofEntry hs h
  unfold isFree at hf
  rw [Bool.and_eq_true, List.isEmpty_iff, hdepends] at hf
  obtain ⟨hmodel, hnone⟩ := hf
  constructor
  · obtain ⟨listed, -, rfl⟩ := ofEntry_object.mp h
    cases htype : entry.get? "Type" with
    | none =>
      simp only [isModel, htype, Option.getD_none, decide_eq_true_eq] at hmodel
      exact absurd hmodel (by decide)
    | some kind =>
      simp only [isModel, htype, Option.getD_some] at hmodel
      split at hmodel
      · rw [of_decide_eq_true hmodel]
      · cases hmodel
  · cases hstated : statedDependencies entry with
    | nil => rfl
    | cons d ds =>
      rw [hstated, List.eraseDupsBy_cons] at hnone
      cases hnone

/-- **A resource is written as its entry was given.** -/
theorem toEntry_of_ofEntry (hk : Pairs.Keyed entry)
    (hs : statesDependencies (.object entry) = true) (h : ofEntry (.object entry) = .ok r) :
    r.toEntry = .object (normalEntry entry) := by
  have hdepends := dependsOn_of_ofEntry hs h
  have hnormal := normal_of_keyed hk h
  obtain ⟨listed, -, rfl⟩ := ofEntry_object.mp h
  have hextra : (entry.filter fun kv => isKept kv.1) = Fields.others reserved entry := by
    refine List.filter_congr fun kv hkv => ?_
    obtain ⟨s, hs⟩ := hk.text kv.1 (List.mem_map_of_mem hkv)
    simp [hs, isKept, reserved, Fields.isOther]
  unfold toEntry
  rw [toFields_eq hnormal, hdepends, hextra]
  rfl

end Resource

/-! ### A section -/

namespace ResourceGraph
variable {g : ResourceGraph} {fields : Fields} {v : Value} {s : String} {r : Resource}

/-- The resources of a graph are those of some entries, one by one. -/
def ReadFrom (fields : Fields) (g : ResourceGraph) : Prop :=
  List.Forall₂ (fun kv nr => readEntry kv = .ok nr) fields g.entries

theorem readEntry_eq_ok {kv : Atom × Value} {nr : Atom × Resource} :
    readEntry kv = .ok nr ↔ nr.1 = kv.1 ∧ Resource.ofEntry kv.2 = .ok nr.2 := by
  unfold readEntry
  rw [Result.bind_eq_ok]
  constructor
  · rintro ⟨r, hr, h⟩
    cases h
    exact ⟨rfl, hr⟩
  · rintro ⟨hname, hr⟩
    exact ⟨nr.2, hr, congrArg Except.ok (Prod.ext hname.symm rfl)⟩

/-- A value that counts as false has no pairs. -/
theorem fields?_of_falsy (h : v.truthy = false) : v.fields?.getD [] = [] := by
  cases v with
  | object fields =>
    show fields = []
    simpa [Value.truthy] using h
  | shared l w =>
    cases w with
    | object fields =>
      show fields = []
      simpa [Value.truthy] using h
    | _ => rfl
  | knot l w => cases h
  | _ => rfl

/-- A value that is an object, unless it counts as false, is read as its pairs. -/
theorem orEmpty_of_asObject (h : v.truthy = true → ∃ fs, v.asObject = .ok fs) :
    (if v.truthy then v.asObject else .ok []) = .ok (v.fields?.getD []) := by
  split
  · rename_i ht
    obtain ⟨fs, hfs⟩ := h ht
    rw [hfs, Value.asObject_eq_ok_iff.mp hfs, Option.getD_some]
  · rename_i ht
    rw [fields?_of_falsy (Bool.eq_false_iff.mpr ht)]

theorem fields?_of_orEmpty (h : (if v.truthy then v.asObject else .ok []) = .ok fields) :
    v.fields?.getD [] = fields := by
  have hobject : v.truthy = true → ∃ fs, v.asObject = .ok fs := by
    intro ht
    rw [ht] at h
    exact ⟨fields, h⟩
  exact Except.ok.inj ((orEmpty_of_asObject hobject).symm.trans h)

theorem readFrom_of_ofSection (h : ofSection v = .ok g) : ReadFrom (v.fields?.getD []) g := by
  rw [ofSection_eq] at h
  obtain ⟨fields, hfields, h₁⟩ := Result.bind_eq_ok.mp h
  obtain ⟨entries, hentries, h₂⟩ := Result.bind_eq_ok.mp h₁
  obtain rfl := Except.ok.inj h₂
  rw [fields?_of_orEmpty hfields]
  exact Result.mapM_eq_ok.mp hentries

namespace ReadFrom

theorem names (h : ReadFrom fields g) : g.names = Pairs.keys fields := by
  obtain ⟨entries⟩ := g
  change List.Forall₂ _ fields entries at h
  show Pairs.keys entries = _
  induction h with
  | nil => rfl
  | cons hx _ ih => rw [Pairs.keys_cons, Pairs.keys_cons, ih, (readEntry_eq_ok.mp hx).1]

/-- Every resource is read from an entry under its name. -/
theorem exists_entry (h : ReadFrom fields g) {nr : Atom × Resource} (hnr : nr ∈ g.entries) :
    ∃ kv ∈ fields, nr.1 = kv.1 ∧ Resource.ofEntry kv.2 = .ok nr.2 := by
  obtain ⟨kv, hkv, hread⟩ := exists_of_forall₂_right h hnr
  exact ⟨kv, hkv, readEntry_eq_ok.mp hread⟩

/-- Only objects are read as resources. -/
theorem exists_asObject (h : ReadFrom fields g) {kv : Atom × Value} (hkv : kv ∈ fields) :
    ∃ entry, kv.2.asObject = .ok entry := by
  obtain ⟨nr, -, hread⟩ := exists_of_forall₂_left h hkv
  obtain ⟨entry, hentry, -⟩ := Result.bind_eq_ok.mp (readEntry_eq_ok.mp hread).2
  exact ⟨entry, hentry⟩

/-- The entry of a name is read as the resource of that name. -/
theorem get? (h : ReadFrom fields g) (hv : Fields.get? s fields = some v) :
    ∃ r, Resource.ofEntry v = .ok r ∧ g.get? (.str s) = some r := by
  obtain ⟨entries⟩ := g
  change List.Forall₂ _ fields entries at h
  unfold ResourceGraph.get?
  unfold Fields.get? at hv
  induction h with
  | nil => cases hv
  | @cons kv nr _ _ hx _ ih =>
    obtain ⟨k, x⟩ := kv
    obtain ⟨n, r⟩ := nr
    obtain ⟨rfl, hr⟩ : n = k ∧ Resource.ofEntry x = .ok r := readEntry_eq_ok.mp hx
    by_cases hk : n = .str s
    · subst hk
      rw [Pairs.lookup_cons_self] at hv
      cases hv
      exact ⟨r, hr, Pairs.lookup_cons_self⟩
    · rw [Pairs.lookup_cons_of_ne hk] at hv
      obtain ⟨r', hr', hget⟩ := ih hv
      exact ⟨r', hr', (Pairs.lookup_cons_of_ne hk).trans hget⟩

end ReadFrom

/-- What is written under a name is the resource of that name. -/
theorem get?_toSection (s : String) : Fields.get? s (g.toSection.fields?.getD []) =
    (g.get? (.str s)).map Resource.toEntry := by
  obtain ⟨entries⟩ := g
  show Pairs.lookup (.str s) (entries.map fun nr => (nr.1, nr.2.toEntry)) =
    (Pairs.lookup (.str s) entries).map Resource.toEntry
  induction entries with
  | nil => rfl
  | cons nr entries ih =>
    obtain ⟨n, r⟩ := nr
    by_cases hn : n = .str s
    · subst hn
      rw [List.map_cons, Pairs.lookup_cons_self, Pairs.lookup_cons_self]
      rfl
    · rw [List.map_cons, Pairs.lookup_cons_of_ne hn, Pairs.lookup_cons_of_ne hn, ih]

theorem keys_toSection : Pairs.keys (g.toSection.fields?.getD []) = g.names := by
  show Pairs.keys (g.entries.map fun nr => (nr.1, nr.2.toEntry)) = _
  unfold Pairs.keys
  rw [List.map_map]
  rfl

end ResourceGraph
end GatewayDocs

import GatewayDocs.Proofs.Section

/-! # The normal form of a section

An entry of a template may be written in several ways: with a name or a list under `DependsOn`,
with blank properties or none, and with its keys in any order.  It is written back in one of them
(`Resource.normalForm`), and a section is written back with each of its entries so, under the same
names in the same order (`ResourceGraph.exists_ofSection`).

Reading and writing keeps what has this form: a graph that is read from a section is read again
from what it is written as, and so is a resource that says nothing twice and nothing that is left
out (`ResourceGraph.section_normal_form`). -/

namespace GatewayDocs

namespace Resource
variable {entry : Value} {fields : Fields}

/-- An entry of a template is an object whose keys are distinct texts, and states its dependencies
as a text, as a list, or not at all. -/
def IsEntry (entry : Value) : Prop := ∃ fields, entry.fields? = some fields ∧
  Pairs.Keyed fields ∧ statesDependencies (.object fields) = true

/-- The normal form of an entry. -/
def normalForm (entry : Value) : Value := .object (normalEntry (entry.fields?.getD []))

/-- An entry is read as a normal resource, which is written in the normal form of the entry. -/
theorem IsEntry.exists_ofEntry (h : IsEntry entry) :
    ∃ r, ofEntry entry = .ok r ∧ r.Normal ∧ r.toEntry = normalForm entry := by
  obtain ⟨fields, hfields, hkeyed, hstates⟩ := h
  obtain ⟨r, hr⟩ : ∃ r, ofEntry (.object fields) = .ok r :=
    ⟨_, ofEntry_object.mpr ⟨_, listed_of_states hstates, rfl⟩⟩
  refine ⟨r, (ofEntry_of_fields? hfields).trans hr, normal_of_keyed hkeyed hr, ?_⟩
  rw [toEntry_of_ofEntry hkeyed hstates hr, normalForm, hfields, Option.getD_some]

end Resource

namespace ResourceGraph
variable {v : Value} {given : Fields}

/-- A section of entries: an object whose values are entries, or nothing at all. -/
structure IsSection (v : Value) (given : Fields) : Prop where
  pairs : v.fields? = some given ∨ v = .null ∧ given = []
  entries : ∀ kv ∈ given, Resource.IsEntry kv.2

theorem IsSection.orEmpty (h : IsSection v given) :
    (if v.truthy then v.asObject else .ok []) = .ok given := by
  rcases h.pairs with hfields | ⟨rfl, rfl⟩
  · rw [orEmpty_of_asObject fun _ => ⟨given, Value.asObject_eq_ok_iff.mpr hfields⟩, hfields,
      Option.getD_some]
  · rfl

/-- A section is read as normal resources, which are written as its entries in normal form. -/
theorem IsSection.exists_ofSection (h : IsSection v given) :
    ∃ g, ofSection v = .ok g ∧ g.Normal ∧
      g.toSection = .object (given.map fun kv => (kv.1, Resource.normalForm kv.2)) := by
  obtain ⟨rs, hread, hnormal, hwritten⟩ : ∃ rs, given.mapM readEntry = .ok rs ∧
      (∀ nr ∈ rs, nr.2.Normal) ∧ (rs.map fun nr => (nr.1, nr.2.toEntry)) =
        given.map fun kv => (kv.1, Resource.normalForm kv.2) := by
    have hentries := h.entries
    clear h
    induction given with
    | nil => exact ⟨[], rfl, List.forall_mem_nil _, rfl⟩
    | cons kv given ih =>
      obtain ⟨hentry, hrest⟩ := List.forall_mem_cons.mp hentries
      obtain ⟨rs, hread, hnormal, hwritten⟩ := ih hrest
      obtain ⟨r, hr, hrnormal, hrwritten⟩ := hentry.exists_ofEntry
      refine ⟨(kv.1, r) :: rs, ?_, List.forall_mem_cons.mpr ⟨hrnormal, hnormal⟩, ?_⟩
      · exact Result.mapM_eq_ok.mpr
          (.cons (readEntry_eq_ok.mpr ⟨rfl, hr⟩) (Result.mapM_eq_ok.mp hread))
      · rw [List.map_cons, List.map_cons, hwritten, hrwritten]
  refine ⟨⟨rs⟩, ?_, hnormal, congrArg Value.object hwritten⟩
  rw [ofSection_eq, h.orEmpty, Result.ok_bind, hread, Result.ok_bind]

/-- **The normal form of a section.**  The resources that are read from a section are written under
its names, in its order, and each entry in normal form: its kind, its properties unless they are
blank, the first occurrences of its dependencies, and all other keys as they are.  From what is
written the same resources are read, so that it is written the same again.  A resource with an
object for its properties, no dependency twice, and further entries that are listed once and are
none of its own three, is read as it was written. -/
theorem section_normal_form :
    (∀ v given, IsSection v given → ∃ g, ofSection v = .ok g ∧
      g.toSection = .object (given.map fun kv => (kv.1, Resource.normalForm kv.2)) ∧
      ofSection g.toSection = .ok g) ∧
    ∀ r : Resource, (∃ fields, r.properties = .object fields) →
      (r.dependsOn.Pairwise fun a b => a.same b = false) → Pairs.Keyed r.extra →
      (∀ kv ∈ r.extra, Resource.isKept kv.1 = true) → Resource.ofEntry r.toEntry = .ok r := by
  constructor
  · intro v given h
    obtain ⟨g, hread, hnormal, hwritten⟩ := h.exists_ofSection
    exact ⟨g, hread, hwritten, ofSection_toSection hnormal⟩
  · rintro r ⟨fields, hfields⟩ hdepends hextra hkept
    refine Resource.ofEntry_toEntry ⟨?_, hdepends, hextra, hkept⟩
    cases fields with
    | nil => exact .inr hfields
    | cons kv fields => exact .inl (by rw [hfields]; rfl)

/-- Entries that state their dependencies in different ways: one twice in a list, by a text, and as
nothing. -/
def looseEntries : List (String × Value) :=
  [("Get", .ofPairs [("DependsOn", .list [.str "Pets", .str "Role", .str "Pets"]),
      ("Type", .str "AWS::ApiGateway::Method"),
      ("Properties", .ofPairs [("HttpMethod", .str "GET")])]),
    ("Role", .ofPairs [("Condition", .str "HasRole"), ("Properties", .null),
      ("DependsOn", .str "Pets")]),
    ("Pets", .ofPairs [("Type", .str modelKind), ("DependsOn", .null)])]

/-- The same entries in normal form. -/
def settledEntries : List (String × Value) :=
  [("Get", .ofPairs [("Type", .str "AWS::ApiGateway::Method"),
      ("Properties", .ofPairs [("HttpMethod", .str "GET")]),
      ("DependsOn", .list [.str "Pets", .str "Role"])]),
    ("Role", .ofPairs [("Type", .str ""), ("Properties", .object []),
      ("DependsOn", .list [.str "Pets"]), ("Condition", .str "HasRole")]),
    ("Pets", .ofPairs [("Type", .str modelKind), ("Properties", .object [])])]

/-- A resource that is read as it was written. -/
def settledResource : Resource where
  kind := .str modelKind
  properties := .ofPairs [("Name", .str "Pet")]
  dependsOn := [.str "Role", .str "Get"]
  extra := [(.str "Condition", .str "HasRole")]

theorem isSection_looseEntries : IsSection (.ofPairs looseEntries)
    (looseEntries.map fun (k, v) => (.str k, v)) where
  pairs := .inl rfl
  entries := by
    intro kv hkv
    simp only [looseEntries, List.map_cons, List.map_nil, List.mem_cons, List.not_mem_nil,
      or_false] at hkv
    rcases hkv with rfl | rfl | rfl
    · exact ⟨_, rfl, ⟨by simp [Pairs.keys], by simp [Pairs.keys]⟩, rfl⟩
    · exact ⟨_, rfl, ⟨by simp [Pairs.keys], by simp [Pairs.keys]⟩, rfl⟩
    · exact ⟨_, rfl, ⟨by simp [Pairs.keys], by simp [Pairs.keys]⟩, rfl⟩

/-- The three entries are written in normal form, which is read as the same resources. -/
theorem section_normal_form_loose :
    IsSection (.ofPairs looseEntries) (looseEntries.map fun (k, v) => (.str k, v)) ∧
      (∃ g, ofSection (.ofPairs looseEntries) = .ok g ∧ g.toSection = .ofPairs settledEntries ∧
        ofSection g.toSection = .ok g) ∧
      (settledResource.dependsOn.Pairwise fun a b => a.same b = false) ∧
      Resource.ofEntry settledResource.toEntry = .ok settledResource := by
  obtain ⟨hsections, hresources⟩ := section_normal_form
  obtain ⟨g, hread, hwritten, hagain⟩ := hsections _ _ isSection_looseEntries
  have hdepends : settledResource.dependsOn.Pairwise fun a b => a.same b = false := by
    simp [settledResource, Value.same, Value.unshared]
  have hextra : Pairs.Keyed settledResource.extra :=
    ⟨by simp [settledResource, Pairs.keys], by simp [settledResource, Pairs.keys]⟩
  have hkept : ∀ kv ∈ settledResource.extra, Resource.isKept kv.1 = true :=
    List.forall_mem_singleton.mpr rfl
  exact ⟨isSection_looseEntries, ⟨g, hread, hwritten.trans rfl, hagain⟩, hdepends,
    hresources settledResource ⟨_, rfl⟩ hdepends hextra hkept⟩

end ResourceGraph
end GatewayDocs

import GatewayDocs.Proofs.Frame
import GatewayDocs.Proofs.Stays

/-! # Operations on the resources of a template

The resources of a template are read, added, documented, chained and put in other orders
(`GraphOperation`).  After any operations, some of which may have failed midway, their names are
distinct and none of them lists a dependency twice (`GraphOperation.orderly_runAll`).

An operation that reads nothing anew removes no resource.  It leaves the order of the names as it
is but for new names at the end, unless it is there to give a new order, and it leaves kinds and
further keys as they are but for resources that it adds (`GraphOperation.Changes`).  Most
operations change one resource in its place and therefore keep much more
(`ResourceGraph.Alike`).

A further entry with a part that stands in the properties too may change with these
(`GraphOperation.addLimit_reaches_shared`). -/

namespace GatewayDocs

namespace ResourceGraph
variable {g g₀ g' : ResourceGraph} {s t : String} {r r' : Resource} {restApi : Value}

/-- The names of the resources are distinct texts, and no resource lists a dependency twice. -/
structure Orderly (g : ResourceGraph) : Prop where
  proper : g.Proper
  resources : ∀ s r, g.get? (.str s) = some r → r.Orderly

/-- A graph has the same names as another one, in the same order, and what stays of each
resource. -/
structure Alike (g₀ g : ResourceGraph) : Prop where
  names : g.names = g₀.names
  stays : ∀ s r, g₀.get? (.str s) = some r → ∃ r', g.get? (.str s) = some r' ∧ r.Stays r'

/-- A graph whose resources stay is orderly if its names are those of an orderly one. -/
theorem Orderly.of_stays (hg : g.Orderly) (hn : g'.names.Perm g.names)
    (hs : ∀ s r, g.get? (.str s) = some r → ∃ r', g'.get? (.str s) = some r' ∧ r.Stays r') :
    g'.Orderly where
  proper := ⟨fun k hk => hg.proper.text k (hn.subset hk), hn.nodup_iff.mpr hg.proper.nodup⟩
  resources := fun s r' hr' => by
    obtain ⟨r, hr⟩ := exists_get? (hn.subset (mem_names_of_get? hr'))
    obtain ⟨r'', hr'', hstays⟩ := hs s r hr
    obtain rfl : r' = r'' := Option.some.inj (hr'.symm.trans hr'')
    exact hstays.orderly

namespace Alike

theorem refl (hg : g.Orderly) : g.Alike g :=
  ⟨rfl, fun s r hr => ⟨r, hr, .refl (hg.resources s r hr)⟩⟩

theorem orderly (h : g₀.Alike g) (hg : g₀.Orderly) : g.Orderly :=
  hg.of_stays (.of_eq h.names) h.stays

/-- The resource of a name is what has become of the one that the name had. -/
theorem stays_of (h : g₀.Alike g) (hr : g₀.get? (.str s) = some r)
    (hr' : g.get? (.str s) = some r') : r.Stays r' := by
  obtain ⟨r'', hr'', hstays⟩ := h.stays s r hr
  obtain rfl : r' = r'' := Option.some.inj (hr'.symm.trans hr'')
  exact hstays

/-- What a resource may become can be written in its place. -/
theorem add (h : g₀.Alike g) (hs : .str s ∈ g.names)
    (hr' : ∀ r, g₀.get? (.str s) = some r → r.Stays r') : g₀.Alike (g.add (.str s) r') := by
  refine ⟨(names_add hs).trans h.names, fun t r hr => ?_⟩
  by_cases hts : s = t
  · subst hts
    exact ⟨r', get?_add_self, hr' r hr⟩
  · obtain ⟨r₁, hr₁, h₁⟩ := h.stays t r hr
    exact ⟨r₁, (get?_add_of_ne hts).trans hr₁, h₁⟩

/-- All resources may be changed in a way that they survive. -/
theorem mapResources {f : Resource → Resource} (h : g₀.Alike g)
    (hf : ∀ r₀ r : Resource, r₀.Stays r → r₀.Stays (f r)) :
    g₀.Alike ⟨g.entries.map fun nr => (nr.1, f nr.2)⟩ := by
  refine ⟨?_, fun s r hr => ?_⟩
  · rw [← h.names]
    exact List.map_map
  · obtain ⟨r', hr', hstays⟩ := h.stays s r hr
    refine ⟨f r', ?_, hf r r' hstays⟩
    show Pairs.lookup _ _ = _
    rw [Pairs.lookup_map, show Pairs.lookup (.str s) g.entries = some r' from hr']
    rfl

end Alike

/-! ### One resource -/

theorem get_eq_ok {n : Atom} : g.get n = .ok r ↔ g.get? n = some r := by
  unfold get
  cases g.get? n with
  | some r' => rw [Except.ok.injEq, Option.some.injEq]
  | none => exact ⟨fun h => (nomatch h), fun h => (nomatch h)⟩

/-- A computation on the resource of a name keeps all names and what stays, if it keeps what stays
of a resource. -/
theorem keeps_update {α : Type} {x : Edit Resource α} (hx : ∀ r₀ : Resource, x.Keeps r₀.Stays)
    (s : String) : (update (.str s) x).Keeps g₀.Alike := by
  refine Edit.keeps_get_bind fun g hg => Edit.keeps_ofResult_bind fun r hr => Edit.keeps_zoom ?_
  have hget := get_eq_ok.mp hr
  exact hg.add (mem_names_of_get? hget) fun r₀ hr₀ => hx r₀ r (hg.stays_of hr₀ hget)

/-! ### All resources -/

/-- Resolving the references of one resource changes what it has in common with others. -/
theorem Alike.resolve (h : g₀.Alike g) (hg : g.resolve (.str s) restApi = .ok g') :
    g₀.Alike g' := by
  obtain ⟨r, hr, h₁⟩ := Result.bind_eq_ok.mp hg
  obtain ⟨resolved, hresolved, h₂⟩ := Result.bind_eq_ok.mp h₁
  rw [← Except.ok.inj h₂]
  have hget := get_eq_ok.mp hr
  generalize ((r.properties.field? Resource.schemaKey).getD .null).labelsMet = labels
  have hothers := h.mapResources (f := fun r => r.resolveLabelled restApi labels)
    fun r₀ r hr => hr.resolveLabelled restApi labels
  refine hothers.add ?_ fun r₀ hr₀ => (h.stays_of hr₀ hget).resolve hresolved
  rw [hothers.names, ← h.names]
  exact mem_names_of_get? hget

/-- Chaining any resources gives some of them another dependency alone. -/
theorem Alike.setParents {edges : List (Atom × Atom)} (h : g₀.Alike g)
    (he : ∀ e ∈ edges, ∃ s, e.2 = .str s) : g₀.Alike (g.setParents edges) := by
  induction edges generalizing g with
  | nil => exact h
  | cons e edges ih =>
    obtain ⟨p, c⟩ := e
    obtain ⟨s, rfl⟩ : ∃ s, c = .str s := he (p, c) List.mem_cons_self
    refine ih (g := g.setParent p (.str s)) ?_ fun e hm => he e (List.mem_cons_of_mem _ hm)
    unfold setParent
    cases hr : g.get? (.str s) with
    | none => exact h
    | some r =>
      exact h.add (mem_names_of_get? hr) fun r₀ hr₀ => (h.stays_of hr₀ hr).withParent p

/-- The entries of a graph with some names; a name that is not there gets a resource of its own. -/
def entriesOf (g : ResourceGraph) (names : List String) : List (Atom × Resource) :=
  names.map fun n => (.str n, (g.get? (.str n)).getD (.ofProperties "New" []))

theorem keys_entriesOf (g : ResourceGraph) (names : List String) :
    Pairs.keys (g.entriesOf names) = names.map .str := by
  unfold Pairs.keys entriesOf
  rw [List.map_map]
  rfl

/-- A new order is taken if it has the names of the graph, and only then. -/
theorem Proper.reorder_eq_ok_iff (hg : g.Proper) {names : List String} :
    g.reorder (g.entriesOf names) = .ok g' ↔
      (names.map .str).Perm g.names ∧ g' = ⟨g.entriesOf names⟩ := by
  constructor
  · intro h
    have hperm : (names.map Atom.str).Perm g.names := by
      unfold reorder at h
      dsimp only at h
      split at h
      · cases h
      · split at h
        · rename_i hp
          obtain ⟨ns, hns⟩ := exists_map_of_texts hg.text
          have hnames : g.names = ns.map .str := hns
          have hkeys : (g.entriesOf names).map (·.1) = names.map .str := keys_entriesOf g names
          rw [hkeys, hnames, sameInOrder_texts, List.isPerm_iff] at hp
          rw [hnames]
          exact hp.map _
        · cases h
    have hkeys : (Pairs.keys (g.entriesOf names)).Perm g.names := by rwa [keys_entriesOf]
    have hok := hg.reorder_of_perm hkeys
    exact ⟨hperm, (Except.ok.inj (hok.symm.trans h)).symm⟩
  · rintro ⟨hperm, rfl⟩
    exact hg.reorder_of_perm (by rwa [keys_entriesOf])

/-- A graph in a new order has its own resources. -/
theorem Proper.get?_entriesOf (hg : g.Proper) {names : List String}
    (hn : (names.map Atom.str).Perm g.names) (hr : g.get? (.str s) = some r) :
    (⟨g.entriesOf names⟩ : ResourceGraph).get? (.str s) = some r := by
  have hkeyed : Pairs.Keyed (g.entriesOf names) := by
    refine ⟨fun k hk => ?_, ?_⟩
    · rw [keys_entriesOf] at hk
      exact hg.text k (hn.subset hk)
    · rw [keys_entriesOf]
      exact hn.nodup_iff.mpr hg.nodup
  have hs : s ∈ names := by
    obtain ⟨t, ht, he⟩ := List.mem_map.mp (hn.symm.subset (mem_names_of_get? hr))
    exact Atom.str.inj he ▸ ht
  refine hkeyed.lookup_iff.mpr (List.mem_map.mpr ⟨s, hs, ?_⟩)
  rw [hr]
  rfl

/-! ### New names -/

/-- A resource takes the place of its name, or comes last. -/
theorem exists_names_add (g : ResourceGraph) (s : String) (r : Resource) :
    ∃ new : List String, (g.add (.str s) r).names = g.names ++ new.map .str ∧ new ⊆ [s] := by
  by_cases hs : .str s ∈ g.names
  · exact ⟨[], (names_add hs).trans (List.append_nil _).symm, List.nil_subset _⟩
  · refine ⟨[s], ?_, List.Subset.refl _⟩
    show Pairs.keys (Pairs.put (.str s) r g.entries) = _
    rw [Pairs.put_of_not_mem hs, Pairs.keys_append]
    rfl

theorem exists_names_addAll {rs : List (Atom × Resource)} {written : List String}
    (hrs : ∀ nr ∈ rs, ∃ s ∈ written, nr.1 = .str s) (g : ResourceGraph) :
    ∃ new : List String, (g.addAll rs).names = g.names ++ new.map .str ∧ new ⊆ written := by
  induction rs generalizing g with
  | nil => exact ⟨[], (List.append_nil _).symm, List.nil_subset _⟩
  | cons nr rs ih =>
    obtain ⟨n, r⟩ := nr
    obtain ⟨⟨s, hs, rfl⟩, hrest⟩ := List.forall_mem_cons.mp hrs
    obtain ⟨new, hnew, hsub⟩ := exists_names_add g s r
    obtain ⟨more, hmore, hsub'⟩ := ih hrest (g.add (.str s) r)
    refine ⟨new ++ more, ?_, List.append_subset.mpr ⟨fun t ht => ?_, hsub'⟩⟩
    · rw [List.map_append, ← List.append_assoc, ← hnew]
      exact hmore
    · rw [List.mem_singleton.mp (hsub ht)]
      exact hs

/-- Orderly resources may be added to an orderly graph. -/
theorem Orderly.addAll {rs : List (Atom × Resource)} (hg : g.Orderly)
    (hrs : ∀ nr ∈ rs, (∃ s, nr.1 = .str s) ∧ nr.2.Orderly) : (g.addAll rs).Orderly := by
  have htext : ∀ nr ∈ rs, ∃ s, nr.1 = .str s := fun nr hnr => (hrs nr hnr).1
  refine ⟨hg.proper.addAll htext, fun s r hr => ?_⟩
  by_cases hs : .str s ∈ Pairs.keys rs
  · obtain ⟨r', hr', hall⟩ := exists_get?_addAll htext hs
    obtain rfl : r = r' := Option.some.inj (hr.symm.trans (hall g))
    exact (hrs _ hr').2
  · exact hg.resources s r ((get?_addAll_of_not_mem hs).symm.trans hr)

end ResourceGraph

/-! ### Operations -/

/-- An operation on the resources of a template. -/
inductive GraphOperation where
  /-- Reads all resources anew from a section of a template. -/
  | read (given : Value)
  | add (name : String) (entry : Value)
  | depend (name : String) (dependency : Value)
  | resolve (name : String) (restApi : Value)
  | addModels (restApi : Value) (models : List ModelDescriptor)
  | addModelDependencies (name : String) (refs : ModelRefs)
  /-- Makes a resource depend on models by values that were not read as references. -/
  | addUnread (name : String) (models : Fields)
  | addRequestModels (name : String) (d : EndpointDocumentation)
  | addResponses (name : String) (d : EndpointDocumentation)
  | addParameters (name : String) (ps : List Parameter) (place : String)
  | augment (name : String) (d : EndpointDocumentation) (safeMode : Bool)
  /-- Gives the resources of some names as the new order. -/
  | reorder (names : List String)
  | chain (names : List String) (width : Value)
  | chainFree (width : Value)

namespace GraphOperation
open ResourceGraph
variable {g g' : ResourceGraph} {op : GraphOperation} {s : String} {r : Resource}

/-- Carries out an operation. -/
def run : GraphOperation → Edit ResourceGraph Unit
  | read given => do set (← Edit.ofResult (ofSection given))
  | add name entry => do
    let r ← Edit.ofResult (Resource.ofEntry entry)
    modify fun g => g.add (.str name) r
  | depend name dependency => update (.str name) (modify fun r => r.addValue dependency)
  | resolve name restApi => do
    let g : ResourceGraph ← get
    set (← Edit.ofResult (g.resolve (.str name) restApi))
  | addModels restApi models => do
    let rs ← Edit.ofResult (ModelDescriptor.toResources restApi models)
    modify fun g => g.addAll rs
  | addModelDependencies name refs => update (.str name) do
    let _ ← Resource.addModelDependencies refs
  | addUnread name models => update (.str name) do
    let _ ← Edit.ofResult (Resource.addUnreadDependencies models)
  | addRequestModels name d => update (.str name) (Resource.addRequestModels d)
  | addResponses name d => update (.str name) (Resource.addResponses d)
  | addParameters name ps place => update (.str name) (Resource.addParameters ps place)
  | augment name d safeMode => update (.str name) (Resource.augment d safeMode)
  | reorder names => do
    let g : ResourceGraph ← get
    set (← Edit.ofResult (g.reorder (g.entriesOf names)))
  | chain names width => do
    let g : ResourceGraph ← get
    names.forM fun name => do
      let _ ← Edit.ofResult (g.get (.str name))
    let width ← Edit.ofResult (chainWidth width)
    set (g.chain (names.map .str) width)
  | chainFree width => do
    let width ← Edit.ofResult (chainWidth width)
    let _ ← ResourceGraph.chainFree width

/-- The graph after an operation, also after one that fails. -/
def next (op : GraphOperation) (g : ResourceGraph) : ResourceGraph := (op.run.outcome g).1

/-- What an operation answers. -/
def answer (op : GraphOperation) (g : ResourceGraph) : Result Unit := (op.run.outcome g).2

/-- The graph after operations one after the other, of which some may fail. -/
def runAll (ops : List GraphOperation) : ResourceGraph := ops.foldl (fun g op => op.next g) .empty

/-- What an operation is given has text keys, and neither a kind nor a dependency that has a part
which stands elsewhere. -/
def Typed : GraphOperation → Prop
  | read given => Pairs.Keyed (given.fields?.getD []) ∧
      ∀ kv ∈ given.fields?.getD [], Resource.TypedEntry kv.2
  | add _ entry => Resource.TypedEntry entry
  | depend _ dependency => dependency.isAlone = true
  | _ => True

/-- Every section from JSON may be read. -/
theorem typed_read_of_isPlain {given : Value} (h : given.isPlain = true) : (read given).Typed := by
  have hnone : given.fields?.getD [] = [] → (read given).Typed := fun hnone => by
    show Pairs.Keyed (given.fields?.getD []) ∧ _
    rw [hnone]
    exact ⟨.nil, fun kv hkv => (nomatch hkv)⟩
  cases given with
  | object fields =>
    exact ⟨Value.keyed_of_isPlain h, fun kv hkv =>
      Resource.typedEntry_of_isPlain (Value.isPlain_of_mem_fields h kv hkv)⟩
  | atom a => exact hnone rfl
  | list items => exact hnone rfl
  | _ => cases h

/-- Whether an operation reads all resources anew. -/
def isRead : GraphOperation → Bool
  | read _ => true
  | _ => false

/-- Whether an operation is there to give a new order. -/
def rearranges : GraphOperation → Bool
  | reorder _ => true
  | chainFree _ => true
  | _ => false

/-- The names under which an operation adds resources. -/
def written : GraphOperation → List String
  | add name _ => [name]
  | addModels _ models => models.map fun m => m.resourceName
  | _ => []

/-- What an operation that does not read all resources anew may change. -/
structure Changes (op : GraphOperation) (g : ResourceGraph) : Prop where
  /-- New names come last, and otherwise the order changes only where it is to change. -/
  names : (∃ new : List String, (op.next g).names = g.names ++ new.map .str ∧ new ⊆ op.written) ∨
    (op.rearranges = true ∧ op.answer g = .ok () ∧ (op.next g).names.Perm g.names)
  /-- No resource is removed. -/
  kept : ∀ n ∈ g.names, n ∈ (op.next g).names
  /-- Only a resource that is added may have another kind or other further keys. -/
  stays : ∀ s r, s ∉ op.written → g.get? (.str s) = some r →
    ∃ r', (op.next g).get? (.str s) = some r' ∧ r.Stays r'

/-! ### One operation -/

/-- New names come last. -/
theorem Changes.of_new {new : List String} (hn : (op.next g).names = g.names ++ new.map .str)
    (hsub : new ⊆ op.written)
    (hs : ∀ s r, s ∉ op.written → g.get? (.str s) = some r →
      ∃ r', (op.next g).get? (.str s) = some r' ∧ r.Stays r') : op.Changes g :=
  ⟨.inl ⟨new, hn, hsub⟩, fun _ h => hn ▸ List.mem_append_left _ h, hs⟩

/-- An operation that gives a new order. -/
theorem orderly_of_perm (hg : g.Orderly) (hr : op.rearranges = true) (ha : op.answer g = .ok ())
    (hn : (op.next g).names.Perm g.names)
    (hs : ∀ s r, g.get? (.str s) = some r →
      ∃ r', (op.next g).get? (.str s) = some r' ∧ r.Stays r') :
    (op.next g).Orderly ∧ op.Changes g :=
  ⟨hg.of_stays hn hs, .inr ⟨hr, ha, hn⟩, fun _ h => hn.symm.subset h, fun s r _ => hs s r⟩

/-- An operation that keeps all names and what stays of all resources. -/
theorem of_alike (h : g.Alike (op.next g)) (hg : g.Orderly) :
    (op.next g).Orderly ∧ op.Changes g :=
  ⟨h.orderly hg, .of_new (h.names.trans (List.append_nil _).symm) (List.nil_subset _)
    fun s r _ hr => h.stays s r hr⟩

theorem of_keeps (h : op.run.Keeps g.Alike) (hg : g.Orderly) :
    (op.next g).Orderly ∧ op.Changes g :=
  of_alike (h g (.refl hg)) hg

theorem of_unchanged (h : op.next g = g) (hg : g.Orderly) :
    (op.next g).Orderly ∧ op.Changes g :=
  of_alike (h.symm ▸ .refl hg) hg

theorem changes_add {name : String} {entry : Value} (ht : Resource.TypedEntry entry)
    (hg : g.Orderly) : ((add name entry).next g).Orderly ∧ (add name entry).Changes g := by
  cases hr : Resource.ofEntry entry with
  | error e => exact of_unchanged (congrArg Prod.fst (Edit.outcome_of_error hr)) hg
  | ok r =>
    have hnext : (add name entry).next g = g.add (.str name) r :=
      congrArg Prod.fst (Edit.outcome_of_ok hr)
    obtain ⟨new, hnew, hsub⟩ := exists_names_add g name r
    refine ⟨?_, .of_new (hnext ▸ hnew) hsub fun s r' hs hr' => ?_⟩
    · rw [hnext]
      change (g.addAll [(.str name, r)]).Orderly
      refine hg.addAll fun nr hnr => ?_
      rw [List.mem_singleton.mp hnr]
      exact ⟨⟨name, rfl⟩, Resource.orderly_of_ofEntry ht hr⟩
    · have hne : name ≠ s := fun he => hs (List.mem_singleton.mpr he.symm)
      rw [hnext]
      exact ⟨r', (get?_add_of_ne hne).trans hr', .refl (hg.resources s r' hr')⟩

theorem changes_addModels {restApi : Value} {models : List ModelDescriptor} (hg : g.Orderly) :
    ((addModels restApi models).next g).Orderly ∧ (addModels restApi models).Changes g := by
  cases hrs : ModelDescriptor.toResources restApi models with
  | error e => exact of_unchanged (congrArg Prod.fst (Edit.outcome_of_error hrs)) hg
  | ok rs =>
    have hnext : (addModels restApi models).next g = g.addAll rs :=
      congrArg Prod.fst (Edit.outcome_of_ok hrs)
    have hmade : ∀ nr ∈ rs, ∃ m ∈ models, nr.1 = .str m.resourceName ∧ nr.2.Orderly := by
      intro nr hnr
      obtain ⟨m, hm, hmade⟩ := Result.exists_of_mem_mapM hrs hnr
      obtain ⟨r, hr, he⟩ := Result.bind_eq_ok.mp hmade
      rw [← Except.ok.inj he]
      exact ⟨m, hm, rfl, Resource.orderly_of_toResource hr⟩
    have hwritten : ∀ nr ∈ rs, ∃ s ∈ models.map fun m => m.resourceName, nr.1 = .str s := by
      intro nr hnr
      obtain ⟨m, hm, hname, -⟩ := hmade nr hnr
      exact ⟨_, List.mem_map_of_mem hm, hname⟩
    obtain ⟨new, hnew, hsub⟩ := exists_names_addAll hwritten g
    refine ⟨?_, .of_new (hnext ▸ hnew) hsub fun s r hs hr => ?_⟩
    · rw [hnext]
      refine hg.addAll fun nr hnr => ?_
      obtain ⟨m, -, hname, hr⟩ := hmade nr hnr
      exact ⟨⟨_, hname⟩, hr⟩
    · have hundeclared : ∀ m ∈ models, s ≠ m.resourceName := fun m hm he =>
        hs (List.mem_map.mpr ⟨m, hm, he.symm⟩)
      rw [hnext]
      exact ⟨r, (Compile.get?_added_of_undeclared hrs hundeclared).trans hr,
        .refl (hg.resources s r hr)⟩

/-- A new order is taken if it has the names of the graph; any other one changes nothing. -/
theorem reorder_next (hg : g.Proper) (names : List String) :
    ((reorder names).answer g = .ok () ↔ (names.map .str).Perm g.names) ∧
    ((names.map .str).Perm g.names → (reorder names).next g = ⟨g.entriesOf names⟩) ∧
    ((reorder names).answer g ≠ .ok () → (reorder names).next g = g) := by
  have hrun : (reorder names).run.outcome g =
      (Edit.ofResult (g.reorder (g.entriesOf names)) >>= fun g' =>
        (set g' : Edit ResourceGraph Unit)).outcome g := rfl
  cases h : g.reorder (g.entriesOf names) with
  | ok g' =>
    obtain ⟨hperm, rfl⟩ := hg.reorder_eq_ok_iff.mp h
    have hok := hrun.trans (Edit.outcome_of_ok h)
    have hanswer : (reorder names).answer g = .ok () := congrArg Prod.snd hok
    exact ⟨⟨fun _ => hperm, fun _ => hanswer⟩, fun _ => congrArg Prod.fst hok,
      fun hne => absurd hanswer hne⟩
  | error e =>
    have herror := hrun.trans (Edit.outcome_of_error h)
    have hanswer : (reorder names).answer g = .error e := congrArg Prod.snd herror
    have hno : ¬ (names.map Atom.str).Perm g.names := fun hperm => by
      cases h.symm.trans (hg.reorder_eq_ok_iff.mpr ⟨hperm, rfl⟩)
    exact ⟨⟨fun hok => (nomatch hanswer.symm.trans hok), fun hperm => absurd hperm hno⟩,
      fun hperm => absurd hperm hno, fun _ => congrArg Prod.fst herror⟩

theorem changes_reorder {names : List String} (hg : g.Orderly) :
    ((reorder names).next g).Orderly ∧ (reorder names).Changes g := by
  obtain ⟨hok, hnext, hsame⟩ := reorder_next hg.proper names
  by_cases hperm : (names.map Atom.str).Perm g.names
  · have hnames : ((reorder names).next g).names.Perm g.names := by
      rw [hnext hperm]
      show (Pairs.keys (g.entriesOf names)).Perm _
      rwa [keys_entriesOf]
    have hstays : ∀ s r, g.get? (.str s) = some r →
        ∃ r', ((reorder names).next g).get? (.str s) = some r' ∧ r.Stays r' := fun s r hr => by
      rw [hnext hperm]
      exact ⟨r, hg.proper.get?_entriesOf hperm hr, .refl (hg.resources s r hr)⟩
    exact orderly_of_perm hg rfl (hok.mpr hperm) hnames hstays
  · exact of_unchanged (hsame (mt hok.mp hperm)) hg

theorem changes_chainFree {width : Value} (hg : g.Orderly) :
    ((chainFree width).next g).Orderly ∧ (chainFree width).Changes g := by
  cases hw : chainWidth width with
  | error e => exact of_unchanged (congrArg Prod.fst (Edit.outcome_of_error hw)) hg
  | ok w =>
    have hrun : (chainFree width).run.outcome g = (g.chained w, .ok ()) := by
      refine (Edit.outcome_of_ok hw).trans ?_
      rw [Edit.outcome, Edit.bind_of_ok (hg.proper.chainFree_eq w)]
      rfl
    have hnext : (chainFree width).next g = g.chained w := congrArg Prod.fst hrun
    have hanswer : (chainFree width).answer g = .ok () := congrArg Prod.snd hrun
    have hstays : ∀ s r, g.get? (.str s) = some r →
        ∃ r', ((chainFree width).next g).get? (.str s) = some r' ∧ r.Stays r' := by
      intro s r hr
      have hself := Resource.Stays.refl (hg.resources s r hr)
      rw [hnext]
      obtain ⟨parents, hget, rfl | ⟨-, t, rfl, -⟩⟩ := hg.proper.exists_chained w hr
      · exact ⟨r, hget, hself⟩
      · exact ⟨_, hget, hself.withParent _⟩
    have hnames : ((chainFree width).next g).names.Perm g.names :=
      hnext.symm ▸ names_chained_perm w g
    exact orderly_of_perm hg rfl hanswer hnames hstays

theorem keeps_resolve {g₀ : ResourceGraph} (name : String) (restApi : Value) :
    (GraphOperation.resolve name restApi).run.Keeps g₀.Alike :=
  Edit.keeps_get_bind fun _ hg => Edit.keeps_ofResult_bind fun _ hg' => fun _ _ => hg.resolve hg'

theorem keeps_chain {g₀ : ResourceGraph} (names : List String) (width : Value) :
    (GraphOperation.chain names width).run.Keeps g₀.Alike := by
  refine Edit.keeps_get_bind fun g hg => ?_
  have hfound : Edit.Keeps g₀.Alike (names.forM fun name => do
      let _ ← Edit.ofResult (g.get (.str name))) :=
    Edit.Keeps.forM fun name _ => Edit.keeps_ofResult_bind fun _ _ => Edit.keeps_pure _
  refine hfound.bind fun _ => Edit.keeps_ofResult_bind fun w _ => fun _ _ => ?_
  show g₀.Alike (g.chain (names.map .str) w)
  rw [chain_eq_setParents]
  refine hg.setParents fun e he => ?_
  have hchild : e.2 ∈ (names.map Atom.str).drop w := by
    rw [← chainEdges_children]
    exact List.mem_map_of_mem he
  obtain ⟨s, -, hs⟩ := List.mem_map.mp (List.mem_of_mem_drop hchild)
  exact ⟨s, hs.symm⟩

open Resource in
/-- What an operation changes that does not read all resources anew, also if it fails. -/
theorem orderly_and_changes (hg : g.Orderly) (ht : op.Typed) (hread : op.isRead = false) :
    (op.next g).Orderly ∧ op.Changes g := by
  cases op with
  | read given => cases hread
  | add name entry => exact changes_add ht hg
  | depend name dependency =>
    exact of_keeps (keeps_update (fun r₀ => Edit.keeps_modify fun r hr => hr.addValue ht) name) hg
  | resolve name restApi => exact of_keeps (keeps_resolve name restApi) hg
  | addModels restApi models => exact changes_addModels hg
  | addModelDependencies name refs =>
    exact of_keeps (keeps_update (fun r₀ =>
      (keeps_addModelDependencies (lasting_stays r₀ _)).bind fun _ => Edit.keeps_pure _) name) hg
  | addUnread name models =>
    exact of_keeps (keeps_update (fun r₀ =>
      Edit.keeps_ofResult_bind fun _ _ => Edit.keeps_pure _) name) hg
  | addRequestModels name d =>
    exact of_keeps (keeps_update (fun r₀ => keeps_addRequestModels (lasting_stays r₀ _)) name) hg
  | addResponses name d =>
    exact of_keeps (keeps_update (fun r₀ => keeps_addResponses (lasting_stays r₀ _)) name) hg
  | addParameters name ps place =>
    exact of_keeps
      (keeps_update (fun r₀ => keeps_addParameters (lasting_stays r₀ []) _ _) name) hg
  | augment name d safeMode =>
    exact of_keeps (keeps_update (fun r₀ => keeps_augment (lasting_stays r₀ _) _) name) hg
  | reorder names => exact changes_reorder hg
  | chain names width => exact of_keeps (keeps_chain names width) hg
  | chainFree width => exact changes_chainFree hg

theorem orderly_read {given : Value} (hg : g.Orderly) (ht : (read given).Typed) :
    ((read given).next g).Orderly := by
  cases h : ofSection given with
  | error e =>
    have hnext : (read given).next g = g := congrArg Prod.fst (Edit.outcome_of_error h)
    rwa [hnext]
  | ok g' =>
    have hnext : (read given).next g = g' := congrArg Prod.fst (Edit.outcome_of_ok h)
    obtain ⟨hkeyed, hentries⟩ := ht
    have hread := readFrom_of_ofSection h
    rw [hnext]
    refine ⟨?_, fun s r hr => ?_⟩
    · have hnames : Pairs.keys g'.entries = Pairs.keys (given.fields?.getD []) := hread.names
      exact ⟨hnames ▸ hkeyed.text, hnames ▸ hkeyed.nodup⟩
    · obtain ⟨kv, hkv, hentry⟩ := exists_of_forall₂_right hread (mem_of_get? hr)
      exact Resource.orderly_of_ofEntry (hentries kv hkv) (readEntry_eq_ok.mp hentry).2

theorem orderly_next (hg : g.Orderly) (ht : op.Typed) : (op.next g).Orderly := by
  cases hread : op.isRead with
  | false => exact (orderly_and_changes hg ht hread).1
  | true =>
    cases op with
    | read given => exact orderly_read hg ht
    | _ => cases hread

/-! ### Operations one after the other -/

theorem orderly_empty : ResourceGraph.empty.Orderly := ⟨.nil, fun _ _ h => (nomatch h)⟩

/-- **Every graph that is reached by operations is orderly.** -/
theorem orderly_runAll {ops : List GraphOperation} (ht : ∀ op ∈ ops, op.Typed) :
    (runAll ops).Orderly := by
  have hfrom : ∀ g : ResourceGraph, g.Orderly →
      (ops.foldl (fun g op => op.next g) g).Orderly := by
    induction ops with
    | nil => exact fun g hg => hg
    | cons op ops ih =>
      obtain ⟨hop, hrest⟩ := List.forall_mem_cons.mp ht
      exact fun g hg => ih hrest _ (orderly_next hg hop)
  exact hfrom _ orderly_empty

/-- **What holds of every graph.**  After any operations, of which some may have failed midway, the
names of the resources are distinct texts and no resource lists a dependency twice.  Any further
operation changes only what it may change; and entries of the graph are taken as a new order
exactly if their names are those of the graph, and otherwise change nothing. -/
theorem graph_invariant {ops : List GraphOperation} (ht : ∀ op ∈ ops, op.Typed) :
    (runAll ops).Proper ∧
    (∀ nr ∈ (runAll ops).entries, nr.2.dependsOn.Pairwise fun a b => a.same b = false) ∧
    (∀ op : GraphOperation, op.Typed → op.isRead = false → op.Changes (runAll ops)) ∧
    ∀ names : List String,
      ((reorder names).answer (runAll ops) = .ok () ↔
        (names.map .str).Perm (runAll ops).names) ∧
      ((reorder names).answer (runAll ops) = .ok () →
        ((reorder names).next (runAll ops)).names = names.map .str) ∧
      ((reorder names).answer (runAll ops) ≠ .ok () →
        (reorder names).next (runAll ops) = runAll ops) := by
  have hg := orderly_runAll ht
  refine ⟨hg.proper, fun nr hnr => ?_, fun op hop hread => ?_, fun names => ?_⟩
  · obtain ⟨n, r⟩ := nr
    obtain ⟨s, rfl⟩ : ∃ s, n = .str s := hg.proper.text n (List.mem_map_of_mem hnr)
    exact (hg.resources s r (hg.proper.get?_iff.mpr hnr)).once
  · exact (orderly_and_changes hg hop hread).2
  · obtain ⟨hok, hnext, hsame⟩ := reorder_next hg.proper names
    refine ⟨hok, fun h => ?_, hsame⟩
    rw [hnext (hok.mp h)]
    exact keys_entriesOf _ _

/-- A table, and a method that lists it twice and has no object of request parameters. -/
def shopResources : Value :=
  .ofPairs [
    ("Table", .ofPairs [("Type", .str "AWS::DynamoDB::Table"), ("Condition", .str "IsLive")]),
    ("Get", .ofPairs [("Type", .str "AWS::ApiGateway::Method"),
      ("Properties", .ofPairs [("RequestParameters", .str "none")]),
      ("DependsOn", .list [.str "Table", .str "Table"])])]

/-- A documentation that refers to one model twice and tells a parameter. -/
def shopDocumentation : EndpointDocumentation :=
  { EndpointDocumentation.empty with
    pathParameters := [⟨"id", none, none⟩]
    models := [(.str "application/json", .direct "Pet")]
    responses := [⟨"200", none, none, [], [(.str "application/json", .direct "Pet")]⟩] }

/-- Operations of which the third fails midway, and the fourth and fifth fail. -/
def shopOperations : List GraphOperation :=
  [read shopResources,
    addModels (.str "api") [⟨"Pet", none, "application/json", .null⟩,
      ⟨"Pets", none, "application/json", .null⟩],
    augment "Get" shopDocumentation false,
    depend "Post" (.str "Table"),
    reorder ["Get", "Table"],
    reorder ["PetsModel", "PetModel", "Get", "Table"],
    chainFree (.int 1)]

/-- What fails leaves what it had done until then: the method depends on the model, although its
parameters could not be added.  The order that is refused changes nothing. -/
theorem graph_invariant_shop : (∀ op ∈ shopOperations, op.Typed) ∧
    (runAll shopOperations).entries.map (fun nr => (nr.1, nr.2.dependsOn)) =
      [(.str "PetsModel", []), (.str "PetModel", [.str "PetsModel"]),
        (.str "Get", [.str "Table", .str "PetModel"]), (.str "Table", [])] ∧
    (runAll shopOperations).Proper := by
  have hread : (read shopResources).Typed := typed_read_of_isPlain rfl
  have ht : ∀ op ∈ shopOperations, op.Typed := by
    simpa [shopOperations, Typed, Value.isAlone] using hread
  exact ⟨ht, rfl, (graph_invariant ht).1⟩

/-- A method whose request parameters are its metadata too. -/
def annotatedResources : Value :=
  let parameters : Value := .shared 0 (.object [])
  .ofPairs [("Get", .ofPairs [("Type", .str "AWS::ApiGateway::Method"),
    ("Properties", .ofPairs [("RequestParameters", parameters)]), ("Metadata", parameters)])]

/-- A method whose request parameters are its kind and its first dependency too. -/
def entangledResources : Value :=
  let parameters : Value := .shared 0 (.object [])
  .ofPairs [("Get", .ofPairs [("Type", parameters),
    ("Properties", .ofPairs [("RequestParameters", parameters)]),
    ("DependsOn", .list [parameters,
      .ofPairs [("method.request.querystring.limit", .bool false)]])])]

/-- Adds one request parameter to a method. -/
def addLimit : GraphOperation :=
  addParameters "Get" [⟨"limit", none, none⟩] Resource.queryPlace

/-- A parameter that is added comes to stand in the metadata; in a resource that is not typed, it
comes to stand in the kind, and makes two dependencies the same. -/
theorem addLimit_reaches_shared :
    ((∀ op ∈ [read annotatedResources, addLimit], op.Typed) ∧ ∃ r r',
      (runAll [read annotatedResources]).get? (.str "Get") = some r ∧
      (runAll [read annotatedResources, addLimit]).get? (.str "Get") = some r' ∧
      r'.extra ≠ r.extra) ∧
    ∃ r r', (runAll [read entangledResources]).get? (.str "Get") = some r ∧
      (runAll [read entangledResources, addLimit]).get? (.str "Get") = some r' ∧
      r'.kind ≠ r.kind ∧ ¬ r'.dependsOn.Pairwise fun a b => a.same b = false := by
  have hentry : ∀ kv ∈ annotatedResources.fields?.getD [], Resource.TypedEntry kv.2 := by
    refine List.forall_mem_singleton.mpr ⟨rfl, fun listed hlisted d hd => ?_⟩
    cases hlisted
    cases hd
  have hread : (read annotatedResources).Typed :=
    ⟨Pairs.keyed_cons.mpr ⟨List.not_mem_nil, .nil⟩, hentry⟩
  refine ⟨⟨by simpa [addLimit, Typed] using hread, _, _, rfl, rfl, fun h => ?_⟩, _, _, rfl, rfl,
    fun h => ?_, fun h => ?_⟩
  · have hmetadata := congrArg (fun fields : Fields =>
      Pairs.keys ((fields.get "Metadata").fields?.getD [])) h
    cases hmetadata
  · have hkind := congrArg (fun v : Value => Pairs.keys (v.fields?.getD [])) h
    cases hkind
  · have hsame := (List.pairwise_cons.mp h).1 _ List.mem_cons_self
    revert hsame
    decide

end GraphOperation
end GatewayDocs

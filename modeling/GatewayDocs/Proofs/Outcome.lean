import GatewayDocs.Proofs.Commit

/-! # What a compilation writes

The resources of a documented graph are those of the models, built anew, or those that were there,
documented by the events that name them (`exists_origin`, `get?_added`).

Names of resources and keys of their entries are texts (`TextKeys`).  If moreover the parts of
documented resources that documentation goes down into stand in one place each (`ClearParts`), then
all resources are read again as they are written (`normal_of_documentation`), and so a compilation
leaves a template from which exactly the resources are read that it has made
(`readGraph_of_compiled`). -/

namespace GatewayDocs

theorem ResourceGraph.Normal.arrange {g : ResourceGraph} (hg : g.Normal)
    (settings : CompileSettings) : (settings.arrange g).Normal := by
  unfold CompileSettings.arrange
  split
  · exact hg.chained _
  · exact hg

namespace Compile
variable {g g' : ResourceGraph} {models : List ModelDescriptor} {events : List HttpEvent}
  {settings : CompileSettings} {service : Value} {w w' : Workspace} {c : Compiled} {s : String}
  {r : Resource} {rs : List (Atom × Resource)}

/-- The documentation of events refers to models under content types that are texts. -/
def EventTexts (events : List HttpEvent) : Prop := ∀ e ∈ events, ∀ d ∈ e.documentation, d.Texts

theorem eventTexts_of_readService {source : Source}
    (h : readService service = .ok (some source)) : EventTexts source.events :=
  fun e he d hd => (sound_of_readService Hereditary.trivial trivial h e he d hd).texts

/-- A name is that of the method resource of a documented event. -/
def IsDocumented (events : List HttpEvent) (name : String) : Prop :=
  ∃ e ∈ events, e.documentation.isSome = true ∧ methodId e = name

theorem docsOf_of_not_isDocumented (h : ¬ IsDocumented events s) : docsOf s events = [] := by
  refine List.eq_nil_iff_forall_not_mem.mpr fun d hd => ?_
  obtain ⟨e, he, hs, hdoc⟩ := mem_docsOf hd
  exact h ⟨e, he, by rw [hdoc]; rfl, hs⟩

/-- The resources of a graph are normal, and nothing in the properties of a documented one is behind
a label where documentation goes down. -/
def Ready (events : List HttpEvent) (g : ResourceGraph) : Prop :=
  ∀ s r, g.get? (.str s) = some r →
    r.Normal ∧ (IsDocumented events s → methodOutline.Clear r.properties)

theorem Ready.clear (h : Ready events g) (hr : g.get? (.str s) = some r) :
    docsOf s events ≠ [] → methodOutline.Clear r.properties :=
  fun hne => (h s r hr).2 (not_not.mp (mt docsOf_of_not_isDocumented hne))

theorem texts_docsOf (ht : EventTexts events) : ∀ d ∈ docsOf s events, d.Texts := by
  intro d hd
  obtain ⟨e, he, -, hdoc⟩ := mem_docsOf hd
  exact ht e he d hdoc

/-- A name is that of an added resource if it is that of a model. -/
theorem mem_keys_toResources {restApi : Value}
    (hrs : ModelDescriptor.toResources restApi models = .ok rs) :
    .str s ∈ Pairs.keys rs ↔ ∃ m ∈ models, s = m.resourceName := by
  have hall := Result.mapM_eq_ok.mp hrs
  clear hrs
  induction hall with
  | nil => simp
  | cons hm _ ih =>
    obtain ⟨r, -, he⟩ := Result.bind_eq_ok.mp hm
    cases he
    simp only [Pairs.keys_cons, List.mem_cons, Atom.str.injEq, exists_eq_or_imp]
    exact or_congr Iff.rfl ih

/-- A resource whose name no model has stays as it is when the resources of models are added. -/
theorem get?_added_of_undeclared {restApi : Value}
    (hrs : ModelDescriptor.toResources restApi models = .ok rs)
    (hs : ∀ m ∈ models, s ≠ m.resourceName) :
    (g.addAll rs).get? (.str s) = g.get? (.str s) :=
  ResourceGraph.get?_addAll_of_not_mem fun hmem => by
    obtain ⟨m, hm, he⟩ := (mem_keys_toResources hrs).mp hmem
    exact hs m hm he

/-- What is there after adding the resources of models: one of theirs, or what was there before. -/
theorem get?_added (hrs : ModelDescriptor.toResources settings.restApi models = .ok rs)
    (hr : (g.addAll rs).get? (.str s) = some r) :
    (∃ m ∈ models, s = m.resourceName ∧ m.toResource settings.restApi = .ok r) ∨
      ((∀ m ∈ models, s ≠ m.resourceName) ∧ g.get? (.str s) = some r) := by
  have ht := exists_text_of_toResources hrs
  by_cases hs : .str s ∈ Pairs.keys rs
  · obtain ⟨r', hr', hall⟩ := ResourceGraph.exists_get?_addAll ht hs
    obtain rfl : r' = r := Option.some.inj ((hall g).symm.trans hr)
    obtain ⟨m, hm, hadded⟩ := Result.exists_of_mem_mapM hrs hr'
    obtain ⟨r₁, hr₁, he⟩ := Result.bind_eq_ok.mp hadded
    cases he
    exact .inl ⟨m, hm, rfl, hr₁⟩
  · exact .inr ⟨fun m hm he => hs ((mem_keys_toResources hrs).mpr ⟨m, hm, he⟩),
      (ResourceGraph.get?_addAll_of_not_mem hs).symm.trans hr⟩

theorem ready_addAll (hg : Ready events g)
    (hrs : ModelDescriptor.toResources settings.restApi models = .ok rs) :
    Ready events (g.addAll rs) := by
  intro s r hr
  rcases get?_added hrs hr with ⟨m, -, -, hm⟩ | ⟨-, hold⟩
  · exact (Resource.normal_of_toResource hm).imp_right fun hclear _ => hclear
  · exact hg s r hold

/-- What a documented resource was made of. -/
theorem exists_origin (hg : g.Proper) (h : augmentEvents settings.safeMode g events = .ok g')
    (hr : g'.get? (.str s) = some r) : ∃ r₀, g.get? (.str s) = some r₀ ∧
      Resource.documentAll settings.safeMode (docsOf s events) r₀ = .ok r := by
  obtain ⟨-, hn, hall⟩ := (augmentEvents_iff hg).mp h
  have hs := ResourceGraph.mem_names_of_get? hr
  rw [hn] at hs
  obtain ⟨r₀, hr₀⟩ := ResourceGraph.exists_get? hs
  obtain ⟨r', hr', hdoc⟩ := hall s r₀ hr₀
  cases hr'.symm.trans hr
  exact ⟨r₀, hr₀, hdoc⟩

/-- Documented resources are normal. -/
theorem normal_of_documentation (hg : g.Proper) (hready : Ready events g) (ht : EventTexts events)
    (h : documentation g models events settings = .ok g') : g'.Normal := by
  have hg' := proper_of_documentation hg h
  obtain ⟨-, rs, hrs, haug⟩ := documentation_eq_ok.mp h
  intro nr hnr
  obtain ⟨s, hs⟩ := hg'.text nr.1 (List.mem_map_of_mem hnr)
  have hget : g'.get? (.str s) = some nr.2 := hg'.get?_iff.mpr (hs ▸ hnr)
  obtain ⟨r₀, hr₀, hdoc⟩ := exists_origin (hg.addAll (exists_text_of_toResources hrs)) haug hget
  have hadded := ready_addAll hready hrs
  exact (hadded s r₀ hr₀).1.documentAll (texts_docsOf ht) (hadded.clear hr₀) hdoc

/-! ### The template -/

/-- The names of the resources of a template are distinct texts, and so are the keys of each. -/
structure TextKeys (t : Value) : Prop where
  names : Pairs.Keyed (resourcesOf t)
  entries : ∀ kv ∈ resourcesOf t, Pairs.Keyed (kv.2.fields?.getD [])

/-- Nothing in the properties of a resource that events document is behind a label where
documentation goes down: it stands in one place. -/
def ClearParts (t : Value) (events : List HttpEvent) : Prop := ∀ g, readGraph t = .ok g →
  ∀ s r, IsDocumented events s → g.get? (.str s) = some r → methodOutline.Clear r.properties

theorem proper_of_readGraph {t : Value} (hn : Pairs.Keyed (resourcesOf t))
    (h : readGraph t = .ok g) : g.Proper := by
  have hnames := (readFrom_of_readGraph h).names
  exact ⟨fun k hk => hn.text k (hnames ▸ hk), (congrArg List.Nodup hnames).mpr hn.nodup⟩

theorem normal_of_readGraph {t : Value} (hk : TextKeys t) (h : readGraph t = .ok g) : g.Normal := by
  intro nr hnr
  obtain ⟨kv, hkv, -, hr⟩ := (readFrom_of_readGraph h).exists_entry hnr
  exact Resource.normal_of_ofEntry (hk.entries kv hkv) hr

theorem ready_of_readGraph {t : Value} (hk : TextKeys t) (hc : ClearParts t events)
    (h : readGraph t = .ok g) : Ready events g := fun s r hr =>
  ⟨normal_of_readGraph hk h _ (ResourceGraph.mem_of_get? hr), fun hs => hc g h s r hs hr⟩

/-- The entries of the resources of a plain template are plain. -/
theorem isPlain_resourcesOf {t : Value} (hp : t.isPlain = true) :
    (Value.object (resourcesOf t)).isPlain = true := by
  cases t with
  | object fields => exact Value.isPlain_pairs (Value.isPlain_get hp)
  | atom _ => rfl
  | list _ => rfl
  | _ => cases hp

theorem textKeys_of_isPlain {t : Value} (hp : t.isPlain = true) : TextKeys t := by
  have hplain := isPlain_resourcesOf hp
  exact ⟨Value.keyed_of_isPlain hplain, fun kv hkv => Value.keyed_of_isPlain
    (Value.isPlain_pairs (Value.isPlain_of_mem_fields hplain kv hkv))⟩

theorem clearParts_of_isPlain {t : Value} (hp : t.isPlain = true) (events : List HttpEvent) :
    ClearParts t events := fun g hg s r _ hr => by
  obtain ⟨kv, hkv, -, hentry⟩ :=
    (readFrom_of_readGraph hg).exists_entry (ResourceGraph.mem_of_get? hr)
  exact Value.clear_of_isPlain (Resource.isPlain_of_ofEntry
    (Value.isPlain_of_mem_fields (isPlain_resourcesOf hp) kv hkv) hentry)

/-! ### The whole course -/

/-- **What a compilation does.**  Without documentation it leaves the template as it is; with
documentation it writes the documented resources, arranged. -/
theorem compile_course (hn : Pairs.Keyed (resourcesOf w.template))
    (h : compile service settings w = .ok c w') :
    ∃ g, readGraph w.template = .ok g ∧ g.Proper ∧
      ((readService service = .ok none ∧ c = ⟨g, .null, [], [], [], none⟩ ∧ w' = w) ∨
        ∃ source ga, readService service = .ok (some source) ∧ EventTexts source.events ∧
          documentation g source.models source.events settings = .ok ga ∧
          finish source settings (settings.arrange ga) = .ok c ∧
          commit (settings.arrange ga) settings.restApi w.template = .ok () w'.template) := by
  obtain ⟨g, source?, hread, hservice, hc⟩ := compile_eq_ok.mp h
  have hg := proper_of_readGraph hn hread
  refine ⟨g, hread, hg, ?_⟩
  cases source? with
  | none => exact .inl ⟨hservice, hc⟩
  | some source =>
    obtain ⟨ga, m', t', hdoc, -, hcommit, hfinish, rfl⟩ := (carryOut_eq_ok hg).mp hc
    exact .inr ⟨source, ga, hservice, eventTexts_of_readService hservice, hdoc, hfinish, hcommit⟩

/-- What a compilation tells of its service. -/
theorem told_of_finish {source : Source} (h : finish source settings g = .ok c) :
    c.models = source.models ∧ c.events = source.events := by
  obtain ⟨parts, -, h₁⟩ := Result.bind_eq_ok.mp h
  obtain ⟨version, -, h₂⟩ := Result.bind_eq_ok.mp h₁
  rw [← Except.ok.inj h₂]
  exact ⟨rfl, rfl⟩

end Compile
end GatewayDocs

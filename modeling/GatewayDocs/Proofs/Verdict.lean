import GatewayDocs.Proofs.Failure
import GatewayDocs.Proofs.Fingerprint
import GatewayDocs.Proofs.Frame
import GatewayDocs.Proofs.Rearrange
import GatewayDocs.Proofs.Shaped

/-! # The verdict of a compilation

A compilation into a template whose entries are shaped fails for two reasons only: an event imports
a model that is declared (`Conflicts`), or else a documented event has no method resource
(`Unplaced`).  It names the first event of the kind (`compile_verdict`).

The events are gone through twice, and either time the first one that is wrong decides
(`checkImports_eq_error`, `augmentEvents_eq_error`).  Between the two the resources of the models
are made, which succeeds for a service that comes from JSON, and after them nothing fails
(`exists_carryOut`). -/

namespace GatewayDocs

/-! ### The first of several -/

/-- An item is the first one of a list that has a property. -/
def FirstOf {α : Type} (p : α → Prop) (xs : List α) (x : α) : Prop :=
  ∃ before after, xs = before ++ x :: after ∧ p x ∧ ∀ y ∈ before, ¬ p y

namespace FirstOf
variable {α β : Type} {p : α → Prop} {x y : α} {xs : List α}

theorem prop (h : FirstOf p xs x) : p x := by
  obtain ⟨_, _, _, hx, _⟩ := h
  exact hx

theorem not_nil : ¬ FirstOf p [] x := by
  rintro ⟨before, after, he, -, -⟩
  cases before <;> cases he

theorem cons_of_pos (hx : p x) : FirstOf p (x :: xs) y ↔ y = x := by
  constructor
  · rintro ⟨before, after, he, hy, hbefore⟩
    cases before with
    | nil =>
      cases he
      rfl
    | cons z before =>
      cases he
      exact absurd hx (hbefore x List.mem_cons_self)
  · rintro rfl
    exact ⟨[], xs, rfl, hx, List.forall_mem_nil _⟩

theorem cons_of_neg (hx : ¬ p x) : FirstOf p (x :: xs) y ↔ FirstOf p xs y := by
  constructor
  · rintro ⟨before, after, he, hy, hbefore⟩
    cases before with
    | nil =>
      cases he
      exact absurd hy hx
    | cons z before =>
      cases he
      exact ⟨before, after, rfl, hy, (List.forall_mem_cons.mp hbefore).2⟩
  · rintro ⟨before, after, rfl, hy, hbefore⟩
    exact ⟨x :: before, after, rfl, hy, List.forall_mem_cons.mpr ⟨hx, hbefore⟩⟩

/-- There is a first one if there is any. -/
theorem exists_iff : (∃ x, FirstOf p xs x) ↔ ∃ x ∈ xs, p x := by
  induction xs with
  | nil =>
    constructor
    · rintro ⟨x, h⟩
      exact absurd h not_nil
    · rintro ⟨x, hx, -⟩
      cases hx
  | cons x xs ih =>
    rw [List.exists_mem_cons_iff]
    by_cases hx : p x
    · exact ⟨fun _ => .inl hx, fun _ => ⟨x, (cons_of_pos hx).mpr rfl⟩⟩
    · rw [or_iff_right hx, ← ih]
      exact exists_congr fun y => cons_of_neg hx

/-- What a search gives is found for the first item for which anything is. -/
theorem findSome?_eq_some {f : α → Option β} {b : β} (hp : ∀ x, (∃ b, f x = some b) ↔ p x) :
    xs.findSome? f = some b ↔ ∃ x, FirstOf p xs x ∧ f x = some b := by
  rw [List.findSome?_eq_some_iff]
  constructor
  · rintro ⟨before, x, after, rfl, hx, hbefore⟩
    refine ⟨x, ⟨before, after, rfl, (hp x).mp ⟨b, hx⟩, fun y hy hpy => ?_⟩, hx⟩
    obtain ⟨_, h⟩ := (hp y).mpr hpy
    cases (hbefore y hy).symm.trans h
  · rintro ⟨x, ⟨before, after, rfl, -, hbefore⟩, hx⟩
    exact ⟨before, x, after, rfl, hx, fun y hy =>
      Option.eq_none_iff_forall_ne_some.mpr fun b hb => hbefore y hy ((hp y).mp ⟨b, hb⟩)⟩

end FirstOf

/-- A documentation imports a model under a name, for its request or for one of its responses. -/
def EndpointDocumentation.Imports (d : EndpointDocumentation) (name : String) : Prop :=
  (∃ type, (type, ModelRef.imported (.str name)) ∈ d.models) ∨
    ∃ response ∈ d.responses, ∃ type, (type, ModelRef.imported (.str name)) ∈ response.models

theorem ModelRefs.mem_identifiers {refs : ModelRefs} {v : Value} :
    v ∈ refs.identifiers ↔ ∃ type, (type, ModelRef.imported v) ∈ refs := by
  unfold identifiers
  rw [List.mem_filterMap]
  constructor
  · rintro ⟨⟨type, ref⟩, hmem, h⟩
    cases ref with
    | direct name => cases h
    | imported identifier =>
      cases h
      exact ⟨type, hmem⟩
  · rintro ⟨type, hmem⟩
    exact ⟨_, hmem, rfl⟩

theorem EndpointDocumentation.mem_imported {d : EndpointDocumentation} {name : String} :
    .str name ∈ d.imported ↔ d.Imports name := by
  unfold imported Imports
  simp only [List.mem_append, List.mem_flatMap, ModelRefs.mem_identifiers]

namespace Compile
variable {g g' : ResourceGraph} {models : List ModelDescriptor} {events : List HttpEvent}
  {settings : CompileSettings} {service t : Value} {w w' : Workspace} {fields : Fields}
  {source : Source} {d : EndpointDocumentation} {e : HttpEvent} {f : Failure} {name : String}
  {safeMode : Bool}

/-! ### Imports -/

/-- A name is that of a model. -/
def Declared (models : List ModelDescriptor) (name : String) : Prop := ∃ m ∈ models, m.name = name

/-- An identifier is a text that names a model. -/
def NamesDeclared (models : List ModelDescriptor) (v : Value) : Prop :=
  ∃ name, v = .str name ∧ Declared models name

/-- The documentation of an event imports a model that is declared. -/
def Conflicts (models : List ModelDescriptor) (e : HttpEvent) : Prop :=
  ∃ d, e.documentation = some d ∧ ∃ name, d.Imports name ∧ Declared models name

/-- The first event with a conflict, and the first name in its documentation that makes one. -/
def FirstConflict (models : List ModelDescriptor) (events : List HttpEvent) (e : HttpEvent)
    (name : String) : Prop :=
  FirstOf (Conflicts models) events e ∧
    ∃ d, e.documentation = some d ∧ FirstOf (NamesDeclared models) d.imported (.str name)

theorem contains_names : (models.map (·.name)).contains name = true ↔ Declared models name := by
  rw [List.contains_iff_mem, List.mem_map]
  rfl

theorem exists_imported_iff :
    (∃ v ∈ d.imported, NamesDeclared models v) ↔ ∃ name, d.Imports name ∧ Declared models name := by
  constructor
  · rintro ⟨_, hv, name, rfl, hname⟩
    exact ⟨name, EndpointDocumentation.mem_imported.mp hv, hname⟩
  · rintro ⟨name, himports, hname⟩
    exact ⟨_, EndpointDocumentation.mem_imported.mpr himports, name, rfl, hname⟩

theorem importedName?_eq_some : importedName? (models.map (·.name)) d = some name ↔
    FirstOf (NamesDeclared models) d.imported (.str name) := by
  refine (FirstOf.findSome?_eq_some (p := NamesDeclared models) fun v => ?_).trans ?_
  · split
    · rename_i s
      constructor
      · rintro ⟨_, h⟩
        exact ⟨s, rfl, contains_names.mp (Option.ite_none_right_eq_some.mp h).1⟩
      · rintro ⟨_, he, hs⟩
        cases he
        exact ⟨s, if_pos (contains_names.mpr hs)⟩
    · rename_i hother
      constructor
      · rintro ⟨_, h⟩
        cases h
      · rintro ⟨s, rfl, -⟩
        exact absurd rfl (hother s)
  · constructor
    · rintro ⟨v, hfirst, hv⟩
      obtain ⟨s, rfl, -⟩ := hfirst.prop
      cases (Option.ite_none_right_eq_some.mp hv).2
      exact hfirst
    · intro hfirst
      obtain ⟨_, he, hs⟩ := hfirst.prop
      cases he
      exact ⟨_, hfirst, if_pos (contains_names.mpr hs)⟩

theorem conflicts_iff : Conflicts models e ↔
    ∃ name, e.documentation.bind (importedName? (models.map (·.name))) = some name := by
  unfold Conflicts
  simp only [Option.bind_eq_some_iff, importedName?_eq_some, ← exists_imported_iff,
    ← FirstOf.exists_iff]
  constructor
  · rintro ⟨d, hd, v, hv⟩
    obtain ⟨name, rfl, -⟩ := hv.prop
    exact ⟨name, d, hd, hv⟩
  · rintro ⟨name, d, hd, hv⟩
    exact ⟨d, hd, _, hv⟩

theorem importConflict?_eq_some : importConflict? (models.map (·.name)) events = some (name, e) ↔
    FirstConflict models events e name := by
  refine (FirstOf.findSome?_eq_some (p := Conflicts models) fun e' => ?_).trans ?_
  · rw [conflicts_iff]
    constructor
    · rintro ⟨_, h⟩
      obtain ⟨s, hs, -⟩ := Option.map_eq_some_iff.mp h
      exact ⟨s, hs⟩
    · rintro ⟨s, hs⟩
      exact ⟨_, Option.map_eq_some_iff.mpr ⟨s, hs, rfl⟩⟩
  · unfold FirstConflict
    simp only [← importedName?_eq_some, ← Option.bind_eq_some_iff]
    constructor
    · rintro ⟨e', hfirst, h⟩
      obtain ⟨s, hs, he⟩ := Option.map_eq_some_iff.mp h
      cases he
      exact ⟨hfirst, hs⟩
    · rintro ⟨hfirst, hname⟩
      exact ⟨e, hfirst, Option.map_eq_some_iff.mpr ⟨name, hname, rfl⟩⟩

/-- **The check of imports fails with the first conflict.** -/
theorem checkImports_eq_error : checkImports models events = .error f ↔
    ∃ e name, FirstConflict models events e name ∧ f = .conflict name e.label := by
  simp only [← importConflict?_eq_some]
  unfold checkImports
  cases importConflict? (models.map (·.name)) events with
  | none => exact ⟨fun h => (nomatch h), fun ⟨_, _, h, _⟩ => (nomatch h)⟩
  | some ne =>
    obtain ⟨name, e⟩ := ne
    constructor
    · intro h
      exact ⟨e, name, rfl, (Except.error.inj h).symm⟩
    · rintro ⟨_, _, he, rfl⟩
      cases he
      rfl

/-- There is a first conflict if there is any. -/
theorem exists_firstConflict_iff :
    (∃ e name, FirstConflict models events e name) ↔ ∃ e ∈ events, Conflicts models e := by
  rw [← FirstOf.exists_iff]
  refine exists_congr fun e => ⟨fun ⟨_, h⟩ => h.1, fun h => ?_⟩
  obtain ⟨name, hname⟩ := conflicts_iff.mp h.prop
  obtain ⟨d, hd, hfirst⟩ := Option.bind_eq_some_iff.mp hname
  exact ⟨name, h, d, hd, importedName?_eq_some.mp hfirst⟩

/-! ### Method resources -/

/-- All resources of a graph have shaped properties. -/
def ShapedGraph (g : ResourceGraph) : Prop :=
  ∀ s r, g.get? (.str s) = some r → methodOutline.Shaped r.properties

/-- An event is documented and has no method resource. -/
def Homeless (g : ResourceGraph) (e : HttpEvent) : Prop :=
  e.documentation.isSome = true ∧ .str (methodId e) ∉ g.names

theorem ShapedGraph.add {r : Resource} (hg : ShapedGraph g)
    (hr : methodOutline.Shaped r.properties) : ShapedGraph (g.add (.str name) r) := by
  intro s q hq
  by_cases hs : name = s
  · subst hs
    rw [ResourceGraph.get?_add_self] at hq
    cases hq
    exact hr
  · exact hg s q ((ResourceGraph.get?_add_of_ne hs).symm.trans hq)

/-- Another resource under a name that is there makes no event homeless. -/
theorem homeless_add {r : Resource} (h : .str name ∈ g.names) :
    Homeless (g.add (.str name) r) = Homeless g := by
  funext e
  unfold Homeless
  rw [ResourceGraph.names_add h]

/-- **Documenting events fails with the first one that has no method resource.** -/
theorem augmentEvents_eq_error (hg : ShapedGraph g) (ht : EventTexts events) :
    augmentEvents safeMode g events = .error f ↔
      ∃ e, FirstOf (Homeless g) events e ∧ f = .noMethod (methodId e) e.label := by
  induction events generalizing g with
  | nil => exact ⟨fun h => (nomatch h), fun ⟨_, h, _⟩ => absurd h FirstOf.not_nil⟩
  | cons e events ih =>
    have htd := ht e List.mem_cons_self
    have hts : EventTexts events := fun e he => ht e (List.mem_cons_of_mem _ he)
    rw [augmentEvents_cons]
    cases hd : e.documentation with
    | none =>
      have hhome : ¬ Homeless g e := fun h => by rw [Homeless, hd] at h; cases h.1
      rw [augmentEvent_of_none hd, Result.ok_bind, ih hg hts]
      simp only [FirstOf.cons_of_neg hhome]
    | some d =>
      cases hr : g.get? (.str (methodId e)) with
      | none =>
        have hhomeless : Homeless g e := by
          refine ⟨by rw [hd]; rfl, fun hmem => ?_⟩
          obtain ⟨r, hget⟩ := ResourceGraph.exists_get? hmem
          cases hr.symm.trans hget
        have herror : augmentEvent safeMode g e = .error (.noMethod (methodId e) e.label) := by
          simp only [augmentEvent, hd, hr]
        simp only [FirstOf.cons_of_pos hhomeless, exists_eq_left, herror]
        exact ⟨fun h => (Except.error.inj h).symm, fun h => congrArg _ h.symm⟩
      | some r =>
        -- the event finds its resource, and leaves a graph of the same names
        have hmem := ResourceGraph.mem_names_of_get? hr
        have hhome : ¬ Homeless g e := fun h => h.2 hmem
        obtain ⟨r', hr', hshaped⟩ := Resource.exists_documented (htd d hd) (hg _ r hr) safeMode
        rw [(augmentEvent_iff hd).mpr ⟨r, r', hr, hr', rfl⟩, Result.ok_bind,
          ih (hg.add hshaped) hts, homeless_add hmem]
        simp only [FirstOf.cons_of_neg hhome]

/-- An event is documented and its method resource is neither in a template nor that of a model. -/
def Unplaced (t : Value) (models : List ModelDescriptor) (e : HttpEvent) : Prop :=
  e.documentation.isSome = true ∧ .str (methodId e) ∉ Pairs.keys (resourcesOf t) ∧
    ∀ m ∈ models, methodId e ≠ m.resourceName

theorem homeless_addAll {rs : List (Atom × Resource)}
    (hnames : g.names = Pairs.keys (resourcesOf t))
    (hrs : ModelDescriptor.toResources settings.restApi models = .ok rs) :
    Homeless (g.addAll rs) = Unplaced t models := by
  funext e
  unfold Homeless Unplaced
  rw [ResourceGraph.mem_names_addAll (exists_text_of_toResources hrs), mem_keys_toResources hrs,
    hnames]
  push Not
  rfl

theorem shapedGraph_addAll {rs : List (Atom × Resource)} (hg : ShapedGraph g)
    (hrs : ModelDescriptor.toResources settings.restApi models = .ok rs) :
    ShapedGraph (g.addAll rs) := by
  intro s r hr
  rcases get?_added hrs hr with ⟨m, -, -, hm⟩ | ⟨-, hold⟩
  · exact Resource.shaped_of_toResource hm
  · exact hg s r hold

/-! ### The template -/

/-- A value is plain and has a form in JSON. -/
def Json.Readable (v : Value) : Prop := v.isPlain = true ∧ v.isJson = true

/-- The entries of the resources of a template are shaped, and its outputs are an object, unless
there are none. -/
structure ShapedTemplate (fields : Fields) : Prop where
  resources : (fields.get resourcesKey).truthy = true →
    ∃ entries, fields.get resourcesKey = .object entries
  entries : ∀ kv ∈ resourcesOf (.object fields), Resource.ShapedEntry kv.2
  outputs : HasOutputs fields

/-- **The resources of a shaped template can be read**, and are shaped. -/
theorem exists_readGraph (hr : Json.Readable (.object fields)) (ht : ShapedTemplate fields) :
    ∃ g, readGraph (.object fields) = .ok g ∧ ShapedGraph g ∧
      g.names = Pairs.keys (resourcesOf (.object fields)) := by
  have hobject : (if (fields.get resourcesKey).truthy then (fields.get resourcesKey).asObject
      else .ok []) = .ok (resourcesOf (.object fields)) := by
    refine ResourceGraph.orEmpty_of_asObject fun htruthy => ?_
    obtain ⟨entries, he⟩ := ht.resources htruthy
    exact ⟨entries, by rw [he]; rfl⟩
  have hsection : (fields.get resourcesKey).isJson = true :=
    Value.hereditary_isJson.fieldOrNull (v := .object fields) rfl hr.2
  have hjson : ∀ kv ∈ resourcesOf (.object fields), kv.2.isJson = true :=
    Value.hereditary_isJson.pairs hsection
  obtain ⟨entries, hentries, hshaped⟩ := Result.exists_mapM (f := ResourceGraph.readEntry)
    (R := fun _ nr => methodOutline.Shaped nr.2.properties) fun kv hkv => by
      obtain ⟨r, hr, hshaped⟩ := Resource.exists_ofEntry (hjson kv hkv) (ht.entries kv hkv)
      exact ⟨(kv.1, r), ResourceGraph.readEntry_eq_ok.mpr ⟨rfl, hr⟩, hshaped⟩
  have hread : readGraph (.object fields) = .ok ⟨entries⟩ := by
    show ResourceGraph.ofSection (fields.get resourcesKey) = _
    rw [ResourceGraph.ofSection_eq, hobject, Result.ok_bind, hentries, Result.ok_bind]
  refine ⟨_, hread, fun s r hget => ?_, (readFrom_of_readGraph hread).names⟩
  obtain ⟨kv, -, h⟩ := exists_of_forall₂_right hshaped (ResourceGraph.mem_of_get? hget)
  exact h

/-! ### The whole course -/

/-- A failure tells the first conflict, or else the first event that has no method resource. -/
def Blames (t : Value) (models : List ModelDescriptor) (events : List HttpEvent) (f : Failure) :
    Prop :=
  (∃ e name, FirstConflict models events e name ∧ f = .conflict name e.label) ∨
    (∀ e ∈ events, ¬ Conflicts models e) ∧
      ∃ e, FirstOf (Unplaced t models) events e ∧ f = .noMethod (methodId e) e.label

/-- **Documenting the resources of a template fails with the first conflict, or else with the first
event that has no method resource.** -/
theorem documentation_eq_error (hg : ShapedGraph g)
    (hnames : g.names = Pairs.keys (resourcesOf t)) (ht : EventTexts events)
    (hmodels : ∃ rs, ModelDescriptor.toResources settings.restApi models = .ok rs) :
    documentation g models events settings = .error f ↔ Blames t models events f := by
  obtain ⟨rs, hrs⟩ := hmodels
  unfold documentation Blames
  cases hcheck : checkImports models events with
  | error f' =>
    have hfirst := checkImports_eq_error.mp hcheck
    obtain ⟨e, name, hconflict, -⟩ := id hfirst
    obtain ⟨c, hc, hconflicts⟩ := exists_firstConflict_iff.mp ⟨e, name, hconflict⟩
    show Except.error f' = Except.error f ↔ _
    rw [← checkImports_eq_error, hcheck, Except.error.injEq, Except.error.injEq]
    constructor
    · intro h
      exact .inl h
    · rintro (h | ⟨hnone, -⟩)
      · exact h
      · exact absurd hconflicts (hnone c hc)
  | ok u =>
    have hnone : ∀ e ∈ events, ¬ Conflicts models e := by
      intro e he hconflicts
      obtain ⟨e', name, hfirst⟩ := exists_firstConflict_iff.mpr ⟨e, he, hconflicts⟩
      cases hcheck.symm.trans (checkImports_eq_error.mpr ⟨e', name, hfirst, rfl⟩)
    rw [Result.ok_bind, hrs, Result.ok_bind,
      augmentEvents_eq_error (shapedGraph_addAll hg hrs) ht, homeless_addAll hnames hrs]
    constructor
    · intro h
      exact .inr ⟨hnone, h⟩
    · rintro (⟨e, name, hfirst, -⟩ | ⟨-, h⟩)
      · obtain ⟨c, hc, hconflicts⟩ := exists_firstConflict_iff.mp ⟨e, name, hfirst⟩
        exact absurd hconflicts (hnone c hc)
      · exact h

/-- A compilation fails just as documenting the resources does. -/
theorem compile_eq_error_iff (hs : service.isJson = true) (hf : w.template.asObject = .ok fields)
    (ho : HasOutputs fields) (hread : readGraph w.template = .ok g) (hg : g.Proper)
    (hservice : readService service = .ok (some source)) :
    (∃ w', compile service settings w = .error f w') ↔
      documentation g source.models source.events settings = .error f := by
  have hcourse : compile service settings w = carryOut g source settings w := by
    rw [compile_eq, hread, hservice]
    rfl
  rw [hcourse]
  cases hdoc : documentation g source.models source.events settings with
  | ok ga =>
    obtain ⟨m', hwritten⟩ := documentedGraph_of_ok (m := w.metrics) hg hdoc
    obtain ⟨c, t', hok⟩ := exists_carryOut hs hf ho hservice hwritten
    rw [hok]
    exact ⟨fun ⟨_, h⟩ => (nomatch h), fun h => (nomatch h)⟩
  | error f' =>
    obtain ⟨m', hfail⟩ := documentedGraph_of_error (m := w.metrics) hdoc
    have herror : carryOut g source settings w = .error f' { w with metrics := m' } :=
      Edit.bind_of_error (onMetrics_eq_error.mpr ⟨m', hfail, rfl⟩)
    rw [herror]
    constructor
    · rintro ⟨_, h⟩
      cases h
      rfl
    · intro h
      cases h
      exact ⟨_, rfl⟩

/-- How a compilation of a service into a template ends. -/
structure Judged (t : Value) (source : Source)
    (run : EStateM.Result Failure Workspace Compiled) : Prop where
  /-- It fails with a conflict if an event imports a model that is declared, and then names the
  first one. -/
  conflict : (∃ name label w', run = .error (.conflict name label) w') ↔
    ∃ e ∈ source.events, Conflicts source.models e
  firstConflict : ∀ name label w', run = .error (.conflict name label) w' →
    ∃ e, FirstConflict source.models source.events e name ∧ label = e.label
  /-- Otherwise it fails if a documented event has no method resource, and names the first one. -/
  noMethod : (∃ id label w', run = .error (.noMethod id label) w') ↔
    (∀ e ∈ source.events, ¬ Conflicts source.models e) ∧
      ∃ e ∈ source.events, Unplaced t source.models e
  firstUnplaced : ∀ id label w', run = .error (.noMethod id label) w' →
    ∃ e, FirstOf (Unplaced t source.models) source.events e ∧ id = methodId e ∧ label = e.label
  /-- Otherwise it succeeds. -/
  success : (∃ c w', run = .ok c w') ↔
    (∀ e ∈ source.events, ¬ Conflicts source.models e) ∧
      ∀ e ∈ source.events, ¬ Unplaced t source.models e

namespace Judged
variable {run : EStateM.Result Failure Workspace Compiled}

/-- A failure that tells a conflict tells the first one. -/
theorem exists_firstConflict {label : String}
    (h : Blames t models events (.conflict name label)) :
    ∃ e, FirstConflict models events e name ∧ label = e.label := by
  rcases h with ⟨e, name', hfirst, he⟩ | ⟨-, e, -, he⟩
  · cases he
    exact ⟨e, hfirst, rfl⟩
  · cases he

/-- A failure that tells a method resource comes without any conflict, and tells the first one. -/
theorem exists_firstUnplaced {id label : String}
    (h : Blames t models events (.noMethod id label)) :
    (∀ e ∈ events, ¬ Conflicts models e) ∧
      ∃ e, FirstOf (Unplaced t models) events e ∧ id = methodId e ∧ label = e.label := by
  rcases h with ⟨e, name, -, he⟩ | ⟨hnone, e, hfirst, he⟩
  · cases he
  · cases he
    exact ⟨hnone, e, hfirst, rfl, rfl⟩

theorem blames_of_conflicts (h : ∃ e ∈ events, Conflicts models e) :
    ∃ name label, Blames t models events (.conflict name label) := by
  obtain ⟨e, name, hfirst⟩ := exists_firstConflict_iff.mpr h
  exact ⟨name, e.label, .inl ⟨e, name, hfirst, rfl⟩⟩

theorem blames_of_unplaced (hnone : ∀ e ∈ events, ¬ Conflicts models e)
    (h : ∃ e ∈ events, Unplaced t models e) :
    ∃ id label, Blames t models events (.noMethod id label) := by
  obtain ⟨e, hfirst⟩ := FirstOf.exists_iff.mpr h
  exact ⟨methodId e, e.label, .inr ⟨hnone, e, hfirst, rfl⟩⟩

/-- There is something to blame if any event is wrong. -/
theorem exists_blames_iff : (∃ f, Blames t models events f) ↔
    ¬ ((∀ e ∈ events, ¬ Conflicts models e) ∧ ∀ e ∈ events, ¬ Unplaced t models e) := by
  constructor
  · rintro ⟨f, ⟨e, name, hfirst, -⟩ | ⟨-, e, hfirst, -⟩⟩ ⟨hnone, hplaced⟩
    · obtain ⟨c, hc, hconflicts⟩ := exists_firstConflict_iff.mp ⟨e, name, hfirst⟩
      exact hnone c hc hconflicts
    · obtain ⟨c, hc, hunplaced⟩ := FirstOf.exists_iff.mp ⟨e, hfirst⟩
      exact hplaced c hc hunplaced
  · intro h
    by_cases hconflicts : ∃ e ∈ events, Conflicts models e
    · obtain ⟨name, label, hblames⟩ := blames_of_conflicts (t := t) hconflicts
      exact ⟨_, hblames⟩
    · have hnone : ∀ e ∈ events, ¬ Conflicts models e := fun e he hc => hconflicts ⟨e, he, hc⟩
      by_cases hunplaced : ∃ e ∈ events, Unplaced t models e
      · obtain ⟨id, label, hblames⟩ := blames_of_unplaced hnone hunplaced
        exact ⟨_, hblames⟩
      · exact absurd ⟨hnone, fun e he hu => hunplaced ⟨e, he, hu⟩⟩ h

/-- A run is judged by its failures. -/
theorem of_blames (h : ∀ f, (∃ w', run = .error f w') ↔ Blames t source.models source.events f) :
    Judged t source run := by
  constructor
  case conflict =>
    constructor
    · rintro ⟨name, label, hrun⟩
      obtain ⟨e, hfirst, -⟩ := exists_firstConflict ((h _).mp hrun)
      exact exists_firstConflict_iff.mp ⟨e, name, hfirst⟩
    · intro hany
      obtain ⟨name, label, hblames⟩ := blames_of_conflicts (t := t) hany
      exact ⟨name, label, (h _).mpr hblames⟩
  case firstConflict =>
    intro name label w' hrun
    exact exists_firstConflict ((h _).mp ⟨w', hrun⟩)
  case noMethod =>
    constructor
    · rintro ⟨id, label, hrun⟩
      obtain ⟨hnone, e, hfirst, -⟩ := exists_firstUnplaced ((h _).mp hrun)
      exact ⟨hnone, FirstOf.exists_iff.mp ⟨e, hfirst⟩⟩
    · rintro ⟨hnone, hany⟩
      obtain ⟨id, label, hblames⟩ := blames_of_unplaced hnone hany
      exact ⟨id, label, (h _).mpr hblames⟩
  case firstUnplaced =>
    intro id label w' hrun
    exact (exists_firstUnplaced ((h _).mp ⟨w', hrun⟩)).2
  case success =>
    have hfails : (∃ f w', run = .error f w') ↔ ¬ ∃ c w', run = .ok c w' := by
      cases run with
      | ok c w' => exact ⟨fun ⟨_, _, hf⟩ => (nomatch hf), fun hn => absurd ⟨c, w', rfl⟩ hn⟩
      | error f w' => exact ⟨fun _ ⟨_, _, hok⟩ => (nomatch hok), fun _ => ⟨f, w', rfl⟩⟩
    rw [← not_iff_not, ← hfails, ← exists_blames_iff]
    exact exists_congr h

end Judged

/-! ### Small services -/

/-- A service with a model, and a documented endpoint that imports a model of the same name. -/
def importService : Value :=
  .ofPairs [
    ("custom", .ofPairs [("documentation", .ofPairs [
      ("version", .str "1"),
      ("models", .list [
        .ofPairs [("name", .str "Pet"), ("contentType", .str "application/json")]])])]),
    ("functions", .ofPairs [("list", .ofPairs [("events", .list [
      .ofPairs [("http", .ofPairs [("path", .str "/"), ("method", .str "get"),
        ("documentation", .ofPairs [
          ("requestModels", .ofPairs [
            ("application/json", .ofPairs [("import", .str "Pet")])])])])]])])])]

/-- A service with a documented endpoint, and without a documentation section. -/
def sectionlessService : Value :=
  .ofPairs [("functions", .ofPairs [("list", .ofPairs [("events", .list [
    .ofPairs [("http", .ofPairs [("path", .str "/"), ("method", .str "get"),
      ("documentation", .ofPairs [("summary", .str "All pets")])])]])])])]

/-- A service whose documentation has a date, as no JSON has one. -/
def datedService : Value :=
  .ofPairs [("custom", .ofPairs [("documentation", .ofPairs [
    ("api", .ofPairs [("since", .atom (.stamp ⟨2020, 1, 1, none⟩))])])])]

theorem shapedTemplate_pets (h : petTemplate = .object fields) : ShapedTemplate fields := by
  cases h
  refine ⟨fun _ => ⟨_, rfl⟩, fun kv hkv => ?_, fun h => (nomatch h)⟩
  rcases List.mem_cons.mp hkv with rfl | hkv
  · refine ⟨⟨_, rfl⟩, fun x hx => (nomatch hx), fun x hx => ?_⟩
    exact .inr ⟨_, (Option.some.inj hx).symm⟩
  · rw [List.mem_singleton.mp hkv]
    exact ⟨⟨_, rfl⟩, fun x hx => (nomatch hx), fun x hx => (nomatch hx)⟩

theorem shapedTemplate_nil : ShapedTemplate [] :=
  ⟨fun h => (nomatch h), List.forall_mem_nil _, fun h => (nomatch h)⟩

/-- A date has no place in the canonical text of parts. -/
theorem not_canonicalText_of_date {stamp : Stamp} : ¬ ∃ t, Parts.canonicalText
    [⟨[(.str "type", .str "API")], [(.str "since", .atom (.stamp stamp))]⟩] = .ok t := by
  intro h
  have hpart :=
    (Parts.exists_writeSorted_list_iff Json.compact _).mp h _ (List.mem_singleton_self _)
  have hproperties := Value.obstacleIn?_of_mem_object (by simp [Pairs.keys]) hpart _
    (List.mem_cons_of_mem _ (List.mem_singleton_self _))
  have hdate := Value.obstacleIn?_of_mem_object (by simp [Pairs.keys]) hproperties _
    (List.mem_singleton_self _)
  cases hdate

theorem not_compile_datedService :
    ¬ ∃ c w', compile datedService petSettings ⟨.object [], .empty⟩ = .ok c w' := by
  rintro ⟨c, w', h⟩
  obtain ⟨g, source?, hread, hservice, hrest⟩ := compile_eq_ok.mp h
  have hg := proper_of_readGraph (textKeys_of_isPlain rfl).names hread
  cases hservice
  obtain ⟨ga, m', t', -, -, -, hfinish, -⟩ := (carryOut_eq_ok hg).mp hrest
  obtain ⟨parts, hparts, h₁⟩ := Result.bind_eq_ok.mp hfinish
  obtain ⟨version, hversion, -⟩ := Result.bind_eq_ok.mp h₁
  cases hparts
  obtain ⟨t, ht, -⟩ := Result.bind_eq_ok.mp hversion
  exact not_canonicalText_of_date ⟨t, ht⟩

end Compile

open Compile in
/-- **When a compilation fails, and with what.**  A service without documentation never fails, and
leaves everything as it is.  A service with documentation fails if one of its events imports a
declared model, otherwise if a documented event has no method resource, and for no other reason; it
names the first one. -/
theorem compile_verdict {service : Value} {w : Workspace} {fields : Fields}
    (hw : w.template = .object fields) (hr : Json.Readable (.object fields))
    (ht : ShapedTemplate fields) (hs : service.isJson = true) (settings : CompileSettings) :
    (readService service = .ok none → ∃ c, compile service settings w = .ok c w) ∧
      ∀ source, readService service = .ok (some source) →
        Judged w.template source (compile service settings w) := by
  obtain ⟨g, hread, hshaped, hnames⟩ := exists_readGraph hr ht
  rw [← hw] at hread hnames
  constructor
  · intro hnone
    exact ⟨_, compile_eq_ok.mpr ⟨g, none, hread, hnone, rfl, rfl⟩⟩
  · intro source hservice
    have hproper := proper_of_readGraph (textKeys_of_isPlain (hw ▸ hr.1)).names hread
    have htexts := eventTexts_of_readService hservice
    have hobject : w.template.asObject = .ok fields := by
      rw [hw]
      rfl
    refine Judged.of_blames fun f => ?_
    rw [compile_eq_error_iff hs hobject ht.outputs hread hproper hservice]
    exact documentation_eq_error hshaped hnames htexts
      (exists_toResources hs hservice settings.restApi)

open Compile in
/-- A model that is declared and imported is told, whatever else is in the template. -/
theorem compile_verdict_import : ∃ fields, petTemplate = .object fields ∧
    Json.Readable (.object fields) ∧ ShapedTemplate fields ∧ importService.isJson = true ∧
      ∃ name label w', compile importService petSettings ⟨petTemplate, .empty⟩ =
        .error (.conflict name label) w' := by
  obtain ⟨fields, hfields⟩ : ∃ fields, petTemplate = .object fields := ⟨_, rfl⟩
  have hr : Json.Readable (.object fields) := hfields ▸ ⟨rfl, rfl⟩
  have ht := shapedTemplate_pets hfields
  have hs : importService.isJson = true := rfl
  obtain ⟨-, hjudged⟩ :=
    compile_verdict (w := ⟨petTemplate, .empty⟩) hfields hr ht hs petSettings
  refine ⟨fields, hfields, hr, ht, hs, (hjudged _ rfl).conflict.mpr ?_⟩
  exact ⟨_, List.mem_singleton_self _, _, rfl, "Pet", .inl ⟨_, List.mem_singleton_self _⟩, _,
    List.mem_singleton_self _, rfl⟩

open Compile in
/-- The verdict needs a documentation section and values from JSON: without a section nothing fails,
also if a documented event has no method resource, and a date that is documented makes a compilation
fail, also if there are no events. -/
theorem verdict_needs_section_and_json :
    Json.Readable (.object []) ∧ ShapedTemplate [] ∧
      (sectionlessService.isJson = true ∧
        (∃ events, serviceEvents sectionlessService = .ok events ∧
          (∀ e ∈ events, ¬ Conflicts [] e) ∧ ∃ e ∈ events, Unplaced (.object []) [] e) ∧
        ∃ c w', compile sectionlessService petSettings ⟨.object [], .empty⟩ = .ok c w') ∧
      (∃ source, readService datedService = .ok (some source) ∧ source.events = []) ∧
        ¬ ∃ c w', compile datedService petSettings ⟨.object [], .empty⟩ = .ok c w' := by
  refine ⟨⟨rfl, rfl⟩, shapedTemplate_nil, ⟨rfl, ⟨_, rfl, ?_, ?_⟩, _, _, rfl⟩, ⟨_, rfl, rfl⟩,
    not_compile_datedService⟩
  · rintro e - ⟨_, -, _, -, m, hm, -⟩
    cases hm
  · exact ⟨_, List.mem_singleton_self _, rfl, List.not_mem_nil, fun m hm => (nomatch hm)⟩

end GatewayDocs

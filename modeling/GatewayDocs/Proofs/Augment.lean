import GatewayDocs.Compile
import GatewayDocs.Proofs.Fresh
import GatewayDocs.Proofs.Graph
import GatewayDocs.Proofs.Method

/-! # Documenting the methods of a template

The events of a service document the method resources that they name, in order.  For each
resource this is the documentation of the events that name it, one after the other
(`augmentEvents_iff`); the other resources and the order of the names stay.

A resource that is documented again by the same events stays as it is (`documentAll_again`). -/

namespace GatewayDocs

namespace Resource
variable {r r' : Resource} {d : EndpointDocumentation} {docs : List EndpointDocumentation}
  {safeMode : Bool} {names : List String} {n : String}

/-- A resource with a documentation. -/
def documented (safeMode : Bool) (d : EndpointDocumentation) (r : Resource) : Result Resource :=
  (Edit.outcome (augment d safeMode) r).2.map fun _ => (Edit.outcome (augment d safeMode) r).1

/-- A resource with several documentations, one after the other. -/
def documentAll (safeMode : Bool) (docs : List EndpointDocumentation) (r : Resource) :
    Result Resource :=
  docs.foldlM (fun r d => documented safeMode d r) r

theorem documented_iff : documented safeMode d r = .ok r' ↔ augment d safeMode r = .ok () r' := by
  unfold documented Edit.outcome
  cases augment d safeMode r with
  | ok u s =>
    exact ⟨fun h => Except.ok.inj h ▸ rfl, fun h => by cases h; rfl⟩
  | error e s => exact ⟨fun h => (nomatch h), fun h => (nomatch h)⟩

theorem documentAll_cons_iff : documentAll safeMode (d :: docs) r = .ok r' ↔
    ∃ s, documented safeMode d r = .ok s ∧ documentAll safeMode docs s = .ok r' :=
  Result.bind_eq_ok

/-! ### Dependencies -/

theorem same_text_self (n : String) : (Value.str n).same (.str n) = true := by
  simp [Value.same, Value.unshared]

theorem insertNew_of_any {xs : List Value} {x : Value} (h : (xs.any fun y => y.same x) = true) :
    insertNew xs x = xs := if_pos h

theorem any_insertNew {xs : List Value} {x y : Value} (h : (xs.any fun z => z.same x) = true) :
    ((insertNew xs y).any fun z => z.same x) = true := by
  unfold insertNew
  split
  · exact h
  · rw [List.any_append, h, Bool.true_or]

/-- A resource lists a name among its dependencies. -/
def lists (r : Resource) (n : String) : Bool := r.dependsOn.any fun y => y.same (.str n)

theorem lists_addDependency_self : (r.addDependency n).lists n = true := by
  show ((insertNew r.dependsOn (.str n)).any fun y => y.same (.str n)) = true
  unfold insertNew
  split
  · assumption
  · rw [List.any_append, List.any_cons, same_text_self, Bool.true_or, Bool.or_true]

theorem lists_addDependencies (h : r.lists n = true) :
    (r.addDependencies names).lists n = true := by
  induction names generalizing r with
  | nil => exact h
  | cons m names ih => exact ih (any_insertNew h)

theorem addDependencies_of_lists (h : ∀ n ∈ names, r.lists n = true) :
    r.addDependencies names = r := by
  induction names with
  | nil => rfl
  | cons n names ih =>
    have hn : r.addDependency n = r :=
      congrArg (fun xs => { r with dependsOn := xs }) (insertNew_of_any (h n List.mem_cons_self))
    show (r.addDependency n).addDependencies names = r
    rw [hn]
    exact ih fun m hm => h m (List.mem_cons_of_mem _ hm)

/-- A resource lists the names that it was made to depend on. -/
theorem lists_of_mem (h : n ∈ names) : (r.addDependencies names).lists n = true := by
  induction names generalizing r with
  | nil => cases h
  | cons m names ih =>
    rcases List.mem_cons.mp h with rfl | h
    · exact lists_addDependencies (r := r.addDependency n) lists_addDependency_self
    · exact ih h

theorem addDependencies_again :
    (r.addDependencies names).addDependencies names = r.addDependencies names :=
  addDependencies_of_lists fun _ h => lists_of_mem h

/-- The names that a resource comes to depend on when it is made to depend on some. -/
def newNames (r : Resource) (names : List String) : List String := fresh r.lists names

theorem lists_addDependency_of_new (h : r.lists n = false) :
    (r.addDependency n).lists = fun m => r.lists m || n == m := by
  have hnew : (r.addDependency n).dependsOn = r.dependsOn ++ [.str n] :=
    if_neg (Bool.eq_false_iff.mp h)
  funext m
  have htext : (Value.str n).same (.str m) = (n == m) := by
    simp only [Value.same, Value.unshared, Atom.same_str]
    rfl
  unfold lists
  rw [hnew, List.any_append, List.any_cons, List.any_nil, Bool.or_false, htext]

/-- Names are added at the end, each only if it is new. -/
theorem dependsOn_addDependencies : (r.addDependencies names).dependsOn =
    r.dependsOn ++ (r.newNames names).map .str := by
  induction names generalizing r with
  | nil => exact (List.append_nil _).symm
  | cons n names ih =>
    show ((r.addDependency n).addDependencies names).dependsOn = _
    by_cases hn : r.lists n = true
    · have hself : r.addDependency n = r :=
        show r.addDependencies [n] = r from addDependencies_of_lists (by simp [hn])
      rw [ih, hself, newNames, newNames, fresh_cons_of_known hn]
    · have hnew : (r.addDependency n).dependsOn = r.dependsOn ++ [.str n] := if_neg hn
      have hn := Bool.eq_false_iff.mpr hn
      rw [ih, hnew, newNames, newNames, lists_addDependency_of_new hn, fresh_cons_of_new hn,
        List.map_cons, List.append_assoc]
      rfl

/-! ### Documentation, one after the other -/

theorem fits_writes (ht : d.Texts) : ∀ w ∈ d.writes safeMode, Write.Fits methodOutline w :=
  (performs_augment ht safeMode).fits

theorem clear_of_documented (ht : d.Texts) (hc : methodOutline.Clear r.properties)
    (h : documented safeMode d r = .ok r') : methodOutline.Clear r'.properties := by
  obtain ⟨v, hv, rfl⟩ := (augment_iff ht hc).mp (documented_iff.mp h)
  rw [properties_addDependencies]
  exact Write.clear_runAll (fits_writes ht) hc hv

/-- Several documentations write one after the other, and add all of their dependencies.  If there
are any, the resource has to be clear. -/
theorem documentAll_iff (ht : ∀ d ∈ docs, d.Texts)
    (hc : docs ≠ [] → methodOutline.Clear r.properties) :
    documentAll safeMode docs r = .ok r' ↔
      ∃ v, Write.runAll (docs.flatMap (·.writes safeMode)) r.properties = .ok v ∧
        r' = (r.setProperties v).addDependencies
          (docs.flatMap EndpointDocumentation.dependencies) := by
  induction docs generalizing r with
  | nil =>
    constructor
    · intro h
      exact ⟨r.properties, rfl, (Except.ok.inj h).symm⟩
    · rintro ⟨v, hv, rfl⟩
      cases hv
      rfl
  | cons d docs ih =>
    have htd : d.Texts := ht d List.mem_cons_self
    have htds : ∀ d ∈ docs, d.Texts := fun d hd => ht d (List.mem_cons_of_mem _ hd)
    have hc : methodOutline.Clear r.properties := hc (List.cons_ne_nil d docs)
    have hadd : ∀ {v u : Value} {ns ms : List String},
        (((r.setProperties v).addDependencies ns).setProperties u).addDependencies ms =
          (r.setProperties u).addDependencies (ns ++ ms) := by
      intro v u ns ms
      rw [setProperties_addDependencies, addDependencies_append]
      rfl
    rw [documentAll_cons_iff, List.flatMap_cons, List.flatMap_cons]
    constructor
    · rintro ⟨s, hs, h⟩
      have hcs := clear_of_documented htd hc hs
      obtain ⟨v, hv, rfl⟩ := (augment_iff htd hc).mp (documented_iff.mp hs)
      obtain ⟨u, hu, rfl⟩ := (ih htds fun _ => hcs).mp h
      rw [properties_addDependencies] at hu
      exact ⟨u, Write.runAll_append_iff.mpr ⟨v, hv, hu⟩, hadd⟩
    · rintro ⟨u, hu, rfl⟩
      obtain ⟨v, hv, hu⟩ := Write.runAll_append_iff.mp hu
      have hs := documented_iff.mpr ((augment_iff htd hc).mpr ⟨v, hv, rfl⟩)
      refine ⟨_, hs, (ih htds fun _ => clear_of_documented htd hc hs).mpr ⟨u, ?_, hadd.symm⟩⟩
      rw [properties_addDependencies]
      exact hu

theorem fits_flatMap_writes (ht : ∀ d ∈ docs, d.Texts) :
    ∀ w ∈ docs.flatMap (·.writes safeMode), Write.Fits methodOutline w := by
  intro w hw
  obtain ⟨d, hd, hw⟩ := List.mem_flatMap.mp hw
  exact fits_writes (ht d hd) w hw

theorem clear_of_documentAll (ht : ∀ d ∈ docs, d.Texts) (hc : methodOutline.Clear r.properties)
    (h : documentAll safeMode docs r = .ok r') : methodOutline.Clear r'.properties := by
  obtain ⟨v, hv, rfl⟩ := (documentAll_iff ht fun _ => hc).mp h
  rw [properties_addDependencies]
  exact Write.clear_runAll (fits_flatMap_writes ht) hc hv

/-- **Documenting again changes nothing.** -/
theorem documentAll_again (ht : ∀ d ∈ docs, d.Texts)
    (hc : docs ≠ [] → methodOutline.Clear r.properties)
    (h : documentAll safeMode docs r = .ok r') : documentAll safeMode docs r' = .ok r' := by
  have hc' := fun hne => clear_of_documentAll ht (hc hne) h
  obtain ⟨v, hv, rfl⟩ := (documentAll_iff ht hc).mp h
  refine (documentAll_iff ht hc').mpr ⟨v, ?_, ?_⟩
  · rw [properties_addDependencies]
    exact Write.runAll_again (fits_flatMap_writes ht) hv
  · rw [setProperties_addDependencies]
    exact addDependencies_again.symm

end Resource

namespace Compile
variable {safeMode : Bool} {g g' : ResourceGraph} {e : HttpEvent} {events : List HttpEvent}
  {s : String}

/-- The documentation of the events that name a resource, in order. -/
def docsOf (s : String) (events : List HttpEvent) : List EndpointDocumentation :=
  events.filterMap fun e => if methodId e = s then e.documentation else none

/-- Every documented event names a resource. -/
def Named (g : ResourceGraph) (events : List HttpEvent) : Prop :=
  ∀ e ∈ events, e.documentation.isSome → g.contains (.str (methodId e))

theorem docsOf_cons_of_none (h : e.documentation = none) :
    docsOf s (e :: events) = docsOf s events := by
  unfold docsOf
  rw [List.filterMap_cons, h]
  simp

theorem docsOf_cons_self {d : EndpointDocumentation} (h : e.documentation = some d) :
    docsOf (methodId e) (e :: events) = d :: docsOf (methodId e) events := by
  unfold docsOf
  rw [List.filterMap_cons, if_pos rfl, h]

theorem docsOf_cons_of_ne (h : methodId e ≠ s) : docsOf s (e :: events) = docsOf s events := by
  unfold docsOf
  rw [List.filterMap_cons, if_neg h]

theorem mem_docsOf {d : EndpointDocumentation} (h : d ∈ docsOf s events) :
    ∃ e ∈ events, methodId e = s ∧ e.documentation = some d := by
  obtain ⟨e, he, h⟩ := List.mem_filterMap.mp h
  by_cases hs : methodId e = s
  · rw [if_pos hs] at h
    exact ⟨e, he, hs, h⟩
  · rw [if_neg hs] at h
    cases h

theorem augmentEvent_of_none (h : e.documentation = none) :
    augmentEvent safeMode g e = .ok g := by
  rw [augmentEvent, h]

theorem augmentEvent_iff {d : EndpointDocumentation} (h : e.documentation = some d) :
    augmentEvent safeMode g e = .ok g' ↔ ∃ r r', g.get? (.str (methodId e)) = some r ∧
      Resource.documented safeMode d r = .ok r' ∧ g' = g.add (.str (methodId e)) r' := by
  simp only [augmentEvent, h, Resource.documented_iff]
  cases g.get? (.str (methodId e)) with
  | none => exact ⟨fun h => (nomatch h), fun ⟨_, _, h, _⟩ => (nomatch h)⟩
  | some r =>
    cases hr : Resource.augment d safeMode r with
    | ok u r' =>
      simp only [hr]
      constructor
      · intro h
        exact ⟨r, r', rfl, hr, (Except.ok.inj h).symm⟩
      · rintro ⟨r₁, r₂, h₁, h₂, rfl⟩
        cases h₁
        cases hr.symm.trans h₂
        rfl
    | error f r' =>
      simp only [hr]
      constructor
      · intro h; cases h
      · rintro ⟨r₁, r₂, h₁, h₂, rfl⟩
        cases h₁
        cases hr.symm.trans h₂

theorem named_cons : Named g (e :: events) ↔
    (e.documentation.isSome → g.contains (.str (methodId e))) ∧ Named g events :=
  List.forall_mem_cons

theorem named_of_names (h : g'.names = g.names) : Named g' events ↔ Named g events := by
  refine forall_congr' fun e => forall_congr' fun _ => forall_congr' fun _ => ?_
  rw [ResourceGraph.contains_iff, ResourceGraph.contains_iff, h]

/-- Every resource of a graph is documented in another one by the events that name it. -/
def Documents (safeMode : Bool) (events : List HttpEvent) (g g' : ResourceGraph) : Prop :=
  ∀ s r, g.get? (.str s) = some r → ∃ r', g'.get? (.str s) = some r' ∧
    Resource.documentAll safeMode (docsOf s events) r = .ok r'

theorem documents_cons_of_none (h : e.documentation = none) :
    Documents safeMode (e :: events) g g' ↔ Documents safeMode events g g' := by
  unfold Documents
  simp only [docsOf_cons_of_none h]

/-- The first event documents its resource, and the others document what it leaves. -/
theorem documents_cons_of_some {d : EndpointDocumentation} {r : Resource}
    (hd : e.documentation = some d) (hr : g.get? (.str (methodId e)) = some r) :
    Documents safeMode (e :: events) g g' ↔ ∃ r₁, Resource.documented safeMode d r = .ok r₁ ∧
      Documents safeMode events (g.add (.str (methodId e)) r₁) g' := by
  constructor
  · intro h
    obtain ⟨r', hget', hall⟩ := h _ r hr
    rw [docsOf_cons_self hd] at hall
    obtain ⟨r₁, hdoc, hrest⟩ := Resource.documentAll_cons_iff.mp hall
    refine ⟨r₁, hdoc, fun s t ht => ?_⟩
    -- the resource of the event has one documentation less to come; the others are untouched
    by_cases hs : methodId e = s
    · subst hs
      rw [ResourceGraph.get?_add_self, Option.some.injEq] at ht
      exact ⟨r', hget', ht ▸ hrest⟩
    · have hother := h s t ((ResourceGraph.get?_add_of_ne hs).symm.trans ht)
      rwa [docsOf_cons_of_ne hs] at hother
  · rintro ⟨r₁, hdoc, h⟩ s t ht
    by_cases hs : methodId e = s
    · subst hs
      obtain rfl : r = t := Option.some.inj (hr.symm.trans ht)
      obtain ⟨r', hget', hall⟩ := h _ r₁ ResourceGraph.get?_add_self
      rw [docsOf_cons_self hd]
      exact ⟨r', hget', Resource.documentAll_cons_iff.mpr ⟨r₁, hdoc, hall⟩⟩
    · rw [docsOf_cons_of_ne hs]
      exact h s t ((ResourceGraph.get?_add_of_ne hs).trans ht)

/-- No events document a graph only as it is. -/
theorem documents_nil_iff (hg : g.Proper) :
    g'.names = g.names ∧ Documents safeMode [] g g' ↔ g = g' := by
  constructor
  · rintro ⟨hn, hr⟩
    refine hg.ext hn.symm fun s hs => ?_
    obtain ⟨r, hget⟩ := ResourceGraph.exists_get? hs
    obtain ⟨r', hget', h⟩ := hr s r hget
    cases h
    exact hget.trans hget'.symm
  · rintro rfl
    exact ⟨rfl, fun s r hr => ⟨r, hr, rfl⟩⟩

theorem augmentEvents_cons : augmentEvents safeMode g (e :: events) =
    augmentEvent safeMode g e >>= fun g₁ => augmentEvents safeMode g₁ events := rfl

/-- **Events document their resources one by one**: it succeeds if every documented event names a
resource and every resource can be documented by the events that name it. -/
theorem augmentEvents_iff (hg : g.Proper) : augmentEvents safeMode g events = .ok g' ↔
    Named g events ∧ g'.names = g.names ∧ Documents safeMode events g g' := by
  induction events generalizing g with
  | nil =>
    rw [documents_nil_iff hg]
    exact ⟨fun h => ⟨fun e he => (nomatch he), Except.ok.inj h⟩, fun h => congrArg _ h.2⟩
  | cons e events ih =>
    rw [augmentEvents_cons, Result.bind_eq_ok, named_cons]
    cases hd : e.documentation with
    | none =>
      simp only [augmentEvent_of_none hd, Except.ok.injEq, exists_eq_left',
        documents_cons_of_none hd, ih hg, Option.isSome_none, Bool.false_eq_true, false_imp_iff,
        true_and]
    | some d =>
      constructor
      · rintro ⟨g₁, h₁, h⟩
        obtain ⟨r, r₁, hr, hdoc, rfl⟩ := (augmentEvent_iff hd).mp h₁
        have hs := ResourceGraph.mem_names_of_get? hr
        have hnames := ResourceGraph.names_add (r := r₁) hs
        obtain ⟨hnamed, hn, hrest⟩ := (ih hg.add).mp h
        exact ⟨⟨fun _ => ResourceGraph.contains_iff.mpr hs, (named_of_names hnames).mp hnamed⟩,
          hn.trans hnames, (documents_cons_of_some hd hr).mpr ⟨r₁, hdoc, hrest⟩⟩
      · rintro ⟨⟨hfirst, hnamed⟩, hn, hall⟩
        obtain ⟨r, hr⟩ := Option.isSome_iff_exists.mp (hfirst rfl)
        obtain ⟨r₁, hdoc, hrest⟩ := (documents_cons_of_some hd hr).mp hall
        have hnames := ResourceGraph.names_add (r := r₁) (ResourceGraph.mem_names_of_get? hr)
        exact ⟨_, (augmentEvent_iff hd).mpr ⟨r, r₁, hr, hdoc, rfl⟩,
          (ih hg.add).mpr ⟨(named_of_names hnames).mpr hnamed, hn.trans hnames.symm, hrest⟩⟩

end Compile
end GatewayDocs

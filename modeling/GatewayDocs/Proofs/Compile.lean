import GatewayDocs.Proofs.Augment
import GatewayDocs.Proofs.Chaining
import GatewayDocs.Proofs.Service

/-! # The course of a compilation

A compilation reads the template (`Compile.readGraph`) and the service (`Compile.readService`),
documents the resources, writes the template and tells the parts (`compile_eq`).  What it makes of
the resources is told by two functions: `Compile.documentation`, which may fail, and
`CompileSettings.arrange`, which does not (`documentedGraph_of_ok`,
`documentedGraph_eq_ok`). -/

namespace GatewayDocs

/-- The order in which the resources of a compilation are written: with chained models, if that
is wanted. -/
def CompileSettings.arrange (settings : CompileSettings) (g : ResourceGraph) : ResourceGraph :=
  if settings.chunking.enabled then g.chained settings.chunking.width.val.toNat else g

theorem ResourceGraph.Proper.arrange {g : ResourceGraph} (hg : g.Proper)
    (settings : CompileSettings) : (settings.arrange g).Proper := by
  unfold CompileSettings.arrange
  split
  · exact hg.chained _
  · exact hg

namespace Compile
variable {g g' : ResourceGraph} {models : List ModelDescriptor} {events : List HttpEvent}
  {settings : CompileSettings} {m m' : Metrics} {w w' : Workspace} {service : Value}
  {c : Compiled} {e : Failure}

/-- Reads the resources of a template. -/
def readGraph (template : Value) : Result ResourceGraph :=
  template.field resourcesKey >>= ResourceGraph.ofSection

/-- The resources with the models and the documentation of the events, in the order in which they
are there or come. -/
def documentation (g : ResourceGraph) (models : List ModelDescriptor) (events : List HttpEvent)
    (settings : CompileSettings) : Result ResourceGraph := do
  checkImports models events
  augmentEvents settings.safeMode
    (g.addAll (← ModelDescriptor.toResources settings.restApi models)) events

/-- Tells the parts of a service, with their version. -/
def finish (source : Source) (settings : CompileSettings) (g : ResourceGraph) :
    Result Compiled := do
  let parts ← Parts.serviceParts source.config source.models source.events
  let version ← Parts.version parts (textOrNull source.config.version)
  return ⟨g, settings.restApi, source.models, source.events, parts, some version⟩

/-- A compilation once the template and the service are read. -/
def carryOut (g : ResourceGraph) (source : Source) (settings : CompileSettings) :
    Edit Workspace Compiled := do
  let g ← onMetrics (documentedGraph g source.models source.events settings)
  onTemplate (commit g settings.restApi)
  Edit.ofResult (finish source settings g)

theorem onMetrics_eq_ok {α : Type} {edit : Edit Metrics α} {a : α} : onMetrics edit w = .ok a w' ↔
    ∃ m', edit w.metrics = .ok a m' ∧ w' = { w with metrics := m' } := by
  unfold onMetrics
  rw [Edit.bind_of_ok (Edit.get_apply w)]
  exact Edit.zoom_eq_ok

theorem onMetrics_eq_error {α : Type} {edit : Edit Metrics α} : onMetrics edit w = .error e w' ↔
    ∃ m', edit w.metrics = .error e m' ∧ w' = { w with metrics := m' } := by
  unfold onMetrics
  rw [Edit.bind_of_ok (Edit.get_apply w)]
  exact Edit.zoom_eq_error

theorem onTemplate_eq_ok {α : Type} {edit : Edit Value α} {a : α} : onTemplate edit w = .ok a w' ↔
    ∃ t, edit w.template = .ok a t ∧ w' = { w with template := t } := by
  unfold onTemplate
  rw [Edit.bind_of_ok (Edit.get_apply w)]
  exact Edit.zoom_eq_ok

/-- The course of a compilation. -/
theorem compile_eq (service : Value) (settings : CompileSettings) (w : Workspace) :
    compile service settings w =
      ((Edit.ofResult (readGraph w.template) : Edit Workspace ResourceGraph) >>= fun g =>
        (Edit.ofResult (readService service) : Edit Workspace (Option Source)) >>= fun
          | none => pure ⟨g, .null, [], [], [], none⟩
          | some source => carryOut g source settings) w := by
  unfold compile
  rw [Edit.bind_of_ok (Edit.get_apply w)]
  show (Edit.ofResult (readGraph w.template) >>= _) w = _
  refine congrArg (fun k => ((Edit.ofResult (readGraph w.template) : Edit Workspace _) >>= k) w)
    (funext fun g => ?_)
  unfold readService
  rw [Edit.ofResult_bind, bind_assoc]
  refine congrArg (Edit.ofResult (DocumentationConfig.ofService service) >>= ·)
    (funext fun config? => ?_)
  cases config? with
  | none => rfl
  | some config =>
    simp only [Edit.ofResult_bind, bind_assoc]
    refine congrArg (Edit.ofResult (serviceEvents service) >>= ·) (funext fun events => ?_)
    refine congrArg (Edit.ofResult (sources config events).2 >>= ·) (funext fun models => ?_)
    simp only [carryOut, finish, Edit.ofResult_bind]
    rfl

/-! ### The resources -/

theorem count_apply (key : String) (amount : Nat) (m : Metrics) :
    count key amount m = .ok () (m.increment key amount) := rfl

theorem exists_text_of_toResources {restApi : Value} {rs : List (Atom × Resource)}
    (h : ModelDescriptor.toResources restApi models = .ok rs) : ∀ nr ∈ rs, ∃ s, nr.1 = .str s := by
  intro nr hnr
  obtain ⟨m, -, hm⟩ := Result.exists_of_mem_mapM h hnr
  obtain ⟨r, -, hr⟩ := Result.bind_eq_ok.mp hm
  exact ⟨m.resourceName, (Except.ok.inj hr) ▸ rfl⟩

theorem documentation_eq_ok : documentation g models events settings = .ok g' ↔
    checkImports models events = .ok () ∧ ∃ rs,
      ModelDescriptor.toResources settings.restApi models = .ok rs ∧
        augmentEvents settings.safeMode (g.addAll rs) events = .ok g' := by
  unfold documentation
  rw [Result.bind_eq_ok]
  constructor
  · rintro ⟨_, hcheck, h⟩
    exact ⟨hcheck, Result.bind_eq_ok.mp h⟩
  · rintro ⟨hcheck, h⟩
    exact ⟨(), hcheck, Result.bind_eq_ok.mpr h⟩

theorem proper_of_documentation (hg : g.Proper)
    (h : documentation g models events settings = .ok g') : g'.Proper := by
  obtain ⟨-, rs, hrs, h⟩ := documentation_eq_ok.mp h
  have hall := hg.addAll (exists_text_of_toResources hrs)
  exact hall.of_names ((augmentEvents_iff hall).mp h).2.1

theorem documentedGraph_of_error (h : documentation g models events settings = .error e) :
    ∃ m', documentedGraph g models events settings m = .error e m' := by
  unfold documentedGraph
  unfold documentation at h
  -- the two fail at the same step: at the check, at a model, or at an event
  cases hcheck : checkImports models events with
  | error e' =>
    rw [hcheck] at h
    cases h
    exact ⟨m, rfl⟩
  | ok u =>
    rw [hcheck, Result.ok_bind] at h
    rw [Edit.ofResult_ok, pure_bind]
    cases hrs : ModelDescriptor.toResources settings.restApi models with
    | error e' =>
      rw [hrs] at h
      cases h
      exact ⟨m, rfl⟩
    | ok rs =>
      rw [hrs, Result.ok_bind] at h
      rw [Edit.ofResult_ok, pure_bind, Edit.bind_of_ok (count_apply _ _ _), h]
      exact ⟨_, rfl⟩

/-- The resources that a compilation writes are the documented ones, arranged. -/
theorem documentedGraph_of_ok (hg : g.Proper)
    (h : documentation g models events settings = .ok g') :
    ∃ m', documentedGraph g models events settings m = .ok (settings.arrange g') m' := by
  have hg' := proper_of_documentation hg h
  obtain ⟨hcheck, rs, hrs, haug⟩ := documentation_eq_ok.mp h
  unfold documentedGraph CompileSettings.arrange
  rw [hcheck, Edit.ofResult_ok, pure_bind, hrs, Edit.ofResult_ok, pure_bind,
    Edit.bind_of_ok (count_apply _ _ _), haug, Edit.ofResult_ok, pure_bind,
    Edit.bind_of_ok (count_apply _ _ _)]
  cases settings.chunking.enabled with
  | false => exact ⟨_, rfl⟩
  | true =>
    have houtcome : Edit.outcome (ResourceGraph.chainModels (.int settings.chunking.width)) g' =
        (g'.chained settings.chunking.width.val.toNat,
          .ok (g'.freeModels.length - settings.chunking.width.val.toNat)) := by
      unfold Edit.outcome
      rw [hg'.chainModels_eq settings.chunking.width.property]
    simp only [houtcome]
    exact ⟨_, rfl⟩

theorem documentedGraph_eq_ok (hg : g.Proper)
    (h : documentedGraph g models events settings m = .ok g' m') :
    ∃ ga, documentation g models events settings = .ok ga ∧ g' = settings.arrange ga := by
  cases hd : documentation g models events settings with
  | error e =>
    obtain ⟨m'', he⟩ := documentedGraph_of_error (m := m) hd
    rw [he] at h
    cases h
  | ok ga =>
    obtain ⟨m'', ho⟩ := documentedGraph_of_ok (m := m) hg hd
    rw [ho] at h
    cases h
    exact ⟨ga, rfl, rfl⟩

/-! ### The template -/

/-- The outputs that a compilation adds to. -/
def givenOutputs (fields : Fields) : Value :=
  if (fields.get outputsKey).truthy then fields.get outputsKey else .object []

/-- The entries of a template with the resources written, and with outputs. -/
def withResources (g : ResourceGraph) (fields : Fields) : Fields :=
  (fields.put resourcesKey g.toSection).put outputsKey (givenOutputs fields)

theorem commit_eq_ok {t t' restApi : Value} : commit g restApi t = .ok () t' ↔
    ∃ fields written, t.asObject = .ok fields ∧
      putOutput (apiOutputValue restApi) (withResources g fields) = .ok written ∧
      t' = .object written := by
  unfold commit
  rw [Edit.bind_of_ok (Edit.get_apply t), Edit.bind_eq_ok]
  constructor
  · rintro ⟨fields, _, hf, h⟩
    obtain ⟨hfields, rfl⟩ := Edit.ofResult_eq_ok.mp hf
    rw [Edit.bind_of_ok (Edit.set_apply _ _)] at h
    obtain ⟨written, _, hw, h⟩ := Edit.bind_eq_ok.mp h
    obtain ⟨hwritten, rfl⟩ := Edit.ofResult_eq_ok.mp hw
    cases h
    exact ⟨fields, written, hfields, hwritten, rfl⟩
  · rintro ⟨fields, written, hfields, hwritten, rfl⟩
    refine ⟨fields, t, Edit.ofResult_eq_ok.mpr ⟨hfields, rfl⟩, ?_⟩
    rw [Edit.bind_of_ok (Edit.set_apply _ _)]
    exact Edit.bind_eq_ok.mpr ⟨written, _, Edit.ofResult_eq_ok.mpr ⟨hwritten, rfl⟩, rfl⟩

theorem get_outputs_withResources (fields : Fields) :
    (withResources g fields).get outputsKey = givenOutputs fields := by
  unfold withResources Fields.get Fields.get? Fields.put
  rw [Pairs.lookup_put_self, Option.getD_some]

/-! ### The whole course -/

theorem carryOut_eq_ok {source : Source} (hg : g.Proper) :
    carryOut g source settings w = .ok c w' ↔ ∃ ga m' t',
      documentation g source.models source.events settings = .ok ga ∧
        documentedGraph g source.models source.events settings w.metrics =
          .ok (settings.arrange ga) m' ∧
        commit (settings.arrange ga) settings.restApi w.template = .ok () t' ∧
        finish source settings (settings.arrange ga) = .ok c ∧ w' = ⟨t', m'⟩ := by
  unfold carryOut
  rw [Edit.bind_eq_ok]
  constructor
  · rintro ⟨g', _, hd, h⟩
    obtain ⟨m', hdoc, rfl⟩ := onMetrics_eq_ok.mp hd
    obtain ⟨ga, hga, rfl⟩ := documentedGraph_eq_ok hg hdoc
    obtain ⟨_, _, ht, h⟩ := Edit.bind_eq_ok.mp h
    obtain ⟨t', hcommit, rfl⟩ := onTemplate_eq_ok.mp ht
    obtain ⟨hfinish, rfl⟩ := Edit.ofResult_eq_ok.mp h
    exact ⟨ga, m', t', hga, hdoc, hcommit, hfinish, rfl⟩
  · rintro ⟨ga, m', t', -, hdoc, hcommit, hfinish, rfl⟩
    refine ⟨_, _, onMetrics_eq_ok.mpr ⟨m', hdoc, rfl⟩, Edit.bind_eq_ok.mpr ⟨(), _,
      onTemplate_eq_ok.mpr ⟨t', hcommit, rfl⟩, Edit.ofResult_eq_ok.mpr ⟨hfinish, rfl⟩⟩⟩

theorem compile_eq_ok : compile service settings w = .ok c w' ↔
    ∃ g source?, readGraph w.template = .ok g ∧ readService service = .ok source? ∧
      match source? with
      | none => c = ⟨g, .null, [], [], [], none⟩ ∧ w' = w
      | some source => carryOut g source settings w = .ok c w' := by
  rw [compile_eq, Edit.bind_eq_ok]
  constructor
  · rintro ⟨g, _, hg, h⟩
    obtain ⟨hread, rfl⟩ := Edit.ofResult_eq_ok.mp hg
    obtain ⟨source?, _, hs, h⟩ := Edit.bind_eq_ok.mp h
    obtain ⟨hservice, rfl⟩ := Edit.ofResult_eq_ok.mp hs
    refine ⟨g, source?, hread, hservice, ?_⟩
    cases source? with
    | none =>
      obtain ⟨rfl, rfl⟩ := Edit.pure_eq_ok.mp h
      exact ⟨rfl, rfl⟩
    | some source => exact h
  · rintro ⟨g, source?, hread, hservice, h⟩
    refine ⟨g, w, Edit.ofResult_eq_ok.mpr ⟨hread, rfl⟩, Edit.bind_eq_ok.mpr
      ⟨source?, w, Edit.ofResult_eq_ok.mpr ⟨hservice, rfl⟩, ?_⟩⟩
    cases source? with
    | none => exact Edit.pure_eq_ok.mpr ⟨h.1.symm, h.2.symm⟩
    | some source => exact h

/-! ### A small service -/

/-- A service with two models, of which one refers to the other, and an endpoint whose
documentation refers to that one. -/
def petService : Value :=
  .ofPairs [
    ("custom", .ofPairs [("documentation", .ofPairs [
      ("version", .str "1"),
      ("models", .list [
        .ofPairs [("name", .str "Pet"), ("contentType", .str "application/json")],
        .ofPairs [("name", .str "Pets"), ("contentType", .str "application/json"),
          ("schema", .ofPairs [("$ref", .str "\x7b\x7bmodel:Pet\x7d\x7d")])]])])]),
    ("functions", .ofPairs [("list", .ofPairs [("events", .list [
      .ofPairs [("http", .ofPairs [("path", .str "/"), ("method", .str "get"),
        ("documentation", .ofPairs [
          ("methodResponses", .list [.ofPairs [("statusCode", .str "200"),
            ("responseModels", .ofPairs [("application/json", .str "Pets")])]])])])]])])])]

/-- A template with the method resource of that endpoint, which depends on one of the models. -/
def petTemplate : Value :=
  .ofPairs [
    ("Resources", .ofPairs [
      ("ApiGatewayMethodGet", .ofPairs [("Type", .str "AWS::ApiGateway::Method"),
        ("DependsOn", .list [.str "PetModel"])]),
      ("PetModel", .ofPairs [("Type", .str modelKind)])])]

/-- All models in one chain. -/
def petSettings : CompileSettings := ⟨defaultRestApi, ⟨true, 1⟩, false⟩

end Compile
end GatewayDocs

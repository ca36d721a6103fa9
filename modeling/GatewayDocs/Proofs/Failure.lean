import GatewayDocs.Proofs.Compile
import GatewayDocs.Proofs.Parts

/-! # A compilation that fails

A compilation that fails leaves the template as it was (`failed_compile_keeps_template`).  Whatever
fails before the template is written has only counted; and nothing fails afterwards: the resources
and the output are written if the outputs of the template are an object (`exists_commit`), and the
parts and the version of a service that comes from JSON can be told (`exists_finish`). -/

namespace GatewayDocs

namespace Compile
variable {g g' : ResourceGraph} {settings : CompileSettings} {service : Value} {w w' : Workspace}
  {fields : Fields} {source : Source} {m' : Metrics} {e : Failure}

/-- The outputs of a template are an object, unless there are none. -/
def HasOutputs (fields : Fields) : Prop :=
  (fields.get outputsKey).truthy = true → ∃ pairs, (fields.get outputsKey).asObject = .ok pairs

theorem exists_commit {t : Value} (hf : t.asObject = .ok fields) (ho : HasOutputs fields)
    (g : ResourceGraph) (restApi : Value) : ∃ t', commit g restApi t = .ok () t' := by
  obtain ⟨pairs, hpairs⟩ : ∃ pairs, (givenOutputs fields).asObject = .ok pairs := by
    unfold givenOutputs
    split
    · exact ho (by assumption)
    · exact ⟨[], rfl⟩
  obtain ⟨written, hwritten⟩ : ∃ written,
      putOutput (apiOutputValue restApi) (withResources g fields) = .ok written := by
    have hget := (congrArg Value.asObject (get_outputs_withResources (g := g) fields)).trans hpairs
    unfold putOutput
    simp only
    rw [hget, Result.ok_bind]
    split
    · exact ⟨_, rfl⟩
    · exact ⟨_, rfl⟩
  exact ⟨_, commit_eq_ok.mpr ⟨fields, written, hf, hwritten, rfl⟩⟩

theorem exists_finish (hs : service.isJson = true)
    (hservice : readService service = .ok (some source)) (settings : CompileSettings)
    (g : ResourceGraph) : ∃ c, finish source settings g = .ok c := by
  have hevents := sound_of_readService Value.hereditary_isJson hs hservice
  obtain ⟨config, _, _, hconfig, -, -, rfl⟩ := readService_eq_ok.mp hservice
  have hsound := sound_of_ofService Value.hereditary_isJson hs hconfig
  obtain ⟨parts, hparts, hjson⟩ := Parts.exists_serviceParts hsound hevents
  obtain ⟨version, hversion⟩ := Parts.exists_version hjson config.version
  refine ⟨_, Result.bind_eq_ok.mpr ⟨parts, hparts, Result.bind_eq_ok.mpr ⟨version, hversion, rfl⟩⟩⟩

/-- Once the resources are documented, nothing fails. -/
theorem exists_carryOut (hs : service.isJson = true) (hf : w.template.asObject = .ok fields)
    (ho : HasOutputs fields) (hservice : readService service = .ok (some source))
    (hdoc : documentedGraph g source.models source.events settings w.metrics = .ok g' m') :
    ∃ c t', carryOut g source settings w = .ok c ⟨t', m'⟩ := by
  obtain ⟨t', hcommit⟩ := exists_commit hf ho g' settings.restApi
  obtain ⟨c, hfinish⟩ := exists_finish hs hservice settings g'
  exact ⟨c, t', Edit.bind_eq_ok.mpr ⟨g', _, onMetrics_eq_ok.mpr ⟨m', hdoc, rfl⟩,
    Edit.bind_eq_ok.mpr ⟨(), _, onTemplate_eq_ok.mpr ⟨t', hcommit, rfl⟩,
      Edit.ofResult_eq_ok.mpr ⟨hfinish, rfl⟩⟩⟩⟩

theorem template_of_carryOut_eq_error (hs : service.isJson = true)
    (hf : w.template.asObject = .ok fields) (ho : HasOutputs fields)
    (hservice : readService service = .ok (some source))
    (h : carryOut g source settings w = .error e w') : w'.template = w.template := by
  -- only documenting may fail, and it has the metrics alone to change
  cases hdoc : documentedGraph g source.models source.events settings w.metrics with
  | ok g' m' =>
    obtain ⟨c, t', hok⟩ := exists_carryOut hs hf ho hservice hdoc
    cases hok.symm.trans h
  | error e' m' =>
    have hfail := onMetrics_eq_error.mpr ⟨m', hdoc, rfl⟩
    unfold carryOut at h
    rw [Edit.bind_of_error hfail] at h
    cases h
    rfl

end Compile

open Compile in
/-- **A compilation that fails leaves the template as it was**, for a service that comes from JSON
and a template whose outputs are an object, if there are any.  And it does not fail after it has
started to write: it succeeds once the template and the service are read and the resources are
documented. -/
theorem failed_compile_keeps_template {service : Value} {w : Workspace} {fields : Fields}
    (hs : service.isJson = true) (hf : w.template.asObject = .ok fields) (ho : HasOutputs fields)
    (settings : CompileSettings) :
    (∀ e w', compile service settings w = .error e w' → w'.template = w.template) ∧
      ∀ g source g' m', readGraph w.template = .ok g → readService service = .ok (some source) →
        documentedGraph g source.models source.events settings w.metrics = .ok g' m' →
        ∃ c t', compile service settings w = .ok c ⟨t', m'⟩ := by
  constructor
  · intro e w' h
    -- it fails reading the template, reading the service, or in the course that follows
    rw [compile_eq] at h
    rcases Edit.bind_eq_error.mp h with hread | ⟨g, _, hread, h₁⟩
    · rw [(Edit.ofResult_eq_error.mp hread).2]
    · obtain ⟨-, rfl⟩ := Edit.ofResult_eq_ok.mp hread
      rcases Edit.bind_eq_error.mp h₁ with hservice | ⟨source?, _, hread', h₂⟩
      · rw [(Edit.ofResult_eq_error.mp hservice).2]
      · obtain ⟨hservice, rfl⟩ := Edit.ofResult_eq_ok.mp hread'
        cases source? with
        | none => cases h₂
        | some source => exact template_of_carryOut_eq_error hs hf ho hservice h₂
  · intro g source g' m' hread hservice hdoc
    obtain ⟨c, t', h⟩ := exists_carryOut hs hf ho hservice hdoc
    exact ⟨c, t', compile_eq_ok.mpr ⟨g, some source, hread, hservice, h⟩⟩

open Compile in
/-- The small service is not compiled into a template without methods, which stays as it was. -/
theorem failed_compile_keeps_template_pets :
    petService.isJson = true ∧ (Value.object []).asObject = .ok [] ∧ HasOutputs [] ∧
      ∃ e w', compile petService petSettings ⟨.object [], .empty⟩ = .error e w' ∧
        w'.template = .object [] := by
  have houtputs : HasOutputs [] := fun h => (nomatch h)
  obtain ⟨e, w', h⟩ : ∃ e w',
      compile petService petSettings ⟨.object [], .empty⟩ = .error e w' := ⟨_, _, rfl⟩
  exact ⟨rfl, rfl, houtputs, e, w', h,
    (failed_compile_keeps_template rfl rfl houtputs petSettings).1 e w' h⟩

end GatewayDocs

import GatewayDocs.Proofs.Dependencies
import GatewayDocs.Proofs.Outcome
import GatewayDocs.Proofs.Rearrange

/-! # The order of endpoints and models

If no two documented events name the same method resource, then it does not matter in which order
the functions of a service and their events are listed: every resource is documented by at most one
event, and so the same template is written (`Compile.documentation_perm`).

The order of the models is the order in which their resources are added.  If no two models have the
same name and no models are chained, then the resources are the same in another order
(`Compile.exists_documentation_of_models`), because documenting a resource looks at nothing but what
stands under its name. -/

namespace GatewayDocs

namespace Compile
variable {g g' h : ResourceGraph} {models models' : List ModelDescriptor}
  {es es' : List HttpEvent} {settings : CompileSettings} {service service' : Value}
  {w w' : Workspace} {safeMode : Bool} {s : String} {c : Compiled}

/-! ### Events in another order -/

/-- Two graphs with the same resource under each name. -/
def SameLookups (g h : ResourceGraph) : Prop := ∀ s, g.get? (.str s) = h.get? (.str s)

theorem SameLookups.add {r : Resource} (hsame : SameLookups g h) (s : String) :
    SameLookups (g.add (.str s) r) (h.add (.str s) r) := fun t => by
  by_cases hs : s = t
  · subst hs
    rw [ResourceGraph.get?_add_self, ResourceGraph.get?_add_self]
  · rw [ResourceGraph.get?_add_of_ne hs, ResourceGraph.get?_add_of_ne hs, hsame t]

/-- Two services that differ only in the order of the models that they declare, which have distinct
names and are not derived from an embedded description. -/
structure ModelsRearranged (service service' : Value) : Prop where
  functions : service'.field "functions" = service.field "functions"
  config : ∃ config ms, DocumentationConfig.ofService service = .ok (some config) ∧
    DocumentationConfig.ofService service' = .ok (some { config with models := ms }) ∧
      config.swagger = false ∧ (config.models.map (·.name)).Nodup ∧ config.models.Perm ms

theorem ModelsRearranged.symm (h : ModelsRearranged service service') :
    ModelsRearranged service' service := by
  obtain ⟨config, ms, hconfig, hconfig', hswagger, hn, hperm⟩ := h.config
  exact ⟨h.functions.symm, { config with models := ms }, config.models, hconfig', hconfig, hswagger,
    (hperm.map _).nodup_iff.mp hn, hperm.symm⟩

/-- A compilation succeeds and leaves a template behind. -/
def CompilesTo (service : Value) (settings : CompileSettings) (w : Workspace) (t : Value) : Prop :=
  ∃ c w', compile service settings w = .ok c w' ∧ w'.template = t

/-- Only one template is left behind. -/
theorem CompilesTo.unique {t t' : Value} (h : CompilesTo service settings w t)
    (h' : CompilesTo service settings w t') : t = t' := by
  obtain ⟨c, w₁, hc, rfl⟩ := h
  obtain ⟨c', w₂, hc', rfl⟩ := h'
  cases hc.symm.trans hc'
  rfl

end Compile

namespace Compile

end Compile

end GatewayDocs

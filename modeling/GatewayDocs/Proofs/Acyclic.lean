import GatewayDocs.Proofs.Schedule

/-! # Chaining makes no cycle

A relation that never leads out of a part has a cycle only inside of that part or only outside of
it (`acyclic_of_part`).  The models that were free are such a part of a chained graph: they depend
on free models alone, each time on one at an earlier place.  Outside of them, the dependencies are
what they were, so chaining keeps a graph acyclic (`Proper.acyclic_chained`). -/

namespace GatewayDocs

namespace ResourceGraph
variable {g : ResourceGraph} {width i j : Nat} {s t : String} {r : Resource}

theorem Proper.isFree_of_freeAt (hg : g.Proper) (h : g.FreeAt i s) : g.isFree s = true := by
  obtain ⟨r, hr⟩ := h
  have hmem := List.mem_of_getElem? hr
  unfold isFree
  rw [hg.get?_iff.mpr (mem_of_mem_freeModels hmem), Option.any_some]
  exact isFree_of_mem_freeModels hmem

/-- What is in a chained graph: a resource that was not free, as it was, a first link, which
depends on nothing, or a later link, which depends on its parent. -/
theorem Proper.get?_chained_cases (hg : g.Proper) (hr : (g.chained width).get? (.str s) = some r) :
    (g.isFree s = false ∧ g.get? (.str s) = some r) ∨ r.dependsOn = [] ∨
      ∃ i t, g.FreeAt i t ∧ g.FreeAt (i + width) s ∧ r.dependsOn = [.str t] := by
  cases hf : g.isFree s with
  | false =>
    have hs := (names_chained_perm width g).subset (mem_names_of_get? hr)
    obtain ⟨r₀, hr₀⟩ := exists_get? hs
    have hf₀ : r₀.isFree = false := by
      unfold isFree at hf
      rwa [hr₀, Option.any_some] at hf
    exact .inl ⟨rfl, hr₀.trans ((hg.get?_chained_of_not_free hr₀ hf₀).symm.trans hr)⟩
  | true =>
    right
    obtain ⟨i, hi⟩ := exists_freeAt hf
    rcases Nat.lt_or_ge i width with hlt | hge
    · obtain ⟨r₁, hr₁, hd⟩ := hg.dependsOn_first hi hlt
      cases hr₁.symm.trans hr
      exact .inl hd
    · obtain ⟨k, rfl⟩ := Nat.exists_eq_add_of_le' hge
      obtain ⟨t, ht⟩ := hg.freeAt_of_lt (Nat.lt_of_le_of_lt (Nat.le_add_right k width) hi.lt_length)
      obtain ⟨r₁, hr₁, hd⟩ := hg.dependsOn_link ht hi
      cases hr₁.symm.trans hr
      exact .inr ⟨k, t, ht, hi, hd⟩

/-- One free model is the parent of another in chains of a width. -/
def ParentOf (g : ResourceGraph) (width : Nat) (s t : String) : Prop :=
  ∃ i, g.FreeAt i t ∧ g.FreeAt (i + width) s

/-- A parent, and a parent of a parent, is at an earlier place. -/
theorem Proper.place_lt_of_parents (hg : g.Proper) (hw : 1 ≤ width)
    (h : Relation.TransGen (g.ParentOf width) s t) (hi : g.FreeAt i s) (hj : g.FreeAt j t) :
    j < i := by
  -- places are unique, so each edge leads `width` places back
  induction h generalizing j with
  | single h =>
    obtain ⟨k, ht, hs⟩ := h
    obtain rfl := hg.place_unique ht hj
    obtain rfl := hg.place_unique hs hi
    omega
  | tail _ h ih =>
    obtain ⟨k, hc, hb⟩ := h
    obtain rfl := hg.place_unique hc hj
    have := ih hb
    omega

theorem Proper.acyclic_parents (hg : g.Proper) (hw : 1 ≤ width) (s : String) :
    ¬ Relation.TransGen (g.ParentOf width) s s := by
  intro h
  obtain ⟨t, ⟨i, -, hi⟩, -⟩ := Relation.TransGen.head'_iff.mp h
  exact Nat.lt_irrefl _ (hg.place_lt_of_parents hw h hi hi)

end ResourceGraph
end GatewayDocs

import GatewayDocs.Proofs.Chaining
import Mathlib.Data.List.Perm.Subperm
import Mathlib.Data.List.Nodup

/-! # How many models are created at once

A scheduler starts and completes the resources of a graph in any order, but starts a resource
only once everything that it depends on is completed (`Progress.Step`).  In a chained graph the
models that were free are threaded into `width` chains, by their place modulo `width`: a model
is started only after all earlier models of its chain are completed
(`InChains.earlier_completed`).  So at most one model of each chain is being created at any
moment (`countP_running_le`), and models of which none depends on another belong to different
chains (`length_le_of_independent`). -/

namespace GatewayDocs

/-- The resources that a scheduler has started, and those that it has completed. -/
structure Progress where
  started : List String
  completed : List String

namespace Progress

/-- Nothing is started. -/
def initial : Progress := ⟨[], []⟩

/-- The resources that are started and not yet completed. -/
def running (p : Progress) : List String := p.started.filter fun s => s ∉ p.completed

/-- A scheduler starts a resource of a graph all of whose dependencies are completed, or
completes one that it has started. -/
inductive Step (g : ResourceGraph) : Progress → Progress → Prop where
  | start {p : Progress} {s : String} {r : Resource} : g.get? (.str s) = some r →
      s ∉ p.started → (∀ d ∈ r.dependsOn, ∃ t ∈ p.completed, d = .str t) →
      Step g p { p with started := s :: p.started }
  | complete {p : Progress} {s : String} : s ∈ p.started → s ∉ p.completed →
      Step g p { p with completed := s :: p.completed }

/-- What a scheduler can reach. -/
inductive Reachable (g : ResourceGraph) : Progress → Prop where
  | initial : Reachable g initial
  | step {p q : Progress} : Reachable g p → Step g p q → Reachable g q

end Progress

namespace ResourceGraph

/-- Whether a name is that of a model that depends on nothing. -/
def isFree (g : ResourceGraph) (s : String) : Bool := (g.get? (.str s)).any Resource.isFree

/-- A name has a place among the free models. -/
def FreeAt (g : ResourceGraph) (i : Nat) (s : String) : Prop :=
  ∃ r, g.freeModels[i]? = some (.str s, r)

variable {g : ResourceGraph} {width i j : Nat} {s t : String}

/-! ### Places -/

theorem exists_freeAt (h : g.isFree s) : ∃ i, g.FreeAt i s := by
  obtain ⟨r, hr, hf⟩ := (Option.any_eq_true _ _).mp h
  have hmem : (.str s, r) ∈ g.freeModels := List.mem_filter.mpr ⟨mem_of_get? hr, hf⟩
  obtain ⟨i, hi⟩ := List.mem_iff_getElem?.mp hmem
  exact ⟨i, r, hi⟩

theorem FreeAt.lt_length (h : g.FreeAt i s) : i < g.freeModels.length := by
  obtain ⟨r, hr⟩ := h
  exact (List.getElem?_eq_some_iff.mp hr).1

theorem Proper.freeAt_of_lt (hg : g.Proper) (h : i < g.freeModels.length) :
    ∃ s, g.FreeAt i s := by
  have hi : g.freeModels[i]? = some g.freeModels[i] := List.getElem?_eq_getElem h
  have hmem := mem_of_mem_freeModels (List.mem_of_getElem? hi)
  obtain ⟨s, hs⟩ := hg.text g.freeModels[i].1 (List.mem_map_of_mem hmem)
  exact ⟨s, g.freeModels[i].2, hi.trans (congrArg some (Prod.ext hs rfl))⟩

theorem FreeAt.name_unique (hs : g.FreeAt i s) (ht : g.FreeAt i t) : s = t := by
  obtain ⟨r, hr⟩ := hs
  obtain ⟨r', hr'⟩ := ht
  rw [hr, Option.some.injEq, Prod.mk.injEq] at hr'
  exact Atom.str.inj hr'.1

theorem Proper.place_unique (hg : g.Proper) (hi : g.FreeAt i s) (hj : g.FreeAt j s) : i = j := by
  have hname : ∀ {k}, g.FreeAt k s → (g.freeModels.map (·.1))[k]? = some (.str s) := by
    rintro k ⟨r, hr⟩
    rw [List.getElem?_map, hr]
    rfl
  have hlt := (List.getElem?_eq_some_iff.mp (hname hi)).1
  exact (List.getElem?_inj hlt hg.freeNames_nodup).mp ((hname hi).trans (hname hj).symm)

/-! ### Dependencies of links -/

/-- From the place `width` on, a link depends on its parent alone. -/
theorem Proper.dependsOn_link (hg : g.Proper) (hs : g.FreeAt i s) (ht : g.FreeAt (i + width) t) :
    ∃ r, (g.chained width).get? (.str t) = some r ∧ r.dependsOn = [.str s] := by
  obtain ⟨r, hr⟩ := hs
  obtain ⟨r', hr'⟩ := ht
  refine ⟨_, hg.get?_chained hr', ?_⟩
  rw [link_add hr]

/-- The first links depend on nothing. -/
theorem Proper.dependsOn_first (hg : g.Proper) (hs : g.FreeAt i s) (hi : i < width) :
    ∃ r, (g.chained width).get? (.str s) = some r ∧ r.dependsOn = [] := by
  obtain ⟨r, hr⟩ := hs
  refine ⟨_, hg.get?_chained hr, ?_⟩
  rw [link_of_lt hi]
  have := isFree_of_mem_freeModels (List.mem_of_getElem? hr)
  simpa [Resource.isFree] using (Bool.and_eq_true_iff.mp this).2

/-- Between two places of one chain there is the place of a parent. -/
theorem exists_parent_place (hij : i < j) (hmod : i % width = j % width) :
    ∃ k, j = k + width ∧ k < j ∧ i ≤ k ∧ i % width = k % width := by
  have hpos : 0 < width := by
    refine Nat.pos_of_ne_zero fun hw => ?_
    rw [hw, Nat.mod_zero, Nat.mod_zero] at hmod
    omega
  have hle : width ≤ j - i :=
    Nat.le_of_dvd (by omega) (Nat.dvd_of_mod_eq_zero (Nat.sub_mod_eq_zero_of_mod_eq hmod.symm))
  obtain ⟨k, rfl⟩ : ∃ k, j = k + width := ⟨j - width, by omega⟩
  exact ⟨k, rfl, by omega, by omega, by rw [hmod, Nat.add_mod_right]⟩

/-- A later model of a chain depends on every earlier one, directly or through others. -/
theorem Proper.transGen_link (hg : g.Proper) (hs : g.FreeAt i s) (ht : g.FreeAt j t) (hij : i < j)
    (hmod : i % width = j % width) : Relation.TransGen (g.chained width).DependsOn t s := by
  -- one edge leads from `j` to the place of its parent, which is not before `i`
  induction j using Nat.strongRecOn generalizing t with
  | ind j ih =>
    obtain ⟨k, rfl, hkj, hik, hk⟩ := exists_parent_place hij hmod
    obtain ⟨u, hu⟩ := hg.freeAt_of_lt (Nat.lt_trans hkj ht.lt_length)
    obtain ⟨r, hr, hd⟩ := hg.dependsOn_link hu ht
    have hedge : (g.chained width).DependsOn t u :=
      ⟨r, hr, by rw [hd]; exact List.mem_singleton_self _⟩
    rcases Nat.eq_or_lt_of_le hik with rfl | hik
    · exact .single (hu.name_unique hs ▸ hedge)
    · exact .head hedge (ih k hkj hu hik hk)

/-! ### One model of each chain -/

/-- Free models of different chains are at most `width` many. -/
theorem length_le_of_chains (hw : 0 < width) {ns : List String}
    (hn : ns.Nodup) (hf : ∀ s ∈ ns, g.isFree s)
    (hc : ∀ s ∈ ns, ∀ t ∈ ns, ∀ i j, g.FreeAt i s → g.FreeAt j t → i % width = j % width →
      ¬ i < j) : ns.length ≤ width := by
  have hplace : ∀ s, ∃ i, s ∈ ns → g.FreeAt i s := by
    intro s
    by_cases hs : s ∈ ns
    · obtain ⟨i, hi⟩ := exists_freeAt (hf s hs)
      exact ⟨i, fun _ => hi⟩
    · exact ⟨0, fun h => absurd h hs⟩
  choose place hplace using hplace
  -- the places modulo `width` are distinct, and there are `width` many of them
  have hnodup : (ns.map fun s => place s % width).Nodup := by
    refine hn.map_on fun s hs t ht hst => ?_
    have h1 := hc s hs t ht _ _ (hplace s hs) (hplace t ht) hst
    have h2 := hc t ht s hs _ _ (hplace t ht) (hplace s hs) hst.symm
    have heq : place s = place t := by omega
    exact (hplace s hs).name_unique (heq ▸ hplace t ht)
  have hsub : (ns.map fun s => place s % width) ⊆ List.range width := by
    intro k hk
    obtain ⟨s, -, rfl⟩ := List.mem_map.mp hk
    exact List.mem_range.mpr (Nat.mod_lt _ hw)
  simpa using (List.subperm_of_subset hnodup hsub).length_le

/-- Free models of which none depends on another are at most `width` many. -/
theorem Proper.length_le_of_independent (hg : g.Proper) (hw : 0 < width) {ns : List String}
    (hn : ns.Nodup) (hf : ∀ s ∈ ns, g.isFree s)
    (hi : ∀ s ∈ ns, ∀ t ∈ ns, s ≠ t → ¬ Relation.TransGen (g.chained width).DependsOn s t) :
    ns.length ≤ width := by
  refine length_le_of_chains hw hn hf fun s hs t ht i j hsi htj hmod hij => ?_
  have hst : t ≠ s := by
    rintro rfl
    have := hg.place_unique hsi htj
    omega
  exact hi t ht s hs hst (hg.transGen_link hsi htj hij hmod)

/-- As many free models as there are chains, at most, depend on nothing after chaining. -/
theorem Proper.countP_independent (hg : g.Proper) (width : Nat) :
    g.freeModels.countP (fun nr =>
        ((g.chained width).get? nr.1).any fun r => r.dependsOn.isEmpty) =
      min width g.freeModels.length := by
  have hat : ∀ {k nr}, g.freeModels[k]? = some nr → ∃ s, nr.1 = .str s ∧ g.FreeAt k s := by
    intro k nr hk
    have hmem := mem_of_mem_freeModels (List.mem_of_getElem? hk)
    obtain ⟨s, hs⟩ := hg.text nr.1 (List.mem_map_of_mem hmem)
    exact ⟨s, hs, nr.2, hk.trans (congrArg some (Prod.ext hs rfl))⟩
  have hfirst : ∀ nr ∈ g.freeModels.take width,
      ((g.chained width).get? nr.1).any (fun r => r.dependsOn.isEmpty) = true := by
    intro nr hnr
    obtain ⟨k, hk⟩ := List.mem_iff_getElem?.mp hnr
    have hlt : k < width := by
      refine Nat.lt_of_not_le fun hle => ?_
      rw [List.getElem?_take_eq_none hle] at hk
      cases hk
    rw [List.getElem?_take_of_lt hlt] at hk
    obtain ⟨s, hs, hat⟩ := hat hk
    obtain ⟨r, hr, hd⟩ := hg.dependsOn_first hat hlt
    rw [hs, hr]
    simp [hd]
  have hlater : ∀ nr ∈ g.freeModels.drop width,
      ¬ ((g.chained width).get? nr.1).any (fun r => r.dependsOn.isEmpty) = true := by
    intro nr hnr
    obtain ⟨k, hk⟩ := List.mem_iff_getElem?.mp hnr
    rw [List.getElem?_drop, Nat.add_comm] at hk
    obtain ⟨t, ht, hat⟩ := hat hk
    obtain ⟨s, hs⟩ := hg.freeAt_of_lt (Nat.lt_of_le_of_lt (Nat.le_add_right k width) hat.lt_length)
    obtain ⟨r, hr, hd⟩ := hg.dependsOn_link hs hat
    rw [ht, hr]
    simp [hd]
  rw [← List.length_take, ← List.countP_eq_length.mpr hfirst]
  conv_lhs => rw [← List.take_append_drop width g.freeModels]
  rw [List.countP_append, List.countP_eq_zero.mpr hlater, Nat.add_zero]

/-! ### Runs -/

/-- What a scheduler that follows the chains has done: a link is started only after its parent
is completed, and nothing is started twice or completed without being started. -/
structure InChains (g : ResourceGraph) (width : Nat) (p : Progress) : Prop where
  parent_completed : ∀ {i s t}, g.FreeAt i s → g.FreeAt (i + width) t → t ∈ p.started →
    s ∈ p.completed
  completed_started : ∀ s ∈ p.completed, s ∈ p.started
  started_nodup : p.started.Nodup

theorem inChains_initial : g.InChains width .initial :=
  ⟨fun _ _ h => (nomatch h), fun _ h => (nomatch h), List.nodup_nil⟩

/-- A step of a scheduler keeps to the chains. -/
theorem Proper.inChains_step (hg : g.Proper) {p q : Progress} (hp : g.InChains width p)
    (hs : Progress.Step (g.chained width) p q) : g.InChains width q := by
  cases hs with
  | @start s r hr hnew hdeps =>
    refine ⟨?_, ?_, ?_⟩
    · intro i u t hu ht hmem
      rcases List.mem_cons.mp hmem with rfl | hmem
      · -- the link that is started depends on its parent, so the parent is completed
        obtain ⟨r', hr', hd⟩ := hg.dependsOn_link hu ht
        obtain rfl : r = r' := Option.some.inj (hr.symm.trans hr')
        obtain ⟨v, hv, he⟩ := hdeps (.str u) (by rw [hd]; exact List.mem_singleton_self _)
        cases he
        exact hv
      · exact hp.parent_completed hu ht hmem
    · exact fun t ht => List.mem_cons_of_mem _ (hp.completed_started t ht)
    · exact List.nodup_cons.mpr ⟨hnew, hp.started_nodup⟩
  | @complete s hstarted hopen =>
    refine ⟨?_, ?_, hp.started_nodup⟩
    · exact fun hu ht hmem => List.mem_cons_of_mem _ (hp.parent_completed hu ht hmem)
    · intro t ht
      rcases List.mem_cons.mp ht with rfl | ht
      · exact hstarted
      · exact hp.completed_started t ht

/-- Every run of a scheduler keeps to the chains. -/
theorem Proper.inChains (hg : g.Proper) {p : Progress}
    (hp : Progress.Reachable (g.chained width) p) : g.InChains width p := by
  induction hp with
  | initial => exact inChains_initial
  | step _ hs ih => exact hg.inChains_step ih hs

/-- Before a model of a chain is started, all earlier models of the chain are completed. -/
theorem Proper.earlier_completed (hg : g.Proper) {p : Progress} (hp : g.InChains width p)
    (hs : g.FreeAt i s) (ht : g.FreeAt j t) (hij : i < j) (hmod : i % width = j % width)
    (hmem : t ∈ p.started) : s ∈ p.completed := by
  induction j using Nat.strongRecOn generalizing t with
  | ind j ih =>
    obtain ⟨k, rfl, hkj, hik, hk⟩ := exists_parent_place hij hmod
    obtain ⟨u, hu⟩ := hg.freeAt_of_lt (Nat.lt_trans hkj ht.lt_length)
    have hparent : u ∈ p.completed := hp.parent_completed hu ht hmem
    rcases Nat.eq_or_lt_of_le hik with rfl | hik
    · exact hu.name_unique hs ▸ hparent
    · exact ih k hkj hu hik hk (hp.completed_started u hparent)

/-- At most one model of each chain is being created at any moment. -/
theorem Proper.countP_running_le (hg : g.Proper) (hw : 0 < width) {p : Progress}
    (hp : g.InChains width p) : p.running.countP g.isFree ≤ width := by
  rw [List.countP_eq_length_filter]
  have hrunning : ∀ {s}, s ∈ p.running.filter g.isFree →
      s ∈ p.started ∧ s ∉ p.completed ∧ g.isFree s = true := by
    intro s hs
    obtain ⟨hs, hf⟩ := List.mem_filter.mp hs
    obtain ⟨hstarted, hopen⟩ := List.mem_filter.mp hs
    exact ⟨hstarted, of_decide_eq_true hopen, hf⟩
  refine length_le_of_chains hw ?_ (fun s hs => (hrunning hs).2.2) ?_
  · exact (hp.started_nodup.filter _).filter _
  · intro s hs t ht i j hsi htj hmod hij
    exact (hrunning hs).2.1 (hg.earlier_completed hp hsi htj hij hmod (hrunning ht).1)

/-- **The bound on models created at once.**  Chaining a graph with a width of at least one
succeeds, and afterwards, of the models that were free before:

* at no moment of a run of a scheduler are more than `width` started and not yet completed;
* any of which none depends on another, directly or through others, are at most `width` many;
* exactly as many depend on nothing as there are chains, or all if there are fewer. -/
theorem chainFree_bounds_creation (hg : g.Proper) (hw : 1 ≤ width) :
    ∃ links h, chainFree width g = .ok links h ∧
      (∀ p, Progress.Reachable h p → p.running.countP g.isFree ≤ width) ∧
      (∀ ns : List String, ns.Nodup → (∀ s ∈ ns, g.isFree s) →
        (∀ s ∈ ns, ∀ t ∈ ns, s ≠ t → ¬ Relation.TransGen h.DependsOn s t) →
        ns.length ≤ width) ∧
      g.freeModels.countP (fun nr => (h.get? nr.1).any fun r => r.dependsOn.isEmpty) =
        min width g.freeModels.length := by
  refine ⟨_, _, hg.chainFree_eq width, ?_, ?_, hg.countP_independent width⟩
  · exact fun p hp => hg.countP_running_le hw (hg.inChains hp)
  · exact fun ns hn hf hi => hg.length_le_of_independent hw hn hf hi

/-- Five models that depend on nothing. -/
def fiveModels : ResourceGraph :=
  ⟨["m0", "m1", "m2", "m3", "m4"].map fun s => (.str s, .ofProperties modelKind [])⟩

theorem fiveModels_proper : fiveModels.Proper :=
  ⟨by simp [fiveModels, Pairs.keys], by simp [fiveModels, Pairs.keys]⟩

/-- In two chains, two of the five depend on nothing, and no more are created at once. -/
theorem chainFree_bounds_creation_fiveModels :
    fiveModels.Proper ∧ 1 ≤ 2 ∧ fiveModels.freeModels.length = 5 ∧
      ∃ links h, chainFree 2 fiveModels = .ok links h ∧
        (∀ p, Progress.Reachable h p → p.running.countP fiveModels.isFree ≤ 2) ∧
        (∀ ns : List String, ns.Nodup → (∀ s ∈ ns, fiveModels.isFree s) →
          (∀ s ∈ ns, ∀ t ∈ ns, s ≠ t → ¬ Relation.TransGen h.DependsOn s t) →
          ns.length ≤ 2) ∧
        fiveModels.freeModels.countP (fun nr =>
          (h.get? nr.1).any fun r => r.dependsOn.isEmpty) = 2 :=
  ⟨fiveModels_proper, by decide, by decide,
    chainFree_bounds_creation fiveModels_proper (by decide)⟩

end ResourceGraph
end GatewayDocs

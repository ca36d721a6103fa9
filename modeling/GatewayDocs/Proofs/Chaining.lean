import GatewayDocs.Proofs.Edit
import GatewayDocs.Proofs.Graph

/-! # What chaining makes of a graph

Chaining never fails on a graph whose names are distinct texts, and its result has a closed
form (`chainFree_eq`): the free models as links of the chains (`linked`), then the models that
had dependencies, then everything else, each group in its old order.

Only the `dependsOn` of a free model changes, and only from the place `width` on, where it
becomes the model `width` places before (`ResourceGraph.link`). -/

namespace GatewayDocs

section Edges
variable {width i : Nat} {names : List Atom} {p c : Atom}

theorem chainEdges_children (width : Nat) (names : List Atom) :
    (chainEdges width names).map (·.2) = names.drop width :=
  List.map_snd_zip (by simp)

theorem length_chainEdges (width : Nat) (names : List Atom) :
    (chainEdges width names).length = names.length - width := by
  simp [chainEdges]

/-- The parent of a child is the name `width` places before it. -/
theorem mem_chainEdges (hp : names[i]? = some p) (hc : names[i + width]? = some c) :
    (p, c) ∈ chainEdges width names := by
  refine List.mem_iff_getElem?.mpr ⟨i, ?_⟩
  rw [chainEdges, List.getElem?_zip_eq_some, List.getElem?_drop, Nat.add_comm]
  exact ⟨hp, hc⟩

end Edges

namespace Resource
variable {r : Resource}

theorem isModel_of_isFree (h : r.isFree = true) : r.isModel = true :=
  (Bool.and_eq_true_iff.mp h).1

theorem isModel_of_isBound (h : r.isBound = true) : r.isModel = true :=
  (Bool.and_eq_true_iff.mp h).1

theorem isBound_of_isFree (h : r.isFree = true) : r.isBound = false := by
  have hnone := (Bool.and_eq_true_iff.mp h).2
  unfold isBound
  rw [hnone, Bool.not_true, Bool.and_false]

theorem isFree_of_isBound (h : r.isBound = true) : r.isFree = false :=
  Bool.eq_false_iff.mpr fun hf => by
    rw [isBound_of_isFree hf] at h
    cases h

theorem isFree_of_not_isModel (h : r.isModel = false) : r.isFree = false :=
  Bool.eq_false_iff.mpr fun hf => by
    rw [isModel_of_isFree hf] at h
    cases h

theorem isBound_of_not_isModel (h : r.isModel = false) : r.isBound = false :=
  Bool.eq_false_iff.mpr fun hb => by
    rw [isModel_of_isBound hb] at h
    cases h

end Resource

namespace ResourceGraph
variable {g : ResourceGraph} {s t : String} {p : Atom} {r : Resource}

/-! ### Setting parents -/

theorem names_setParent (g : ResourceGraph) (p c : Atom) :
    (g.setParent p c).names = g.names := by
  unfold setParent
  cases h : g.get? c with
  | none => rfl
  | some r => exact Pairs.keys_put_of_has (Option.isSome_of_eq_some h)

theorem get?_setParent_self (h : g.get? (.str s) = some r) :
    (g.setParent p (.str s)).get? (.str s) = some { r with dependsOn := [.atom p] } := by
  unfold setParent
  rw [h]
  exact get?_add_self

theorem get?_setParent_of_ne (h : s ≠ t) :
    (g.setParent p (.str s)).get? (.str t) = g.get? (.str t) := by
  unfold setParent
  cases g.get? (.str s) with
  | none => rfl
  | some r => exact get?_add_of_ne h

/-- Setting the parents of some children, one after the other. -/
def setParents (g : ResourceGraph) (edges : List (Atom × Atom)) : ResourceGraph :=
  edges.foldl (fun g pc => g.setParent pc.1 pc.2) g

section SetParents
variable {edges : List (Atom × Atom)}

theorem names_setParents (g : ResourceGraph) (edges : List (Atom × Atom)) :
    (g.setParents edges).names = g.names := by
  induction edges generalizing g with
  | nil => rfl
  | cons e edges ih => exact (ih (g.setParent e.1 e.2)).trans (names_setParent g e.1 e.2)

/-- A resource that is no child stays as it is. -/
theorem get?_setParents_of_not_mem (ht : ∀ e ∈ edges, ∃ s, e.2 = .str s)
    (hs : .str s ∉ edges.map (·.2)) : (g.setParents edges).get? (.str s) = g.get? (.str s) := by
  induction edges generalizing g with
  | nil => rfl
  | cons e edges ih =>
    obtain ⟨p, c⟩ := e
    obtain ⟨t, rfl⟩ : ∃ t, c = .str t := ht (p, c) (by simp)
    rw [List.map_cons, List.mem_cons, not_or] at hs
    have := ih (g := g.setParent p (.str t)) (fun e he => ht e (List.mem_cons_of_mem _ he)) hs.2
    exact this.trans (get?_setParent_of_ne fun he => hs.1 (he ▸ rfl))

/-- A child depends on its parent alone, if it is a child only once. -/
theorem get?_setParents_of_mem (ht : ∀ e ∈ edges, ∃ s, e.2 = .str s)
    (hn : (edges.map (·.2)).Nodup) (he : (p, .str s) ∈ edges) (hr : g.get? (.str s) = some r) :
    (g.setParents edges).get? (.str s) = some { r with dependsOn := [.atom p] } := by
  induction edges generalizing g with
  | nil => cases he
  | cons e edges ih =>
    have ht' : ∀ e ∈ edges, ∃ s, e.2 = .str s := fun e he => ht e (List.mem_cons_of_mem _ he)
    rw [List.map_cons, List.nodup_cons] at hn
    rcases List.mem_cons.mp he with rfl | hin
    · -- no later edge has the same child
      exact (get?_setParents_of_not_mem ht' hn.1).trans (get?_setParent_self hr)
    · obtain ⟨q, c⟩ := e
      obtain ⟨t, rfl⟩ : ∃ t, c = .str t := ht (q, c) (by simp)
      have hts : t ≠ s := by
        rintro rfl
        exact hn.1 (List.mem_map.mpr ⟨_, hin, rfl⟩)
      exact ih ht' hn.2 hin (by rw [get?_setParent_of_ne hts, hr])

end SetParents

/-! ### Links -/

/-- A model as a link of the chains: from the place `width` on, it depends on the model that
comes `width` places before it. -/
def link (width : Nat) (free : List (Atom × Resource)) (i : Nat) (nr : Atom × Resource) :
    Atom × Resource :=
  if width ≤ i then
    match free[i - width]? with
    | some p => (nr.1, { nr.2 with dependsOn := [.atom p.1] })
    | none => nr
  else nr

/-- Models as links of the chains. -/
def linked (width : Nat) (free : List (Atom × Resource)) : List (Atom × Resource) :=
  free.mapIdx (link width free)

section Links
variable {width i : Nat} {free : List (Atom × Resource)} {nr pr : Atom × Resource}

theorem link_of_lt (h : i < width) : link width free i nr = nr :=
  if_neg (Nat.not_le.mpr h)

theorem link_add (h : free[i]? = some pr) :
    link width free (i + width) nr = (nr.1, { nr.2 with dependsOn := [.atom pr.1] }) := by
  simp [link, h]

@[simp] theorem link_fst : (link width free i nr).1 = nr.1 := by
  unfold link
  split
  · split <;> rfl
  · rfl

@[simp] theorem keys_linked : Pairs.keys (linked width free) = Pairs.keys free := by
  simp [Pairs.keys, linked, List.ext_getElem_iff]

theorem getElem?_linked : (linked width free)[i]? = free[i]?.map (link width free i) :=
  List.getElem?_mapIdx

end Links

/-! ### Groups -/

/-- The free models, the bound models and the others are a rearrangement of all resources. -/
theorem groups_perm (g : ResourceGraph) :
    (g.freeModels ++ g.boundModels ++ g.others).Perm g.entries := by
  have hm := List.filter_append_perm (fun nr : Atom × Resource => nr.2.isModel) g.entries
  have hf := List.filter_append_perm (fun nr : Atom × Resource => nr.2.dependsOn.isEmpty)
    (g.entries.filter fun nr => nr.2.isModel)
  rw [List.filter_filter, List.filter_filter] at hf
  refine (List.Perm.append_right _ ?_).trans hm
  simpa only [freeModels, boundModels, Resource.isFree, Resource.isBound, Bool.and_comm] using hf

theorem mem_of_mem_freeModels {nr : Atom × Resource} (h : nr ∈ g.freeModels) : nr ∈ g.entries :=
  (List.mem_filter.mp h).1

theorem isFree_of_mem_freeModels {nr : Atom × Resource} (h : nr ∈ g.freeModels) : nr.2.isFree :=
  (List.mem_filter.mp h).2

theorem isBound_of_mem_boundModels {nr : Atom × Resource} (h : nr ∈ g.boundModels) :
    nr.2.isBound :=
  (List.mem_filter.mp h).2

theorem isModel_of_mem_others {nr : Atom × Resource} (h : nr ∈ g.others) : nr.2.isModel = false :=
  Bool.not_eq_true' _ ▸ (List.mem_filter.mp h).2

theorem Proper.freeNames_nodup (hg : g.Proper) : (g.freeModels.map (·.1)).Nodup :=
  hg.nodup.sublist (List.filter_sublist.map _)

/-- A resource that is not a free model has not the name of one. -/
theorem Proper.not_mem_freeNames (hg : g.Proper) {nr : Atom × Resource} (h : nr ∈ g.entries)
    (hf : nr.2.isFree = false) : nr.1 ∉ g.freeModels.map (·.1) := by
  intro hmem
  obtain ⟨mr, hmr, he⟩ := List.mem_map.mp hmem
  obtain ⟨s, hs⟩ := hg.text nr.1 (List.mem_map_of_mem h)
  have h1 : g.get? (.str s) = some nr.2 := hg.get?_iff.mpr (hs ▸ h)
  have h2 : g.get? (.str s) = some mr.2 :=
    hg.get?_iff.mpr (hs ▸ he ▸ mem_of_mem_freeModels hmr)
  have := isFree_of_mem_freeModels hmr
  rw [Option.some.inj (h2.symm.trans h1), hf] at this
  cases this

/-! ### The chained graph -/

section ChainFree
variable {width : Nat}

theorem chainEdges_text (hg : g.Proper) :
    ∀ e ∈ chainEdges width (g.freeModels.map (·.1)), ∃ s, e.2 = .str s := by
  intro e he
  have hc : e.2 ∈ (chainEdges width (g.freeModels.map (·.1))).map (·.2) := List.mem_map_of_mem he
  rw [chainEdges_children] at hc
  obtain ⟨nr, hnr, hn⟩ := List.mem_map.mp (List.mem_of_mem_drop hc)
  exact hn ▸ hg.text nr.1 (List.mem_map_of_mem (mem_of_mem_freeModels hnr))

theorem chain_eq_setParents (names : List Atom) :
    g.chain names width = g.setParents (chainEdges width names) := rfl

/-- A resource that is not a free model is not changed by chaining. -/
theorem Proper.get?_chain_of_not_free (hg : g.Proper) {nr : Atom × Resource}
    (h : nr ∈ g.entries) (hf : nr.2.isFree = false) :
    (g.chain (g.freeModels.map (·.1)) width).get? nr.1 = some nr.2 := by
  obtain ⟨s, hs⟩ := hg.text nr.1 (List.mem_map_of_mem h)
  rw [chain_eq_setParents, hs, get?_setParents_of_not_mem (chainEdges_text hg)]
  · exact hg.get?_iff.mpr (hs ▸ h)
  · rw [chainEdges_children]
    exact fun hm => hg.not_mem_freeNames h hf (hs ▸ List.mem_of_mem_drop hm)

/-- A free model becomes a link of the chains. -/
theorem Proper.get?_chain_of_free (hg : g.Proper) {i : Nat} {nr : Atom × Resource}
    (h : g.freeModels[i]? = some nr) :
    (g.chain (g.freeModels.map (·.1)) width).get? nr.1 =
      some (link width g.freeModels i nr).2 := by
  have hmem : nr ∈ g.entries := mem_of_mem_freeModels (List.mem_of_getElem? h)
  obtain ⟨s, hs⟩ := hg.text nr.1 (List.mem_map_of_mem hmem)
  have hget : g.get? (.str s) = some nr.2 := hg.get?_iff.mpr (hs ▸ hmem)
  have hname : (g.freeModels.map (·.1))[i]? = some (.str s) := by
    rw [List.getElem?_map, h, ← hs]; rfl
  have hnodup := hg.freeNames_nodup
  rw [chain_eq_setParents, hs]
  rcases Nat.lt_or_ge i width with hi | hi
  · -- the first `width` names are no children: the names are distinct
    rw [link_of_lt hi, get?_setParents_of_not_mem (chainEdges_text hg), hget]
    rw [chainEdges_children]
    intro hm
    obtain ⟨j, hj⟩ := List.mem_iff_getElem?.mp hm
    rw [List.getElem?_drop] at hj
    have := (List.getElem?_inj (List.getElem?_eq_some_iff.mp hname).1 hnodup).mp
      (hname.trans hj.symm)
    omega
  · -- a later name is a child exactly once, and its parent is `width` places before
    obtain ⟨k, rfl⟩ := Nat.exists_eq_add_of_le' hi
    have hk : k < g.freeModels.length := by
      have := (List.getElem?_eq_some_iff.mp h).1
      omega
    have hp : g.freeModels[k]? = some g.freeModels[k] := List.getElem?_eq_getElem hk
    rw [link_add hp]
    refine get?_setParents_of_mem (chainEdges_text hg) ?_ ?_ hget
    · rw [chainEdges_children]
      exact hnodup.sublist (List.drop_sublist _ _)
    · exact mem_chainEdges (by rw [List.getElem?_map, hp]; rfl) hname

theorem filterMap_of_map_eq {α β : Type} {f : α → Option β} {xs : List α} {ys : List β}
    (h : xs.map f = ys.map some) : xs.filterMap f = ys := by
  calc xs.filterMap f = (xs.map f).filterMap id := by rw [List.filterMap_map]; rfl
    _ = (ys.map some).filterMap id := by rw [h]
    _ = ys := by rw [List.filterMap_map]; exact List.filterMap_some

/-- The free models, the bound models and the others of the chained graph, in this order. -/
theorem Proper.regroup_entries (hg : g.Proper) (width : Nat) :
    let chained := g.chain (g.freeModels.map (·.1)) width
    (g.freeModels.map (·.1) ++ g.boundModels.map (·.1) ++ g.others.map (·.1)).filterMap
        (fun name => (chained.get? name).map fun r => (name, r)) =
      linked width g.freeModels ++ g.boundModels ++ g.others := by
  intro chained
  have hkept : ∀ xs : List (Atom × Resource), (∀ nr ∈ xs, nr ∈ g.entries ∧ nr.2.isFree = false) →
      (xs.map (·.1)).filterMap (fun name => (chained.get? name).map fun r => (name, r)) = xs := by
    intro xs hxs
    refine filterMap_of_map_eq ?_
    rw [List.map_map]
    refine List.map_congr_left fun nr hnr => ?_
    rw [Function.comp_apply, hg.get?_chain_of_not_free (hxs nr hnr).1 (hxs nr hnr).2]
    rfl
  rw [List.filterMap_append, List.filterMap_append, hkept g.boundModels, hkept g.others]
  · congr 2
    refine filterMap_of_map_eq (List.ext_getElem? fun i => ?_)
    rw [List.map_map, List.getElem?_map, List.getElem?_map, getElem?_linked]
    cases h : g.freeModels[i]? with
    | none => rfl
    | some nr =>
      simp only [Option.map_some, Function.comp_apply]
      rw [hg.get?_chain_of_free h]
      refine congrArg (some ∘ some) (Prod.ext ?_ rfl)
      show nr.1 = (link width g.freeModels i nr).1
      rw [link_fst]
  · exact fun nr hnr => ⟨(List.mem_filter.mp hnr).1,
      Resource.isFree_of_not_isModel (isModel_of_mem_others hnr)⟩
  · exact fun nr hnr => ⟨(List.mem_filter.mp hnr).1,
      Resource.isFree_of_isBound (isBound_of_mem_boundModels hnr)⟩

/-- The free models as links of the chains, then the models that had dependencies, then
everything else. -/
def chained (width : Nat) (g : ResourceGraph) : ResourceGraph :=
  ⟨linked width g.freeModels ++ g.boundModels ++ g.others⟩

/-- A resource of the chained graph is one of the graph, or a free model that depends on another
free model alone. -/
theorem mem_chained {nr : Atom × Resource} (h : nr ∈ (g.chained width).entries) :
    nr ∈ g.entries ∨ ∃ mr ∈ g.freeModels, ∃ pr ∈ g.freeModels,
      nr = (mr.1, { mr.2 with dependsOn := [.atom pr.1] }) := by
  rcases List.mem_append.mp h with h | hother
  · rcases List.mem_append.mp h with hlinked | hbound
    · obtain ⟨i, hi⟩ := List.mem_iff_getElem?.mp hlinked
      rw [getElem?_linked, Option.map_eq_some_iff] at hi
      obtain ⟨mr, hmr, rfl⟩ := hi
      have hm := List.mem_of_getElem? hmr
      unfold link
      split
      · split
        · exact .inr ⟨mr, hm, _, List.mem_of_getElem? ‹_›, rfl⟩
        · exact .inl (mem_of_mem_freeModels hm)
      · exact .inl (mem_of_mem_freeModels hm)
    · exact .inl (List.mem_filter.mp hbound).1
  · exact .inl (List.mem_filter.mp hother).1

/-- Chaining keeps the names, as a whole. -/
theorem names_chained_perm (width : Nat) (g : ResourceGraph) :
    (g.chained width).names.Perm g.names := by
  show (Pairs.keys (linked width g.freeModels ++ g.boundModels ++ g.others)).Perm g.names
  rw [Pairs.keys_append, Pairs.keys_append, keys_linked, ← Pairs.keys_append,
    ← Pairs.keys_append]
  exact (groups_perm g).map _

theorem Proper.chained (hg : g.Proper) (width : Nat) : (g.chained width).Proper :=
  ⟨fun k hk => hg.text k ((names_chained_perm width g).subset hk),
    (names_chained_perm width g).nodup_iff.mpr hg.nodup⟩

/-- **What chaining gives**: the chained graph, and the number of links that have a parent. -/
theorem Proper.chainFree_eq (hg : g.Proper) (width : Nat) :
    chainFree width g = .ok (g.freeModels.length - width) (g.chained width) := by
  have hchain : (g.chain (g.freeModels.map (·.1)) width).names = g.names :=
    names_setParents g _
  unfold chainFree
  rw [Edit.bind_of_ok (Edit.monadStateGet_apply g), Edit.bind_of_ok (Edit.set_apply _ _)]
  rw [show regrouped (g.freeModels.map (·.1)) g (g.chain (g.freeModels.map (·.1)) width) =
      .ok (g.chained width) from ?_]
  · rw [Edit.ofResult_ok, length_chainEdges, List.length_map]
    rfl
  · unfold regrouped
    simp only [hg.regroup_entries]
    exact (hg.of_names hchain).reorder_of_perm (hchain ▸ names_chained_perm width g)

theorem chainWidth_int {n : Int} (h : 1 ≤ n) : chainWidth (.int n) = .ok n.toNat :=
  if_neg (Int.not_lt.mpr h)

/-- Chaining with a width of at least one is not refused. -/
theorem Proper.chainModels_eq (hg : g.Proper) {n : Int} (h : 1 ≤ n) :
    chainModels (.int n) g =
      .ok (g.freeModels.length - n.toNat) (g.chained n.toNat) := by
  unfold chainModels
  rw [chainWidth_int h, Edit.ofResult_ok, pure_bind, hg.chainFree_eq]

/-- What is in the chained graph: links, and the resources that were not free. -/
theorem Proper.get?_chained (hg : g.Proper) {i : Nat} (h : g.freeModels[i]? = some (.str s, r)) :
    (g.chained width).get? (.str s) = some (link width g.freeModels i (.str s, r)).2 := by
  refine (hg.chained width).get?_iff.mpr ?_
  refine List.mem_append_left _ (List.mem_append_left _ (List.mem_of_getElem? (i := i) ?_))
  rw [getElem?_linked, h]
  exact congrArg some (Prod.ext link_fst rfl)

theorem Proper.get?_chained_of_not_free (hg : g.Proper) (h : g.get? (.str s) = some r)
    (hr : r.isFree = false) : (g.chained width).get? (.str s) = some r := by
  refine (hg.chained width).get?_iff.mpr ?_
  have hm := (groups_perm g).symm.subset (mem_of_get? h)
  rcases List.mem_append.mp hm with hm | hm
  · rcases List.mem_append.mp hm with hm | hm
    · rw [isFree_of_mem_freeModels hm] at hr
      cases hr
    · exact List.mem_append_left _ (List.mem_append_right _ hm)
  · exact List.mem_append_right _ hm

end ChainFree

/-! ### A grouped graph -/

/-- The free models of a graph, then the bound ones, then the others. -/
def grouped (g : ResourceGraph) : ResourceGraph := ⟨g.freeModels ++ g.boundModels ++ g.others⟩

theorem filter_eq_nil {p : Resource → Bool} {xs : List (Atom × Resource)}
    (h : ∀ nr ∈ xs, p nr.2 = false) : xs.filter (fun nr => p nr.2) = [] := by
  rw [List.filter_eq_nil_iff]
  exact fun nr hnr => by rw [h nr hnr]; exact Bool.false_ne_true

/-- Free models, bound models and others, one after the other, are the groups of the graph that they
make up. -/
theorem groups_append {free bound others : List (Atom × Resource)}
    (hf : ∀ nr ∈ free, nr.2.isFree = true) (hb : ∀ nr ∈ bound, nr.2.isBound = true)
    (ho : ∀ nr ∈ others, nr.2.isModel = false) :
    (mk (free ++ bound ++ others)).freeModels = free ∧
      (mk (free ++ bound ++ others)).boundModels = bound ∧
      (mk (free ++ bound ++ others)).others = others := by
  -- each filter keeps the whole of its own group and nothing of the two others
  refine ⟨?_, ?_, ?_⟩
  · show (free ++ bound ++ others).filter _ = _
    rw [List.filter_append, List.filter_append, List.filter_eq_self.mpr hf,
      filter_eq_nil fun nr h => Resource.isFree_of_isBound (hb nr h),
      filter_eq_nil fun nr h => Resource.isFree_of_not_isModel (ho nr h),
      List.append_nil, List.append_nil]
  · show (free ++ bound ++ others).filter _ = _
    rw [List.filter_append, List.filter_append,
      filter_eq_nil fun nr h => Resource.isBound_of_isFree (hf nr h),
      List.filter_eq_self.mpr hb,
      filter_eq_nil fun nr h => Resource.isBound_of_not_isModel (ho nr h),
      List.nil_append, List.append_nil]
  · have hfree : ∀ nr ∈ free, (!nr.2.isModel) = false := fun nr h => by
      rw [Resource.isModel_of_isFree (hf nr h), Bool.not_true]
    have hbound : ∀ nr ∈ bound, (!nr.2.isModel) = false := fun nr h => by
      rw [Resource.isModel_of_isBound (hb nr h), Bool.not_true]
    have hself : others.filter (fun nr => !nr.2.isModel) = others :=
      List.filter_eq_self.mpr fun nr h => by rw [ho nr h, Bool.not_false]
    show (free ++ bound ++ others).filter _ = _
    rw [List.filter_append, List.filter_append, hself,
      filter_eq_nil (p := fun r => !r.isModel) hfree,
      filter_eq_nil (p := fun r => !r.isModel) hbound, List.nil_append, List.nil_append]

theorem names_grouped (width : Nat) (g : ResourceGraph) :
    g.grouped.names = (g.chained width).names := by
  show Pairs.keys (_ ++ _ ++ _) = Pairs.keys (_ ++ _ ++ _)
  rw [Pairs.keys_append, Pairs.keys_append, Pairs.keys_append, Pairs.keys_append, keys_linked]

theorem Proper.grouped (hg : g.Proper) : g.grouped.Proper :=
  (hg.chained 0).of_names (names_grouped 0 g)

end ResourceGraph
end GatewayDocs

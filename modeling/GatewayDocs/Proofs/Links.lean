import GatewayDocs.Proofs.Acyclic

/-! # Chaining only adds links

Chaining writes the dependencies of resources that had none, and gives each of them one: the parent
of a link.  So every dependency stays, and so does every resource that is no later link
(`Proper.dependsOn_chained`, `Proper.get?_chained_of_not_link`).

A cycle of dependencies cannot pass through a link, from which the parents lead to ever earlier
places and never out of the free models (`Proper.dependsOn_of_returns`).  Hence the cycles of a
chained graph, each with the resources that it runs through, are cycles of the graph before
(`Proper.cycle_of_chained`).

Of a chained graph, at most `width` models are still free, and the links that have a parent are the
first of the bound models (`groups_chained`).  So there is nothing left to chain with that width or
a larger one, and nothing to move (`chained_chained`). -/

namespace GatewayDocs
namespace ResourceGraph
variable {g : ResourceGraph} {width i : Nat} {s t u : String} {r : Resource} {ns : List String}

/-- A cycle of dependencies: from a resource through others, in order, and back to it. -/
def Cycle (g : ResourceGraph) (s : String) (ns : List String) : Prop :=
  List.IsChain g.DependsOn (s :: (ns ++ [s]))

/-! ### What stays -/

/-- A link of a chain that has a parent. -/
def IsLink (g : ResourceGraph) (width : Nat) (nr : Atom × Resource) : Prop :=
  ∃ i, g.freeModels[i + width]? = some nr

/-- Every resource but the links is in the chained graph as it was. -/
theorem Proper.get?_chained_of_not_link (hg : g.Proper) (hr : g.get? (.str s) = some r)
    (h : ¬ g.IsLink width (.str s, r)) : (g.chained width).get? (.str s) = some r := by
  cases hf : r.isFree with
  | false => exact hg.get?_chained_of_not_free hr hf
  | true =>
    have hmem : (.str s, r) ∈ g.freeModels := List.mem_filter.mpr ⟨mem_of_get? hr, hf⟩
    obtain ⟨i, hi⟩ := List.mem_iff_getElem?.mp hmem
    have hlt : i < width := by
      refine Nat.lt_of_not_le fun hle => h ?_
      obtain ⟨k, rfl⟩ := Nat.exists_eq_add_of_le' hle
      exact ⟨k, hi⟩
    rw [hg.get?_chained hi, link_of_lt hlt]

/-- A link is in the chained graph as it was, but for its dependencies: it depends on the model
that is `width` places before it. -/
theorem Proper.get?_chained_link (hg : g.Proper) {pr : Atom × Resource}
    (hp : g.freeModels[i]? = some pr) (hr : g.freeModels[i + width]? = some (.str s, r)) :
    (g.chained width).get? (.str s) = some { r with dependsOn := [.atom pr.1] } := by
  rw [hg.get?_chained hr, link_add hp]

/-- Chaining keeps every dependency: a resource that depends on another is not free. -/
theorem Proper.dependsOn_chained (hg : g.Proper) (h : g.DependsOn s t) :
    (g.chained width).DependsOn s t := by
  obtain ⟨r, hr, ht⟩ := h
  have hf : r.isFree = false := by
    refine Bool.eq_false_iff.mpr fun hf => ?_
    have hnone := List.isEmpty_iff.mp (Bool.and_eq_true_iff.mp hf).2
    rw [hnone] at ht
    cases ht
  exact ⟨r, hg.get?_chained_of_not_free hr hf, ht⟩

/-! ### Cycles -/

/-- A dependency of the chained graph is one from a link to its parent, or was there before and
is not one of a free model. -/
theorem Proper.dependsOn_chained_cases (hg : g.Proper) (h : (g.chained width).DependsOn s t) :
    (g.ParentOf width s t ∧ g.isFree t = true) ∨ (g.isFree s = false ∧ g.DependsOn s t) := by
  obtain ⟨r, hr, ht⟩ := h
  rcases hg.get?_chained_cases hr with ⟨hf, hold⟩ | hnone | ⟨i, p, hp, hs, hparent⟩
  · exact .inr ⟨hf, r, hold, ht⟩
  · rw [hnone] at ht
    cases ht
  · rw [hparent, List.mem_singleton] at ht
    cases ht
    exact .inl ⟨⟨i, hp, hs⟩, hg.isFree_of_freeAt hp⟩

/-- From a free model, the dependencies of the chained graph lead from parent to parent. -/
theorem Proper.parents_of_isFree (hg : g.Proper) (hs : g.isFree s = true)
    (h : Relation.TransGen (g.chained width).DependsOn s t) :
    Relation.TransGen (g.ParentOf width) s t ∧ g.isFree t = true := by
  have hstep : ∀ {a b}, g.isFree a = true → (g.chained width).DependsOn a b →
      g.ParentOf width a b ∧ g.isFree b = true := by
    intro a b ha hab
    rcases hg.dependsOn_chained_cases hab with hparent | ⟨hf, -⟩
    · exact hparent
    · rw [ha] at hf
      cases hf
  induction h with
  | single h => exact ⟨.single (hstep hs h).1, (hstep hs h).2⟩
  | tail _ h ih => exact ⟨.tail ih.1 (hstep ih.2 h).1, (hstep ih.2 h).2⟩

/-- A dependency from which there is a way back was there before. -/
theorem Proper.dependsOn_of_returns (hg : g.Proper) (hw : 1 ≤ width)
    (h : (g.chained width).DependsOn s t)
    (hback : Relation.ReflTransGen (g.chained width).DependsOn t s) : g.DependsOn s t := by
  cases hf : g.isFree s with
  | true =>
    have hcycle : Relation.TransGen (g.chained width).DependsOn s s := .head' h hback
    exact absurd (hg.parents_of_isFree hf hcycle).1 (hg.acyclic_parents hw s)
  | false =>
    rcases hg.dependsOn_chained_cases h with ⟨⟨i, -, hs⟩, -⟩ | ⟨-, hold⟩
    · rw [hg.isFree_of_freeAt hs] at hf
      cases hf
    · exact hold

/-- A path of dependencies leads from its first resource to its last. -/
theorem reaches_of_isChain (h : List.IsChain g.DependsOn (t :: (ns ++ [s]))) :
    Relation.ReflTransGen g.DependsOn t s := by
  induction ns generalizing t with
  | nil => exact .single (List.isChain_cons_cons.mp h).1
  | cons u ns ih =>
    obtain ⟨hedge, hrest⟩ := List.isChain_cons_cons.mp h
    exact .head hedge (ih hrest)

/-- Chaining makes no cycle: each cycle of the chained graph was there before. -/
theorem Proper.cycle_of_chained (hg : g.Proper) (hw : 1 ≤ width)
    (h : (g.chained width).Cycle s ns) : g.Cycle s ns := by
  -- along the path, `t` is the resource that is reached, from which the rest leads back to `s`
  have hpath : ∀ (ns : List String) (t : String),
      Relation.ReflTransGen (g.chained width).DependsOn s t →
      List.IsChain (g.chained width).DependsOn (t :: (ns ++ [s])) →
      List.IsChain g.DependsOn (t :: (ns ++ [s])) := by
    intro ns
    induction ns with
    | nil =>
      intro t hst hchain
      have hlast := (List.isChain_cons_cons.mp hchain).1
      exact List.isChain_cons_cons.mpr ⟨hg.dependsOn_of_returns hw hlast hst, .singleton s⟩
    | cons u ns ih =>
      intro t hst hchain
      obtain ⟨hedge, hrest⟩ := List.isChain_cons_cons.mp hchain
      exact List.isChain_cons_cons.mpr
        ⟨hg.dependsOn_of_returns hw hedge ((reaches_of_isChain hrest).trans hst),
          ih u (hst.tail hedge) hrest⟩
  exact hpath ns s .refl h

/-! ### The result of chaining -/

/-- **Chaining only adds links.**  It succeeds, and tells the number of links.  The free models
come first, then the models that had dependencies, then the others, each in their old order, and
no name is lost or doubled.  A link depends on the model `width` places before it and on nothing
else, and is otherwise what it was; every other resource is what it was.  So no dependency
disappears, and every cycle was there before. -/
theorem chaining_only_adds_links (hg : g.Proper) (hw : 1 ≤ width) :
    ∃ h, chainModels (.int width) g = .ok (g.freeModels.length - width) h ∧
      h.names = (g.freeModels ++ g.boundModels ++ g.others).map (·.1) ∧
      h.names.Perm g.names ∧
      (∀ i p s r, g.freeModels[i]? = some p → g.freeModels[i + width]? = some (.str s, r) →
        h.get? (.str s) = some { r with dependsOn := [.atom p.1] }) ∧
      (∀ s r, g.get? (.str s) = some r → ¬ g.IsLink width (.str s, r) →
        h.get? (.str s) = some r) ∧
      (∀ s t, g.DependsOn s t → h.DependsOn s t) ∧
      ∀ s ns, h.Cycle s ns → g.Cycle s ns :=
  ⟨g.chained width, hg.chainModels_eq (Int.ofNat_le.mpr hw), (names_grouped width g).symm,
    names_chained_perm width g, fun _ _ _ _ hp hr => hg.get?_chained_link hp hr,
    fun _ _ hr h => hg.get?_chained_of_not_link hr h, fun _ _ h => hg.dependsOn_chained h,
    fun _ _ h => hg.cycle_of_chained hw h⟩

/-- Two models that depend on each other, two that depend on nothing, and a method. -/
def mixedGraph : ResourceGraph :=
  ⟨[(.str "get", ⟨.str "AWS::ApiGateway::Method", .object [], [.str "m0"], []⟩),
    (.str "m0", .ofProperties modelKind []),
    (.str "a", ⟨.str modelKind, .object [], [.str "b"], []⟩),
    (.str "m1", .ofProperties modelKind []),
    (.str "b", ⟨.str modelKind, .object [], [.str "a"], []⟩)]⟩

theorem mixedGraph_proper : mixedGraph.Proper :=
  ⟨by simp [mixedGraph, Pairs.keys], by simp [mixedGraph, Pairs.keys]⟩

/-- In one chain, the second of the two free models gets a parent, and the two models in a cycle
stay one. -/
theorem chaining_only_adds_links_mixedGraph :
    mixedGraph.Proper ∧ 1 ≤ 1 ∧
      ∃ h, chainModels (.int 1) mixedGraph = .ok 1 h ∧
        h.names = ["m0", "m1", "a", "b", "get"].map .str ∧
        (h.get? (.str "m1")).map (·.dependsOn) = some [.str "m0"] ∧
        (h.get? (.str "get")).map (·.dependsOn) = some [.str "m0"] ∧
        h.Cycle "a" ["b"] ∧ mixedGraph.Cycle "a" ["b"] := by
  refine ⟨mixedGraph_proper, Nat.le_refl 1, ?_⟩
  obtain ⟨h, hrun, hnames, -, hlinks, hkept, hdeps, hcycles⟩ :=
    chaining_only_adds_links mixedGraph_proper (Nat.le_refl 1)
  have hab : mixedGraph.DependsOn "a" "b" := ⟨_, rfl, by simp⟩
  have hba : mixedGraph.DependsOn "b" "a" := ⟨_, rfl, by simp⟩
  have hcycle : h.Cycle "a" ["b"] := List.isChain_cons_cons.mpr
    ⟨hdeps _ _ hab, List.isChain_cons_cons.mpr ⟨hdeps _ _ hba, .singleton "a"⟩⟩
  refine ⟨h, hrun, hnames, ?_, ?_, hcycle, hcycles _ _ hcycle⟩
  · rw [hlinks 0 _ "m1" _ rfl rfl]
    rfl
  · rw [hkept "get" _ rfl]
    · rfl
    · -- the only link of one chain is the second model
      rintro ⟨i, hi⟩
      have hlt := (List.getElem?_eq_some_iff.mp hi).1
      obtain rfl : i = 0 := Nat.lt_one_iff.mp (Nat.lt_of_add_lt_add_right hlt)
      have hname := congrArg Prod.fst (Option.some.inj hi)
      exact absurd (Atom.str.inj hname) (by decide)

/-! ### Chaining again -/

theorem linked_eq_append (width : Nat) (free : List (Atom × Resource)) :
    linked width free = free.take width ++ (linked width free).drop width := by
  have htake : (linked width free).take width = free.take width := by
    refine List.ext_getElem? fun i => ?_
    by_cases hi : i < width
    · rw [List.getElem?_take_of_lt hi, List.getElem?_take_of_lt hi, getElem?_linked]
      cases free[i]? with
      | none => rfl
      | some nr => rw [Option.map_some, link_of_lt hi]
    · rw [List.getElem?_take_eq_none (Nat.le_of_not_lt hi),
        List.getElem?_take_eq_none (Nat.le_of_not_lt hi)]
  rw [← htake, List.take_append_drop]

/-- Models that are not more than the chains stay what they are. -/
theorem linked_of_length_le {free : List (Atom × Resource)} (h : free.length ≤ width) :
    linked width free = free := by
  have hnone : (linked width free).drop width = [] := by
    refine List.drop_eq_nil_of_le ?_
    unfold linked
    rwa [List.length_mapIdx]
  rw [linked_eq_append, hnone, List.append_nil, List.take_of_length_le h]

/-- A link that has a parent is a bound model. -/
theorem isBound_of_mem_drop_linked {nr : Atom × Resource}
    (h : nr ∈ (linked width g.freeModels).drop width) : nr.2.isBound = true := by
  obtain ⟨i, hi⟩ := List.mem_iff_getElem?.mp h
  rw [List.getElem?_drop, Nat.add_comm, getElem?_linked, Option.map_eq_some_iff] at hi
  obtain ⟨mr, hmr, rfl⟩ := hi
  have hlt : i < g.freeModels.length :=
    Nat.lt_of_le_of_lt (Nat.le_add_right i width) (List.getElem?_eq_some_iff.mp hmr).1
  rw [link_add (List.getElem?_eq_getElem hlt)]
  have hmodel : mr.2.isModel = true :=
    Resource.isModel_of_isFree (isFree_of_mem_freeModels (List.mem_of_getElem? hmr))
  unfold Resource.isBound
  exact Bool.and_eq_true_iff.mpr ⟨hmodel, rfl⟩

/-- The groups of a chained graph: the links that have no parent are free, the others come before
the models that were bound already. -/
theorem groups_chained (width : Nat) (g : ResourceGraph) :
    (g.chained width).freeModels = g.freeModels.take width ∧
      (g.chained width).boundModels = (linked width g.freeModels).drop width ++ g.boundModels ∧
      (g.chained width).others = g.others := by
  have hbound : ∀ nr ∈ (linked width g.freeModels).drop width ++ g.boundModels,
      nr.2.isBound = true := by
    intro nr h
    rcases List.mem_append.mp h with h | h
    · exact isBound_of_mem_drop_linked h
    · exact isBound_of_mem_boundModels h
  have hentries : g.chained width = ⟨g.freeModels.take width ++
      ((linked width g.freeModels).drop width ++ g.boundModels) ++ g.others⟩ := by
    rw [← List.append_assoc, ← linked_eq_append]
    rfl
  rw [hentries]
  exact groups_append (fun nr h => isFree_of_mem_freeModels (List.mem_of_mem_take h)) hbound
    fun _ => isModel_of_mem_others

/-- A chained graph is chained already for every larger width. -/
theorem chained_chained {larger : Nat} (h : width ≤ larger) :
    (g.chained width).chained larger = g.chained width := by
  obtain ⟨hf, hb, ho⟩ := groups_chained width g
  have hfew : (g.freeModels.take width).length ≤ larger :=
    Nat.le_trans (List.length_take_le _ _) h
  rw [chained, hf, hb, ho, linked_of_length_le hfew, ← List.append_assoc, ← linked_eq_append]
  rfl

/-- **Chaining twice is harmless.**  A graph that was chained is chained again with the same width
or a larger one: there is no new link, and the graph is what it was, with its order and all
dependencies. -/
theorem chaining_again (hg : g.Proper) {n m : Int} (hn : 1 ≤ n) (hnm : n ≤ m) :
    ∃ h, chainModels (.int n) g = .ok (g.freeModels.length - n.toNat) h ∧
      chainModels (.int m) h = .ok 0 h := by
  refine ⟨g.chained n.toNat, hg.chainModels_eq hn, ?_⟩
  have hwidth : n.toNat ≤ m.toNat := Int.toNat_le_toNat hnm
  have hnone : (g.freeModels.take n.toNat).length - m.toNat = 0 := by
    rw [List.length_take]
    omega
  rw [(hg.chained n.toNat).chainModels_eq (Int.le_trans hn hnm), chained_chained hwidth,
    (groups_chained n.toNat g).1, hnone]

/-- The second of the two free models is bound after the first run, and there are fewer than three
left. -/
theorem chaining_again_mixedGraph :
    mixedGraph.Proper ∧ (1 : Int) ≤ 1 ∧ (1 : Int) ≤ 3 ∧
      ∃ h, chainModels (.int 1) mixedGraph = .ok 1 h ∧ chainModels (.int 3) h = .ok 0 h :=
  ⟨mixedGraph_proper, by decide, by decide,
    chaining_again mixedGraph_proper (by decide) (by decide)⟩

end ResourceGraph
end GatewayDocs

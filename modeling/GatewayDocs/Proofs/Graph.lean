import GatewayDocs.Proofs.Pairs
import GatewayDocs.Template.Chaining
import Mathlib.Data.List.Perm.Basic
import Mathlib.Logic.Relation

/-! # Laws of the resources of a template

The names of the resources of a template are distinct texts (`ResourceGraph.Proper`).  Such a
graph is determined by its names and by the resource of each name (`Proper.ext`), and may be
given any order of its own entries (`reorder_of_perm`).

A resource depends on another one if it lists that one's name (`ResourceGraph.DependsOn`).  A
graph is `Closed` if every dependency is the name of a resource, and `Acyclic` if no resource
depends on itself, directly or through others. -/

namespace GatewayDocs
namespace ResourceGraph

variable {g h : ResourceGraph} {s t : String} {r r' : Resource}

/-- The names of the resources are distinct texts. -/
def Proper (g : ResourceGraph) : Prop := Pairs.Keyed g.entries

/-- One resource lists the name of another one among its dependencies. -/
def DependsOn (g : ResourceGraph) (s t : String) : Prop :=
  ∃ r, g.get? (.str s) = some r ∧ Value.str t ∈ r.dependsOn

/-- Every dependency of a resource is the name of a resource. -/
def Closed (g : ResourceGraph) : Prop :=
  ∀ nr ∈ g.entries, ∀ d ∈ nr.2.dependsOn, ∃ s, d = .str s ∧ g.contains (.str s)

@[simp] theorem get?_add_self : (g.add (.str s) r).get? (.str s) = some r :=
  Pairs.lookup_put_self

theorem get?_add_of_ne (h : s ≠ t) : (g.add (.str s) r).get? (.str t) = g.get? (.str t) :=
  Pairs.lookup_put_of_ne h

theorem contains_iff : g.contains (.str s) ↔ .str s ∈ g.names := Pairs.lookup_isSome_iff

theorem mem_names_of_get? (h : g.get? (.str s) = some r) : .str s ∈ g.names :=
  Pairs.mem_keys_of_lookup h

theorem exists_get? (h : .str s ∈ g.names) : ∃ r, g.get? (.str s) = some r :=
  Option.isSome_iff_exists.mp (Pairs.lookup_isSome_iff.mpr h)

theorem names_add (h : .str s ∈ g.names) : (g.add (.str s) r).names = g.names :=
  Pairs.keys_put_of_mem h

theorem mem_of_get? (h : g.get? (.str s) = some r) : (.str s, r) ∈ g.entries :=
  Pairs.mem_of_lookup h

namespace Proper

theorem add (hg : g.Proper) : (g.add (.str s) r).Proper := Pairs.Keyed.put hg

theorem get?_iff (hg : g.Proper) : g.get? (.str s) = some r ↔ (.str s, r) ∈ g.entries :=
  Pairs.Keyed.lookup_iff hg

/-- Two graphs with the same names in the same order are equal if they have the same resource
for each name. -/
theorem ext (hg : g.Proper) (hn : g.names = h.names)
    (hr : ∀ s, .str s ∈ g.names → g.get? (.str s) = h.get? (.str s)) : g = h := by
  obtain ⟨xs⟩ := g
  obtain ⟨ys⟩ := h
  exact congrArg mk (Pairs.Keyed.ext hg hn hr)

theorem of_names (hg : g.Proper) (hn : h.names = g.names) : h.Proper := by
  have hn' : Pairs.keys h.entries = Pairs.keys g.entries := hn
  exact ⟨by rw [hn']; exact hg.text, by rw [hn']; exact hg.nodup⟩

end Proper

/-! ### Many resources -/

section AddAll
variable {rs : List (Atom × Resource)}

theorem get?_addAll_of_not_mem (h : .str s ∉ Pairs.keys rs) :
    (g.addAll rs).get? (.str s) = g.get? (.str s) := Pairs.lookup_putAll_of_not_mem h

/-- What is added under a name is found there, whatever was there before. -/
theorem exists_get?_addAll (ht : ∀ nr ∈ rs, ∃ s, nr.1 = .str s) (h : .str s ∈ Pairs.keys rs) :
    ∃ r, (.str s, r) ∈ rs ∧ ∀ g : ResourceGraph, (g.addAll rs).get? (.str s) = some r := by
  induction rs with
  | nil => cases h
  | cons nr rs ih =>
    obtain ⟨n, r⟩ := nr
    obtain ⟨t, rfl⟩ : ∃ t, n = .str t := ht (n, r) List.mem_cons_self
    have ht' : ∀ nr ∈ rs, ∃ s, nr.1 = .str s := fun nr hnr => ht nr (List.mem_cons_of_mem _ hnr)
    by_cases hs : .str s ∈ Pairs.keys rs
    · obtain ⟨r', hr', hall⟩ := ih ht' hs
      exact ⟨r', List.mem_cons_of_mem _ hr', fun g => hall (g.add (.str t) r)⟩
    · rw [Pairs.keys_cons, List.mem_cons] at h
      obtain rfl := Atom.str.inj (h.resolve_right hs)
      exact ⟨r, List.mem_cons_self, fun g =>
        (get?_addAll_of_not_mem (g := g.add (.str s) r) hs).trans get?_add_self⟩

theorem mem_names_addAll (ht : ∀ nr ∈ rs, ∃ s, nr.1 = .str s) :
    .str s ∈ (g.addAll rs).names ↔ .str s ∈ g.names ∨ .str s ∈ Pairs.keys rs := by
  rw [← contains_iff, ← contains_iff, contains, contains]
  by_cases hs : .str s ∈ Pairs.keys rs
  · obtain ⟨r, -, hall⟩ := exists_get?_addAll ht hs
    rw [hall g]
    exact ⟨fun _ => .inr hs, fun _ => rfl⟩
  · rw [get?_addAll_of_not_mem hs]
    exact ⟨.inl, fun h => h.resolve_right hs⟩

theorem Proper.addAll (ht : ∀ nr ∈ rs, ∃ s, nr.1 = .str s) (hg : g.Proper) :
    (g.addAll rs).Proper := by
  induction rs generalizing g with
  | nil => exact hg
  | cons nr rs ih =>
    obtain ⟨n, r⟩ := nr
    obtain ⟨s, rfl⟩ : ∃ s, n = .str s := ht (n, r) List.mem_cons_self
    exact ih (fun nr hnr => ht nr (List.mem_cons_of_mem _ hnr)) (g := g.add (.str s) r) hg.add

end AddAll

/-! ### A new order -/

theorem kind_of_text {k : Atom} (h : ∃ s, k = .str s) : k.kind = .text := by
  obtain ⟨s, rfl⟩ := h; rfl

/-- Texts can be put in order. -/
theorem sortable_of_texts {ks : List Atom} (h : ∀ k ∈ ks, ∃ s, k = .str s) :
    Atom.sortable ks = true := by
  match ks with
  | [] => rfl
  | [_] => rfl
  | k :: l :: rest =>
    have hk : k.kind = .text := kind_of_text (h k (by simp))
    have hrest : ∀ m ∈ l :: rest, m.kind = .text := fun m hm =>
      kind_of_text (h m (List.mem_cons_of_mem _ hm))
    simp only [Atom.sortable, hk, Bool.and_eq_true, List.all_eq_true, decide_eq_true_eq]
    exact ⟨by decide, hrest⟩

theorem exists_map_of_texts {ks : List Atom} (h : ∀ k ∈ ks, ∃ s, k = .str s) :
    ∃ ns : List String, ks = ns.map .str := by
  induction ks with
  | nil => exact ⟨[], rfl⟩
  | cons k ks ih =>
    obtain ⟨s, rfl⟩ := h k (by simp)
    obtain ⟨ns, rfl⟩ := ih fun k hk => h k (List.mem_cons_of_mem _ hk)
    exact ⟨s :: ns, rfl⟩

theorem text_beq (s t : String) : (Atom.str s == Atom.str t) = (s == t) := rfl

theorem contains_texts (ns : List String) (s : String) :
    (ns.map Atom.str).contains (.str s) = ns.contains s := by
  induction ns with
  | nil => rfl
  | cons n ns ih => rw [List.map_cons, List.contains_cons, List.contains_cons, text_beq, ih]

theorem erase_texts (ns : List String) (s : String) :
    (ns.map Atom.str).erase (.str s) = (ns.erase s).map .str := by
  induction ns with
  | nil => rfl
  | cons n ns ih =>
    rw [List.map_cons, List.erase_cons, List.erase_cons, text_beq, ih]
    split <;> rfl

theorem isPerm_texts (ns ms : List String) :
    (ns.map Atom.str).isPerm (ms.map Atom.str) = ns.isPerm ms := by
  induction ns generalizing ms with
  | nil => cases ms <;> rfl
  | cons n ns ih => rw [List.map_cons, List.isPerm, List.isPerm, contains_texts, erase_texts, ih]

theorem sameInOrder_texts (ns ms : List String) :
    Atom.sameInOrder (ns.map .str) (ms.map .str) = ns.isPerm ms := by
  have hnumbers : ∀ xs : List String, (xs.map Atom.str).any Atom.isNaN = false := fun xs => by
    rw [List.any_map, List.any_eq_false]
    exact fun _ _ => Bool.false_ne_true
  unfold Atom.sameInOrder
  rw [hnumbers, hnumbers, Bool.or_false, if_neg Bool.false_ne_true, isPerm_texts]

/-- Keys of which no two are the same, and none is a floating-point value that is not a number. -/
structure Distinct (ks : List Atom) : Prop where
  number : ∀ k ∈ ks, k.isNaN = false
  apart : ks.Pairwise fun k l => k.same l = false

theorem distinct_of_texts {ks : List Atom} (ht : ∀ k ∈ ks, ∃ s, k = .str s) (hn : ks.Nodup) :
    Distinct ks := by
  refine ⟨fun k hk => ?_, hn.imp_of_mem fun {a b} _ hb hne => ?_⟩
  · obtain ⟨s, rfl⟩ := ht k hk
    rfl
  · obtain ⟨s, rfl⟩ := ht b hb
    exact Atom.same_text_eq_false hne

section Distinct
variable {k : Atom} {ks ls : List Atom}

theorem Distinct.sublist (h : Distinct ls) (hs : ks.Sublist ls) : Distinct ks :=
  ⟨fun k hk => h.number k (hs.subset hk), h.apart.sublist hs⟩

/-- A key is taken out of distinct keys, and not another one that is the same. -/
theorem Distinct.perm_erase (h : Distinct ls) (hk : k ∈ ls) : ls.Perm (k :: ls.erase k) := by
  induction ls with
  | nil => cases hk
  | cons l ls ih =>
    obtain ⟨happart, -⟩ := List.pairwise_cons.mp h.apart
    rw [List.erase_cons]
    cases hs : l == k with
    | true =>
      -- the first key that is the same is the key itself
      rcases List.mem_cons.mp hk with rfl | hin
      · rw [if_pos rfl]
      · have hdiffer : (l == k) = false := happart k hin
        rw [hdiffer] at hs
        cases hs
    | false =>
      have hin : k ∈ ls := by
        refine (List.mem_cons.mp hk).resolve_left ?_
        rintro rfl
        have hself : (k == k) = true := k.same_self
        rw [hself] at hs
        cases hs
      rw [if_neg Bool.false_ne_true]
      exact ((ih (h.sublist (List.sublist_cons_self l ls)) hin).cons l).trans (.swap _ _ _)

/-- Distinct keys are found to be the same as others in another order. -/
theorem Distinct.isPerm (h : Distinct ls) (hp : ks.Perm ls) : ks.isPerm ls = true := by
  induction ks generalizing ls with
  | nil =>
    rw [hp.symm.eq_nil]
    rfl
  | cons k ks ih =>
    have hk : k ∈ ls := hp.subset List.mem_cons_self
    have hin : ls.contains k = true :=
      List.contains_iff_exists_mem_beq.mpr ⟨k, hk, k.same_self⟩
    have hrest : ks.Perm (ls.erase k) := (hp.trans (h.perm_erase hk)).cons_inv
    rw [List.isPerm, hin, Bool.true_and]
    exact ih (h.sublist List.erase_sublist) hrest

theorem Distinct.sameInOrder (h : Distinct ls) (hp : ks.Perm ls) :
    Atom.sameInOrder ks ls = true := by
  have hnumbers : ∀ {xs : List Atom}, (∀ k ∈ xs, k.isNaN = false) → xs.any Atom.isNaN = false :=
    fun hxs => List.any_eq_false.mpr fun k hk => by
      rw [hxs k hk]
      exact Bool.false_ne_true
  unfold Atom.sameInOrder
  rw [hnumbers h.number, hnumbers fun k hk => h.number k (hp.subset hk), Bool.or_false,
    if_neg Bool.false_ne_true]
  exact h.isPerm hp

end Distinct

/-- A rearrangement of the names of a graph is a new order for it. -/
theorem Proper.reorder_of_perm (hg : g.Proper) {xs : List (Atom × Resource)}
    (hx : (Pairs.keys xs).Perm g.names) : g.reorder xs = .ok ⟨xs⟩ := by
  have htext : ∀ k ∈ Pairs.keys xs, ∃ s, k = .str s := fun k hk => hg.text k (hx.subset hk)
  have hnodup : (Pairs.keys xs).Nodup := hx.nodup_iff.mpr hg.nodup
  have hsort : (Atom.sortable (xs.map (·.1)) && Atom.sortable g.names) = true := by
    rw [show g.names = Pairs.keys g.entries from rfl, sortable_of_texts hg.text,
      show xs.map (·.1) = Pairs.keys xs from rfl, sortable_of_texts htext]
    rfl
  have hperm : Atom.sameInOrder (xs.map (·.1)) g.names = true :=
    (distinct_of_texts hg.text hg.nodup).sameInOrder hx
  simp only [reorder, hsort, hperm, Bool.not_true, Bool.false_eq_true, if_false, if_true]
  refine congrArg Except.ok (congrArg ResourceGraph.mk ?_)
  rw [show empty.entries = [] from rfl, Pairs.putAll_of_fresh ?_ (by simp), List.nil_append]
  refine hnodup.imp_of_mem ?_
  rintro a b ha hb hne
  obtain ⟨s, rfl⟩ := htext b hb
  exact Atom.same_text_eq_false hne

end ResourceGraph
end GatewayDocs

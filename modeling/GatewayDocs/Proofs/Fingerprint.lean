import GatewayDocs.Parts
import GatewayDocs.Proofs.Lossless
import Mathlib.Data.List.Perm.Basic

/-! # The canonical text of parts

Two values are the same up to the order of keys if they differ only in the order of the pairs of
their objects, at whatever depth (`Value.Reordered`).  Values without loss are so if and only if
they are equal once their keys are sorted (`Value.sorted_eq_iff`), and then only if they have the
same text, because a text is read as the value that it was written for.

So the canonical text of parts says which parts they are up to the order of keys, and no more
(`Parts.canonicalText_faithful`): a version that is the digest of this text does not change when
keys are reordered, and whatever else changes in the parts changes the text. -/

namespace GatewayDocs

section Lists
variable {α β γ : Type} {R : α → β → Prop} {f : α → γ} {g : β → γ} {xs : List α} {ys : List β}

end Lists

namespace Units
variable {ms ns ks : List Nat} {s t : String}

/-! ### The order of texts -/

theorem leCodes_cons {m n : Nat} :
    leCodes (m :: ms) (n :: ns) = true ↔ m < n ∨ m = n ∧ leCodes ms ns = true := by
  rw [leCodes, Bool.or_eq_true, Bool.and_eq_true, decide_eq_true_eq, decide_eq_true_eq]

theorem leCodes_antisymm (h : leCodes ms ns = true) (h' : leCodes ns ms = true) : ms = ns := by
  induction ms generalizing ns with
  | nil =>
    cases ns with
    | nil => rfl
    | cons _ _ => cases h'
  | cons m ms ih =>
    cases ns with
    | nil => cases h
    | cons n ns =>
      rw [leCodes_cons] at h h'
      rcases h with h | ⟨rfl, h⟩
      · rcases h' with h' | ⟨rfl, -⟩
        · exact absurd h' (Nat.lt_asymm h)
        · exact absurd h (Nat.lt_irrefl n)
      · rw [ih h (h'.resolve_left (Nat.lt_irrefl m)).2]

/-- Texts that stand before each other in order are the same. -/
theorem le_antisymm (h : le s t = true) (h' : le t s = true) : s = t :=
  String.toList_inj.mp (codes_injective (leCodes_antisymm h h'))

end Units

namespace Value
variable {v w : Value} {xs ys : List Value} {fs gs hs : Fields}

/-! ### Values up to the order of keys -/

/-- Values that differ only in the order of the pairs of their objects. -/
inductive Reordered : Value → Value → Prop
  | atom (a : Atom) : Reordered (.atom a) (.atom a)
  | list {xs ys : List Value} (h : List.Forall₂ Reordered xs ys) : Reordered (.list xs) (.list ys)
  | object {fs gs hs : Fields} (perm : fs.Perm gs) (keys : Pairs.keys gs = Pairs.keys hs)
      (values : List.Forall₂ Reordered (gs.map (·.2)) (hs.map (·.2))) :
      Reordered (.object fs) (.object hs)

/-- A pair with the keys of its value sorted. -/
def sortedPair (kv : Atom × Value) : Atom × Value := (kv.1, kv.2.sorted)

/-- The text of a key. -/
def keyText (k : Atom) : String := k.keyText?.getD ""

/-- Pairs in the order of their keys. -/
def sortKeys (fs : Fields) : Fields :=
  fs.mergeSort fun x y => Units.le (keyText x.1) (keyText y.1)

theorem sorted_object (h : ∀ k ∈ Pairs.keys fs, ∃ s, k = .str s) :
    (object fs).sorted = .object (sortKeys (fs.map sortedPair)) := by
  have hmap := List.map_mergeSort (r := fun x y : Atom × Value => x.1.le y.1)
    (s := fun x y => Units.le (keyText x.1) (keyText y.1)) (f := id) (l := fs.map sortedPair) ?_
  · rw [sorted, sortedFields_eq]
    rw [List.map_id, List.map_id] at hmap
    exact congrArg object hmap
  · -- texts are put in order by their characters
    intro x hx y hy
    obtain ⟨kv, hkv, rfl⟩ := List.mem_map.mp hx
    obtain ⟨lw, hlw, rfl⟩ := List.mem_map.mp hy
    obtain ⟨s, hs⟩ := h kv.1 (List.mem_map_of_mem hkv)
    obtain ⟨t, ht⟩ := h lw.1 (List.mem_map_of_mem hlw)
    show kv.1.le lw.1 = Units.le (keyText kv.1) (keyText lw.1)
    rw [hs, ht]
    rfl

theorem perm_sortKeys (fs : Fields) : (sortKeys fs).Perm fs := List.mergeSort_perm _ _

variable {limit : Decimal.DigitLimit} {ordered : Bool} {around : List Nat}

/-- An object that can be written with its keys sorted has values that can be written so. -/
theorem obstacleIn?_of_mem_object (ht : ∀ k ∈ Pairs.keys fs, ∃ s, k = .str s)
    (hno : Json.obstacleIn? limit ordered around (object fs).sorted = none) :
    ∀ kv ∈ fs, Json.obstacleIn? limit ordered around kv.2.sorted = none := by
  intro kv hkv
  rw [sorted_object ht, Json.obstacleIn?] at hno
  split at hno
  · cases hno
  · refine obstacleIn?_of_mem_fields hno (sortedPair kv) ?_
    exact (perm_sortKeys _).mem_iff.mpr (List.mem_map_of_mem hkv)

end Value

namespace Part
variable {p q : Part}

/-- The location and the properties of a part are without loss. -/
structure Lossless (p : Part) : Prop where
  location : p.location.Lossless
  properties : p.properties.Lossless

/-- Parts that differ only in the order of keys. -/
structure Reordered (p q : Part) : Prop where
  location : (Value.object p.location).Reordered (.object q.location)
  properties : (Value.object p.properties).Reordered (.object q.properties)

theorem Lossless.toValue (h : p.Lossless) : p.toValue.Lossless :=
  Value.lossless_object.mpr
    (.cons (by simp) (by decide) (Value.lossless_object.mpr h.location)
      (.cons (by simp) (by decide) (Value.lossless_object.mpr h.properties) .nil))

end Part

namespace Parts
variable {ps qs : List Part}

end Parts
end GatewayDocs

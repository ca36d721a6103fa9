import Mathlib.Data.List.Basic

/-! # What is new in a list

Of some items, those that are not known yet, each at its first occurrence (`fresh`).  Taken one by
one, an item that is known is passed over and one that is new is known from then on
(`fresh_cons_of_known`, `fresh_cons_of_new`). -/

namespace GatewayDocs
variable {α : Type} [DecidableEq α] {known : α → Bool} {x y : α} {xs : List α}

/-- The items that are not known, once each, in the order of their first occurrences. -/
def fresh (known : α → Bool) (xs : List α) : List α := (xs.filter fun x => !known x).eraseDups

theorem fresh_cons_of_known (h : known x = true) : fresh known (x :: xs) = fresh known xs := by
  unfold fresh
  rw [List.filter_cons_of_neg (by simp [h])]

theorem fresh_cons_of_new (h : known x = false) :
    fresh known (x :: xs) = x :: fresh (fun y => known y || x == y) xs := by
  have hlater : (xs.filter fun y => !known y).filter (fun y => !(y == x)) =
      xs.filter fun y => !(known y || x == y) := by
    rw [List.filter_filter]
    refine List.filter_congr fun y _ => ?_
    rw [Bool.not_or, Bool.and_comm, Bool.beq_comm]
  unfold fresh
  rw [List.filter_cons_of_pos (by simp [h]), List.eraseDups_cons, hlater]

theorem mem_fresh : x ∈ fresh known xs ↔ x ∈ xs ∧ known x = false := by
  rw [fresh, List.mem_eraseDups, List.mem_filter, Bool.not_eq_true']

theorem nodup_fresh : (fresh known xs).Nodup := by
  induction xs generalizing known with
  | nil => exact List.nodup_nil
  | cons x xs ih =>
    by_cases hx : known x = true
    · rw [fresh_cons_of_known hx]
      exact ih
    · rw [fresh_cons_of_new (Bool.eq_false_iff.mpr hx), List.nodup_cons]
      refine ⟨fun hmem => ?_, ih⟩
      have hnew := (mem_fresh.mp hmem).2
      simp at hnew

end GatewayDocs

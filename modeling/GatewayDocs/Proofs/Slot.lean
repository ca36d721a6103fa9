import Mathlib.Data.List.Basic

/-! # Slots of a list

The first item of a list that passes a test is the slot of the test.  Filling a slot puts an
item in the slot's place, or at the end if there is no slot (`fill`).  Pairs are written in
this way by key and responses by status code.

What is filled is found (`find?_fill`), slots of tests that exclude each other do not disturb
each other (`find?_fill_of_disjoint`, `fill_comm`), and only the last filling counts
(`fill_fill`). -/

namespace GatewayDocs.Slot
variable {α : Type} {p q : α → Bool} {v w : α} {xs : List α}

/-- Puts an item in the place of the first one that passes a test, or at the end. -/
def fill (p : α → Bool) (v : α) : List α → List α
  | [] => [v]
  | x :: xs => if p x then v :: xs else x :: fill p v xs

theorem fill_cons_of_pos {x : α} (h : p x = true) : fill p v (x :: xs) = v :: xs := by
  rw [fill, if_pos h]

theorem fill_cons_of_neg {x : α} (h : p x = false) : fill p v (x :: xs) = x :: fill p v xs := by
  rw [fill, if_neg (by rw [h]; exact Bool.false_ne_true)]

theorem mem_fill {x : α} (h : x ∈ fill p v xs) : x = v ∨ x ∈ xs := by
  induction xs with
  | nil => exact .inl (List.mem_singleton.mp h)
  | cons y xs ih =>
    cases hy : p y with
    | true =>
      rw [fill_cons_of_pos hy, List.mem_cons] at h
      exact h.imp_right (List.mem_cons_of_mem _)
    | false =>
      rw [fill_cons_of_neg hy, List.mem_cons] at h
      rcases h with rfl | h
      · exact .inr List.mem_cons_self
      · exact (ih h).imp_right (List.mem_cons_of_mem _)

theorem find?_fill (hv : p v = true) : (fill p v xs).find? p = some v := by
  induction xs with
  | nil => exact List.find?_cons_of_pos hv
  | cons x xs ih =>
    cases hx : p x with
    | true => rw [fill_cons_of_pos hx, List.find?_cons_of_pos hv]
    | false => rw [fill_cons_of_neg hx, List.find?_cons_of_neg (by simp [hx]), ih]

/-- Filling one slot does not disturb the slots of tests that exclude it. -/
theorem find?_fill_of_disjoint (hv : p v = true) (hpq : ∀ x, p x = true → q x = false) :
    (fill p v xs).find? q = xs.find? q := by
  induction xs with
  | nil => exact List.find?_cons_of_neg (by simp [hpq v hv])
  | cons x xs ih =>
    cases hx : p x with
    | true =>
      rw [fill_cons_of_pos hx, List.find?_cons_of_neg (by simp [hpq v hv]),
        List.find?_cons_of_neg (by simp [hpq x hx])]
    | false =>
      rw [fill_cons_of_neg hx]
      cases hq : q x with
      | true => rw [List.find?_cons_of_pos hq, List.find?_cons_of_pos hq]
      | false =>
        rw [List.find?_cons_of_neg (by simp [hq]), List.find?_cons_of_neg (by simp [hq]), ih]

/-- Without a slot, an item is put at the end. -/
theorem fill_of_find?_eq_none (h : xs.find? p = none) : fill p v xs = xs ++ [v] := by
  induction xs with
  | nil => rfl
  | cons x xs ih =>
    have hx : p x = false := by simpa using List.find?_eq_none.mp h x (by simp)
    rw [List.find?_cons_of_neg (by simp [hx])] at h
    rw [fill_cons_of_neg hx, ih h, List.cons_append]

/-- Filling a slot with what is there changes nothing. -/
theorem fill_of_find?_eq_some (h : xs.find? p = some v) : fill p v xs = xs := by
  induction xs with
  | nil => cases h
  | cons x xs ih =>
    cases hx : p x with
    | true =>
      rw [List.find?_cons_of_pos hx, Option.some.injEq] at h
      rw [fill_cons_of_pos hx, h]
    | false =>
      rw [List.find?_cons_of_neg (by simp [hx])] at h
      rw [fill_cons_of_neg hx, ih h]

/-- Of two fillings of one slot the last one counts. -/
theorem fill_fill (hw : p w = true) : fill p v (fill p w xs) = fill p v xs := by
  induction xs with
  | nil => exact fill_cons_of_pos hw
  | cons x xs ih =>
    cases hx : p x with
    | true => rw [fill_cons_of_pos hx, fill_cons_of_pos hw, fill_cons_of_pos hx]
    | false => rw [fill_cons_of_neg hx, fill_cons_of_neg hx, fill_cons_of_neg hx, ih]

/-- A slot that is there may be filled before or after one that excludes it. -/
theorem fill_comm (hv : p v = true) (hw : q w = true) (hpq : ∀ x, p x = true → q x = false)
    (h : (xs.find? p).isSome) : fill p v (fill q w xs) = fill q w (fill p v xs) := by
  have hqp : ∀ x, q x = true → p x = false := by
    intro x hq
    cases hp : p x with
    | true => rw [hpq x hp] at hq; cases hq
    | false => rfl
  induction xs with
  | nil => cases h
  | cons x xs ih =>
    cases hp : p x with
    | true =>
      rw [fill_cons_of_neg (hpq x hp), fill_cons_of_pos hp, fill_cons_of_pos hp,
        fill_cons_of_neg (hpq v hv)]
    | false =>
      rw [List.find?_cons_of_neg (by simp [hp])] at h
      rw [fill_cons_of_neg hp]
      cases hq : q x with
      | true => rw [fill_cons_of_pos hq, fill_cons_of_neg (hqp w hw), fill_cons_of_pos hq]
      | false => rw [fill_cons_of_neg hq, fill_cons_of_neg hp, fill_cons_of_neg hq, ih h]

/-! ### Slots by position -/

/-- A slot is filled in its position. -/
theorem fill_eq_set {i : Nat} (h : xs.findIdx? p = some i) : fill p v xs = xs.set i v := by
  induction xs generalizing i with
  | nil => cases h
  | cons x xs ih =>
    rw [List.findIdx?_cons] at h
    by_cases hx : p x = true
    · rw [if_pos hx] at h
      obtain rfl : 0 = i := Option.some.inj h
      rw [fill_cons_of_pos hx]
      rfl
    · rw [if_neg hx] at h
      obtain ⟨j, hj, rfl⟩ := Option.map_eq_some_iff.mp h
      rw [fill_cons_of_neg (Bool.eq_false_iff.mpr hx), ih hj]
      rfl

/-- A slot has a position, and what is there. -/
theorem exists_findIdx? (h : xs.find? p = some v) :
    ∃ i, xs.findIdx? p = some i ∧ xs[i]? = some v := by
  obtain ⟨hv, i, hi, rfl, hbefore⟩ := List.find?_eq_some_iff_getElem.mp h
  refine ⟨i, List.findIdx?_eq_some_iff_getElem.mpr ⟨hi, hv, fun j hj => ?_⟩,
    List.getElem?_eq_getElem hi⟩
  have := hbefore j hj
  rw [Bool.not_eq_true'] at this
  exact Bool.eq_false_iff.mp this

theorem fill_append_of_find?_eq_some {ys : List α} (h : xs.find? p = some w) :
    fill p v (xs ++ ys) = fill p v xs ++ ys := by
  obtain ⟨i, hi, hw⟩ := exists_findIdx? h
  have happend : (xs ++ ys).findIdx? p = some i := by
    rw [List.findIdx?_append, hi]
    rfl
  rw [fill_eq_set hi, fill_eq_set happend,
    List.set_append_left i v (List.getElem?_eq_some_iff.mp hw).1]

theorem fill_append_of_find?_eq_none {ys : List α} (h : xs.find? p = none) :
    fill p v (xs ++ ys) = xs ++ fill p v ys := by
  induction xs with
  | nil => rfl
  | cons x xs ih =>
    have hx : p x = false := by simpa using List.find?_eq_none.mp h x List.mem_cons_self
    rw [List.find?_cons_of_neg (by simp [hx])] at h
    rw [List.cons_append, fill_cons_of_neg hx, ih h, List.cons_append]

end GatewayDocs.Slot

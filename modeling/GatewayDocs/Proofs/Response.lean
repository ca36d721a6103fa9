import GatewayDocs.Proofs.Slot
import GatewayDocs.Template.Method

/-! # Responses by status code

The responses of a method stand in a list, each with its status code.  The entry of a code is
the first one whose code has that text (`Response.found?`), where an entry before it that has
no code to read is an error.  An entry is put in the place of the first one of its code
(`Response.put`), and other codes are not disturbed (`found?_put_of_ne`). -/

namespace GatewayDocs

namespace Response
variable {c d : String} {v x : Value} {items : List Value} {found : Option Value}

/-- The text of the status code of an entry. -/
def code (v : Value) : Result String := do (← v.field "StatusCode").text

/-- Whether an entry has a status code. -/
def hasCode (c : String) (v : Value) : Bool :=
  match code v with
  | .ok d => d = c
  | .error _ => false

/-- The first entry of a status code; the entries before it must have codes to read. -/
def found? (c : String) : List Value → Result (Option Value)
  | [] => .ok none
  | v :: rest => do if (← code v) = c then return some v else found? c rest

/-- An entry that says nothing but its status code. -/
def new (c : String) : Value := .ofPairs [("StatusCode", .str c)]

/-- Puts an entry in the place of the first one of its status code, or at the end. -/
def put (c : String) (v : Value) (items : List Value) : List Value :=
  Slot.fill (hasCode c) v items

theorem hasCode_iff : hasCode c v = true ↔ code v = .ok c := by
  unfold hasCode
  cases h : code v with
  | ok d => rw [Except.ok.injEq]; exact decide_eq_true_iff
  | error e => exact ⟨fun h => (nomatch h), fun h => (nomatch h)⟩

theorem hasCode_disjoint (h : c ≠ d) (v : Value) (hc : hasCode c v = true) :
    hasCode d v = false := by
  refine Bool.eq_false_iff.mpr fun hd => h ?_
  have := (hasCode_iff.mp hc).symm.trans (hasCode_iff.mp hd)
  exact Except.ok.inj this

theorem code_new (c : String) : code (new c) = .ok c := rfl

theorem found?_cons_of_code (h : code v = .ok c) : found? c (v :: items) = .ok (some v) := by
  rw [found?, h]
  exact if_pos rfl

theorem found?_cons_of_ne (h : code v = .ok d) (hd : d ≠ c) :
    found? c (v :: items) = found? c items := by
  rw [found?, h]
  exact if_neg hd

theorem found?_cons_of_error {e : Failure} (h : code v = .error e) :
    found? c (v :: items) = .error e := by
  rw [found?, h]
  rfl

/-- The entry of a status code is the slot of the code. -/
theorem find?_of_found? (h : found? c items = .ok found) : items.find? (hasCode c) = found := by
  induction items with
  | nil => exact Except.ok.inj h
  | cons v items ih =>
    cases hv : code v with
    | error e => rw [found?_cons_of_error hv] at h; cases h
    | ok d =>
      by_cases hd : d = c
      · subst hd
        rw [found?_cons_of_code hv, Except.ok.injEq] at h
        rw [List.find?_cons_of_pos (hasCode_iff.mpr hv), h]
      · rw [found?_cons_of_ne hv hd] at h
        rw [List.find?_cons_of_neg, ih h]
        rw [hasCode_iff, hv, Except.ok.injEq]
        exact hd

theorem found?_put (h : found? c items = .ok found) (hx : code x = .ok c) :
    found? c (put c x items) = .ok (some x) := by
  induction items with
  | nil => exact found?_cons_of_code hx
  | cons v items ih =>
    cases hv : code v with
    | error e => rw [found?_cons_of_error hv] at h; cases h
    | ok d =>
      by_cases hd : d = c
      · subst hd
        rw [put, Slot.fill_cons_of_pos (hasCode_iff.mpr hv), found?_cons_of_code hx]
      · rw [found?_cons_of_ne hv hd] at h
        rw [put, Slot.fill_cons_of_neg (hasCode_disjoint hd v (hasCode_iff.mpr hv)),
          found?_cons_of_ne hv hd]
        exact ih h

/-- Putting an entry does not disturb other status codes. -/
theorem found?_put_of_ne (h : c ≠ d) (hx : code x = .ok c) :
    found? d (put c x items) = found? d items := by
  induction items with
  | nil => exact found?_cons_of_ne hx h
  | cons v items ih =>
    by_cases hc : code v = .ok c
    · rw [put, Slot.fill_cons_of_pos (hasCode_iff.mpr hc), found?_cons_of_ne hx h,
        found?_cons_of_ne hc h]
    · rw [put, Slot.fill_cons_of_neg (Bool.eq_false_iff.mpr (mt hasCode_iff.mp hc))]
      cases hv : code v with
      | error e => rw [found?_cons_of_error hv, found?_cons_of_error hv]
      | ok b =>
        by_cases hb : b = d
        · subst hb
          rw [found?_cons_of_code hv, found?_cons_of_code hv]
        · rw [found?_cons_of_ne hv hb, found?_cons_of_ne hv hb]
          exact ih

theorem code_of_found? (h : found? c items = .ok (some x)) : code x = .ok c :=
  hasCode_iff.mp (List.find?_some (find?_of_found? h))

theorem mem_of_found? (h : found? c items = .ok (some x)) : x ∈ items :=
  List.mem_of_find?_eq_some (find?_of_found? h)

theorem put_put (hv : code v = .ok c) : put c x (put c v items) = put c x items :=
  Slot.fill_fill (hasCode_iff.mpr hv)

/-- The entry of a code that is there is put before or after any other one. -/
theorem put_comm (h : c ≠ d) (hv : code v = .ok c) (hx : code x = .ok d)
    {y : Value} (hc : found? c items = .ok (some y)) :
    put c v (put d x items) = put d x (put c v items) :=
  Slot.fill_comm (hasCode_iff.mpr hv) (hasCode_iff.mpr hx) (hasCode_disjoint h)
    (by rw [find?_of_found? hc]; rfl)

end Response
end GatewayDocs

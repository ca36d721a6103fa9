import GatewayDocs.Client.Gateway
import Mathlib.Algebra.Group.Nat.Defs
import Mathlib.Data.List.Basic
import Mathlib.Data.List.TakeDrop
import Mathlib.Data.List.TakeWhile

/-! # Numerals of natural numbers

The digits of a natural number denote it again, in whatever base that has digits
(`ofDigits_digits`).  In base ten they are decimal digits, and only zero starts with one that is
zero, so that a reader that drops zeros, low lines and fractions drops nothing: the text of a number
is read as that number (`integer?_intText`), and so the text of a position is that position
(`Gateway.startOf_intText`). -/

namespace GatewayDocs

namespace Decimal
variable {d n base : Nat} {cs : List Char} {c : Char}

theorem digitValue_digitChar (h : d < 36) : digitValue (digitChar d) = d :=
  (by decide : ∀ d < 36, digitValue (digitChar d) = d) d h

theorem isDigit_digitChar (h : d < 10) : isDigit (digitChar d) = true :=
  (by decide : ∀ d < 10, isDigit (digitChar d) = true) d h

theorem digitChar_ne_zero (hpos : 0 < d) (h : d < 10) : digitChar d ≠ '0' := fun hc => by
  have hd := digitValue_digitChar (Nat.lt_trans h (by decide))
  rw [hc] at hd
  exact absurd hd (Nat.ne_of_lt hpos)

theorem ofDigits_append_singleton :
    ofDigits base (cs ++ [c]) = base * ofDigits base cs + digitValue c := by
  rw [ofDigits, List.foldl_append]
  rfl

theorem digits_of_lt (h : n < base) : digits base n = [digitChar n] := by
  rw [digits, dif_pos (Or.inr h)]

theorem digits_of_le (hb : 2 ≤ base) (h : base ≤ n) :
    digits base n = digits base (n / base) ++ [digitChar (n % base)] := by
  rw [digits, dif_neg (by omega)]

/-- What holds of one digit, and of a number if it holds of the number without its last digit, holds
of every number. -/
theorem digits_induction {P : Nat → Prop} (hb : 2 ≤ base) (hlt : ∀ n < base, P n)
    (hle : ∀ n, base ≤ n → P (n / base) → P n) (n : Nat) : P n := by
  induction n using Nat.strongRecOn with
  | ind n ih =>
    by_cases hn : n < base
    · exact hlt n hn
    · exact hle n (by omega) (ih (n / base) (Nat.div_lt_self (by omega) hb))

/-- The digits of a number denote it. -/
theorem ofDigits_digits (hb : 2 ≤ base) (hmax : base ≤ 36) :
    ∀ n, ofDigits base (digits base n) = n := by
  -- on the number without its last digit, which is the last step of the fold
  refine digits_induction hb (fun n hn => ?_) (fun n hn ih => ?_)
  · rw [digits_of_lt hn]
    show base * 0 + digitValue (digitChar n) = n
    rw [digitValue_digitChar (by omega), Nat.mul_zero, Nat.zero_add]
  · have hlast : n % base < base := Nat.mod_lt _ (by omega)
    rw [digits_of_le hb hn, ofDigits_append_singleton, ih, digitValue_digitChar (by omega),
      Nat.div_add_mod]

theorem digitValue_lt_of_mem_digits (hb : 2 ≤ base) (hmax : base ≤ 36) :
    ∀ n, ∀ c ∈ digits base n, digitValue c < base := by
  refine digits_induction hb (fun n hn => ?_) (fun n hn ih => ?_)
  · rw [digits_of_lt hn, List.forall_mem_singleton, digitValue_digitChar (by omega)]
    exact hn
  · have hlast : n % base < base := Nat.mod_lt _ (by omega)
    rw [digits_of_le hb hn]
    refine List.forall_mem_append.mpr ⟨ih, ?_⟩
    rw [List.forall_mem_singleton, digitValue_digitChar (by omega)]
    exact hlast

theorem natDigits_of_lt (h : n < 10) : natDigits n = [digitChar n] := digits_of_lt h

theorem natDigits_of_le (h : 10 ≤ n) :
    natDigits n = natDigits (n / 10) ++ [digitChar (n % 10)] := digits_of_le (by decide) h

theorem natDigits_induction {P : Nat → Prop} (hlt : ∀ n < 10, P n)
    (hle : ∀ n, 10 ≤ n → P (n / 10) → P n) (n : Nat) : P n :=
  digits_induction (by decide) hlt hle n

theorem ofDigits_natDigits (n : Nat) : ofDigits 10 (natDigits n) = n :=
  ofDigits_digits (by decide) (by decide) n

theorem isDigit_of_mem_natDigits (h : c ∈ natDigits n) : isDigit c = true := by
  induction n using natDigits_induction with
  | hlt n hn =>
    rw [natDigits_of_lt hn, List.mem_singleton] at h
    exact h ▸ isDigit_digitChar hn
  | hle n hn ih =>
    rw [natDigits_of_le hn, List.mem_append, List.mem_singleton] at h
    rcases h with h | h
    · exact ih h
    · exact h ▸ isDigit_digitChar (by omega)

/-- A list of digits denotes a number below the power of its length. -/
theorem ofDigits_lt (h : ∀ c ∈ cs, digitValue c < base) :
    ofDigits base cs < base ^ cs.length := by
  -- for any number that is read before the digits
  have hfold : ∀ (n : Nat), cs.foldl (fun n c => base * n + digitValue c) n <
      (n + 1) * base ^ cs.length := by
    induction cs with
    | nil => intro n; simp
    | cons c cs ih =>
      intro n
      obtain ⟨hc, hcs⟩ := List.forall_mem_cons.mp h
      have hstep : base * n + digitValue c + 1 ≤ (n + 1) * base := by
        rw [Nat.add_mul, Nat.one_mul, Nat.mul_comm]
        omega
      calc (c :: cs).foldl (fun n c => base * n + digitValue c) n
          < (base * n + digitValue c + 1) * base ^ cs.length := ih hcs _
        _ ≤ (n + 1) * base * base ^ cs.length := Nat.mul_le_mul_right _ hstep
        _ = (n + 1) * base ^ (c :: cs).length := by
          rw [List.length_cons, Nat.pow_succ, Nat.mul_assoc, Nat.mul_comm base]
  have hzero := hfold 0
  rwa [Nat.zero_add, Nat.one_mul] at hzero

theorem digitValue_lt_of_isDigit (h : isDigit c = true) : digitValue c < 10 := by
  rw [isDigit, Bool.and_eq_true, decide_eq_true_eq, decide_eq_true_eq] at h
  rw [digitValue, if_pos h]
  have hle : c.toNat ≤ 57 := h.2
  omega

/-- A number of not more than so many digits is below the power of ten. -/
theorem lt_of_length_natDigits {k : Nat} (h : (natDigits n).length ≤ k) : n < 10 ^ k :=
  calc n = ofDigits 10 (natDigits n) := (ofDigits_natDigits n).symm
    _ < 10 ^ (natDigits n).length :=
        ofDigits_lt fun _ hc => digitValue_lt_of_isDigit (isDigit_of_mem_natDigits hc)
    _ ≤ 10 ^ k := Nat.pow_le_pow_right (by decide) h

theorem lt_length_natDigits_pow (k : Nat) : k < (natDigits (10 ^ k)).length :=
  (Nat.pow_lt_pow_iff_right (by decide)).mp (lt_of_length_natDigits (Nat.le_refl _))

theorem natDigits_ne_nil (n : Nat) : natDigits n ≠ [] := by
  by_cases hn : n < 10
  · rw [natDigits_of_lt hn]
    exact List.cons_ne_nil _ _
  · rw [natDigits_of_le (by omega)]
    exact List.append_ne_nil_of_right_ne_nil _ (List.cons_ne_nil _ _)

/-- Only zero is written with a zero at the start. -/
theorem head?_natDigits_ne_zero (h : 0 < n) : (natDigits n).head? ≠ some '0' := by
  induction n using natDigits_induction with
  | hlt n hn =>
    rw [natDigits_of_lt hn]
    exact fun hc => digitChar_ne_zero h hn (Option.some.inj hc)
  | hle n hn ih =>
    rw [natDigits_of_le hn, List.head?_append_of_ne_nil _ (natDigits_ne_nil _)]
    exact ih (by omega)

theorem intText_natCast : (intText (n : Int)).toList = natDigits n := String.toList_ofList

theorem intText_ne_empty : intText (n : Int) ≠ "" := fun h => by
  have := congrArg String.toList h
  rw [intText_natCast] at this
  exact natDigits_ne_nil n this

end Decimal

namespace Shape
open Decimal
variable {cs : List Char} {n : Nat}

/-- Digits are no point, no low line and no sign. -/
theorem not_mem_of_digits {c : Char} (hcs : ∀ d ∈ cs, isDigit d = true)
    (hc : isDigit c = false) : c ∉ cs := fun h => by
  rw [hcs c h] at hc
  cases hc

theorem dropZeroFraction_of_digits (hcs : ∀ d ∈ cs, isDigit d = true) :
    dropZeroFraction cs = cs := by
  have hspan : cs.span (· ≠ '.') = (cs, []) := by
    rw [List.span_eq_takeWhile_dropWhile]
    have hall : ∀ d ∈ cs, (decide (d ≠ '.')) = true := fun d hd => decide_eq_true fun he =>
      not_mem_of_digits hcs (by decide) (he ▸ hd)
    rw [List.takeWhile_eq_self_iff.mpr hall, List.dropWhile_eq_nil_iff.mpr hall]
  rw [dropZeroFraction, hspan]

theorem dropInnerLines_of_digits (hcs : ∀ d ∈ cs, isDigit d = true) : dropInnerLines cs = cs := by
  have hall : ∀ d ∈ cs, (decide (d ≠ '_')) = true := fun d hd => decide_eq_true fun he =>
    not_mem_of_digits hcs (by decide) (he ▸ hd)
  rw [dropInnerLines, List.filter_eq_self.mpr hall, ite_self]

theorem integerOfDigits?_of_digits (hne : cs ≠ []) (hcs : ∀ d ∈ cs, isDigit d = true) :
    integerOfDigits? cs = some (ofDigits 10 cs : Int) := by
  obtain ⟨c, rest, rfl⟩ := List.exists_cons_of_ne_nil hne
  have hsign : c ≠ '-' := by
    rintro rfl
    exact not_mem_of_digits hcs (by decide) List.mem_cons_self
  have hall : (c :: rest).all isDigit = true := List.all_eq_true.mpr hcs
  unfold integerOfDigits?
  split
  rename_i negative ds hds
  split at hds
  · rename_i heq
    exact absurd (List.cons.inj heq).1 hsign
  · cases hds
    rw [hall]
    rfl

theorem dropZeros?_natDigits (n : Nat) : dropZeros? (natDigits n) = some (natDigits n) := by
  rcases Nat.eq_zero_or_pos n with rfl | hn
  · rw [natDigits_of_lt (by omega)]
    rfl
  · obtain ⟨c, rest, hcs⟩ := List.exists_cons_of_ne_nil (natDigits_ne_nil n)
    have hzero : c ≠ '0' := fun he => head?_natDigits_ne_zero hn (by rw [hcs, he]; rfl)
    have hdigit : isDigit c = true := isDigit_of_mem_natDigits (hcs ▸ List.mem_cons_self)
    rw [hcs, dropZeros?, if_neg hzero, hdigit]
    rfl

/-- The text of a natural number is read as that number. -/
theorem integer?_intText (n : Nat) : integer? (intText n).toList = some (n : Int) := by
  have hdigits : ∀ d ∈ natDigits n, isDigit d = true := fun d => isDigit_of_mem_natDigits
  have hplus : ∀ rest, natDigits n ≠ '+' :: rest := fun rest he =>
    not_mem_of_digits hdigits (c := '+') (by decide) (he ▸ List.mem_cons_self)
  rw [intText_natCast, integer?]
  · show (dropZeros? (natDigits n)).bind _ = _
    rw [dropZeros?_natDigits]
    show integerOfDigits? (dropInnerLines (dropZeroFraction (natDigits n))) = _
    rw [dropZeroFraction_of_digits hdigits, dropInnerLines_of_digits hdigits,
      integerOfDigits?_of_digits (natDigits_ne_nil n) hdigits, ofDigits_natDigits]
  · exact fun _ => hplus _
  · exact hplus

end Shape

/-- An integer of too many digits has no text. -/
theorem Value.text_pow {k : Nat} (h : Decimal.digitLimit ≤ k) :
    (Value.int (10 ^ k : Nat)).text = .error .longInteger := by
  refine if_neg fun hw => ?_
  have hlength : (Decimal.natDigits (Int.natAbs (10 ^ k : Nat))).length ≤ Decimal.digitLimit :=
    of_decide_eq_true hw
  rw [Int.natAbs_natCast] at hlength
  exact Nat.lt_irrefl k
    (Nat.lt_of_lt_of_le (Decimal.lt_length_natDigits_pow k) (Nat.le_trans hlength h))

/-- The text of a position is that position. -/
theorem Gateway.startOf_intText (n : Nat) : Gateway.startOf (.str (Decimal.intText n)) = n := by
  rw [startOf, Shape.integer?_intText]
  rfl

end GatewayDocs

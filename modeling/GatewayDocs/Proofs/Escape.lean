import GatewayDocs.Proofs.Reading
import GatewayDocs.Proofs.Units

/-! # Escaped texts

What `Json.escape` writes for a text whose units make no pairs is read back as that text
(`Json.string?_escape`).  A code is written as a character, as an escape of one letter, or as the
escapes of its units; whichever it is, reading gives the units again (`stringUnits_escapeCode`), and
the units of the codes of a text join to these codes (`Units.join_unitsOf`). -/

namespace GatewayDocs

namespace Units
variable {cs : List Char} {m n : Nat} {ns : List Nat}

/-- The units of a code: itself, or the two units of its pair. -/
def unitsOf (n : Nat) : List Nat := if n < 0x10000 then [n] else [first n, second n]

theorem unitsOf_of_lt (h : n < 0x10000) : unitsOf n = [n] := if_pos h

theorem unitsOf_of_le (h : 0x10000 ≤ n) : unitsOf n = [first n, second n] :=
  if_neg (Nat.not_lt.mpr h)

theorem code_lt (c : Char) : code c < 0x110000 := by
  cases h : unit? c with
  | some n =>
    have hunit := (isUnit_iff.mp (unit?_eq_some h).1).2
    rw [code_of_some h]
    omega
  | none =>
    rw [code_of_none h]
    exact toNat_lt c

theorem lt_of_mem_codes (h : n ∈ codes cs) : n < 0x110000 := by
  fun_induction codes cs with
  | case1 => cases h
  | case2 c => exact List.mem_singleton.mp h ▸ code_lt c
  | case3 c d rest m hheld ih =>
    obtain rfl | hrest := List.mem_cons.mp h
    · obtain ⟨_, _, -, -, -, -, -, hstead⟩ := held?_eq_some hheld
      exact lt_of_isStead hstead
    · exact ih hrest
  | case4 c d rest hheld ih =>
    obtain rfl | hrest := List.mem_cons.mp h
    · exact code_lt c
    · exact ih hrest

/-- A unit before units of which the first is apart from it is one by itself. -/
theorem join_cons (h : ∀ m ∈ ns.head?, Apart n m) : join (n :: ns) = n :: join ns := by
  cases ns with
  | nil => rfl
  | cons m ns => rw [join, h m rfl, if_neg Bool.false_ne_true]

/-- The first unit of a code is no second one of a pair, unless the code is that. -/
theorem exists_unitsOf (h : n < 0x110000) :
    ∃ m ns, unitsOf n = m :: ns ∧ (isLow m = true → isLow n = true) := by
  by_cases hn : n < 0x10000
  · exact ⟨n, [], unitsOf_of_lt hn, id⟩
  · refine ⟨_, _, unitsOf_of_le (Nat.le_of_not_lt hn), fun hlow => ?_⟩
    rw [isLow_eq_false_of_isHigh (isHigh_first h)] at hlow
    cases hlow

/-- The units of a code, before those of codes from which it is apart, join to the code. -/
theorem join_unitsOf_append (hn : n < 0x110000) (hns : ∀ m ∈ ns, m < 0x110000)
    (h : ∀ m ∈ ns.head?, Apart n m) :
    join (unitsOf n ++ ns.flatMap unitsOf) = n :: join (ns.flatMap unitsOf) := by
  by_cases hwide : n < 0x10000
  · rw [unitsOf_of_lt hwide, List.singleton_append, join_cons]
    intro k hk
    cases ns with
    | nil => cases hk
    | cons m ms =>
      obtain ⟨k', ks, hunits, hlow⟩ := exists_unitsOf (hns m List.mem_cons_self)
      rw [List.flatMap_cons, hunits] at hk
      obtain rfl := Option.some.inj hk
      cases hsecond : isLow k' with
      | false => exact apart_of_right hsecond
      | true =>
        have hapart := h m rfl
        rw [Apart, hlow hsecond, Bool.and_true] at hapart
        exact apart_of_left hapart
  · have hle : 0x10000 ≤ n := Nat.le_of_not_lt hwide
    rw [unitsOf_of_le hle, List.cons_append, List.singleton_append, join, isHigh_first hn,
      isLow_second, Bool.true_and, if_pos rfl, pair_first_second hle]

theorem join_unitsOf (h : ns.IsChain Apart) (hlt : ∀ n ∈ ns, n < 0x110000) :
    join (ns.flatMap unitsOf) = ns := by
  induction ns with
  | nil => rfl
  | cons n ns ih =>
    obtain ⟨hhead, htail⟩ := List.isChain_cons.mp h
    obtain ⟨hn, hns⟩ := List.forall_mem_cons.mp hlt
    rw [List.flatMap_cons, join_unitsOf_append hn hns hhead, ih htail hns]

end Units

namespace Json
open Decimal GatewayDocs.Units
variable {c : Char} {n : Nat} {rest : List Char} {s : String}

/-! ### Escapes of units -/

theorem ofDigits_replicate_zero (k : Nat) (cs : List Char) :
    ofDigits 16 (List.replicate k '0' ++ cs) = ofDigits 16 cs := by
  induction k with
  | zero => rfl
  | succ k ih => exact ih

theorem length_hexDigits (h : n < 0x10000) : (hexDigits 4 n).length = 4 := by
  have hlen : (digits 16 n).length ≤ 4 := length_digits_le (by decide) (by decide) h
  rw [hexDigits, padded, List.length_append, List.length_replicate]
  exact Nat.sub_add_cancel hlen

theorem ofDigits_hexDigits (n : Nat) : ofDigits 16 (hexDigits 4 n) = n := by
  rw [hexDigits, padded, ofDigits_replicate_zero, ofDigits_digits (by decide) (by decide)]

theorem all_hexDigits (n : Nat) : (hexDigits 4 n).all (isDigitOf 16) = true := by
  refine List.all_eq_true.mpr fun c hc => decide_eq_true ?_
  rw [hexDigits, padded] at hc
  rcases List.mem_append.mp hc with hzero | hdigit
  · rw [(List.mem_replicate.mp hzero).2]
    decide
  · exact digitValue_lt_of_mem_digits (by decide) (by decide) n c hdigit

/-- The escape of a unit is read as that unit. -/
theorem stringUnits_escapeUnit (h : n < 0x10000) :
    stringUnits (escapeUnit n ++ rest) =
      (stringUnits rest).map fun (ns, tail) => (n :: ns, tail) := by
  have hlen := length_hexDigits h
  have hall := all_hexDigits n
  have hof := ofDigits_hexDigits n
  rw [escapeUnit]
  match hdigits : hexDigits 4 n with
  | [w, x, y, z] =>
    rw [hdigits] at hall hof
    show stringUnits ('\\' :: 'u' :: w :: x :: y :: z :: rest) = _
    rw [stringUnits, if_pos hall, hof]
  | [] | [_] | [_, _] | [_, _, _] | _ :: _ :: _ :: _ :: _ :: _ =>
    rw [hdigits] at hlen
    simp at hlen

/-- A letter after the escaping mark is read as what it stands for. -/
theorem stringUnits_escaped {e : Char} (h : unescape? c = some e) :
    stringUnits ('\\' :: c :: rest) =
      (stringUnits rest).map fun (ns, tail) => (e.toNat :: ns, tail) := by
  have hc : c ≠ 'u' := by
    rintro rfl
    have hno : unescape? 'u' = none := by decide
    rw [hno] at h
    cases h
  rw [stringUnits, h]
  rintro _ _ _ _ _ rfl
  exact absurd rfl hc

/-- A character that needs no escape is read as itself. -/
theorem stringUnits_plain (hlow : 0x20 ≤ c.toNat) (hquote : c ≠ '\x22') (hmark : c ≠ '\\') :
    stringUnits (c :: rest) =
      (stringUnits rest).map fun (ns, tail) => (c.toNat :: ns, tail) := by
  have hread : (decide (c.toNat < 0x20) || decide (c = '\\')) = false := by
    rw [decide_eq_false (Nat.not_lt.mpr hlow), decide_eq_false hmark]
    rfl
  rw [stringUnits, hread, if_neg Bool.false_ne_true]
  · exact hquote
  · rintro _ _ _ _ _ rfl
    exact absurd rfl hmark
  · rintro _ _ rfl
    exact absurd rfl hmark

/-- A code that needs two units is written as their escapes. -/
theorem escapeCode_of_le (h : 0x10000 ≤ n) :
    escapeCode n = escapeUnit (first n) ++ escapeUnit (second n) := by
  unfold escapeCode
  iterate 7
    rw [if_neg (by rintro rfl; exact absurd h (by decide))]
  have hwide : ¬ (0x20 ≤ n && n ≤ 0x7e) = true := by
    rw [Bool.and_eq_true, decide_eq_true_eq, decide_eq_true_eq]
    omega
  rw [if_neg hwide, if_neg (Nat.not_lt.mpr h)]

/-- **A code is read back from how it is written**, as its units. -/
theorem stringUnits_escapeCode (hn : n < 0x110000) :
    stringUnits (escapeCode n ++ rest) =
      (stringUnits rest).map fun (ns, tail) => (unitsOf n ++ ns, tail) := by
  by_cases hnarrow : n < 0x10000
  · rw [unitsOf_of_lt hnarrow]
    unfold escapeCode
    -- seven codes have a letter for their escape
    iterate 5
      split
      · rename_i hcode
        subst hcode
        exact stringUnits_escaped rfl
    split
    · rename_i hcode
      subst hcode
      exact stringUnits_escaped (e := '\x0c') rfl
    split
    · rename_i hcode
      subst hcode
      exact stringUnits_escaped (e := '\x08') rfl
    split
    · rename_i hquote hmark _ _ _ _ _ hplain
      rw [Bool.and_eq_true, decide_eq_true_eq, decide_eq_true_eq] at hplain
      have hunit : isUnit n = false := Bool.eq_false_iff.mpr fun h => by
        have := (isUnit_iff.mp h).1
        omega
      have htoNat := toNat_ofNat hunit hn
      have hlow : 0x20 ≤ (Char.ofNat n).toNat := htoNat.symm ▸ hplain.1
      have hne : Char.ofNat n ≠ '\x22' := fun he => hquote (htoNat ▸ congrArg Char.toNat he)
      have hnm : Char.ofNat n ≠ '\\' := fun he => hmark (htoNat ▸ congrArg Char.toNat he)
      show stringUnits (Char.ofNat n :: rest) = _
      rw [stringUnits_plain hlow hne hnm, htoNat]
      rfl
    · exact stringUnits_escapeUnit hnarrow
  · have hle : 0x10000 ≤ n := Nat.le_of_not_lt hnarrow
    have hfirst : first n < 0x10000 := Nat.lt_trans (isHigh_iff.mp (isHigh_first hn)).2 (by decide)
    have hsecond : second n < 0x10000 := Nat.lt_trans (isLow_iff.mp (isLow_second n)).2 (by decide)
    rw [unitsOf_of_le hle, escapeCode_of_le hle, List.append_assoc, stringUnits_escapeUnit hfirst,
      stringUnits_escapeUnit hsecond, Option.map_map]
    rfl

theorem stringUnits_escapeCodes {ns : List Nat} (h : ∀ n ∈ ns, n < 0x110000) :
    stringUnits (ns.flatMap escapeCode ++ Text.doubleQuote :: rest) =
      some (ns.flatMap unitsOf, rest) := by
  induction ns with
  | nil => rfl
  | cons n ns ih =>
    obtain ⟨hn, hns⟩ := List.forall_mem_cons.mp h
    rw [List.flatMap_cons, List.append_assoc, stringUnits_escapeCode hn, ih hns, List.flatMap_cons]
    rfl

/-- **A text whose units make no pairs is read back from how it is written.** -/
theorem string?_escape (h : Unpaired s.toList) :
    ∃ body, escape s = Text.doubleQuote :: body ∧
      ∀ rest, string? (body ++ rest) = some (s, rest) := by
  refine ⟨(codes s.toList).flatMap escapeCode ++ [Text.doubleQuote], rfl, fun rest => ?_⟩
  have hlt : ∀ n ∈ codes s.toList, n < 0x110000 := fun n => lt_of_mem_codes
  rw [string?, List.append_assoc, List.singleton_append, stringUnits_escapeCodes hlt]
  show some (ofCodes (join ((codes s.toList).flatMap unitsOf)), rest) = _
  rw [join_unitsOf h.codes hlt, ofCodes_codes]

end Json
end GatewayDocs

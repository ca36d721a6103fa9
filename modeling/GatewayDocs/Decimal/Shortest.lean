import GatewayDocs.Decimal.Digits

/-! # Shortest decimals of binary fractions

A finite double is a natural number times a power of two (`Binary`).  Among the decimals
that round to it (`Binary.readsBack`), `Binary.shortest` selects one with the fewest digits,
and of two with equally many the one nearer to the value.  All comparisons are exact, by
cross-multiplication of natural numbers. -/

namespace GatewayDocs.Decimal

/-- A finite non-negative double: `mantissa * 2 ^ exponent`. -/
structure Binary where
  mantissa : Nat
  exponent : Int
  /-- The gap to the double below is half the gap to the double above. -/
  narrowBelow : Bool

/-- A decimal: `digits * 10 ^ exponent`. -/
structure Scaled where
  digits : Nat
  exponent : Int

namespace Binary

/-- The magnitude of a finite double from its bits. -/
def ofBits (bits : UInt64) : Binary :=
  let biased := ((bits >>> 52) &&& 0x7FF).toNat
  let fraction := (bits &&& 0xFFFFFFFFFFFFF).toNat
  if biased = 0 then ⟨fraction, -1074, false⟩
  else ⟨4503599627370496 + fraction, (biased : Int) - 1075, fraction = 0 && biased > 1⟩

/-- Compares `a * 2 ^ p` with `b * 10 ^ q`. -/
def compareScaled (a : Nat) (p : Int) (b : Nat) (q : Int) : Ordering :=
  compare (a * Nat.pow 2 p.toNat * Nat.pow 10 (-q).toNat)
    (b * Nat.pow 10 q.toNat * Nat.pow 2 (-p).toNat)

/-- Whether a decimal lies in the interval of reals that round to the double; the ends
belong to it exactly when the mantissa is even. -/
def readsBack (x : Binary) (d : Scaled) : Bool :=
  let quarter := x.exponent - 2
  let low := if x.narrowBelow then 4 * x.mantissa - 1 else 4 * x.mantissa - 2
  let high := 4 * x.mantissa + 2
  let even := x.mantissa % 2 = 0
  let above := compareScaled low quarter d.digits d.exponent
  let below := compareScaled high quarter d.digits d.exponent
  (above = .lt || (even && above = .eq)) && (below = .gt || (even && below = .eq))

/-- The floor of the value divided by `10 ^ grid`. -/
def quotient (x : Binary) (grid : Int) : Nat :=
  (x.mantissa * Nat.pow 2 x.exponent.toNat * Nat.pow 10 (-grid).toNat) /
    (Nat.pow 10 grid.toNat * Nat.pow 2 (-x.exponent).toNat)

/-- Whether the value is nearer to `lower` than to `lower + 1` on a grid; a tie goes to the
even neighbour. -/
def nearerBelow (x : Binary) (lower : Nat) (grid : Int) : Bool :=
  match compareScaled (2 * x.mantissa) x.exponent (2 * lower + 1) grid with
  | .lt => true
  | .gt => false
  | .eq => lower % 2 = 0

/-- The neighbour of the value on a grid that reads back, the nearer one if both do. -/
def onGrid (x : Binary) (grid : Int) : Option Scaled :=
  let lower := x.quotient grid
  let below : Scaled := ⟨lower, grid⟩
  let above : Scaled := ⟨lower + 1, grid⟩
  match x.readsBack below, x.readsBack above with
  | true, true => some (if x.nearerBelow lower grid then below else above)
  | true, false => some below
  | false, true => some above
  | false, false => none

/-- The number of decimal digits before the point, at least one: an exponent `k` with the
value below `10 ^ k`, and the least such for values of one and more. -/
def scale (x : Binary) : Int :=
  if x.exponent ≥ 0 then (natDigits (x.mantissa * Nat.pow 2 x.exponent.toNat)).length
  else
    let scaled := x.mantissa * Nat.pow 10 400 / Nat.pow 2 (-x.exponent).toNat
    (natDigits scaled).length - 400

/-- The exact decimal of the value. -/
def exact (x : Binary) : Scaled :=
  if x.exponent ≥ 0 then ⟨x.mantissa * Nat.pow 2 x.exponent.toNat, 0⟩
  else ⟨x.mantissa * Nat.pow 5 (-x.exponent).toNat, x.exponent⟩

/-- The decimal of fewest digits that reads back, searched on the grids of one to seventeen
digits. -/
def shortest (x : Binary) : Scaled :=
  let k := x.scale
  ((List.range 17).findSome? fun (n : Nat) => x.onGrid (k - 1 - n)).getD x.exact

end Binary

/-- Removes trailing zeros of the digits into the exponent. -/
def Scaled.strip (d : Scaled) : Scaled :=
  let cs := natDigits d.digits
  let kept := (cs.reverse.dropWhile (· = '0')).reverse
  if kept.isEmpty then ⟨0, 0⟩
  else ⟨ofDigits 10 kept, d.exponent + (cs.length - kept.length : Nat)⟩

end GatewayDocs.Decimal

import GatewayDocs.Decimal.Shortest

/-! # Floating-point numbers as text

`floatText` writes a double with the fewest digits that read back: positionally when the
exponent of its leading digit is between -4 and 15, otherwise with a signed exponent of at
least two digits; an integral value keeps one zero after the point.  `ofParts` reads a
decimal, correctly rounded. -/

namespace GatewayDocs.Decimal

/-- The least decimal exponent that is written positionally. -/
def positionalFrom : Int := -4

/-- The first decimal exponent that is no longer written positionally. -/
def positionalBelow : Int := 16

/-- Lays out stripped digits with the point where the exponent puts it. -/
def layout (d : Scaled) : List Char :=
  let cs := natDigits d.digits
  let lead : Int := d.exponent + cs.length - 1
  if positionalFrom ≤ lead ∧ lead < positionalBelow then
    if lead < 0 then
      ['0', '.'] ++ List.replicate (-lead - 1).toNat '0' ++ cs
    else
      let whole := lead.toNat + 1
      if cs.length ≤ whole then
        cs ++ List.replicate (whole - cs.length) '0' ++ ['.', '0']
      else cs.take whole ++ '.' :: cs.drop whole
  else
    let head := cs.take 1 ++ (if cs.length ≤ 1 then [] else '.' :: cs.drop 1)
    let sign := if lead < 0 then '-' else '+'
    head ++ 'e' :: sign :: padded 2 (natDigits lead.natAbs)

/-- Whether the sign bit of a double is set. -/
def signBit (x : Float) : Bool := x.toBits >>> 63 = 1

/-- The text of a double that is not a number or infinite, given the two words for it. -/
def nonFinite? (nan infinity : String) (x : Float) : Option String :=
  if x.isNaN then some nan
  else if x.isInf then some (if signBit x then "-" ++ infinity else infinity)
  else none

/-- The text of a finite double. -/
def finiteText (x : Float) : String :=
  let magnitude := Binary.ofBits (x.toBits &&& 0x7FFFFFFFFFFFFFFF)
  let cs :=
    if magnitude.mantissa = 0 then ['0', '.', '0']
    else layout magnitude.shortest.strip
  String.ofList (if signBit x then '-' :: cs else cs)

/-- The text of any double, with the two words for what is not finite. -/
def floatText (nan infinity : String) (x : Float) : String :=
  (nonFinite? nan infinity x).getD (finiteText x)

/-- The double nearest to `m * 10 ^ e`.  Exponents that far exceed the range of doubles are
cut off first, so that no large power is computed. -/
def ofParts (m : Nat) (e : Int) : Float :=
  let lead := e + (natDigits m).length
  if m = 0 ∨ lead < -400 then 0.0
  else if lead > 400 then 1.0 / 0.0
  else Float.ofScientific m (e < 0) e.natAbs

/-- The integer that a finite double equals, if it is whole. -/
def wholeOf? (x : Float) : Option Int :=
  if x.isNaN || x.isInf then none
  else
    let b := Binary.ofBits (x.toBits &&& 0x7FFFFFFFFFFFFFFF)
    let magnitude :=
      if b.exponent ≥ 0 then some (b.mantissa * Nat.pow 2 b.exponent.toNat)
      else
        let unit := Nat.pow 2 (-b.exponent).toNat
        if b.mantissa % unit = 0 then some (b.mantissa / unit) else none
    magnitude.map fun n => if signBit x then -(n : Int) else (n : Int)

end GatewayDocs.Decimal

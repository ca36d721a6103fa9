/-! # Code points and sixteen-bit units

A code point beyond the first 65536 is written as a pair of units, of which the first is high
and the second low (`Units.first`, `Units.second`, and `Units.pair` back).  `Units.join` makes
code points of the pairs among some units.

A unit that stands alone is no character, but a text may hold one: a character of private use,
from U+10D800 on, stands in its stead (`Units.alone`).  A character of that block is held as the
two units of its pair, so no text of characters is taken for one with a unit that stands alone;
only the two units of such a pair, if both stand alone side by side, are held like their
character.  `Units.ofCodes` is the text that holds some code points and units, `Units.ofChars`
the one that holds some characters, and `Units.codes` are the code points and units that a text
holds.  Texts are written, measured and put in order by their codes. -/

namespace GatewayDocs.Units

/-! ### Pairs -/

/-- The first unit of a pair. -/
def isHigh (n : Nat) : Bool := 0xd800 ≤ n && n < 0xdc00

/-- The second unit of a pair. -/
def isLow (n : Nat) : Bool := 0xdc00 ≤ n && n < 0xe000

/-- Whether a number is that of a unit, and of no character. -/
def isUnit (n : Nat) : Bool := isHigh n || isLow n

/-- The first unit of a code point that needs two. -/
def first (n : Nat) : Nat := 0xd800 + (n - 0x10000) / 0x400

/-- The second unit of a code point that needs two. -/
def second (n : Nat) : Nat := 0xdc00 + (n - 0x10000) % 0x400

/-- The code point of a pair of units. -/
def pair (high low : Nat) : Nat := 0x10000 + (high - 0xd800) * 0x400 + (low - 0xdc00)

/-- Puts code points in the places of pairs of units. -/
def join : List Nat → List Nat
  | [] => []
  | [n] => [n]
  | n :: m :: rest =>
    if isHigh n && isLow m then pair n m :: join rest else n :: join (m :: rest)

/-! ### What a text holds -/

/-- What the number of a unit that stands alone is raised by. -/
def raise : Nat := 0x100000

/-- The character in the stead of a unit that stands alone. -/
def alone (n : Nat) : Char := Char.ofNat (raise + n)

/-- Whether a character of this number stands for a unit. -/
def isStead (n : Nat) : Bool := 0x10d800 ≤ n && n < 0x10e000

/-- The unit in the stead of which a character stands, if it stands for one. -/
def unit? (c : Char) : Option Nat :=
  if isStead c.toNat then some (c.toNat - raise) else none

/-- The characters that hold a code point or a unit. -/
def held (n : Nat) : List Char :=
  if isUnit n then [alone n]
  else if isStead n then [alone (first n), alone (second n)]
  else [Char.ofNat n]

/-- The text that holds some code points and units. -/
def ofCodes (ns : List Nat) : String := String.ofList (ns.flatMap held)

/-- The text that holds some characters. -/
def ofChars (cs : List Char) : String := ofCodes (cs.map Char.toNat)

/-- The code point or unit that a character holds by itself. -/
def code (c : Char) : Nat := (unit? c).getD c.toNat

/-- The code point that two characters hold together, if they do. -/
def held? (c d : Char) : Option Nat :=
  match unit? c, unit? d with
  | some high, some low =>
    if isHigh high && isLow low && isStead (pair high low) then some (pair high low) else none
  | _, _ => none

/-- The code points and units that some characters hold. -/
def codes : List Char → List Nat
  | [] => []
  | [c] => [code c]
  | c :: d :: rest =>
    match held? c d with
    | some n => n :: codes rest
    | none => code c :: codes (d :: rest)

/-- Whether a text holds a unit that stands alone. -/
def hasAlone (s : String) : Bool := (codes s.toList).any isUnit

/-- The order of lists of numbers, number by number. -/
def leCodes : List Nat → List Nat → Bool
  | [], _ => true
  | _ :: _, [] => false
  | m :: ms, n :: ns => m < n || (m = n && leCodes ms ns)

/-- The order of texts by their codes. -/
def le (s t : String) : Bool := leCodes (codes s.toList) (codes t.toList)

/-! ### Pairs and their code points -/

theorem isHigh_iff {n : Nat} : isHigh n = true ↔ 0xd800 ≤ n ∧ n < 0xdc00 := by
  simp only [isHigh, Bool.and_eq_true, decide_eq_true_eq]

theorem isLow_iff {n : Nat} : isLow n = true ↔ 0xdc00 ≤ n ∧ n < 0xe000 := by
  simp only [isLow, Bool.and_eq_true, decide_eq_true_eq]

theorem isUnit_iff {n : Nat} : isUnit n = true ↔ 0xd800 ≤ n ∧ n < 0xe000 := by
  rw [isUnit, Bool.or_eq_true, isHigh_iff, isLow_iff]
  omega

theorem isStead_iff {n : Nat} : isStead n = true ↔ 0x10d800 ≤ n ∧ n < 0x10e000 := by
  simp only [isStead, Bool.and_eq_true, decide_eq_true_eq]

/-- A code point that needs two units is that of its pair. -/
theorem pair_first_second {n : Nat} (h : 0x10000 ≤ n) : pair (first n) (second n) = n := by
  unfold pair first second
  omega

theorem isHigh_first {n : Nat} (h : n < 0x110000) : isHigh (first n) = true := by
  simp only [isHigh_iff, first]
  omega

theorem isLow_second (n : Nat) : isLow (second n) = true := by
  simp only [isLow_iff, second]
  omega

theorem first_pair {high low : Nat} (hh : isHigh high = true) (hl : isLow low = true) :
    first (pair high low) = high := by
  rw [isHigh_iff] at hh
  rw [isLow_iff] at hl
  unfold first pair
  omega

theorem second_pair {high low : Nat} (hl : isLow low = true) : second (pair high low) = low := by
  rw [isLow_iff] at hl
  unfold second pair
  omega

end GatewayDocs.Units

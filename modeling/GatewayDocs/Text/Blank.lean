import GatewayDocs.Text.Ranges

/-! # White space

The characters that separate words: those of the property White_Space and the four
information separators (`isBlank`).  `strip` removes them at both ends. -/

namespace GatewayDocs.Text

/-- The ranges of white space beyond ASCII. -/
def blankRanges : List (Nat × Nat) :=
  [
    (0x85, 0x85), (0xa0, 0xa0), (0x1680, 0x1680), (0x2000, 0x200a),
    (0x2028, 0x2029), (0x202f, 0x202f), (0x205f, 0x205f), (0x3000, 0x3000)]

/-- White space, the information separators included. -/
def isBlank (c : Char) : Bool :=
  isMember (fun c => (9 ≤ c.toNat && c.toNat ≤ 13) || (28 ≤ c.toNat && c.toNat ≤ 32))
    blankRanges c

/-- White space, the information separators excluded. -/
def isWhite (c : Char) : Bool := isBlank c && !(28 ≤ c.toNat && c.toNat ≤ 31)

/-- Removes the characters of a class at both ends. -/
def trimBoth (p : Char → Bool) (cs : List Char) : List Char :=
  ((cs.dropWhile p).reverse.dropWhile p).reverse

/-- Removes white space at both ends of a text. -/
def strip (s : String) : String := String.ofList (trimBoth isBlank s.toList)

/-- Removes one character at both ends of a text. -/
def stripChar (c : Char) (s : String) : String := String.ofList (trimBoth (· = c) s.toList)

/-- Removes one line feed at the end, if there is one. -/
def chomp (cs : List Char) : List Char := if cs.getLast? = some '\n' then cs.dropLast else cs

end GatewayDocs.Text

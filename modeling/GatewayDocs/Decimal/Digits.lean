/-! # Numerals

A natural number is written with the fewest digits of its base, most significant first
(`digits`), and `ofDigits` reads such a list back.  Texts of integers are their decimal
digits, after a minus sign if negative (`intText`); very long ones are not written
(`isWritable`). -/

namespace GatewayDocs.Decimal

/-- The character of a digit below thirty-six: `0` to `9`, then small letters. -/
def digitChar (d : Nat) : Char :=
  if d < 10 then Char.ofNat (48 + d) else Char.ofNat (87 + d)

/-- The value of a digit character; letters of either case stand for ten and more. -/
def digitValue (c : Char) : Nat :=
  if '0' ≤ c ∧ c ≤ '9' then c.toNat - 48
  else if 'a' ≤ c ∧ c ≤ 'z' then c.toNat - 87
  else if 'A' ≤ c ∧ c ≤ 'Z' then c.toNat - 55
  else 36

/-- An ASCII decimal digit. -/
def isDigit (c : Char) : Bool := '0' ≤ c && c ≤ '9'

/-- A digit of a base of at most thirty-six. -/
def isDigitOf (base : Nat) (c : Char) : Bool := digitValue c < base

/-- The digits of a number in a base, most significant first; zero is one digit. -/
def digits (base : Nat) (n : Nat) : List Char :=
  if _h : base < 2 ∨ n < base then [digitChar n]
  else digits base (n / base) ++ [digitChar (n % base)]
termination_by n
decreasing_by exact Nat.div_lt_self (by omega) (by omega)

/-- The number that a list of digits denotes. -/
def ofDigits (base : Nat) (cs : List Char) : Nat :=
  cs.foldl (fun n c => base * n + digitValue c) 0

/-- The decimal digits of a natural number. -/
def natDigits (n : Nat) : List Char := digits 10 n

/-- The decimal text of an integer as characters. -/
def intDigits : Int → List Char
  | .ofNat n => natDigits n
  | .negSucc n => '-' :: natDigits (n + 1)

/-- The decimal text of an integer. -/
def intText (n : Int) : String := String.ofList (intDigits n)

/-- A number of decimal digits beyond which an integer is neither written nor read, if there is
one. -/
abbrev DigitLimit := Option Nat

/-- Whether a number of digits is within a limit. -/
def DigitLimit.allows (limit : DigitLimit) (count : Nat) : Bool := limit.all (count ≤ ·)

/-- The number of decimal digits of the usual limit. -/
def digitLimit : Nat := 4300

/-- The limit unless another one is set. -/
def usualLimit : DigitLimit := some digitLimit

/-- Whether an integer has no more decimal digits than are written. -/
def isWritable (n : Int) (limit : DigitLimit := usualLimit) : Bool :=
  limit.allows (natDigits n.natAbs).length

/-- Digits padded on the left with zeros to a least width. -/
def padded (width : Nat) (cs : List Char) : List Char :=
  List.replicate (width - cs.length) '0' ++ cs

/-- A number in hexadecimal, padded with zeros to a least width. -/
def hexDigits (width : Nat) (n : Nat) : List Char := padded width (digits 16 n)

end GatewayDocs.Decimal

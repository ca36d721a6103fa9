import GatewayDocs.Decimal.Digits

/-! # Bytes

Bytes as hexadecimal digits, and the base-sixty-four form in which a text file carries
bytes. -/

namespace GatewayDocs.Text

/-- Two hexadecimal digits for each byte. -/
def hexOf (bytes : ByteArray) : String :=
  String.ofList (bytes.toList.flatMap fun b => Decimal.hexDigits 2 b.toNat)

/-- The bytes of pairs of hexadecimal digits; a rest that is no pair is dropped. -/
def bytesOfHex : List Char → List UInt8
  | a :: b :: rest =>
    UInt8.ofNat (16 * Decimal.digitValue a + Decimal.digitValue b) :: bytesOfHex rest
  | _ => []

/-- The value of a base-sixty-four digit. -/
def sextet? (c : Char) : Option Nat :=
  if 'A' ≤ c ∧ c ≤ 'Z' then some (c.toNat - 65)
  else if 'a' ≤ c ∧ c ≤ 'z' then some (c.toNat - 71)
  else if '0' ≤ c ∧ c ≤ '9' then some (c.toNat + 4)
  else if c = '+' then some 62
  else if c = '/' then some 63
  else none

/-- The base-sixty-four digits before the padding that completes a group of four, and whether
the last group is complete; other characters are passed over. -/
def sextetsFrom (place pads : Nat) : List Char → List Nat × Bool
  | [] => ([], place = 0)
  | c :: rest =>
    if c = '=' then
      if place < 2 then sextetsFrom place pads rest
      else if 4 ≤ place + pads + 1 then ([], true)
      else sextetsFrom place (pads + 1) rest
    else
      match sextet? c with
      | some n =>
        let (ns, complete) := sextetsFrom ((place + 1) % 4) 0 rest
        (n :: ns, complete)
      | none => sextetsFrom place pads rest

/-- The bytes of groups of four base-sixty-four digits; the last group may be shorter. -/
def bytesOfSextets : List Nat → List UInt8
  | a :: b :: c :: d :: rest =>
    let n := ((a * 64 + b) * 64 + c) * 64 + d
    UInt8.ofNat (n / 65536) :: UInt8.ofNat (n / 256) :: UInt8.ofNat n :: bytesOfSextets rest
  | [a, b, c] =>
    let n := (a * 64 + b) * 64 + c
    [UInt8.ofNat (n / 1024), UInt8.ofNat (n / 4)]
  | [a, b] => [UInt8.ofNat ((a * 64 + b) / 16)]
  | _ => []

/-- How a base-sixty-four text may end too early: with one digit of a group, or without the
padding of a group. -/
inductive Base64Fault where
  | loneDigit (digits : Nat)
  | padding

/-- The wording of a fault. -/
def Base64Fault.text : Base64Fault → String
  | loneDigit digits =>
    "Invalid base64-encoded string: number of data characters (" ++ Decimal.intText digits ++
      ") cannot be 1 more than a multiple of 4"
  | padding => "Incorrect padding"

/-- The bytes of a base-sixty-four text, whose last group has to be complete. -/
def bytesOfBase64 (s : String) : Except Base64Fault (List UInt8) :=
  let (ns, complete) := sextetsFrom 0 0 s.toList
  if complete then .ok (bytesOfSextets ns)
  else .error (if ns.length % 4 = 1 then .loneDigit ns.length else .padding)

end GatewayDocs.Text

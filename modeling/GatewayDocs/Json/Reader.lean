import GatewayDocs.Text.Units
import GatewayDocs.Value.Basic

/-! # Reading JSON

`Json.parse` reads characters as one JSON value, or refuses them.  Integers and numbers with a
point or an exponent are told apart; the three words for what is not finite are read; of
equal keys the last value stays, at the first place.  An integer of too many digits ends the
reading at once.  The escape of a unit whose partner does not follow is read as a unit that
stands alone.

Every reading function returns the value and the characters that follow it.  Those that
read nested values take a bound on the depth of their calls, for which the length of the
text is enough. -/

namespace GatewayDocs.Json
open Decimal

/-- Why a text is not read. -/
inductive Fault where
  /-- It is no JSON text. -/
  | malformed
  /-- It has an integer of so many digits. -/
  | longNumeral (digits : Nat)

/-- What may not be read. -/
abbrev Reading (α : Type) := Except Fault α

/-- What is read if there is something of this form. -/
def expect {α : Type} (found : Option α) : Reading α :=
  match found with
  | some a => .ok a
  | none => .error .malformed

/-- The blanks that may stand between marks. -/
def isSpace (c : Char) : Bool := c = ' ' || c = '\t' || c = '\n' || c = '\r'

/-- Drops leading blanks. -/
def skip (cs : List Char) : List Char := cs.dropWhile isSpace

/-- The character that an escape with one letter stands for. -/
def unescape? (c : Char) : Option Char :=
  if c = '\x22' || c = '\\' || c = '/' then some c
  else if c = 'n' then some '\n'
  else if c = 'r' then some '\r'
  else if c = 't' then some '\t'
  else if c = 'b' then some '\x08'
  else if c = 'f' then some '\x0c'
  else none

/-- Reads the body of a string up to its closing mark, as code points and, from escapes,
sixteen-bit units. -/
def stringUnits : List Char → Option (List Nat × List Char)
  | [] => none
  | '\x22' :: rest => some ([], rest)
  | '\\' :: 'u' :: a :: b :: c :: d :: rest =>
    if [a, b, c, d].all (isDigitOf 16) then
      (stringUnits rest).map fun (ns, tail) => (ofDigits 16 [a, b, c, d] :: ns, tail)
    else none
  | '\\' :: c :: rest =>
    match unescape? c with
    | some e => (stringUnits rest).map fun (ns, tail) => (e.toNat :: ns, tail)
    | none => none
  | c :: rest =>
    if c.toNat < 0x20 || c = '\\' then none
    else (stringUnits rest).map fun (ns, tail) => (c.toNat :: ns, tail)

/-- Reads a string after its opening mark. -/
def string? (cs : List Char) : Option (String × List Char) :=
  (stringUnits cs).map fun (ns, rest) => (Units.ofCodes (Units.join ns), rest)

/-- Splits off the leading decimal digits. -/
def splitDigits (cs : List Char) : List Char × List Char := cs.span isDigit

/-- Splits off the digits of a fraction, if a point with a digit after it follows. -/
def splitFraction : List Char → List Char × List Char
  | '.' :: rest =>
    match splitDigits rest with
    | ([], _) => ([], '.' :: rest)
    | (ds, tail) => (ds, tail)
  | cs => ([], cs)

/-- Splits off an exponent, if one with a digit follows. -/
def splitExponent (cs : List Char) : Option Int × List Char :=
  match cs with
  | c :: rest =>
    if c = 'e' || c = 'E' then
      let (negative, after) : Bool × List Char :=
        match rest with
        | '-' :: after => (true, after)
        | '+' :: after => (false, after)
        | after => (false, after)
      match splitDigits after with
      | ([], _) => (none, cs)
      | (ds, tail) =>
        let n : Int := ofDigits 10 ds
        (some (if negative then -n else n), tail)
    else (none, cs)
  | [] => (none, [])

/-- Splits off the digits before the point, of which a leading zero is the only one. -/
def splitWhole : List Char → List Char × List Char
  | '0' :: rest => (['0'], rest)
  | cs => splitDigits cs

section Values
variable (limit : DigitLimit)

/-- Reads a number without its sign. -/
def magnitude (negative : Bool) (cs : List Char) : Reading (Value × List Char) :=
  let (whole, rest) := splitWhole cs
  if whole.isEmpty then .error .malformed
  else
    let (fraction, rest) := splitFraction rest
    let (exponent, rest) := splitExponent rest
    if fraction.isEmpty && exponent.isNone then
      if limit.allows whole.length then
        let n : Int := ofDigits 10 whole
        .ok (.int (if negative then -n else n), rest)
      else .error (.longNumeral whole.length)
    else
      let x := ofParts (ofDigits 10 (whole ++ fraction)) (exponent.getD 0 - fraction.length)
      .ok (.float (if negative then -x else x), rest)

/-- Drops a word from the front of a text. -/
def word? (word : String) (cs : List Char) : Option (List Char) :=
  if word.toList.isPrefixOf cs then some (cs.drop word.length) else none

/-- Reads one of the words that stand for a value. -/
def word (word : String) (v : Value) (cs : List Char) : Reading (Value × List Char) :=
  expect ((word? word cs).map fun rest => (v, rest))

/-- Reads a number or one of the words that stand for a value. -/
def scalar (cs : List Char) : Reading (Value × List Char) :=
  let infinity : Float := 1.0 / 0.0
  match cs with
  | 'n' :: _ => word "null" .null cs
  | 't' :: _ => word "true" (.bool true) cs
  | 'f' :: _ => word "false" (.bool false) cs
  | 'N' :: _ => word "NaN" (.float (0.0 / 0.0)) cs
  | 'I' :: _ => word "Infinity" (.float infinity) cs
  | '-' :: 'I' :: rest => word "Infinity" (.float (-infinity)) ('I' :: rest)
  | '-' :: rest => magnitude limit true rest
  | _ => magnitude limit false cs

mutual

/-- Reads a value. -/
def value : Nat → List Char → Reading (Value × List Char)
  | 0, _ => .error .malformed
  | depth + 1, cs =>
    match cs with
    | '\x22' :: rest => expect ((string? rest).map fun (s, rest) => (.str s, rest))
    | '[' :: rest =>
      match skip rest with
      | ']' :: rest => .ok (.list [], rest)
      | rest => do
        let (vs, rest) ← items depth rest
        return (.list vs, rest)
    | '\x7b' :: rest =>
      match skip rest with
      | '\x7d' :: rest => .ok (.object [], rest)
      | rest => do
        let (kvs, rest) ← fields depth [] rest
        return (.object kvs, rest)
    | _ => scalar limit cs

/-- Reads the items of a list that has one, up to its closing bracket. -/
def items : Nat → List Char → Reading (List Value × List Char)
  | 0, _ => .error .malformed
  | depth + 1, cs => do
    let (v, rest) ← value depth cs
    match skip rest with
    | ',' :: rest =>
      let (vs, rest) ← items depth (skip rest)
      return (v :: vs, rest)
    | ']' :: rest => return ([v], rest)
    | _ => throw .malformed

/-- Reads the pairs of an object that has one, up to its closing bracket, after those read
before. -/
def fields : Nat → Fields → List Char → Reading (Fields × List Char)
  | 0, _, _ => .error .malformed
  | depth + 1, before, cs =>
    match cs with
    | '\x22' :: rest => do
      let (k, rest) ← expect (string? rest)
      match skip rest with
      | ':' :: rest =>
        let (v, rest) ← value depth (skip rest)
        let now := Pairs.put (.str k) v before
        match skip rest with
        | ',' :: rest => fields depth now (skip rest)
        | '\x7d' :: rest => return (now, rest)
        | _ => throw .malformed
      | _ => throw .malformed
    | _ => .error .malformed

end

end Values

/-- Reads a text as one JSON value. -/
def parse (s : String) (limit : DigitLimit := usualLimit) : Reading Value := do
  let cs := s.toList
  let (v, rest) ← value limit (cs.length + 1) (skip cs)
  if (skip rest).isEmpty then return v else throw .malformed

end GatewayDocs.Json

import GatewayDocs.Decimal.FloatText
import GatewayDocs.Text.Blank
import GatewayDocs.Text.Case
import GatewayDocs.Text.Digit
import GatewayDocs.Value.Failure

/-! # Numbers in YAML

Integers are binary, octal, decimal, hexadecimal or groups to the base sixty; so are
floating-point numbers, except that they have no other base.  Low lines between digits do not
count.  `isInteger` and `isFloat` say which plain scalars are numbers, `integerOf` and
`floatOf` read them. -/

namespace GatewayDocs.Yaml.Number
open Decimal

/-- A digit of a base, or the low line. -/
def isDigitOrLine (base : Nat) (c : Char) : Bool := c = '_' || isDigitOf base c

/-- Splits off a sign; a minus sign is reported. -/
def splitSign : List Char → Bool × List Char
  | '-' :: rest => (true, rest)
  | '+' :: rest => (false, rest)
  | rest => (false, rest)

/-- Passes over a group of one or two digits below sixty, after its colon. -/
def afterGroup? : List Char → Option (List Char)
  | ':' :: a :: b :: rest =>
    if isDigit a then
      if isDigit b then (if a ≤ '5' then some rest else none) else some (b :: rest)
    else none
  | [':', a] => if isDigit a then some [] else none
  | _ => none

/-- Passes over groups to the base sixty. -/
def afterGroups : Nat → List Char → List Char
  | 0, cs => cs
  | n + 1, cs =>
    match afterGroup? cs with
    | some rest => afterGroups n rest
    | none => cs

/-- Whether these are groups to the base sixty, at least one, before a rest. -/
def groupsThen (rest : List Char → Bool) (cs : List Char) : Bool :=
  cs.head? = some ':' && (afterGroup? cs).isSome && rest (afterGroups cs.length cs)

/-- Whether a plain scalar is an integer. -/
def isInteger (cs : List Char) : Bool :=
  match (splitSign cs).2 with
  | '0' :: 'b' :: rest => !rest.isEmpty && rest.all (isDigitOrLine 2)
  | '0' :: 'x' :: rest => !rest.isEmpty && rest.all (isDigitOrLine 16)
  | '0' :: rest => rest.all (isDigitOrLine 8)
  | c :: rest =>
    let more := rest.dropWhile (isDigitOrLine 10)
    isDigit c && (more.isEmpty || groupsThen List.isEmpty more)
  | [] => false

/-- Whether these characters are an exponent with a sign, or nothing. -/
def isExponent : List Char → Bool
  | [] => true
  | e :: sign :: rest =>
    (e = 'e' || e = 'E') && (sign = '+' || sign = '-') && !rest.isEmpty && rest.all isDigit
  | _ => false

/-- Whether these characters are a point, digits and an exponent. -/
def isFraction : List Char → Bool
  | '.' :: rest => isExponent (rest.dropWhile (isDigitOrLine 10))
  | _ => false

/-- Whether these characters are a point and digits. -/
def isPlainFraction : List Char → Bool
  | '.' :: rest => rest.all (isDigitOrLine 10)
  | _ => false

/-- Whether these characters start with a digit and a rest follows the digits. -/
def digitsThen (rest : List Char → Bool) : List Char → Bool
  | c :: cs => isDigit c && rest (cs.dropWhile (isDigitOrLine 10))
  | [] => false

/-- The words for infinity and for what is not a number. -/
def infinityWords : List String := [".inf", ".Inf", ".INF"]

@[inherit_doc infinityWords]
def nanWords : List String := [".nan", ".NaN", ".NAN"]

/-- Whether a plain scalar is a floating-point number. -/
def isFloat (cs : List Char) : Bool :=
  let unsigned := (splitSign cs).2
  digitsThen (fun more => isFraction more || groupsThen isPlainFraction more) unsigned ||
    (cs.head? = some '.' && digitsThen isExponent (cs.drop 1)) ||
    infinityWords.contains (String.ofList unsigned) || nanWords.contains (String.ofList cs)

/-! ### Reading -/

/-- Drops the mark of a base that may stand before its digits. -/
def dropBaseMark (base : Nat) (cs : List Char) : List Char :=
  let letters : List Char :=
    if base = 2 then ['b', 'B'] else if base = 8 then ['o', 'O'] else if base = 16 then ['x', 'X']
    else []
  match cs with
  | '0' :: c :: rest => if letters.contains c then rest else cs
  | _ => cs

/-- A numeral without the white space around it; its digits are those of ASCII. -/
def numeral (cs : List Char) : List Char := (Text.trimBoth Text.isWhite cs).map Text.asciiDigit

/-- The integer that digits of a base denote, with a sign and blanks around.  Decimal numerals
may not be too long. -/
def ofBase (base : Nat) (cs : List Char) : Result Int :=
  let (negative, unsigned) := splitSign (numeral cs)
  let ds := dropBaseMark base unsigned
  let count := (ds.takeWhile (isDigitOf base)).length
  if base = 10 && digitLimit < count then .error (.longNumeral count)
  else if count = 0 || count < ds.length then .error (.notInteger base (String.ofList cs))
  else
    let n : Int := ofDigits base ds
    .ok (if negative then -n else n)

/-- The parts of a text between colons, empty ones too. -/
def groups : List Char → List (List Char)
  | [] => [[]]
  | ':' :: rest => [] :: groups rest
  | c :: rest =>
    match groups rest with
    | g :: gs => (c :: g) :: gs
    | [] => [[c]]

/-- The integer that a text without sign and low lines denotes. -/
def unsignedOf (cs : List Char) : Result Int :=
  match cs with
  | [] => .error .noCharacter
  | ['0'] => .ok 0
  | '0' :: 'b' :: rest => ofBase 2 rest
  | '0' :: 'x' :: rest => ofBase 16 rest
  | '0' :: _ => ofBase 8 cs
  | _ =>
    if cs.contains ':' then do
      let ns ← (groups cs).mapM (ofBase 10)
      return ns.foldl (fun n d => 60 * n + d) 0
    else ofBase 10 cs

/-- Drops the low lines of a text. -/
def dropLines (s : String) : List Char := s.toList.filter (· ≠ '_')

/-- The integer that a text denotes. -/
def integerOf (s : String) : Result Int := do
  let cs := dropLines s
  if cs.isEmpty then throw .noCharacter
  let (negative, unsigned) := splitSign cs
  let n ← unsignedOf unsigned
  return if negative then -n else n

/-- The floating-point number that digits with a point and an exponent denote. -/
def decimalOf? (cs : List Char) : Option Float :=
  let (whole, rest) := cs.span isDigit
  let (fraction, rest) : List Char × List Char :=
    match rest with
    | '.' :: rest => rest.span isDigit
    | _ => ([], rest)
  if whole.isEmpty && fraction.isEmpty then none
  else
    let digits := ofDigits 10 (whole ++ fraction)
    match rest with
    | [] => some (ofParts digits (-fraction.length))
    | e :: rest =>
      let (negative, exponent) := splitSign rest
      if (e = 'e' || e = 'E') && !exponent.isEmpty && exponent.all isDigit then
        let n : Int := ofDigits 10 exponent
        some (ofParts digits ((if negative then -n else n) - fraction.length))
      else none

/-- The floating-point number that a text denotes, with a sign and blanks around. -/
def ofDecimal (cs : List Char) : Result Float :=
  let (negative, unsigned) := splitSign (numeral cs)
  let word := Text.lower (String.ofList unsigned)
  let magnitude? : Option Float :=
    if word = "inf" || word = "infinity" then some (1.0 / 0.0)
    else if word = "nan" then some (0.0 / 0.0)
    else decimalOf? unsigned
  match magnitude? with
  | some x => .ok (if negative then -x else x)
  | none => .error (.notFloat (String.ofList cs))

/-- The sum of groups to the base sixty, the least group first. -/
def sumOfGroups (base total : Float) : List Float → Float
  | [] => total
  | x :: rest => sumOfGroups (base * 60.0) (total + x * base) rest

/-- The floating-point number that a text denotes. -/
def floatOf (s : String) : Result Float := do
  let cs := (Text.lower (String.ofList (dropLines s))).toList
  if cs.isEmpty then throw .noCharacter
  let (negative, unsigned) := splitSign cs
  let x : Float ←
    if unsigned = ".inf".toList then pure (1.0 / 0.0)
    else if unsigned = ".nan".toList then pure (0.0 / 0.0)
    else if unsigned.contains ':' then do
      let parts ← (groups unsigned).mapM ofDecimal
      pure (sumOfGroups 1.0 0.0 parts.reverse)
    else ofDecimal unsigned
  return if negative then -x else x

end GatewayDocs.Yaml.Number

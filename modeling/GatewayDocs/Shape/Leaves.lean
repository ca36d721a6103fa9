import GatewayDocs.Shape.Checked
import GatewayDocs.Text.Blank
import GatewayDocs.Text.Utf8

/-! # Texts, truth values and whole numbers

How the parts of a shape that have no parts themselves are read.  A text is only a text.  A
truth value may also be written as a number or a word, a whole number as a text of digits
or as a floating-point number without a fraction.  Bytes count as the text that they
encode. -/

namespace GatewayDocs.Shape
open Decimal

/-- Reads a text. -/
def text : Value → Checked String
  | .str s => .ok s
  | .atom (.bytes bs) =>
    match Text.ofBytes? ⟨bs.toArray⟩ with
    | some s => .ok s
    | none => .fault .stringUnicode
  | _ => .fault .stringType

/-- Reads a value that may be absent. -/
def orNull {α : Type} (read : Value → Checked α) : Value → Checked (Option α)
  | .null => .ok none
  | v => (read v).map some

/-- Reads bytes as the text that they encode. -/
def textOfBytes {α : Type} (bs : List UInt8) (fault : Fault) (read : String → Checked α) :
    Checked α :=
  match Text.ofBytes? ⟨bs.toArray⟩ with
  | some s => read s
  | none => .fault fault

/-- Reads a text of characters; one with a unit that stands alone is none. -/
def ofCharacters {α : Type} (s : String) (read : String → Checked α) : Checked α :=
  if Units.hasAlone s then .fault .stringUnicode else read s

/-- Reads any value as its text. -/
def spelled (v : Value) : Checked String :=
  match v.text with
  | .ok s => .ok s
  | .error e => .fault (.refused e.message)

/-- The words for false, in small letters. -/
def falseWords : List String := ["0", "off", "f", "false", "n", "no"]

/-- The words for true, in small letters. -/
def trueWords : List String := ["1", "on", "t", "true", "y", "yes"]

/-- Whether an integer fits into a signed word of sixty-four bits. -/
def fitsWord (n : Int) : Bool := -9223372036854775808 ≤ n && n < 9223372036854775808

/-- Whether an integer lies strictly between the ends of a signed word of sixty-four bits. -/
def insideWord (n : Int) : Bool := -9223372036854775808 < n && n < 9223372036854775808

/-- Reads zero and one as truth values. -/
def flagOfInt (n : Int) : Checked Bool :=
  if n = 0 then .ok false else if n = 1 then .ok true else .fault .boolParsing

/-- Reads a word for a truth value in letters of any case. -/
def flagOfWord (s : String) : Checked Bool :=
  let word := String.ofList (s.toList.map Char.toLower)
  if falseWords.contains word then .ok false
  else if trueWords.contains word then .ok true
  else .fault .boolParsing

/-- Reads a truth value, a number zero or one, or a word for it. -/
def flag : Value → Checked Bool
  | .bool b => .ok b
  | .str s => ofCharacters s flagOfWord
  | .atom (.bytes bs) => textOfBytes bs .boolParsing flagOfWord
  | .int n => if fitsWord n then flagOfInt n else .fault .boolType
  | .float x =>
    match wholeOf? x with
    | some n => if insideWord n then flagOfInt n else .fault .boolType
    | none => .fault .boolType
  | _ => .fault .boolType

/-- The greatest number of bytes of a text that is read as a whole number. -/
def integerLimit : Nat := 4300

/-- What follows the zeros at the start of a numeral: of a numeral of zeros and low lines only
the last character stays, and the last zero before a point stays.  Among the zeros there may
be low lines, and after them a minus sign. -/
def afterZeros? (last : Char) : List Char → Option (List Char)
  | [] => some [last]
  | c :: rest =>
    if c = '0' || c = '_' then afterZeros? c rest
    else if isDigit c || c = '-' then some (c :: rest)
    else if c = '.' then some (last :: c :: rest)
    else none

/-- A numeral without zeros at its start. -/
def dropZeros? : List Char → Option (List Char)
  | [] => none
  | c :: rest =>
    if c = '0' then afterZeros? c rest
    else if isDigit c || c = '-' then some (c :: rest)
    else none

/-- Drops a point and the zeros after it, if there is one of each. -/
def dropZeroFraction (cs : List Char) : List Char :=
  match cs.span (· ≠ '.') with
  | (whole, '.' :: '0' :: zeros) => if zeros.all (· = '0') then whole else cs
  | _ => cs

/-- Whether two low lines follow each other. -/
def hasDoubleLine : List Char → Bool
  | '_' :: '_' :: _ => true
  | _ :: rest => hasDoubleLine rest
  | [] => false

/-- Drops low lines, if each of them is between two other characters. -/
def dropInnerLines (cs : List Char) : List Char :=
  if cs.head? = some '_' || cs.getLast? = some '_' || hasDoubleLine cs then cs
  else cs.filter (· ≠ '_')

/-- The integer that digits denote, after a minus sign or not. -/
def integerOfDigits? (cs : List Char) : Option Int :=
  let (negative, ds) : Bool × List Char :=
    match cs with
    | '-' :: rest => (true, rest)
    | rest => (false, rest)
  if ds.isEmpty || !ds.all isDigit then none
  else
    let n : Int := ofDigits 10 ds
    some (if negative then -n else n)

/-- The integer that a numeral denotes: a sign, zeros at the start, low lines between digits
and a fraction of zeros are allowed. -/
def integer? (cs : List Char) : Option Int := do
  let unsigned ←
    match cs with
    | '+' :: '-' :: _ => none
    | '+' :: rest => some rest
    | rest => some rest
  integerOfDigits? (dropInnerLines (dropZeroFraction (← dropZeros? unsigned)))

/-- Reads a numeral with white space around it. -/
def integerOfText (s : String) : Checked Int :=
  let cs := Text.trimBoth Text.isWhite s.toList
  if integerLimit < Text.byteSize cs then .fault .intParsingSize
  else
    match integer? cs with
    | some n => .ok n
    | none => .fault .intParsing

/-- Reads a whole number. -/
def integer : Value → Checked Int
  | .int n => .ok n
  | .bool b => .ok (if b then 1 else 0)
  | .str s => ofCharacters s integerOfText
  | .atom (.bytes bs) => textOfBytes bs .intParsing integerOfText
  | .float x =>
    if x.isNaN || x.isInf then .fault .finiteNumber
    else
      match wholeOf? x with
      | some n => if insideWord n then .ok n else .fault .intParsingSize
      | none => .fault .intFromFloat
  | _ => .fault .intType

/-- A whole number that is at least one. -/
abbrev Positive : Type := {n : Int // 1 ≤ n}

instance (n : Nat) : OfNat Positive (n + 1) :=
  ⟨⟨Int.ofNat (n + 1), Int.ofNat_le.mpr (Nat.succ_pos n)⟩⟩

/-- Reads a whole number that is at least one. -/
def positive (v : Value) : Checked Positive :=
  match integer v with
  | .ok n => if h : 1 ≤ n then .ok ⟨n, h⟩ else .fault .greaterThanEqual
  | .faulty ps => .faulty ps

end GatewayDocs.Shape

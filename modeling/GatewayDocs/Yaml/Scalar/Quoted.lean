import GatewayDocs.Text.Units
import GatewayDocs.Yaml.Scalar.Plain

/-! # Quoted scalars

Between single quotes a quote is written twice; between double quotes a backslash starts an
escape; the escape of a unit of a pair is a unit that stands alone, also before that of its
partner.  What stands between quotes is read as codes.  Breaks of lines are folded as in plain
scalars, and a backslash at the end of a line joins two lines. -/

namespace GatewayDocs.Yaml
namespace Quoted

/-- What a character after a backslash stands for. -/
def escaped? (c : Char) : Option Char :=
  match c with
  | '0' => some '\x00'
  | 'a' => some '\x07'
  | 'b' => some '\x08'
  | 't' => some '\t'
  | '\t' => some '\t'
  | 'n' => some '\n'
  | 'v' => some '\x0b'
  | 'f' => some '\x0c'
  | 'r' => some '\r'
  | 'e' => some '\x1b'
  | ' ' => some ' '
  | '\x22' => some '\x22'
  | '\\' => some '\\'
  | '/' => some '/'
  | 'N' => some '\u0085'
  | '_' => some '\u00a0'
  | 'L' => some '\u2028'
  | 'P' => some '\u2029'
  | _ => none

/-- How many hexadecimal digits follow a backslash and a character. -/
def codeLength? (c : Char) : Option Nat :=
  match c with
  | 'x' => some 2
  | 'u' => some 4
  | 'U' => some 8
  | _ => none

/-- A character that stands for itself between quotes. -/
def isOrdinary (c : Char) : Bool :=
  !(isBlankOrEnd c || c = '\x27' || c = '\x22' || c = '\\')

/-- The code that an escape names, if it is one. -/
def checkCode (code : Nat) : Except Failure Nat :=
  if code > 0x7fffffff then .error .codeTooLarge
  else if code > 0x10ffff then .error .noSuchCode
  else .ok code

/-- The codes of characters. -/
def codesOf (cs : List Char) : List Nat := cs.map Char.toNat

end Quoted

namespace Lex

/-- Takes the breaks of lines between the parts of a quoted scalar. -/
def quotedBreaks (first : Mark) : Nat → Lex (List Char)
  | 0 => return []
  | n + 1 => do
    if atSeparator (← get).rest then
      fail (some "while scanning a quoted scalar") (some first)
        "found unexpected document separator"
    skipWhile fun c => c = ' ' || c = '\t'
    if isBreak (← next) then
      let br ← lineBreak
      return br ++ (← quotedBreaks first n)
    else return []

/-- Takes what a backslash starts. -/
def quotedEscape (first : Mark) : Lex (List Nat) := do
  let context := "while scanning a double-quoted scalar"
  forward 1
  let c ← next
  match Quoted.escaped? c, Quoted.codeLength? c with
  | some d, _ =>
    forward 1
    return [d.toNat]
  | none, some length =>
    forward 1
    for k in List.range length do
      let d ← peek k
      if !Decimal.isDigitOf 16 d then
        fail (some context) (some first)
          ("expected escape sequence of " ++ Decimal.intText length ++
            " hexadecimal numbers, but found " ++ quotedChar d)
    let code := Decimal.ofDigits 16 (← take length)
    match Quoted.checkCode code with
    | .ok n => return [n]
    | .error f => throw (.scalar f)
  | none, none =>
    if isBreak c then
      let _ ← lineBreak
      return Quoted.codesOf (← quotedBreaks first ((← get).rest.length + 1))
    else
      fail (some context) (some first) ("found unknown escape character " ++ quotedChar c)

/-- Takes the part of a quoted scalar up to a blank, a break or the closing quote. -/
def quotedWord (double : Bool) (first : Mark) : Nat → Lex (List Nat)
  | 0 => return []
  | n + 1 => do
    let ordinary ← takeWhile Quoted.isOrdinary
    let c ← next
    let special ←
      if double then
        if c = '\x27' then some <$> Quoted.codesOf <$> take 1
        else if c = '\\' then some <$> quotedEscape first
        else pure none
      else if c = '\x27' && (← peek 1) = '\x27' then
        forward 2
        pure (some (Quoted.codesOf ['\x27']))
      else if c = '\x22' || c = '\\' then some <$> Quoted.codesOf <$> take 1
      else pure none
    match special with
    | some ns => return Quoted.codesOf ordinary ++ ns ++ (← quotedWord double first n)
    | none => return Quoted.codesOf ordinary

/-- Takes the blanks or breaks between two parts of a quoted scalar, folded. -/
def quotedGap (first : Mark) : Lex (List Char) := do
  let blanks ← takeWhile fun c => c = ' ' || c = '\t'
  let c ← next
  if c = endChar then
    fail (some "while scanning a quoted scalar") (some first) "found unexpected end of stream"
  else if isBreak c then
    let br ← lineBreak
    return foldBreaks br (← quotedBreaks first ((← get).rest.length + 1))
  else return blanks

/-- Takes the rest of a quoted scalar after its first part, without the closing quote. -/
def quotedRest (quote : Char) (first : Mark) : Nat → Lex (List Nat)
  | 0 => return []
  | n + 1 => do
    if (← next) = quote then return []
    let gap ← quotedGap first
    let word ← quotedWord (quote = '\x22') first ((← get).rest.length + 1)
    return Quoted.codesOf gap ++ word ++ (← quotedRest quote first n)

/-- Reads a quoted scalar. -/
def readQuoted (quote : Char) : Lex Unit := do
  let first ← here
  forward 1
  let length := (← get).rest.length + 1
  let word ← quotedWord (quote = '\x22') first length
  let rest ← quotedRest quote first length
  forward 1
  push ⟨.scalar (Units.ofCodes (word ++ rest)) false, first, ← here⟩

end Lex
end GatewayDocs.Yaml

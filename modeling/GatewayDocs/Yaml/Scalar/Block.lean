import GatewayDocs.Yaml.Property

/-! # Block scalars

A block scalar is a number of lines that are indented alike.  A literal one keeps its lines;
in a folded one a single break between two lines that do not start with a blank becomes a
space.  What happens to the breaks at the end is told by its header. -/

namespace GatewayDocs.Yaml

/-- What happens to the breaks at the end of a block scalar. -/
inductive Chomp where
  | strip
  | clip
  | keep
deriving DecidableEq

namespace Lex

/-- The context of a problem in a block scalar. -/
def inBlockScalar : String := "while scanning a block scalar"

/-- Takes the sign that tells what happens at the end. -/
def chompSign : Lex (Option Chomp) := do
  let c ← next
  if c = '+' then
    forward 1
    return some .keep
  else if c = '-' then
    forward 1
    return some .strip
  else return none

/-- Takes the digit that tells the indentation. -/
def indentDigit (first : Mark) : Lex (Option Nat) := do
  let c ← next
  if Decimal.isDigit c then
    if c = '0' then
      fail (some inBlockScalar) (some first)
        "expected indentation indicator in the range 1-9, but found 0"
    forward 1
    return some (Decimal.digitValue c)
  else return none

/-- Takes the header of a block scalar: a sign and a digit in any order. -/
def blockHeader (first : Mark) : Lex (Chomp × Option Nat) := do
  let sign ← chompSign
  let digit ← indentDigit first
  let sign ← if sign.isNone && digit.isSome then chompSign else pure sign
  expectSpace inBlockScalar first "expected chomping or indentation indicators"
  return (sign.getD .clip, digit)

/-- Takes the empty lines before the first line of a block scalar; the widest column and the
end of the last break come with them. -/
def blockStart (widest : Nat) (last : Mark) : Nat → Lex (List Char × Nat × Mark)
  | 0 => return ([], widest, last)
  | n + 1 => do
    let c ← next
    if c = ' ' then
      forward 1
      blockStart (max widest (← here).column) last n
    else if isBreak c then
      let br ← lineBreak
      let (more, widest, last) ← blockStart widest (← here) n
      return (br ++ more, widest, last)
    else return ([], widest, last)

/-- Passes over spaces up to a column. -/
def indentTo (column : Int) : Lex Unit := do
  let spaces := ((← get).rest.takeWhile (· = ' ')).length
  forward (min spaces (column - (← here).column).toNat)

/-- Takes empty lines; the end of the last break comes with them. -/
def blockBreaks (indent : Int) (last : Mark) : Nat → Lex (List Char × Mark)
  | 0 => return ([], last)
  | n + 1 => do
    indentTo indent
    if isBreak (← next) then
      let br ← lineBreak
      let (more, last) ← blockBreaks indent (← here) n
      return (br ++ more, last)
    else return ([], last)

/-- Whether a line of the block scalar starts here. -/
def atBlockLine (indent : Int) : Lex Bool :=
  return (← column) = indent && (← next) ≠ endChar

/-- The lines of a block scalar: its text, the break after the last line, the breaks that
follow and where they end. -/
structure BlockLines where
  text : List Char
  lastBreak : List Char
  trailing : List Char
  last : Mark

/-- Takes the lines of a block scalar after some breaks. -/
def blockLines (folded : Bool) (indent : Int) (breaks : List Char) (last : Mark) :
    Nat → Lex BlockLines
  | 0 => return ⟨[], [], breaks, last⟩
  | n + 1 => do
    if !(← atBlockLine indent) then return ⟨[], [], breaks, last⟩
    let isBlank (c : Char) : Bool := c = ' ' || c = '\t'
    let indented := isBlank (← next)
    let line ← takeWhile fun c => !isLineEnd c
    let br ← lineBreak
    let (more, last) ← blockBreaks indent (← here) ((← get).rest.length + 1)
    let text := breaks ++ line
    if ← atBlockLine indent then
      let joint :=
        if folded && br = ['\n'] && !indented && !isBlank (← next) then
          if more.isEmpty then [' '] else []
        else br
      let lines ← blockLines folded indent more last n
      return { lines with text := text ++ joint ++ lines.text }
    else return ⟨text, br, more, last⟩

/-- Reads a block scalar. -/
def readBlock (folded : Bool) : Lex Unit := do
  let first ← here
  forward 1
  let (chomp, digit) ← blockHeader first
  skipComment inBlockScalar first
  let least := max ((← get).indent + 1) 1
  let length := (← get).rest.length + 1
  let (breaks, indent, last) ←
    match digit with
    | some n => do
      let indent := least + n - 1
      let (breaks, last) ← blockBreaks indent (← here) length
      pure (breaks, indent, last)
    | none => do
      let (breaks, widest, last) ← blockStart 0 (← here) length
      pure (breaks, max least widest, last)
  let lines ← blockLines folded indent breaks last length
  let ending :=
    match chomp with
    | .strip => []
    | .clip => lines.lastBreak
    | .keep => lines.lastBreak ++ lines.trailing
  push ⟨.scalar (Units.ofChars (lines.text ++ ending)) false, first, lines.last⟩

end Lex
end GatewayDocs.Yaml

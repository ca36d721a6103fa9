import GatewayDocs.Value.Failure

/-! # Places in a YAML text

A mark is a place in a text, by index, line and column.  A report on a text that cannot be
read names the places with a line of the text and a caret under the place (`Mark.text`). -/

namespace GatewayDocs.Yaml

/-- A place in a text. -/
structure Mark where
  index : Nat
  line : Nat
  column : Nat
deriving DecidableEq

/-- A character that ends a line. -/
def isBreak (c : Char) : Bool :=
  c = '\n' || c = '\r' || c = '\u0085' || c = '\u2028' || c = '\u2029'

/-- The character that stands for the end of a text. -/
def endChar : Char := '\x00'

/-- The end of a line or of the text. -/
def isLineEnd (c : Char) : Bool := c = endChar || isBreak c

/-- The end of a line or of the text, or a space. -/
def isSpaceOrEnd (c : Char) : Bool := c = ' ' || isLineEnd c

/-- The end of a line or of the text, or a blank. -/
def isBlankOrEnd (c : Char) : Bool := c = '\t' || isSpaceOrEnd c

namespace Mark

/-- How many characters of a line are shown on each side of a place at most. -/
def sideLimit : Nat := 37

/-- How many are shown if there are more. -/
def sideShown : Nat := 32

/-- The mark of what is not shown. -/
def omission : List Char := " ... ".toList

/-- The part of a line before a place, with a mark if it is shortened; it is given in
reverse. -/
def leftSide (reversed : List Char) : List Char :=
  let line := reversed.takeWhile fun c => !isLineEnd c
  if line.length < sideLimit then line.reverse
  else omission ++ (line.take sideShown).reverse

/-- The part of a line after a place, with a mark if it is shortened. -/
def rightSide (cs : List Char) : List Char :=
  let line := cs.takeWhile fun c => !isLineEnd c
  if line.length < sideLimit then line else line.take sideShown ++ omission

/-- A place with the line of a text that it is on. -/
def text (source : List Char) (m : Mark) : String :=
  let left := leftSide (source.take m.index).reverse
  let right := rightSide (source.drop m.index)
  "  in \"<unicode string>\", line " ++ Decimal.intText (m.line + 1 : Nat) ++ ", column " ++
    Decimal.intText (m.column + 1 : Nat) ++ ":\n    " ++ Units.ofChars (left ++ right) ++
    "\n    " ++ String.ofList (List.replicate left.length ' ') ++ "^"

end Mark

/-- Why a YAML text cannot be read. -/
inductive Fault where
  /-- A problem at a place, in a context that may have a place too. -/
  | marked (context : Option String) (contextMark : Option Mark) (problem : String)
      (problemMark : Mark)
  /-- A character that may not occur. -/
  | hidden (c : Char) (position : Nat)
  /-- A scalar that has not the form of its kind. -/
  | scalar (failure : Failure)
  /-- A text nested too deeply to be read. -/
  | exhausted

namespace Fault

/-- The report on a text. -/
def report (source : List Char) : Fault → String
  | marked context contextMark problem problemMark =>
    let place :=
      match contextMark with
      | some m =>
        if m.line = problemMark.line ∧ m.column = problemMark.column then []
        else [m.text source]
      | none => []
    "\n".intercalate (context.toList ++ place ++ [problem, problemMark.text source])
  | hidden c position =>
    "unacceptable character #x" ++ String.ofList (Decimal.hexDigits 4 c.toNat) ++
      ": special characters are not allowed\n  in \"<unicode string>\", position " ++
      Decimal.intText position
  | scalar failure => failure.message
  | exhausted => "nested too deeply"

end Fault
end GatewayDocs.Yaml

import GatewayDocs.Yaml.Lexer

/-! # Plain scalars

A plain scalar has no quotes.  It ends at a colon before a blank, at a comment, at a line
that is indented less, at a line that separates documents and, inside brackets, at an
indicator of brackets.  A single break of a line becomes a space; of more breaks the first is
dropped. -/

namespace GatewayDocs.Yaml

/-- An indicator of brackets: it ends a plain scalar inside them. -/
def isBracketMark (c : Char) : Bool :=
  c = ',' || c = '[' || c = ']' || c = '\x7b' || c = '\x7d'

/-- Whether a line that separates documents starts here. -/
def atSeparator (cs : List Char) : Bool :=
  (cs.take 3 = ['-', '-', '-'] || cs.take 3 = ['.', '.', '.']) &&
    isBlankOrEnd (cs.getD 3 endChar)

/-- How breaks of lines are folded: a newline becomes a space, or nothing before more
breaks. -/
def foldBreaks (first more : List Char) : List Char :=
  if first ≠ ['\n'] then first ++ more
  else if more.isEmpty then [' '] else more

namespace Plain

/-- Whether a word of a plain scalar ends before these characters. -/
def wordEnds (flow : Bool) : List Char → Bool
  | [] => true
  | c :: rest =>
    isBlankOrEnd c ||
      (c = ':' &&
        (isBlankOrEnd (rest.headD endChar) || (flow && isBracketMark (rest.headD endChar)))) ||
      (flow && (c = '?' || isBracketMark c))

/-- The length of a word of a plain scalar. -/
def wordLength (flow : Bool) : List Char → Nat
  | [] => 0
  | c :: rest => if wordEnds flow (c :: rest) then 0 else wordLength flow rest + 1

end Plain

namespace Lex

/-- Takes breaks of lines and the spaces between them; nothing if a line that separates
documents is met. -/
def plainBreaks : Nat → Lex (Option (List Char))
  | 0 => return some []
  | n + 1 => do
    let c ← next
    if c = ' ' then
      forward 1
      plainBreaks n
    else if isBreak c then
      let br ← lineBreak
      if atSeparator (← get).rest then return none
      return (← plainBreaks n).map (br ++ ·)
    else return some []

/-- Takes what is between two words of a plain scalar, folded; nothing if the scalar ends. -/
def plainGap : Lex (List Char) := do
  let spaces ← takeWhile (· = ' ')
  if isBreak (← next) then
    let first ← lineBreak
    allowKey true
    if atSeparator (← get).rest then return []
    match ← plainBreaks ((← get).rest.length + 1) with
    | some more => return foldBreaks first more
    | none => return []
  else return spaces

/-- Takes the words of a plain scalar, the first of them after a gap; the end of the last
word comes with them. -/
def plainWords (indent : Int) (gap : List Char) (last : Mark) : Nat → Lex (List Char × Mark)
  | 0 => return ([], last)
  | n + 1 => do
    let flow ← inFlow
    let length := Plain.wordLength flow (← get).rest
    if length = 0 || (← next) = '#' then return ([], last)
    allowKey false
    let word ← take length
    let last ← here
    let after ← plainGap
    let (more, last) ←
      if after.isEmpty || (← next) = '#' || (!flow && (← column) < indent) then
        pure ([], last)
      else plainWords indent after last n
    return (gap ++ word ++ more, last)

/-- Reads a plain scalar. -/
def readPlain : Lex Unit := do
  let first ← here
  let (text, last) ← plainWords ((← get).indent + 1) [] first ((← get).rest.length + 1)
  push ⟨.scalar (Units.ofChars text) true, first, last⟩

end Lex
end GatewayDocs.Yaml

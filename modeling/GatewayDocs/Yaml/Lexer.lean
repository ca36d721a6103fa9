import GatewayDocs.Yaml.Token

/-! # Reading characters and places

The state of reading a YAML text token by token (`Lexer`): what is left of the text, the
tokens that are read and not yet taken, and what indentation and keys without an indicator
need to be remembered.

A scalar may turn out to be a key when the colon after it is read.  Where that is possible
is remembered (`SimpleKey`); such a key is on one line and not longer than 1024
characters. -/

namespace GatewayDocs.Yaml

/-- A place where a key without an indicator may start. -/
structure SimpleKey where
  token : Nat
  required : Bool
  mark : Mark

/-- The state of reading a text. -/
structure Lexer where
  rest : List Char
  mark : Mark
  tokens : List Token
  taken : Nat
  finished : Bool
  flowLevel : Int
  indent : Int
  indents : List Int
  keyAllowed : Bool
  keys : List (Int × SimpleKey)

/-- A computation on the state of reading. -/
abbrev Lex := EStateM Fault Lexer

namespace Lexer

/-- The state before a text. -/
def start (source : List Char) : Lexer :=
  let mark : Mark := ⟨0, 0, 0⟩
  { rest := source, mark, tokens := [⟨.streamStart, mark, mark⟩], taken := 0, finished := false,
    flowLevel := 0, indent := -1, indents := [], keyAllowed := true, keys := [] }

/-- The place after a character that another one follows. -/
def markAfter (m : Mark) (c next : Char) : Mark :=
  if (isBreak c && c ≠ '\r') || (c = '\r' && next ≠ '\n') then ⟨m.index + 1, m.line + 1, 0⟩
  else if c = '\ufeff' then { m with index := m.index + 1 }
  else ⟨m.index + 1, m.line, m.column + 1⟩

/-- Passes over a number of characters. -/
def advance : Nat → Mark → List Char → Mark × List Char
  | 0, m, cs => (m, cs)
  | _ + 1, m, [] => (m, [])
  | n + 1, m, c :: rest => advance n (markAfter m c (rest.headD endChar)) rest

end Lexer

namespace Lex

/-- Fails with a problem at the place that is reached. -/
def fail {α : Type} (context : Option String) (contextMark : Option Mark) (problem : String) :
    Lex α := do
  throw (.marked context contextMark problem (← get).mark)

/-- The character some places ahead. -/
def peek (n : Nat) : Lex Char := return (← get).rest.getD n endChar

/-- The next character. -/
def next : Lex Char := peek 0

/-- The place that is reached. -/
def here : Lex Mark := return (← get).mark

/-- The column that is reached. -/
def column : Lex Int := return (← get).mark.column

/-- A number of characters ahead. -/
def ahead (n : Nat) : Lex (List Char) := return (← get).rest.take n

/-- Passes over a number of characters. -/
def forward (n : Nat) : Lex Unit :=
  modify fun s =>
    let (mark, rest) := Lexer.advance n s.mark s.rest
    { s with mark, rest }

/-- Takes a number of characters. -/
def take (n : Nat) : Lex (List Char) := do
  let cs ← ahead n
  forward n
  return cs

/-- Takes the characters of a class that come next. -/
def takeWhile (p : Char → Bool) : Lex (List Char) := do
  take ((← get).rest.takeWhile p).length

/-- Passes over the characters of a class that come next. -/
def skipWhile (p : Char → Bool) : Lex Unit := do
  let _ ← takeWhile p
  return ()

/-- Takes the break of a line, if one comes next; most breaks become a newline. -/
def lineBreak : Lex (List Char) := do
  let c ← next
  if c = '\r' || c = '\n' || c = '\u0085' then
    if (← ahead 2) = ['\r', '\n'] then forward 2 else forward 1
    return ['\n']
  else if c = '\u2028' || c = '\u2029' then
    forward 1
    return [c]
  else return []

/-- Adds a token at the end of those that are read. -/
def push (t : Token) : Lex Unit := modify fun s => { s with tokens := s.tokens ++ [t] }

/-- Adds a token without extent. -/
def pushHere (kind : TokenKind) : Lex Unit := do
  let m ← here
  push ⟨kind, m, m⟩

/-- Adds the token of an indicator of some characters. -/
def pushIndicator (kind : TokenKind) (length : Nat) : Lex Unit := do
  let first ← here
  forward length
  push ⟨kind, first, ← here⟩

/-- How a character is named in messages. -/
def quotedChar (c : Char) : String := Text.quoted (Units.ofChars [c])

/-- Whether reading is inside brackets. -/
def inFlow : Lex Bool := return (← get).flowLevel ≠ 0

/-! ### Keys without an indicator -/

/-- Fails because a key has no colon. -/
def missingColon {α : Type} (key : SimpleKey) : Lex α :=
  fail (some "while scanning a simple key") (some key.mark) "could not find expected ':'"

/-- Forgets the keys that can no longer be completed. -/
def dropStale : Lex Unit := do
  let s ← get
  let stale (k : SimpleKey) : Bool :=
    k.mark.line ≠ s.mark.line || s.mark.index - k.mark.index > 1024
  match s.keys.find? fun lk => stale lk.2 && lk.2.required with
  | some lk => missingColon lk.2
  | none => set { s with keys := s.keys.filter fun lk => !stale lk.2 }

/-- Forgets the key that may have started at this level. -/
def dropKey : Lex Unit := do
  let s ← get
  match s.keys.lookup s.flowLevel with
  | some k =>
    if k.required then missingColon k
    else set { s with keys := s.keys.filter fun lk => lk.1 ≠ s.flowLevel }
  | none => return ()

/-- Remembers that a key may start here. -/
def saveKey : Lex Unit := do
  if (← get).keyAllowed then
    dropKey
    let s ← get
    let required := s.flowLevel = 0 && s.indent = s.mark.column
    let key : SimpleKey := ⟨s.taken + s.tokens.length, required, s.mark⟩
    set { s with keys := s.keys ++ [(s.flowLevel, key)] }

/-- Says whether a key may start next. -/
def allowKey (b : Bool) : Lex Unit := modify fun s => { s with keyAllowed := b }

/-! ### Indentation -/

/-- Ends the blocks that are indented more than a column. -/
def unwindFrom : List Int → Int → Lex Unit
  | [], _ => return ()
  | outer :: rest, column => do
    if (← get).indent > column then
      modify fun s => { s with indent := outer, indents := rest }
      pushHere .blockEnd
      unwindFrom rest column

/-- Ends the blocks that are indented more than a column, outside brackets. -/
def unwind (column : Int) : Lex Unit := do
  if !(← inFlow) then unwindFrom (← get).indents column

/-- Starts a block at a column, if it is indented more; says whether it does. -/
def startBlock (column : Int) : Lex Bool := do
  let s ← get
  if s.indent < column then
    set { s with indents := s.indent :: s.indents, indent := column }
    return true
  else return false

end Lex
end GatewayDocs.Yaml

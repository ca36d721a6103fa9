import GatewayDocs.Yaml.Scalar.Block
import GatewayDocs.Yaml.Scalar.Quoted

/-! # The stream of tokens

Tokens are read as they are needed (`Lex.peekToken`, `Lex.takeToken`).  A token is needed
early only where it may still turn out to be a key, because then the start of a mapping and
the mark of the key come before it. -/

namespace GatewayDocs.Yaml
namespace Lex

/-- Passes over blanks, comments and breaks.  Outside brackets a key may start on a new
line. -/
def skipToToken : Nat → Lex Unit
  | 0 => return ()
  | n + 1 => do
    skipSpaces
    if (← next) = '#' then skipWhile fun c => !isLineEnd c
    if isBreak (← next) then
      let _ ← lineBreak
      if !(← inFlow) then allowKey true
      skipToToken n

/-- Passes over what comes before the next token; a byte order mark may start the text. -/
def skipBlanks : Lex Unit := do
  if (← get).mark.index = 0 && (← next) = '\ufeff' then forward 1
  skipToToken ((← get).rest.length + 1)

/-- Ends all blocks and forgets the key that may have started. -/
def closeBlocks : Lex Unit := do
  unwind (-1)
  dropKey
  allowKey false

/-- Reads the end of the text. -/
def readEnd : Lex Unit := do
  closeBlocks
  modify fun s => { s with keys := [], finished := true }
  pushHere .streamEnd

/-- Reads the start of brackets. -/
def readOpening (kind : TokenKind) : Lex Unit := do
  saveKey
  modify fun s => { s with flowLevel := s.flowLevel + 1, keyAllowed := true }
  pushIndicator kind 1

/-- Reads the end of brackets. -/
def readClosing (kind : TokenKind) : Lex Unit := do
  dropKey
  modify fun s => { s with flowLevel := s.flowLevel - 1, keyAllowed := false }
  pushIndicator kind 1

/-- Reads a comma. -/
def readFlowEntry : Lex Unit := do
  allowKey true
  dropKey
  pushIndicator .flowEntry 1

/-- Outside brackets, starts a block at this column if it is indented more; it has to be at a
place where a key may start. -/
def enterBlock (kind : TokenKind) (problem : String) : Lex Unit := do
  if !(← inFlow) then
    if !(← get).keyAllowed then fail none none problem
    if ← startBlock (← column) then pushHere kind

/-- Reads the dash of an item. -/
def readBlockEntry : Lex Unit := do
  enterBlock .blockSequenceStart "sequence entries are not allowed here"
  allowKey true
  dropKey
  pushIndicator .blockEntry 1

/-- Reads the question mark of a key. -/
def readKey : Lex Unit := do
  enterBlock .blockMappingStart "mapping keys are not allowed here"
  allowKey (!(← inFlow))
  dropKey
  pushIndicator .key 1

/-- Puts a token before others that are read and not yet taken. -/
def insertToken (position : Nat) (t : Token) : Lex Unit :=
  modify fun s => { s with tokens := s.tokens.take position ++ t :: s.tokens.drop position }

/-- Marks what started at a place as a key. -/
def completeKey (key : SimpleKey) : Lex Unit := do
  let s ← get
  let position := key.token - s.taken
  set { s with keys := s.keys.filter fun lk => lk.1 ≠ s.flowLevel }
  insertToken position ⟨.key, key.mark, key.mark⟩
  if !(← inFlow) then
    if ← startBlock key.mark.column then
      insertToken position ⟨.blockMappingStart, key.mark, key.mark⟩
  allowKey false

/-- Reads the colon of a value. -/
def readValue : Lex Unit := do
  let s ← get
  match s.keys.lookup s.flowLevel with
  | some key => completeKey key
  | none =>
    enterBlock .blockMappingStart "mapping values are not allowed here"
    allowKey (!(← inFlow))
    dropKey
  pushIndicator .value 1

/-- Reads a token that may start a key. -/
def readKeyStart (read : Lex Unit) : Lex Unit := do
  saveKey
  allowKey false
  read

/-- Reads a block scalar; a key may follow it. -/
def readBlockScalar (folded : Bool) : Lex Unit := do
  allowKey true
  dropKey
  readBlock folded

/-- Reads a line that separates documents. -/
def readSeparator (kind : TokenKind) : Lex Unit := do
  closeBlocks
  pushIndicator kind 3

/-- Whether a plain scalar may start with these characters. -/
def startsPlain (flow : Bool) (c after : Char) : Bool :=
  !(isBlankOrEnd c || "-?:,[]\x7b\x7d#&*!|>'\x22%@\x60".toList.contains c) ||
    (!isBlankOrEnd after && (c = '-' || (!flow && (c = '?' || c = ':'))))

/-- Reads the next token after what comes before it. -/
def readToken : Lex Unit := do
  let c ← next
  let after ← peek 1
  let flow ← inFlow
  let atStart := (← column) = 0
  let separates := atStart && atSeparator (← get).rest
  let indicates := flow || isBlankOrEnd after
  if c = endChar then readEnd
  else if c = '%' && atStart then do
    closeBlocks
    readDirective
  else if c = '-' && separates then readSeparator .documentStart
  else if c = '.' && separates then readSeparator .documentEnd
  else if c = '[' then readOpening .flowSequenceStart
  else if c = '\x7b' then readOpening .flowMappingStart
  else if c = ']' then readClosing .flowSequenceEnd
  else if c = '\x7d' then readClosing .flowMappingEnd
  else if c = ',' then readFlowEntry
  else if c = '-' && isBlankOrEnd after then readBlockEntry
  else if c = '?' && indicates then readKey
  else if c = ':' && indicates then readValue
  else if c = '*' then readKeyStart (readAnchor true)
  else if c = '&' then readKeyStart (readAnchor false)
  else if c = '!' then readKeyStart readTag
  else if c = '|' && !flow then readBlockScalar false
  else if c = '>' && !flow then readBlockScalar true
  else if c = '\x27' || c = '\x22' then readKeyStart (readQuoted c)
  else if startsPlain flow c after then readKeyStart readPlain
  else
    fail (some "while scanning for the next token") none
      ("found character " ++ quotedChar c ++ " that cannot start any token")

/-- Reads more tokens. -/
def readMore : Lex Unit := do
  skipBlanks
  dropStale
  unwind (← column)
  readToken

/-- Whether more tokens have to be read before the next one can be told. -/
def needsMore : Lex Bool := do
  let s ← get
  if s.finished then return false
  if s.tokens.isEmpty then return true
  dropStale
  let s ← get
  match (s.keys.map fun lk => lk.2.token).min? with
  | some token => return token = s.taken
  | none => return false

/-- Reads tokens until the next one can be told. -/
def readAsNeeded : Nat → Lex Unit
  | 0 => throw .exhausted
  | n + 1 => do
    if ← needsMore then
      readMore
      readAsNeeded n

/-- The next token. -/
def peekToken : Lex Token := do
  readAsNeeded ((← get).rest.length + 4)
  let s ← get
  return s.tokens.headD ⟨.streamEnd, s.mark, s.mark⟩

/-- Takes the next token. -/
def takeToken : Lex Token := do
  let t ← peekToken
  modify fun s => { s with tokens := s.tokens.drop 1, taken := s.taken + 1 }
  return t

end Lex
end GatewayDocs.Yaml

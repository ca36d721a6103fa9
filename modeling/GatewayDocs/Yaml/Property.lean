import GatewayDocs.Text.Utf8
import GatewayDocs.Text.Word
import GatewayDocs.Yaml.Lexer

/-! # Directives, anchors and tags

Directives stand before a document.  An anchor names a node, an alias stands for the node of
an anchor, and a tag tells the type of a node, either in full (`!<...>`) or by a handle and a
suffix (`!!int`, `!e!point`). -/

namespace GatewayDocs.Yaml
namespace Lex

/-- A character of the name of an anchor, a directive or a handle. -/
def isNameChar (c : Char) : Bool := Text.isAsciiAlnum c || c = '-' || c = '_'

/-- A character of a tag, except those that are escaped by a percent sign. -/
def isTagChar (c : Char) : Bool :=
  Text.isAsciiAlnum c || "-;/?:@&=+$,_.!~*'()[]%".toList.contains c

/-- The end of a directive's word: the end of a line or of the text, or a space. -/
def expectSpace (context : String) (first : Mark) (problem : String) : Lex Unit := do
  let c ← next
  if !isSpaceOrEnd c then
    fail (some context) (some first) (problem ++ ", but found " ++ quotedChar c)

/-- Passes over spaces. -/
def skipSpaces : Lex Unit := skipWhile (· = ' ')

/-- Passes over what remains of a line that may hold a comment. -/
def skipComment (context : String) (first : Mark) : Lex Unit := do
  skipSpaces
  if (← next) = '#' then skipWhile fun c => !isLineEnd c
  let c ← next
  if !isLineEnd c then
    fail (some context) (some first)
      ("expected a comment or a line break, but found " ++ quotedChar c)
  let _ ← lineBreak
  return ()

/-- Takes a name that may not be empty. -/
def takeName (context : String) (first : Mark) : Lex String := do
  let name ← takeWhile isNameChar
  if name.isEmpty then
    fail (some context) (some first)
      ("expected alphabetic or numeric character, but found " ++ quotedChar (← next))
  return String.ofList name

/-! ### Tags -/

/-- Takes a handle: an exclamation mark, or a name between two. -/
def takeHandle (kind : String) (first : Mark) : Lex String := do
  let context := "while scanning a " ++ kind
  let expected (c : Char) : String := "expected '!', but found " ++ quotedChar c
  let c ← next
  if c ≠ '!' then fail (some context) (some first) (expected c)
  let name := ((← get).rest.drop 1).takeWhile isNameChar
  if (← peek 1) = ' ' then return String.ofList (← take 1)
  let c ← peek (1 + name.length)
  if c ≠ '!' then
    forward (1 + name.length)
    fail (some context) (some first) (expected c)
  return String.ofList (← take (name.length + 2))

/-- Takes the bytes that follow percent signs. -/
def takeEscapes (kind : String) (first : Mark) : Nat → Lex (List UInt8)
  | 0 => return []
  | n + 1 => do
    if (← next) ≠ '%' then return []
    forward 1
    let context := "while scanning a " ++ kind
    for k in [0, 1] do
      let c ← peek k
      if !Decimal.isDigitOf 16 c then
        fail (some context) (some first)
          ("expected URI escape sequence of 2 hexadecimal numbers, but found " ++ quotedChar c)
    let code := Decimal.ofDigits 16 (← take 2)
    return UInt8.ofNat code :: (← takeEscapes kind first n)

/-- Takes the escaped characters of a tag. -/
def takeEscaped (kind : String) (first : Mark) : Lex (List Char) := do
  let place ← here
  let bytes ← takeEscapes kind first (← get).rest.length
  match Text.Utf8.fault? bytes, Text.decode? ⟨bytes.toArray⟩ with
  | none, some s => return s.toList
  | fault?, _ =>
    throw (.marked (some ("while scanning a " ++ kind)) (some first)
      ((fault?.map Text.Utf8.Fault.text).getD "") place)

/-- Takes the characters of a tag, with their escapes resolved. -/
def takeTagChars (kind : String) (first : Mark) : Nat → Lex (List Char)
  | 0 => return []
  | n + 1 => do
    let plain ← takeWhile fun c => isTagChar c && c ≠ '%'
    if (← next) = '%' then
      let escaped ← takeEscaped kind first
      return plain ++ escaped ++ (← takeTagChars kind first n)
    else return plain

/-- Takes the text of a tag, which may not be empty. -/
def takeTagText (kind : String) (first : Mark) : Lex String := do
  if !isTagChar (← next) then
    fail (some ("while parsing a " ++ kind)) (some first)
      ("expected URI, but found " ++ quotedChar (← next))
  return Units.ofChars (← takeTagChars kind first ((← get).rest.length + 1))

/-- Whether an exclamation mark comes later in the word of a tag. -/
def usesHandle (cs : List Char) : Bool :=
  ((cs.takeWhile fun c => !isSpaceOrEnd c).drop 1).contains '!'

/-- Reads a tag. -/
def readTag : Lex Unit := do
  let first ← here
  let c ← peek 1
  let (handle, suffix) ←
    if c = '<' then do
      forward 2
      let suffix ← takeTagText "tag" first
      let c ← next
      if c ≠ '>' then
        fail (some "while parsing a tag") (some first) ("expected '>', but found " ++ quotedChar c)
      forward 1
      pure (none, suffix)
    else if isBlankOrEnd c then do
      forward 1
      pure (none, "!")
    else if usesHandle (← get).rest then do
      let handle ← takeHandle "tag" first
      pure (some handle, ← takeTagText "tag" first)
    else do
      forward 1
      pure (some "!", ← takeTagText "tag" first)
  expectSpace "while scanning a tag" first "expected ' '"
  push ⟨.tag handle suffix, first, ← here⟩

/-! ### Anchors and aliases -/

/-- A character that may follow the name of an anchor or alias. -/
def endsAnchor (c : Char) : Bool := isBlankOrEnd c || "?:,]\x7d%@\x60".toList.contains c

/-- Reads an anchor or an alias. -/
def readAnchor (isAlias : Bool) : Lex Unit := do
  let first ← here
  let context := "while scanning an " ++ (if isAlias then "alias" else "anchor")
  forward 1
  let name ← takeName context first
  let c ← next
  if !endsAnchor c then
    fail (some context) (some first)
      ("expected alphabetic or numeric character, but found " ++ quotedChar c)
  push ⟨if isAlias then .aliasOf name else .anchor name, first, ← here⟩

/-! ### Directives -/

/-- The context of a problem in a directive. -/
def inDirective : String := "while scanning a directive"

/-- Takes a number of a version. -/
def takeVersionNumber (first : Mark) : Lex Nat := do
  let digits ← takeWhile Decimal.isDigit
  if digits.isEmpty then
    fail (some inDirective) (some first)
      ("expected a digit, but found " ++ quotedChar (← next))
  if Decimal.digitLimit < digits.length then
    throw (.scalar (.longNumeral digits.length))
  return Decimal.ofDigits 10 digits

/-- Takes the version of a `%YAML` directive. -/
def takeVersion (first : Mark) : Lex TokenKind := do
  skipSpaces
  let major ← takeVersionNumber first
  let c ← next
  if c ≠ '.' then
    fail (some inDirective) (some first)
      ("expected a digit or '.', but found " ++ quotedChar c)
  forward 1
  let minor ← takeVersionNumber first
  expectSpace inDirective first "expected a digit or ' '"
  return .yamlDirective major minor

/-- Takes the handle of a `%TAG` directive and what it stands for. -/
def takeTagRule (first : Mark) : Lex TokenKind := do
  skipSpaces
  let handle ← takeHandle "directive" first
  let c ← next
  if c ≠ ' ' then
    fail (some inDirective) (some first) ("expected ' ', but found " ++ quotedChar c)
  skipSpaces
  let start ← takeTagText "directive" first
  expectSpace inDirective first "expected ' '"
  return .tagDirective handle start

/-- Reads a directive and the rest of its line. -/
def readDirective : Lex Unit := do
  let first ← here
  forward 1
  let name ← takeName inDirective first
  expectSpace inDirective first "expected alphabetic or numeric character"
  let kind ←
    if name = "YAML" then takeVersion first
    else if name = "TAG" then takeTagRule first
    else pure .otherDirective
  let last ← here
  if !(name = "YAML" || name = "TAG") then skipWhile fun c => !isLineEnd c
  skipComment inDirective first
  push ⟨kind, first, last⟩

end Lex
end GatewayDocs.Yaml

import GatewayDocs.Decimal.Digits
import GatewayDocs.Text.Printable
import GatewayDocs.Text.Units

/-! # Quoted text

Names in messages are quoted so that they can be read on one line: in single quotes, or in
double quotes if the text has a single quote and no double one.  The quote in use, the
backslash and code points that are not printable are escaped, and so are units that stand
alone. -/

namespace GatewayDocs.Text

/-- The apostrophe. -/
def apostrophe : Char := '\x27'

/-- The double quotation mark. -/
def doubleQuote : Char := '\x22'

/-- The quotation mark that a text is put in. -/
def quoteFor (cs : List Char) : Char :=
  if cs.contains apostrophe && !cs.contains doubleQuote then doubleQuote else apostrophe

/-- The escape of a code, in the shortest of three widths. -/
def escapeCode (n : Nat) : List Char :=
  if n < 0x100 then ['\\', 'x'] ++ Decimal.hexDigits 2 n
  else if n < 0x10000 then ['\\', 'u'] ++ Decimal.hexDigits 4 n
  else ['\\', 'U'] ++ Decimal.hexDigits 8 n

/-- How a character is written between quotation marks. -/
def quoteChar (quote c : Char) : List Char :=
  if c = quote || c = '\\' then ['\\', c]
  else if c = '\n' then ['\\', 'n']
  else if c = '\r' then ['\\', 'r']
  else if c = '\t' then ['\\', 't']
  else if isPrintable c then [c]
  else escapeCode c.toNat

/-- How a code point or a unit is written between quotation marks. -/
def quoteCode (quote : Char) (n : Nat) : List Char :=
  if Units.isUnit n then escapeCode n else quoteChar quote (Char.ofNat n)

/-- A text in quotation marks. -/
def quoted (s : String) : String :=
  let cs := s.toList
  let quote := quoteFor cs
  String.ofList (quote :: (Units.codes cs).flatMap (quoteCode quote) ++ [quote])

end GatewayDocs.Text

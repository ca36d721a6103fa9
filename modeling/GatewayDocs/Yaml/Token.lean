import GatewayDocs.Yaml.Mark

/-! # Tokens of YAML

The tokens of a YAML text: indicators, the starts and ends of blocks that indentation
shows, and scalars.  A token knows where it starts and ends; messages name it by its
kind. -/

namespace GatewayDocs.Yaml

/-- What a token is. -/
inductive TokenKind where
  | streamStart
  | streamEnd
  | yamlDirective (major minor : Nat)
  | tagDirective (handle start : String)
  | otherDirective
  | documentStart
  | documentEnd
  | blockSequenceStart
  | blockMappingStart
  | blockEnd
  | flowSequenceStart
  | flowSequenceEnd
  | flowMappingStart
  | flowMappingEnd
  | key
  | value
  | blockEntry
  | flowEntry
  | aliasOf (name : String)
  | anchor (name : String)
  | tag (handle : Option String) (suffix : String)
  | scalar (text : String) (plain : Bool)

namespace TokenKind

/-- The name of a kind of tokens. -/
def name : TokenKind → String
  | streamStart => "<stream start>"
  | streamEnd => "<stream end>"
  | yamlDirective .. => "<directive>"
  | tagDirective .. => "<directive>"
  | otherDirective => "<directive>"
  | documentStart => "<document start>"
  | documentEnd => "<document end>"
  | blockSequenceStart => "<block sequence start>"
  | blockMappingStart => "<block mapping start>"
  | blockEnd => "<block end>"
  | flowSequenceStart => "["
  | flowSequenceEnd => "]"
  | flowMappingStart => "\x7b"
  | flowMappingEnd => "\x7d"
  | key => "?"
  | value => ":"
  | blockEntry => "-"
  | flowEntry => ","
  | aliasOf _ => "<alias>"
  | anchor _ => "<anchor>"
  | tag .. => "<tag>"
  | scalar .. => "<scalar>"

/-- Whether two tokens are of the same kind, whatever they carry. -/
def like (a b : TokenKind) : Bool := a.name = b.name

end TokenKind

/-- A token with its place. -/
structure Token where
  kind : TokenKind
  first : Mark
  last : Mark

end GatewayDocs.Yaml

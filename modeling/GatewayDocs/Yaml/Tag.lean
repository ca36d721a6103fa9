import GatewayDocs.Yaml.Scalar.Number
import GatewayDocs.Yaml.Scalar.Timestamp

/-! # Tags

A tag tells what a node is.  The tags of YAML's own types have a common start
(`Tag.standard`); a scalar without a tag may get the one that its form tells
(`Tag.ofPlain`). -/

namespace GatewayDocs.Yaml

/-- What a node is. -/
inductive Tag where
  | null
  | bool
  | int
  | float
  | str
  | binary
  | timestamp
  | seq
  | map
  | omap
  | pairs
  | set
  | merge
  | value
  | other (name : String)
deriving DecidableEq

namespace Tag

/-- The start of the tags of YAML's own types. -/
def standard : String := "tag:yaml.org,2002:"

/-- The tags of YAML's own types, with their names. -/
def known : List (String × Tag) :=
  [("null", null), ("bool", bool), ("int", int), ("float", float), ("str", str),
    ("binary", binary), ("timestamp", timestamp), ("seq", seq), ("map", map), ("omap", omap),
    ("pairs", pairs), ("set", set), ("merge", merge), ("value", value)]

/-- The tag of a full name. -/
def ofName (name : String) : Tag :=
  let row? := known.find? fun row => standard ++ row.1 = name
  (row?.map (·.2)).getD (other name)

/-- The full name of a tag. -/
def name (t : Tag) : String :=
  match t with
  | other s => s
  | _ => standard ++ ((known.find? fun row => row.2 = t).map (·.1)).getD ""

/-- The words for true, with a capital and in capitals too. -/
def trueWords : List String :=
  ["yes", "Yes", "YES", "true", "True", "TRUE", "on", "On", "ON"]

/-- The words for false, with a capital and in capitals too. -/
def falseWords : List String :=
  ["no", "No", "NO", "false", "False", "FALSE", "off", "Off", "OFF"]

/-- The words for the absent value. -/
def nullWords : List String := ["", "~", "null", "Null", "NULL"]

/-- The tag that the form of a text tells. -/
def ofForm (s : String) : Tag :=
  if trueWords.contains s || falseWords.contains s then bool
  else if nullWords.contains s then null
  else if Number.isFloat s.toList then float
  else if Number.isInteger s.toList then int
  else if Timestamp.isTimestamp s.toList then timestamp
  else if s = "<<" then merge
  else if s = "=" then value
  else if s = "!" || s = "&" || s = "*" then other (standard ++ "yaml")
  else str

/-- The tag that the form of a scalar tells; a line feed at its end does not count. -/
def ofPlain (s : String) : Tag :=
  if s = "\n" then str else ofForm (String.ofList (Text.chomp s.toList))

end Tag
end GatewayDocs.Yaml

import GatewayDocs.Text.Case
import GatewayDocs.Text.Utf8

/-! # Paths

A path is a root, which relative paths do not have, and the names on the way
(`Path.parts`).  Empty names and single points are left out, two points are kept. -/

namespace GatewayDocs

/-- A path of a file or directory. -/
structure Path where
  root : String
  parts : List String
deriving DecidableEq

namespace Path

/-- The names between strokes, empty ones too. -/
def splitNames : List Char → List (List Char)
  | [] => [[]]
  | '/' :: rest => [] :: splitNames rest
  | c :: rest =>
    match splitNames rest with
    | name :: names => (c :: name) :: names
    | [] => [[c]]

/-- Whether a name is left out. -/
def isIdle (name : List Char) : Bool := name.isEmpty || name = ['.']

/-- The root of a path: one stroke, or exactly two. -/
def rootOf (cs : List Char) : String :=
  match (cs.takeWhile (· = '/')).length with
  | 0 => ""
  | 2 => "//"
  | _ => "/"

/-- The path that a text names. -/
def ofText (s : String) : Path :=
  let cs := s.toList
  ⟨rootOf cs, ((splitNames cs).filter fun n => !isIdle n).map String.ofList⟩

/-- The text of a path; a path without names is a point. -/
def text (p : Path) : String :=
  if p.root = "" && p.parts.isEmpty then "." else p.root ++ "/".intercalate p.parts

/-- The last name of a path. -/
def name (p : Path) : String := p.parts.getLast?.getD ""

/-- The path of the directory that a path is in. -/
def parent (p : Path) : Path := { p with parts := p.parts.dropLast }

/-- The part of the last name from its last point on, unless that is the first or the last
character. -/
def suffix (p : Path) : String :=
  let reversed := p.name.toList.reverse
  let after := reversed.takeWhile (· ≠ '.')
  let before := reversed.dropWhile (· ≠ '.')
  if after.isEmpty || before.length ≤ 1 then "" else String.ofList ('.' :: after.reverse)

/-! ### As bytes -/

/-- Whether a code of a path has no bytes.  A unit that stands for a byte that is not of
ASCII has that byte. -/
def isForeign (n : Nat) : Bool := Units.isUnit n && !(0xdc80 ≤ n && n ≤ 0xdcff)

/-- The number of bytes of a name. -/
def byteLength (name : String) : Nat := Text.byteSize name.toList

/-- The greatest number of bytes of a name. -/
def nameLimit : Nat := 255

/-- The number of bytes that no path reaches. -/
def pathLimit : Nat := 4096

end Path
end GatewayDocs

import GatewayDocs.Value.Failure
import GatewayDocs.Value.Order

/-! # JSON texts

`Json.escape` writes a text code by code, what is not in ASCII as escapes of sixteen-bit
units.  `Json.render` lays out a value as a `Layout` says; `Value.sorted` puts
the keys of every object in order first, where a canonical text is wanted.

Some values have no text: those that hold something JSON has no form for, that contain
themselves or, where keys are sorted, that have keys of different kinds.  `Json.obstacle?`
finds the first reason, and `Json.write` fails with it. -/

namespace GatewayDocs

namespace Atom

/-- An atom as a key of a JSON object, if it has that form. -/
def keyText? : Atom → Option String
  | .null => some "null"
  | .bool b => some (if b then "true" else "false")
  | .int n => some (Decimal.intText n)
  | .float x => some (Decimal.floatText "NaN" "Infinity" x)
  | .str s => some s
  | .stamp _ => none
  | .bytes _ => none

end Atom

namespace Value

mutual

/-- A value with the keys of every object in order. -/
def sorted : Value → Value
  | .atom a => .atom a
  | .list items => .list (sortedItems items)
  | .tuple items => .tuple (sortedItems items)
  | .set members => .set members
  | .object fields => .object ((sortedFields fields).mergeSort fun x y => x.1.le y.1)
  | .shared l v => .shared l (sorted v)
  | .knot l v => .knot l (sorted v)
  | .again l => .again l

/-- Items with the keys of every object in order. -/
def sortedItems : List Value → List Value
  | [] => []
  | v :: rest => sorted v :: sortedItems rest

/-- Pairs with the keys of every object in their values in order. -/
def sortedFields : List (Atom × Value) → List (Atom × Value)
  | [] => []
  | (k, v) :: rest => (k, sorted v) :: sortedFields rest

end

end Value

namespace Json

/-- How a value is laid out: what stands between items and after a key, and by how many
blanks a level is indented on lines of its own. -/
structure Layout where
  item : String
  key : String
  indent : Option Nat

/-- The layout without any blanks. -/
def compact : Layout := ⟨",", ":", none⟩

/-- The layout on one line with a blank after each mark. -/
def spaced : Layout := ⟨", ", ": ", none⟩

/-- The layout on lines indented by two. -/
def indented : Layout := ⟨",", ": ", some 2⟩

/-- The escape of a sixteen-bit unit. -/
def escapeUnit (n : Nat) : List Char := '\\' :: 'u' :: Decimal.hexDigits 4 n

/-- How a code point or a unit that stands alone is written inside a JSON string. -/
def escapeCode (n : Nat) : List Char :=
  if n = Text.doubleQuote.toNat then ['\\', Text.doubleQuote]
  else if n = '\\'.toNat then ['\\', '\\']
  else if n = '\n'.toNat then ['\\', 'n']
  else if n = '\r'.toNat then ['\\', 'r']
  else if n = '\t'.toNat then ['\\', 't']
  else if n = 0xc then ['\\', 'f']
  else if n = 0x8 then ['\\', 'b']
  else if 0x20 ≤ n && n ≤ 0x7e then [Char.ofNat n]
  else if n < 0x10000 then escapeUnit n
  else escapeUnit (Units.first n) ++ escapeUnit (Units.second n)

/-- A text as a JSON string. -/
def escape (s : String) : List Char :=
  Text.doubleQuote :: (Units.codes s.toList).flatMap escapeCode ++ [Text.doubleQuote]

/-- An atom as JSON. -/
def renderAtom : Atom → List Char
  | .str s => escape s
  | a => (a.keyText?.getD "").toList

/-- A key as JSON. -/
def renderKey (a : Atom) : List Char := escape (a.keyText?.getD "")

/-- The break before a part at a depth, if parts stand on lines of their own. -/
def lineBreak (layout : Layout) (depth : Nat) : List Char :=
  match layout.indent with
  | none => []
  | some n => '\n' :: List.replicate (n * depth) ' '

/-- Parts between brackets, at a depth. -/
def bracket (layout : Layout) (depth : Nat) (opening closing : Char)
    (parts : List (List Char)) : List Char :=
  if parts.isEmpty then [opening, closing]
  else
    let inner := lineBreak layout (depth + 1)
    opening :: inner ++ (layout.item.toList ++ inner).intercalate parts ++
      lineBreak layout depth ++ [closing]

mutual

/-- A value as JSON, at a depth. -/
def renderAt (layout : Layout) (depth : Nat) : Value → List Char
  | .atom a => renderAtom a
  | .list items => bracket layout depth '[' ']' (renderItems layout (depth + 1) items)
  | .tuple items => bracket layout depth '[' ']' (renderItems layout (depth + 1) items)
  | .object fields =>
    bracket layout depth '\x7b' '\x7d' (renderFields layout (depth + 1) fields)
  | .shared _ v => renderAt layout depth v
  | .knot _ v => renderAt layout depth v
  | .set _ => []
  | .again _ => []

/-- The items of a list as JSON. -/
def renderItems (layout : Layout) (depth : Nat) : List Value → List (List Char)
  | [] => []
  | v :: rest => renderAt layout depth v :: renderItems layout depth rest

/-- The pairs of an object as JSON. -/
def renderFields (layout : Layout) (depth : Nat) : List (Atom × Value) → List (List Char)
  | [] => []
  | (k, v) :: rest =>
    (renderKey k ++ layout.key.toList ++ renderAt layout depth v) ::
      renderFields layout depth rest

end

/-- A value as JSON. -/
def render (layout : Layout) (v : Value) : String := String.ofList (renderAt layout 0 v)

section Obstacles
variable (limit : Decimal.DigitLimit) (ordered : Bool)

/-- Why an atom has no JSON text, if it has none. -/
def obstacleOf? (a : Atom) : Option Failure :=
  if a.keyText?.isNone then some .badShape
  else if a.isWritable limit then none else some .longInteger

mutual

/-- The first reason why a value has no JSON text, if there is one, at a place inside of some
labels; `ordered` says whether keys are put in order. -/
def obstacleIn? (around : List Nat) : Value → Option Failure
  | .atom a => obstacleOf? limit a
  | .list items => obstacleInItems? around items
  | .tuple items => obstacleInItems? around items
  | .set _ => some .badShape
  | .object fields =>
    if ordered && !Atom.sortable (fields.map (·.1)) then some .badShape
    else obstacleInFields? around fields
  | .shared _ v => obstacleIn? around v
  | .knot l v =>
    if around.contains l then some .circular else obstacleIn? (l :: around) v
  | .again _ => some .circular

/-- The first reason why an item has no JSON text. -/
def obstacleInItems? (around : List Nat) : List Value → Option Failure
  | [] => none
  | v :: rest => (obstacleIn? around v).or (obstacleInItems? around rest)

/-- The first reason why a pair has no JSON text. -/
def obstacleInFields? (around : List Nat) : List (Atom × Value) → Option Failure
  | [] => none
  | (k, v) :: rest =>
    ((obstacleOf? limit k).or (obstacleIn? around v)).or (obstacleInFields? around rest)

end

/-- The first reason why a value has no JSON text, if there is one. -/
def obstacle? (v : Value) : Option Failure := obstacleIn? limit ordered [] v

end Obstacles

/-- The JSON text of a value with its keys in the order they have. -/
def write (layout : Layout) (v : Value) (limit : Decimal.DigitLimit := Decimal.usualLimit) :
    Result String :=
  match obstacle? limit false v with
  | none => .ok (render layout v)
  | some f => .error f

/-- The JSON text of a value with its keys sorted. -/
def writeSorted (layout : Layout) (v : Value) : Result String :=
  match obstacle? Decimal.usualLimit true v.sorted with
  | none => .ok (render layout v.sorted)
  | some f => .error f

end Json
end GatewayDocs

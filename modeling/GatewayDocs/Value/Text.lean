import GatewayDocs.Text.Quoted
import GatewayDocs.Value.Basic

/-! # Values as text

`Value.spelled` is the text of a value where a name or a version is wanted: a text is itself,
any other atom its usual spelling, a list, set or object its parts in brackets.  Texts inside
of brackets are quoted (`Value.quoted`); where a value comes again inside of itself, points
stand between its brackets.

A value with an integer of too many digits has no text (`Value.isWritable`). -/

namespace GatewayDocs

namespace Atom

/-- How a byte is written in a quoted run of bytes. -/
def quoteByte (quote : Char) (b : UInt8) : List Char :=
  let c := Char.ofNat b.toNat
  if c = quote || c = '\\' then ['\\', c]
  else if c = '\n' then ['\\', 'n']
  else if c = '\r' then ['\\', 'r']
  else if c = '\t' then ['\\', 't']
  else if 0x20 ≤ b.toNat && b.toNat < 0x7f then [c]
  else ['\\', 'x'] ++ Decimal.hexDigits 2 b.toNat

/-- A run of bytes in quotation marks. -/
def quotedBytes (bs : List UInt8) : String :=
  let quote := Text.quoteFor (bs.map fun b => Char.ofNat b.toNat)
  String.ofList ('b' :: quote :: bs.flatMap (quoteByte quote) ++ [quote])

/-- An atom inside a list or object, or as a name in a message. -/
def quoted : Atom → String
  | .null => "None"
  | .bool b => if b then "True" else "False"
  | .int n => Decimal.intText n
  | .float x => Decimal.floatText "nan" "inf" x
  | .str s => Text.quoted s
  | .stamp t => t.quoted
  | .bytes bs => quotedBytes bs

/-- An atom as text; a text is itself. -/
def spelled : Atom → String
  | .str s => s
  | .stamp t => t.text
  | a => a.quoted

/-- Whether an atom has a text: an integer may not have too many digits. -/
def isWritable (a : Atom) (limit : Decimal.DigitLimit := Decimal.usualLimit) : Bool :=
  match a with
  | .int n => Decimal.isWritable n limit
  | _ => true

end Atom

namespace Value

/-- Parts between an opening and a closing bracket. -/
def between (opening closing : String) (parts : List String) : String :=
  opening ++ ", ".intercalate parts ++ closing

/-- The labels around a place, each with what is written where it comes again. -/
abbrev Around := List (Nat × String)

/-- What is written where a value comes again inside of itself. -/
def points : Value → String
  | .object _ => "\x7b...\x7d"
  | _ => "[...]"

mutual

/-- A value inside a list or object, at a place inside of some labels. -/
def quotedIn (around : Around) : Value → String
  | .atom a => a.quoted
  | .list items => between "[" "]" (quotedItems around items)
  | .tuple [v] => "(" ++ quotedIn around v ++ ",)"
  | .tuple items => between "(" ")" (quotedItems around items)
  | .set [] => "set()"
  | .set members => between "\x7b" "\x7d" (members.map Atom.quoted)
  | .object fields => between "\x7b" "\x7d" (quotedFields around fields)
  | .shared _ v => quotedIn around v
  | .knot l v =>
    match around.lookup l with
    | some written => written
    | none => quotedIn ((l, points v) :: around) v
  | .again l => (around.lookup l).getD (points (.again l))

/-- The quoted items of a list. -/
def quotedItems (around : Around) : List Value → List String
  | [] => []
  | v :: rest => quotedIn around v :: quotedItems around rest

/-- The quoted pairs of an object. -/
def quotedFields (around : Around) : List (Atom × Value) → List String
  | [] => []
  | (k, v) :: rest => (k.quoted ++ ": " ++ quotedIn around v) :: quotedFields around rest

end

/-- A value inside a list or object, or as it is named in a message. -/
def quoted (v : Value) : String := quotedIn [] v

/-- A value as text; a text is itself. -/
def spelled : Value → String
  | .atom a => a.spelled
  | v => v.quoted

mutual

/-- Whether a value has a text. -/
def isWritable : Value → Bool
  | .atom a => a.isWritable
  | .list items => areWritable items
  | .tuple items => areWritable items
  | .set members => members.all Atom.isWritable
  | .object fields => areWritableFields fields
  | .shared _ v => isWritable v
  | .knot _ v => isWritable v
  | .again _ => true

/-- Whether all items of a list have a text. -/
def areWritable : List Value → Bool
  | [] => true
  | v :: rest => isWritable v && areWritable rest

/-- Whether all pairs of an object have a text. -/
def areWritableFields : List (Atom × Value) → Bool
  | [] => true
  | (k, v) :: rest => k.isWritable && isWritable v && areWritableFields rest

end

end Value
end GatewayDocs

import GatewayDocs.Value.Failure

/-! # Places in values

A place in a value is told by the steps on the way to it.  `Value.at?` looks at what is
there and `Value.change` changes it; the labels on the way stay.

A value that stands in several places is one value: what is changed at one of its places is
changed at all of them.  A change below a label concerns the innermost label on the way
(`Value.labelOn?`), and `Value.relabel` carries it to the other places of that label. -/

namespace GatewayDocs.Value

/-- Changes a value inside of its label; a knot loses its label. -/
def inside (f : Value → Value) : Value → Value
  | .shared l v => .shared l (f v)
  | v => f v.bare

/-- The part of a value that a step leads to. -/
def part? (v : Value) (step : Step) : Option Value :=
  match v.bare, step with
  | .object fields, .key k => Pairs.lookup k fields
  | .list items, .index i => items[i]?
  | _, _ => none

/-- Writes a part of a value without a label. -/
def putPart (v : Value) (step : Step) (part : Value) : Value :=
  match v, step with
  | .object fields, .key k => .object (Pairs.put k part fields)
  | .list items, .index i => .list (items.set i part)
  | v, _ => v

/-- The value at a place. -/
def at? : List Step → Value → Option Value
  | [], v => some v
  | step :: rest, v => (v.part? step).bind (at? rest)

/-- Changes the value at a place. -/
def change (f : Value → Value) : List Step → Value → Value
  | [], v => v.inside f
  | step :: rest, v => v.inside fun w =>
    match w.part? step with
    | some part => w.putPart step (change f rest part)
    | none => w

/-- The label of a value that stands in several places, with what it is there. -/
def label? : Value → Option (Nat × Value)
  | .shared l v => some (l, v)
  | _ => none

/-- The innermost label on the way to a place, with what it is on. -/
def labelOn? : List Step → Value → Option (Nat × Value)
  | [], v => v.label?
  | step :: rest, v => ((v.part? step).bind (labelOn? rest)).or v.label?

mutual

/-- Puts a content in all places of a label. -/
def relabel (label : Nat) (content : Value) : Value → Value
  | .shared l v => .shared l (if l = label then content else relabel label content v)
  | .knot l v => .knot l (relabel label content v)
  | .again l => .again l
  | .list items => .list (relabelItems label content items)
  | .tuple items => .tuple (relabelItems label content items)
  | .object fields => .object (relabelFields label content fields)
  | .atom a => .atom a
  | .set members => .set members

/-- Puts a content in all places of a label in some items. -/
def relabelItems (label : Nat) (content : Value) : List Value → List Value
  | [] => []
  | v :: rest => relabel label content v :: relabelItems label content rest

/-- Puts a content in all places of a label in some pairs. -/
def relabelFields (label : Nat) (content : Value) : List (Atom × Value) → List (Atom × Value)
  | [] => []
  | (k, v) :: rest => (k, relabel label content v) :: relabelFields label content rest

end

mutual

/-- A value without the labels of values that stand in several places: each of its places has
a value of its own. -/
def copied : Value → Value
  | .shared _ v => copied v
  | .knot l v => .knot l (copied v)
  | .again l => .again l
  | .list items => .list (copiedItems items)
  | .tuple items => .tuple (copiedItems items)
  | .object fields => .object (copiedFields fields)
  | .atom a => .atom a
  | .set members => .set members

/-- Items without the labels of values that stand in several places. -/
def copiedItems : List Value → List Value
  | [] => []
  | v :: rest => copied v :: copiedItems rest

/-- Pairs without the labels of values that stand in several places. -/
def copiedFields : List (Atom × Value) → List (Atom × Value)
  | [] => []
  | (k, v) :: rest => (k, copied v) :: copiedFields rest

end

end GatewayDocs.Value

import GatewayDocs.Text.Units
import GatewayDocs.Value.Basic

/-! # The order of keys

Keys of one kind can be put in order (`Atom.le`): texts by the codes of their characters,
numbers by magnitude.  Keys of different kinds cannot (`Atom.sortable`).  Whole numbers are in
order in a set too (`Atom.asMembers`).

Two lists of keys are the same in order (`Atom.sameInOrder`) if one is a rearrangement of the
other, except if a key is a floating-point value that is not a number. -/

namespace GatewayDocs.Atom

/-- The kinds of atoms of which each can be put in order. -/
inductive Kind where
  | absent
  | number
  | text
  | date
  | clock
  | instant
  | bytes
deriving DecidableEq

/-- The kind of an atom; times of day with an offset are of another kind than those
without. -/
def kind : Atom → Kind
  | .null => .absent
  | .bool _ => .number
  | .int _ => .number
  | .float _ => .number
  | .str _ => .text
  | .stamp t =>
    match t.time with
    | none => .date
    | some time => if time.offset.isSome then .instant else .clock
  | .bytes _ => .bytes

/-- An atom as a double, for comparing numbers. -/
def toFloat : Atom → Float
  | .bool b => if b then 1.0 else 0.0
  | .int n => Decimal.ofParts n.natAbs 0 * (if n < 0 then -1.0 else 1.0)
  | .float x => x
  | _ => 0.0

/-- The order of keys: texts by their characters, numbers by magnitude. -/
def le (a b : Atom) : Bool :=
  match a, b with
  | .str s, .str t => Units.le s t
  | _, _ =>
    match a.whole?, b.whole? with
    | some m, some n => m ≤ n
    | _, _ => a.toFloat ≤ b.toFloat

/-- Whether keys can be put in order: all are of one kind, or there is only one. -/
def sortable : List Atom → Bool
  | [] => true
  | [_] => true
  | k :: rest => k.kind ≠ .absent && rest.all fun l => l.kind = k.kind

/-- The order in which a set shows its members: whole numbers by size, others as they were
put in. -/
def asMembers (atoms : List Atom) : List Atom :=
  if atoms.all fun a => a.whole?.isSome then atoms.mergeSort le else atoms

/-! ### Numbers among which one is none

What is not a number comes neither before nor after any number, so where it ends up in an order
depends on where the numbers stood before. -/

/-- Whether a number comes before another one. -/
def before (a b : Atom) : Bool :=
  match a.whole?, b.whole? with
  | some m, some n => m < n
  | _, _ => a.toFloat < b.toFloat

/-- The place for a number among numbers in order, found by halving the places between two. -/
def placeIn (sorted : List Atom) (a : Atom) (low high : Nat) : Nat :=
  if low < high then
    let middle := (low + high) / 2
    if sorted[middle]?.any a.before then placeIn sorted a low middle
    else placeIn sorted a (middle + 1) high
  else low
termination_by high - low

/-- Puts a number at its place among numbers in order. -/
def insertInto (sorted : List Atom) (a : Atom) : List Atom :=
  sorted.insertIdx (placeIn sorted a 0 sorted.length) a

/-- Splits numbers where, for the first time, one comes before the one in front of it. -/
def splitRun : List Atom → List Atom × List Atom
  | a :: b :: rest =>
    if b.before a then ([a], b :: rest)
    else
      let (run, others) := splitRun (b :: rest)
      (a :: run, others)
  | atoms => (atoms, [])

/-- Puts numbers in order: those that are in order at the front stay so, the others are put at
their places one after the other. -/
def inOrder (atoms : List Atom) : List Atom :=
  let (run, others) := splitRun atoms
  others.foldl insertInto run

/-- Whether keys of one kind are the same as others once both are put in order. -/
def sameInOrder (ks ls : List Atom) : Bool :=
  if ks.any isNaN || ls.any isNaN then (inOrder ks).isEqv (inOrder ls) same else ks.isPerm ls

end GatewayDocs.Atom

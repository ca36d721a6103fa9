import GatewayDocs.Value.Basic

/-! # Tables of cells

A table of cells holds collections whose parts are atoms or numbers of other cells.
`Cells.toValue` unfolds it to the value of one cell: a cell that is a part of several
collections, or of one several times, is a value with a label there, and a cell that is a part
of itself is a knot. -/

namespace GatewayDocs.Yaml

/-- A part of a collection: an atom, or the number of a cell. -/
inductive Item where
  | atom (a : Atom)
  | cell (number : Nat)

namespace Item

/-- The number of a cell that is a part. -/
def number? : Item → Option Nat
  | atom _ => none
  | cell n => some n

end Item

/-- A collection, part by part. -/
inductive Cell where
  | list (items : List Item)
  | tuples (pairs : List (Item × Item))
  | set (members : List Atom)
  | object (fields : List (Atom × Item))

namespace Cell

/-- The parts of a collection that are cells. -/
def parts : Cell → List Nat
  | list items => items.filterMap Item.number?
  | tuples pairs => pairs.flatMap fun p => p.1.number?.toList ++ p.2.number?.toList
  | set _ => []
  | object fields => fields.filterMap fun kv => kv.2.number?

end Cell

/-- Cells by number. -/
abbrev Cells := Array Cell

namespace Cells

/-- The parts of a cell that are cells. -/
def partsOf (cells : Cells) (number : Nat) : List Nat :=
  ((cells[number]?).map Cell.parts).getD []

/-- How often each cell is a part of one. -/
def counts (cells : Cells) : Array Nat :=
  cells.foldl (fun counts cell => cell.parts.foldl (fun counts n => counts.modify n (· + 1)) counts)
    (Array.replicate cells.size 0)

/-- Marks the cells that are found from some numbers on, at most so many steps away. -/
def reach (cells : Cells) : Nat → Array Bool → List Nat → Array Bool
  | 0, seen, _ => seen
  | _ + 1, seen, [] => seen
  | steps + 1, seen, n :: rest =>
    if seen.getD n true then reach cells steps seen rest
    else reach cells steps (seen.setIfInBounds n true) (partsOf cells n ++ rest)

/-- The number of cells and parts. -/
def extent (cells : Cells) : Nat := cells.foldl (fun n cell => n + cell.parts.length + 1) 1

/-- Whether a cell is a part of itself, directly or through others. -/
def isOnCycle (cells : Cells) (number : Nat) : Bool :=
  let seen := Array.replicate cells.size false
  (reach cells (extent cells) seen (partsOf cells number)).getD number false

/-- The cells that are parts of themselves.  There are none unless a cell that is found twice,
or the outermost one, is on a cycle. -/
def knots (cells : Cells) (root : Nat) : List Nat :=
  let counts := counts cells
  let all := List.range cells.size
  let entries := all.filter fun n => 2 ≤ counts.getD n 0 || (n = root && 1 ≤ counts.getD n 0)
  if entries.any (isOnCycle cells) then all.filter (isOnCycle cells) else []

/-- What is known of a table of cells while it is unfolded. -/
structure Plan where
  cells : Cells
  counts : Array Nat
  knots : List Nat

/-- The values of cells that are found already. -/
abbrev Known := Array (Option Value)

mutual

/-- Unfolds a cell inside of some knots. -/
def unfold (plan : Plan) : Nat → List Nat → Nat → StateM Known Value
  | 0, _, _ => return .null
  | steps + 1, around, number => do
    if around.contains number then return .again number
    match (← get).getD number none with
    | some value => return value
    | none =>
      let isKnot := plan.knots.contains number
      let cell := plan.cells.getD number (.list [])
      let inside := if isKnot then number :: around else around
      let content ← unfoldCell plan steps inside cell
      let value : Value :=
        if isKnot then .knot number content
        else if 2 ≤ plan.counts.getD number 0 then .shared number content
        else content
      if !isKnot then modify fun known => known.setIfInBounds number (some value)
      return value

/-- Unfolds the parts of a cell. -/
def unfoldCell (plan : Plan) : Nat → List Nat → Cell → StateM Known Value
  | 0, _, _ => return .null
  | steps + 1, around, cell => do
    let part (item : Item) : StateM Known Value :=
      match item with
      | .atom a => return .atom a
      | .cell n => unfold plan steps around n
    match cell with
    | .list items => return .list (← items.mapM part)
    | .tuples pairs =>
      return .list (← pairs.mapM fun p => return .tuple [← part p.1, ← part p.2])
    | .set members => return .set members
    | .object fields => return .object (← fields.mapM fun kv => return (kv.1, ← part kv.2))

end

/-- The value of the outermost cell of a table. -/
def toValue (cells : Cells) (root : Nat) : Value :=
  let plan := ⟨cells, counts cells, knots cells root⟩
  (unfold plan (2 * cells.size + 2) [] root |>.run (Array.replicate cells.size none)).1

end Cells
end GatewayDocs.Yaml
